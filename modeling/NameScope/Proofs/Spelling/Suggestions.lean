import NameScope.Proofs.Spelling.Ranking

/-
  Suggestions step by step.  Candidates are sorted with their repetitions, and these are dropped
  while names are taken; the result is what comes of dropping them first: keep the first occurrence
  of each candidate, keep what is near, sort by distance, and take as many as the limit says
  (`nearest_dedup_sort_take`).

  A list that is sorted by a key is known when the elements of every key are known in their order
  (`eq_of_ordered_of_ties`).  A stable sort keeps this order, and so does dropping repetitions, as
  an element has the key of its repetitions.
-/

namespace NameScope.Spelling

/-! ## Dropping repetitions -/

section Deduplication

variable {α : Type} [DecidableEq α]

/-- It does not matter whether elements or repetitions are dropped first. -/
theorem filter_eraseDups (p : α → Bool) (l : List α) :
    l.eraseDups.filter p = (l.filter p).eraseDups := by
  match l with
  | [] => rfl
  | x :: l =>
    have ih := filter_eraseDups p (l.filter fun b => !b == x)
    rw [List.eraseDups_cons]
    by_cases hx : p x = true
    · rw [List.filter_cons_of_pos hx, List.filter_cons_of_pos hx, List.eraseDups_cons, ih,
        List.filter_filter, List.filter_filter]
      simp only [Bool.and_comm]
    · have hother : (l.filter fun b => !b == x).filter p = l.filter p := by
        rw [List.filter_filter]
        refine List.filter_congr ?_
        intro b _
        by_cases hb : p b = true
        · have hne : b ≠ x := fun e => hx (e ▸ hb)
          simp [hb, hne]
        · simp [hb]
      rw [List.filter_cons_of_neg hx, List.filter_cons_of_neg hx, ih, hother]
termination_by l.length
decreasing_by exact Nat.lt_succ_of_le (List.length_filter_le _ _)

theorem eraseDups_sublist (l : List α) : l.eraseDups.Sublist l := by
  match l with
  | [] => exact .slnil
  | x :: l =>
    have ih := eraseDups_sublist (l.filter fun b => !b == x)
    rw [List.eraseDups_cons]
    exact (ih.trans List.filter_sublist).cons_cons x
termination_by l.length
decreasing_by exact Nat.lt_succ_of_le (List.length_filter_le _ _)

/-- An element that has occurred before adds nothing. -/
theorem eraseDups_append_cons {before : List α} {x : α} (h : x ∈ before) (after : List α) :
    (before ++ x :: after).eraseDups = (before ++ after).eraseDups := by
  rw [List.eraseDups_append, List.eraseDups_append, List.cons_removeAll,
    if_neg (by simpa using h)]

end Deduplication

/-! ## Stable sorting -/

section SortByKey

variable {α : Type} {key : α → Nat}

/-- `sorted` is what a stable sort by `key` makes of `l`: the elements of `l` by ascending key, and
those of one key in the order in which they stand in `l`. -/
structure StablySorted (key : α → Nat) (l sorted : List α) : Prop where
  perm : sorted.Perm l
  ordered : sorted.Pairwise fun a b => key a ≤ key b
  ties : ∀ k, sorted.filter (key · = k) = l.filter (key · = k)

theorem stablySorted_mergeSort (key : α → Nat) (l : List α) :
    StablySorted key l (l.mergeSort fun a b => key a ≤ key b) :=
  ⟨List.mergeSort_perm _ _, pairwise_mergeSort_key key l, filter_mergeSort key l⟩

/-- The first of a list that is sorted by a key has the least key. -/
theorem key_head_le {a : α} {l : List α}
    (h : (a :: l).Pairwise fun a b => key a ≤ key b) {b : α} (hb : b ∈ a :: l) :
    key a ≤ key b := by
  rcases List.mem_cons.1 hb with rfl | hb
  · exact Nat.le_refl _
  · exact (List.pairwise_cons.1 h).1 b hb

theorem mem_of_ties {l l' : List α} (h : ∀ k, l.filter (key · = k) = l'.filter (key · = k)) {a : α}
    (ha : a ∈ l) : a ∈ l' := by
  have ha' : a ∈ l.filter (key · = key a) := List.mem_filter.2 ⟨ha, decide_eq_true rfl⟩
  rw [h] at ha'
  exact (List.mem_filter.1 ha').1

/-- Two lists that are sorted by a key are equal if for every key they have the same elements in
the same order. -/
theorem eq_of_ordered_of_ties {l l' : List α}
    (hl : l.Pairwise fun a b => key a ≤ key b) (hl' : l'.Pairwise fun a b => key a ≤ key b)
    (h : ∀ k, l.filter (key · = k) = l'.filter (key · = k)) : l = l' := by
  induction l generalizing l' with
  | nil =>
    refine (List.eq_nil_iff_forall_not_mem.2 fun a ha => ?_).symm
    exact List.not_mem_nil (mem_of_ties (fun k => (h k).symm) ha)
  | cons a l ih =>
    cases l' with
    | nil => exact absurd (mem_of_ties h List.mem_cons_self) List.not_mem_nil
    | cons b l' =>
      have hkey : key a = key b := by
        refine Nat.le_antisymm ?_ ?_
        · exact key_head_le hl (mem_of_ties (fun k => (h k).symm) List.mem_cons_self)
        · exact key_head_le hl' (mem_of_ties h List.mem_cons_self)
      have hhead : a = b := by
        have hties := h (key b)
        rw [List.filter_cons, List.filter_cons, if_pos (decide_eq_true hkey),
          if_pos (decide_eq_true rfl)] at hties
        exact (List.cons.inj hties).1
      subst hhead
      refine congrArg (a :: ·) (ih hl.of_cons hl'.of_cons fun k => ?_)
      have hties := h k
      rw [List.filter_cons, List.filter_cons] at hties
      by_cases ha : key a = k
      · rw [if_pos (decide_eq_true ha), if_pos (decide_eq_true ha)] at hties
        exact (List.cons.inj hties).2
      · rwa [if_neg (by simpa using ha), if_neg (by simpa using ha)] at hties

end SortByKey

/-! ## Suggestions -/

def distanceTo (target candidate : String) : Nat := distance target.toList candidate.toList

/-- The candidates at most three edits away from the target and other than it, each once and where
it occurs first. -/
def distinctNear (target : String) (candidates : List String) : List String :=
  candidates.eraseDups.filter fun c => c ≠ target ∧ distanceTo target c ≤ 3

/-- The near candidates sorted by their distance. -/
def distinctSorted (target : String) (candidates : List String) : List String :=
  (distinctNear target candidates).mergeSort fun m n => distanceTo target m ≤ distanceTo target n

/-- Repetitions may be dropped before sorting. -/
theorem ranking_eq_distinctSorted (target : String) (candidates : List String) :
    ranking target candidates = distinctSorted target candidates := by
  have hsort := stablySorted_mergeSort (distanceTo target)
  have hsorted : StablySorted (distanceTo target) (candidates.filter (IsNear target ·))
      (sorted target candidates) := hsort _
  have hnear : StablySorted (distanceTo target) (candidates.eraseDups.filter (IsNear target ·))
      (distinctSorted target candidates) := hsort _
  refine eq_of_ordered_of_ties (hsorted.ordered.sublist (eraseDups_sublist _)) hnear.ordered ?_
  intro k
  rw [hnear.ties, ranking, filter_eraseDups, hsorted.ties, ← filter_eraseDups, ← filter_eraseDups]

/-- **Suggestions are found by dropping repetitions, sorting and taking.** Whatever the limit, they
are the first names of one list: keep the first occurrence of each candidate, drop the target and
what is farther from it than three edits, and sort by distance, stably. So no name is suggested
twice, a candidate that has occurred before changes nothing, and with a smaller limit the
suggestions are the first of those with a larger one. -/
theorem nearest_dedup_sort_take (target : String) (candidates : List String) (limit : Nat) :
    nearest target candidates limit = (distinctSorted target candidates).take limit ∧
      StablySorted (distanceTo target) (distinctNear target candidates)
        (distinctSorted target candidates) ∧
      (nearest target candidates limit).Nodup ∧
      (∀ before c after, candidates = before ++ c :: after → c ∈ before →
        nearest target candidates limit = nearest target (before ++ after) limit) ∧
      ∀ smaller ≤ limit, nearest target candidates smaller <+: nearest target candidates limit := by
  refine ⟨?_, stablySorted_mergeSort _ _, ?_, ?_, ?_⟩
  · rw [nearest_eq_take, ranking_eq_distinctSorted]
  · exact (suggested_nearest target candidates limit).nodup
  · rintro before c after rfl hc
    rw [nearest_eq_take, nearest_eq_take, ranking_eq_distinctSorted, ranking_eq_distinctSorted,
      distinctSorted, distinctSorted, distinctNear, distinctNear, eraseDups_append_cons hc]
  · intro smaller hle
    rw [nearest_eq_take, nearest_eq_take]
    exact List.take_prefix_take_left hle

end NameScope.Spelling
