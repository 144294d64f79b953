import Mathlib.Data.List.Basic
import NameScope.Spelling.Nearest

/-
  The ranking of candidates.  What is suggested for a name is the beginning of one list, whatever
  the limit is (`nearest_eq_take`): the candidates near it, each once, sorted by distance, and of
  two that are equally near the one that occurs first in front (`Ahead`).

  Candidates may be repeated, and they are sorted before repetitions are dropped.  That the first
  occurrences decide all the same rests on two facts.  Sorting is stable, so the candidates of one
  distance stand in the order in which they were given (`filter_mergeSort`); and dropping other
  elements does not change which of two first occurrences comes first (`idxOf_filter_lt_iff`).
-/

namespace NameScope.Spelling

/-! ## First occurrences -/

section FirstOccurrences

variable {α : Type} [DecidableEq α]

theorem idxOf_cons_of_ne {x a : α} (h : a ≠ x) (l : List α) :
    (x :: l).idxOf a = l.idxOf a + 1 := List.idxOf_cons_ne l (Ne.symm h)

/-- Dropping other elements does not change which of two elements occurs first. -/
theorem idxOf_filter_lt_iff {p : α → Bool} {a b : α} (ha : p a = true) (hb : p b = true)
    (l : List α) : (l.filter p).idxOf a < (l.filter p).idxOf b ↔ l.idxOf a < l.idxOf b := by
  induction l with
  | nil => exact Iff.rfl
  | cons x l ih =>
    by_cases hx : p x = true
    · rw [List.filter_cons_of_pos hx]
      by_cases hxa : a = x
      · subst hxa
        by_cases hab : b = a
        · subst hab
          simp
        · rw [List.idxOf_cons_self, List.idxOf_cons_self, idxOf_cons_of_ne hab,
            idxOf_cons_of_ne hab]
          simp
      · by_cases hxb : b = x
        · subst hxb
          simp
        · simp only [idxOf_cons_of_ne hxa, idxOf_cons_of_ne hxb, Nat.add_lt_add_iff_right, ih]
    · have hxa : a ≠ x := fun e => hx (e ▸ ha)
      have hxb : b ≠ x := fun e => hx (e ▸ hb)
      rw [List.filter_cons_of_neg hx, idxOf_cons_of_ne hxa, idxOf_cons_of_ne hxb, ih,
        Nat.add_lt_add_iff_right]

/-- Without repetitions, elements stand in the order of their first occurrences. -/
theorem pairwise_eraseDups (l : List α) :
    l.eraseDups.Pairwise fun a b => l.idxOf a < l.idxOf b := by
  match l with
  | [] => exact .nil
  | x :: l =>
    have hrest := pairwise_eraseDups (l.filter fun b => !b == x)
    have hkept : ∀ b ∈ (l.filter fun b => !b == x).eraseDups, (!b == x) = true := by
      intro b hb
      exact (List.mem_filter.1 (List.mem_eraseDups.1 hb)).2
    have hne : ∀ b ∈ (l.filter fun b => !b == x).eraseDups, b ≠ x := by
      intro b hb
      simpa using hkept b hb
    rw [List.eraseDups_cons]
    refine List.pairwise_cons.2 ⟨?_, hrest.imp_of_mem ?_⟩
    · intro b hb
      rw [List.idxOf_cons_self, idxOf_cons_of_ne (hne b hb)]
      exact Nat.succ_pos _
    · intro a b ha hb hlt
      rw [idxOf_cons_of_ne (hne a ha), idxOf_cons_of_ne (hne b hb), Nat.add_lt_add_iff_right]
      exact (idxOf_filter_lt_iff (p := fun b => !b == x) (hkept a ha) (hkept b hb) l).1 hlt
termination_by l.length
decreasing_by exact Nat.lt_succ_of_le (List.length_filter_le _ _)

theorem nodup_eraseDups (l : List α) : l.eraseDups.Nodup := by
  refine (pairwise_eraseDups l).imp ?_
  rintro a b hlt rfl
  exact Nat.lt_irrefl _ hlt

end FirstOccurrences

/-! ## Stable sorting -/

section SortByKey

variable {α : Type} (key : α → Nat)

theorem keyLe_trans (a b c : α) (hab : decide (key a ≤ key b) = true)
    (hbc : decide (key b ≤ key c) = true) : decide (key a ≤ key c) = true := by
  rw [decide_eq_true_eq] at hab hbc ⊢
  exact Nat.le_trans hab hbc

theorem keyLe_total (a b : α) : (decide (key a ≤ key b) || decide (key b ≤ key a)) = true := by
  rw [Bool.or_eq_true, decide_eq_true_eq, decide_eq_true_eq]
  exact Nat.le_total _ _

theorem pairwise_mergeSort_key (l : List α) :
    (l.mergeSort fun a b => key a ≤ key b).Pairwise fun a b => key a ≤ key b := by
  have h := List.pairwise_mergeSort (keyLe_trans key) (keyLe_total key) l
  exact h.imp of_decide_eq_true

/-- Sorting by a key leaves the elements of one key in the order in which they were. -/
theorem filter_mergeSort (l : List α) (k : Nat) :
    (l.mergeSort fun a b => key a ≤ key b).filter (key · = k) = l.filter (key · = k) := by
  have hties : (l.filter (key · = k)).Pairwise fun a b => decide (key a ≤ key b) = true := by
    refine List.pairwise_filter.2 (List.pairwise_of_forall ?_)
    intro a b ha hb
    rw [decide_eq_true_eq] at ha hb ⊢
    exact Nat.le_of_eq (ha.trans hb.symm)
  have hidem : (l.filter (key · = k)).filter (key · = k) = l.filter (key · = k) := by
    simp
  have hperm := (List.mergeSort_perm l fun a b => decide (key a ≤ key b)).filter (key · = k)
  have hsub := (List.sublist_mergeSort (keyLe_trans key) (keyLe_total key) hties
    List.filter_sublist).filter (key · = k)
  rw [hidem] at hsub
  exact (hsub.eq_of_length hperm.length_eq.symm).symm

/-- Sorted by a key, an element that occurs first has the smaller key, or the same key and the
earlier first occurrence. -/
theorem key_of_idxOf_lt [DecidableEq α] {l : List α} {a b : α} (ha : a ∈ l) (hb : b ∈ l)
    (hlt : (l.mergeSort fun a b => key a ≤ key b).idxOf a <
      (l.mergeSort fun a b => key a ≤ key b).idxOf b) :
    key a < key b ∨ key a = key b ∧ l.idxOf a < l.idxOf b := by
  have hsorted := pairwise_mergeSort_key key l
  have hties := filter_mergeSort key l (key b)
  have ha' : a ∈ l.mergeSort fun a b => key a ≤ key b := List.mem_mergeSort.2 ha
  have hb' : b ∈ l.mergeSort fun a b => key a ≤ key b := List.mem_mergeSort.2 hb
  generalize (l.mergeSort fun a b => key a ≤ key b) = sorted at *
  have hle : key a ≤ key b := by
    have hpair := List.pairwise_iff_getElem.1 hsorted _ _ (List.idxOf_lt_length_of_mem ha')
      (List.idxOf_lt_length_of_mem hb') hlt
    rwa [List.getElem_idxOf, List.getElem_idxOf] at hpair
  rcases Nat.lt_or_eq_of_le hle with hnear | heq
  · exact Or.inl hnear
  · -- The elements of one key are the same list before and after sorting.
    have hka : decide (key a = key b) = true := decide_eq_true heq
    have hkb : decide (key b = key b) = true := decide_eq_true rfl
    refine Or.inr ⟨heq, ?_⟩
    rw [← idxOf_filter_lt_iff (p := fun c => decide (key c = key b)) hka hkb, ← hties]
    exact (idxOf_filter_lt_iff (p := fun c => decide (key c = key b)) hka hkb sorted).2 hlt

end SortByKey

/-! ## The ranking -/

/-- The candidate may be suggested for the target. -/
def IsNear (target candidate : String) : Prop :=
  candidate ≠ target ∧ distance target.toList candidate.toList ≤ maxDistance

instance (target candidate : String) : Decidable (IsNear target candidate) :=
  inferInstanceAs (Decidable (_ ∧ _))

/-- `m` is suggested before `n`: it is nearer to the target, or equally near and first among the
candidates. -/
def Ahead (target : String) (candidates : List String) (m n : String) : Prop :=
  distance target.toList m.toList < distance target.toList n.toList ∨
    distance target.toList m.toList = distance target.toList n.toList ∧
      candidates.idxOf m < candidates.idxOf n

/-- The candidates near the target, the nearest first, with repetitions. -/
def sorted (target : String) (candidates : List String) : List String :=
  (candidates.filter (IsNear target ·)).mergeSort fun m n =>
    distance target.toList m.toList ≤ distance target.toList n.toList

/-- The candidates near the target, each once, in the order in which they are suggested. -/
def ranking (target : String) (candidates : List String) : List String :=
  (sorted target candidates).eraseDups

/-- Distances need not be kept beside the candidates. -/
theorem map_fst_mergeSort_scored (target : String) (candidates : List String) :
    ((scored target candidates).mergeSort fun p q => p.2 ≤ q.2).map Prod.fst =
      sorted target candidates := by
  have hscored : (scored target candidates).map Prod.fst = candidates.filter (IsNear target ·) := by
    unfold scored
    rw [List.filter_map, List.map_map, List.filter_filter]
    refine (List.map_id _).trans (List.filter_congr ?_)
    intro c _
    exact (Bool.and_comm _ _).trans (Bool.decide_and _ _).symm
  have hkey : ∀ p ∈ scored target candidates, p.2 = distance target.toList p.1.toList := by
    intro p hp
    obtain ⟨c, -, rfl⟩ := List.mem_map.1 (List.mem_filter.1 hp).1
    rfl
  rw [sorted, ← hscored]
  refine List.map_mergeSort ?_
  intro p hp q hq
  rw [hkey p hp, hkey q hq]

/-- Taking names until there are enough, each once. -/
theorem takeDistinct_eq {limit : Nat} {taken : List String} (hlimit : taken.length ≤ limit)
    (names : List String) :
    takeDistinct limit taken names =
      (taken ++ (names.filter (· ∉ taken)).eraseDups).take limit := by
  induction names generalizing taken with
  | nil =>
    rw [takeDistinct, List.filter_nil, List.eraseDups_nil, List.append_nil,
      List.take_of_length_le hlimit]
  | cons name names ih =>
    rw [takeDistinct]
    by_cases hfull : taken.length = limit
    · rw [if_pos hfull, ← hfull, List.take_left]
    · rw [if_neg hfull]
      by_cases hmem : name ∈ taken
      · rw [if_pos hmem, ih hlimit, List.filter_cons_of_neg (by simpa using hmem)]
      · have hroom : (taken ++ [name]).length ≤ limit := by
          rw [List.length_append, List.length_singleton]
          omega
        have hfilter : (names.filter (· ∉ taken)).filter (fun b => !b == name) =
            names.filter (· ∉ taken ++ [name]) := by
          rw [List.filter_filter]
          refine List.filter_congr ?_
          intro m _
          rw [Bool.eq_iff_iff]
          simp [and_comm]
        rw [if_neg hmem, ih hroom, List.filter_cons_of_pos (by simpa using hmem),
          List.eraseDups_cons, hfilter, List.append_assoc]
        rfl

theorem nearest_eq_take (target : String) (candidates : List String) (limit : Nat) :
    nearest target candidates limit = (ranking target candidates).take limit := by
  have hall : (sorted target candidates).filter (· ∉ ([] : List String)) =
      sorted target candidates := List.filter_eq_self.2 fun _ _ => by simp
  rw [nearest, map_fst_mergeSort_scored, takeDistinct_eq (Nat.zero_le limit), hall,
    List.nil_append, ranking]

theorem mem_ranking_iff {target : String} {candidates : List String} {m : String} :
    m ∈ ranking target candidates ↔ m ∈ candidates ∧ IsNear target m := by
  rw [ranking, List.mem_eraseDups, sorted, List.mem_mergeSort, List.mem_filter, decide_eq_true_eq]

/-- The ranking goes by distance, and then by first occurrence. -/
theorem pairwise_ranking (target : String) (candidates : List String) :
    (ranking target candidates).Pairwise (Ahead target candidates) := by
  refine (pairwise_eraseDups (sorted target candidates)).imp_of_mem ?_
  intro m n hm hn hlt
  have hm' := (mem_ranking_iff.1 hm).2
  have hn' := (mem_ranking_iff.1 hn).2
  have hkey := key_of_idxOf_lt (fun c : String => distance target.toList c.toList)
    (List.mem_mergeSort.1 (List.mem_eraseDups.1 hm))
    (List.mem_mergeSort.1 (List.mem_eraseDups.1 hn)) hlt
  refine hkey.imp_right ?_
  rintro ⟨heq, hfirst⟩
  refine ⟨heq, ?_⟩
  exact (idxOf_filter_lt_iff (p := fun c => decide (IsNear target c)) (decide_eq_true hm')
    (decide_eq_true hn') candidates).1 hfirst

theorem nodup_ranking (target : String) (candidates : List String) :
    (ranking target candidates).Nodup := nodup_eraseDups _

/-! ## Suggestions -/

/-- `names` are the right suggestions for `target`: different candidates near it, no more than the
limit, in the order of the ranking; none is missing while there is room, and of those that are
missing none is nearer than one that is given. -/
structure Suggested (target : String) (candidates : List String) (limit : Nat)
    (names : List String) : Prop where
  nodup : names.Nodup
  length_le : names.length ≤ limit
  candidate : ∀ m ∈ names, m ∈ candidates
  other : ∀ m ∈ names, m ≠ target
  near : ∀ m ∈ names, distance target.toList m.toList ≤ maxDistance
  order : names.Pairwise (Ahead target candidates)
  complete : names.length < limit → ∀ m ∈ candidates, m ≠ target →
    distance target.toList m.toList ≤ maxDistance → m ∈ names
  nearest : ∀ m ∈ candidates, m ≠ target → m ∉ names → ∀ n ∈ names,
    distance target.toList n.toList ≤ distance target.toList m.toList

/-- What is not among the first names of the ranking comes after all of them, and they are as many
as the limit. -/
theorem take_ranking_of_not_mem {target : String} {candidates : List String} {limit : Nat}
    {m : String} (hm : m ∈ ranking target candidates)
    (hout : m ∉ (ranking target candidates).take limit) :
    ((ranking target candidates).take limit).length = limit ∧
      ∀ n ∈ (ranking target candidates).take limit, Ahead target candidates n m := by
  have hpairwise := pairwise_ranking target candidates
  rw [← List.take_append_drop limit (ranking target candidates)] at hm hpairwise
  have hrest : m ∈ (ranking target candidates).drop limit :=
    (List.mem_append.1 hm).resolve_left hout
  have hlength : 0 < ((ranking target candidates).drop limit).length :=
    List.length_pos_of_mem hrest
  rw [List.length_drop] at hlength
  refine ⟨?_, ?_⟩
  · rw [List.length_take]
    omega
  · intro n hn
    exact (List.pairwise_append.1 hpairwise).2.2 n hn m hrest

theorem suggested_nearest (target : String) (candidates : List String) (limit : Nat) :
    Suggested target candidates limit (nearest target candidates limit) := by
  rw [nearest_eq_take]
  have hmem : ∀ m ∈ (ranking target candidates).take limit, m ∈ candidates ∧ IsNear target m := by
    intro m hm
    exact mem_ranking_iff.1 (List.mem_of_mem_take hm)
  have hsub := List.take_sublist limit (ranking target candidates)
  refine
    { nodup := hsub.nodup (nodup_ranking target candidates)
      length_le := List.length_take_le _ _
      candidate := fun m hm => (hmem m hm).1
      other := fun m hm => (hmem m hm).2.1
      near := fun m hm => (hmem m hm).2.2
      order := (pairwise_ranking target candidates).sublist hsub
      complete := ?_
      nearest := ?_ }
  · intro hroom m hm hne hnear
    by_contra hout
    have hfull := (take_ranking_of_not_mem (mem_ranking_iff.2 ⟨hm, hne, hnear⟩) hout).1
    omega
  · intro m hm hne hout n hn
    have hn' : distance target.toList n.toList ≤ maxDistance := (hmem n hn).2.2
    by_cases hnear : distance target.toList m.toList ≤ maxDistance
    · have hafter := (take_ranking_of_not_mem (mem_ranking_iff.2 ⟨hm, hne, hnear⟩) hout).2 n hn
      rcases hafter with hlt | ⟨heq, -⟩
      · exact Nat.le_of_lt hlt
      · exact Nat.le_of_eq heq
    · omega

end NameScope.Spelling
