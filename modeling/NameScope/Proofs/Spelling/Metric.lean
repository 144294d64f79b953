import Mathlib.Data.Nat.Dist
import NameScope.Proofs.Spelling.Rows
import NameScope.Proofs.Spelling.Suggestions

/-
  The edit distance as a metric.  Its two texts play different parts in the rows: one is taken
  character by character, the other runs along the columns.  Edits do not know the difference.  They
  can be undone one by one (`Edits.symm`) and made one sequence after another (`Edits.append`), and
  since the distance is the least number of edits, it is symmetric and satisfies the triangle
  inequality.

  One edit makes a text longer or shorter by one character at most (`Edit.length_le`), so the
  distance is no less than the difference of the lengths; and it is no more than the greater length,
  as that many edits replace what there is and insert or delete the rest (`levenshtein_le_max`).
-/

namespace NameScope.Spelling

/-! ## Edits backwards, and one sequence after another -/

theorem Edit.symm {a b : List Char} (h : Edit a b) : Edit b a := by
  cases h with
  | insert before after c => exact .delete before after c
  | delete before after c => exact .insert before after c
  | replace before after c d => exact .replace before after d c

theorem Edits.append {m n : Nat} {a b c : List Char} (h : Edits m a b) (h' : Edits n b c) :
    Edits (m + n) a c := by
  induction h with
  | none a =>
    rw [Nat.zero_add]
    exact h'
  | more first _ ih =>
    rw [Nat.add_right_comm]
    exact .more first (ih h')

theorem Edits.symm {n : Nat} {a b : List Char} (h : Edits n a b) : Edits n b a := by
  induction h with
  | none a => exact .none a
  | more first _ ih => exact ih.append (.more first.symm (.none _))

theorem levenshtein_comm (a b : List Char) : levenshtein a b = levenshtein b a := by
  refine Nat.le_antisymm ?_ ?_
  · exact levenshtein_le_of_edits (edits_levenshtein b a).symm
  · exact levenshtein_le_of_edits (edits_levenshtein a b).symm

theorem levenshtein_eq_zero_iff {a b : List Char} : levenshtein a b = 0 ↔ a = b := by
  constructor
  · intro h
    have hedits := edits_levenshtein a b
    rw [h] at hedits
    cases hedits with
    | none => rfl
  · rintro rfl
    exact levenshtein_self a

/-- The way round by a third text is no shorter. -/
theorem levenshtein_triangle (a b c : List Char) :
    levenshtein a b ≤ levenshtein a c + levenshtein c b :=
  levenshtein_le_of_edits ((edits_levenshtein a c).append (edits_levenshtein c b))

/-! ## Lengths -/

theorem Edit.length_le {a b : List Char} (h : Edit a b) : b.length ≤ a.length + 1 := by
  cases h with
  | insert before after c => simp only [List.length_append, List.length_cons]; omega
  | delete before after c => simp only [List.length_append, List.length_cons]; omega
  | replace before after c d => simp only [List.length_append, List.length_cons]; omega

theorem Edits.length_le {n : Nat} {a b : List Char} (h : Edits n a b) :
    b.length ≤ a.length + n := by
  induction h with
  | none a => exact Nat.le_refl _
  | more first _ ih =>
    have hfirst := first.length_le
    omega

theorem dist_length_le_levenshtein (a b : List Char) :
    Nat.dist a.length b.length ≤ levenshtein a b := by
  have hforth := (edits_levenshtein a b).length_le
  have hback := (edits_levenshtein a b).symm.length_le
  unfold Nat.dist
  omega

/-- Characters that stand in one place are replaced, and the rest of the longer text is inserted or
deleted. -/
theorem levenshtein_le_max (a b : List Char) : levenshtein a b ≤ max a.length b.length := by
  induction a generalizing b with
  | nil =>
    rw [levenshtein_nil_left]
    exact Nat.le_max_right _ _
  | cons c a ih =>
    cases b with
    | nil =>
      rw [levenshtein_nil_right]
      exact Nat.le_max_left _ _
    | cons d b =>
      have hrest := ih b
      rw [levenshtein_cons_cons, List.length_cons, List.length_cons]
      split <;> omega

/-! ## Suggestions in both directions -/

theorem isNear_comm (a b : String) : IsNear a b ↔ IsNear b a := by
  unfold IsNear
  rw [distance_eq_levenshtein, distance_eq_levenshtein, levenshtein_comm, ne_comm]

/-- A limit as great as the number of candidates leaves no near one out. -/
theorem mem_nearest_iff_of_room {target : String} {candidates : List String} {limit : Nat}
    (hroom : candidates.length ≤ limit) {m : String} :
    m ∈ nearest target candidates limit ↔ m ∈ candidates ∧ IsNear target m := by
  have hlength : (ranking target candidates).length ≤ candidates.length :=
    calc (ranking target candidates).length
        ≤ (sorted target candidates).length := (eraseDups_sublist _).length_le
      _ = (candidates.filter (IsNear target ·)).length := List.length_mergeSort _
      _ ≤ candidates.length := List.length_filter_le _ _
  rw [nearest_eq_take, List.take_of_length_le (hlength.trans hroom), mem_ranking_iff]

/-- **The edit distance is a metric.** For every three texts it is the same in both directions, it
is zero iff the texts are equal, and the way round by a third text is no shorter. It lies between
the difference of the two lengths and the greater of them. So two names are suggested for one
another or neither is: for a name that is suggested, the target is suggested in turn, wherever it is
a candidate and the limit leaves none out. And whatever the candidates and the limit are, no name is
suggested that is longer or shorter than the target by more than three characters. -/
theorem distance_is_metric (a b c : String) :
    distance a.toList b.toList = distance b.toList a.toList ∧
      (distance a.toList b.toList = 0 ↔ a = b) ∧
      distance a.toList b.toList ≤ distance a.toList c.toList + distance c.toList b.toList ∧
      Nat.dist a.length b.length ≤ distance a.toList b.toList ∧
      distance a.toList b.toList ≤ max a.length b.length ∧
      (∀ forA m, b ∈ nearest a forA m →
        ∀ forB : List String, a ∈ forB → ∀ n ≥ forB.length, a ∈ nearest b forB n) ∧
      ∀ candidates limit, b ∈ nearest a candidates limit → Nat.dist a.length b.length ≤ 3 := by
  have hlengths := dist_length_le_levenshtein a.toList b.toList
  rw [String.length_toList, String.length_toList] at hlengths
  simp only [distance_eq_levenshtein]
  refine ⟨levenshtein_comm _ _, ?_, levenshtein_triangle _ _ _, hlengths, ?_, ?_, ?_⟩
  · rw [levenshtein_eq_zero_iff, String.toList_inj]
  · rw [← String.length_toList, ← String.length_toList]
    exact levenshtein_le_max _ _
  · intro forA m hmem forB ha n hn
    have hsuggested := suggested_nearest a forA m
    have hnear : IsNear a b := ⟨hsuggested.other b hmem, hsuggested.near b hmem⟩
    exact (mem_nearest_iff_of_room hn).2 ⟨ha, (isNear_comm a b).1 hnear⟩
  · intro candidates limit hmem
    have hnear := (suggested_nearest a candidates limit).near b hmem
    rw [distance_eq_levenshtein] at hnear
    exact hlengths.trans hnear

/-- A name is suggested for another at the greatest distance, behind a nearer one; so the other is
suggested for it, and the two differ in length by one. -/
theorem distance_is_metric_suggested :
    "sitting" ∈ nearest "kitten" ["mitten", "sitting"] 2 ∧
      "kitten" ∈ nearest "sitting" ["kit", "kitten"] 2 ∧
      Nat.dist "kitten".length "sitting".length ≤ 3 := by
  have hnear : IsNear "kitten" "sitting" := by decide
  have hmem : "sitting" ∈ nearest "kitten" ["mitten", "sitting"] 2 :=
    (mem_nearest_iff_of_room (by decide)).2 ⟨by decide, hnear⟩
  obtain ⟨-, -, -, -, -, hmutual, hlengths⟩ := distance_is_metric "kitten" "sitting" "mitten"
  have hback := hmutual _ _ hmem ["kit", "kitten"] (by decide) 2 (by decide)
  exact ⟨hmem, hback, hlengths _ _ hmem⟩

end NameScope.Spelling
