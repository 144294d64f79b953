import Mathlib.Order.Bounds.Basic
import Mathlib.Order.MinMax
import NameScope.Spelling.Distance

/-
  Edits.  One edit inserts, deletes or replaces a character anywhere in a text, and texts are as far
  from each other as the number of edits that it takes, at least, to turn one into the other.

  `levenshtein` is the textbook recursion for this number.  It is enough to compare first
  characters (`edits_levenshtein`), and not more than that can be saved, since one edit changes the
  distance to any text by at most one (`levenshtein_le_of_edit`).  So it is the least number of
  edits (`isLeast_levenshtein`), and as edits can be read backwards, the recursion may as well
  compare last characters (`levenshtein_concat`).
-/

namespace NameScope.Spelling

/-- One edit turns the first text into the second. -/
inductive Edit : List Char → List Char → Prop where
  | insert (before after : List Char) (c : Char) : Edit (before ++ after) (before ++ c :: after)
  | delete (before after : List Char) (c : Char) : Edit (before ++ c :: after) (before ++ after)
  | replace (before after : List Char) (c d : Char) :
    Edit (before ++ c :: after) (before ++ d :: after)

/-- `n` edits, one after another, turn the first text into the second. -/
inductive Edits : Nat → List Char → List Char → Prop where
  | none (a : List Char) : Edits 0 a a
  | more {n : Nat} {a b c : List Char} (first : Edit a b) (rest : Edits n b c) : Edits (n + 1) a c

/-- The edit distance by recursion on both texts: delete the first character of the one, insert that
of the other, or replace the one by the other unless they are the same. -/
def levenshtein : List Char → List Char → Nat
  | [], b => b.length
  | a, [] => a.length
  | c :: a, d :: b =>
    min (min (levenshtein a (d :: b) + 1) (levenshtein (c :: a) b + 1))
      (levenshtein a b + if c = d then 0 else 1)
termination_by a b => a.length + b.length

/-! ## Edits in a longer text -/

theorem Edit.cons (c : Char) {a b : List Char} (h : Edit a b) : Edit (c :: a) (c :: b) := by
  cases h with
  | insert before after d => exact .insert (c :: before) after d
  | delete before after d => exact .delete (c :: before) after d
  | replace before after d e => exact .replace (c :: before) after d e

theorem Edits.cons (c : Char) {n : Nat} {a b : List Char} (h : Edits n a b) :
    Edits n (c :: a) (c :: b) := by
  induction h with
  | none a => exact .none (c :: a)
  | more first _ ih => exact .more (first.cons c) ih

theorem Edit.reverse {a b : List Char} (h : Edit a b) : Edit a.reverse b.reverse := by
  cases h with
  | insert before after c =>
    simpa using Edit.insert after.reverse before.reverse c
  | delete before after c =>
    simpa using Edit.delete after.reverse before.reverse c
  | replace before after c d =>
    simpa using Edit.replace after.reverse before.reverse c d

theorem Edits.reverse {n : Nat} {a b : List Char} (h : Edits n a b) :
    Edits n a.reverse b.reverse := by
  induction h with
  | none a => exact .none a.reverse
  | more first _ ih => exact .more first.reverse ih

/-! ## As many edits as the recursion says -/

theorem levenshtein_nil_left (b : List Char) : levenshtein [] b = b.length := by
  rw [levenshtein]

theorem levenshtein_nil_right (a : List Char) : levenshtein a [] = a.length := by
  cases a with
  | nil => rw [levenshtein]
  | cons c a => rw [levenshtein]; nofun

theorem levenshtein_cons_cons (c d : Char) (a b : List Char) :
    levenshtein (c :: a) (d :: b) =
      min (min (levenshtein a (d :: b) + 1) (levenshtein (c :: a) b + 1))
        (levenshtein a b + if c = d then 0 else 1) := by
  rw [levenshtein]

theorem edits_insert_all (b : List Char) : Edits b.length [] b := by
  induction b with
  | nil => exact .none []
  | cons d b ih => exact .more (.insert [] [] d) (ih.cons d)

theorem edits_delete_all (a : List Char) : Edits a.length a [] := by
  induction a with
  | nil => exact .none []
  | cons c a ih => exact .more (.delete [] a c) ih

theorem edits_levenshtein (a b : List Char) : Edits (levenshtein a b) a b := by
  fun_induction levenshtein a b with
  | case1 b => exact edits_insert_all b
  | case2 a _ => exact edits_delete_all a
  | case3 c a d b hdelete hinsert hreplace =>
    have hreplace' : Edits (levenshtein a b + if c = d then 0 else 1) (c :: a) (d :: b) := by
      by_cases h : c = d
      · rw [if_pos h, h]
        exact hreplace.cons d
      · rw [if_neg h]
        exact .more (.replace [] a c d) (hreplace.cons d)
    rcases min_choice (min (levenshtein a (d :: b) + 1) (levenshtein (c :: a) b + 1))
      (levenshtein a b + if c = d then 0 else 1) with hmin | hmin
    · rw [hmin]
      rcases min_choice (levenshtein a (d :: b) + 1) (levenshtein (c :: a) b + 1) with hmin | hmin
      · rw [hmin]
        exact .more (.delete [] a c) hdelete
      · rw [hmin]
        exact .more (.insert [] (c :: a) d) (hinsert.cons d)
    · rw [hmin]
      exact hreplace'

/-! ## No fewer edits -/

theorem levenshtein_self (a : List Char) : levenshtein a a = 0 := by
  induction a with
  | nil => rw [levenshtein_nil_left, List.length_nil]
  | cons c a ih =>
    rw [levenshtein_cons_cons, ih, if_pos rfl]
    omega

/-- A character more in the second text is one more to insert. -/
theorem levenshtein_cons_right_le (a : List Char) (d : Char) (b : List Char) :
    levenshtein a (d :: b) ≤ levenshtein a b + 1 := by
  cases a with
  | nil => rw [levenshtein_nil_left, levenshtein_nil_left, List.length_cons]
  | cons c a =>
    rw [levenshtein_cons_cons]
    omega

/-- A character more in the first text is one more to delete. -/
theorem levenshtein_cons_left_le (c : Char) (a b : List Char) :
    levenshtein (c :: a) b ≤ levenshtein a b + 1 := by
  cases b with
  | nil => rw [levenshtein_nil_right, levenshtein_nil_right, List.length_cons]
  | cons d b =>
    rw [levenshtein_cons_cons]
    omega

/-- A character more in the first text saves one insertion at most. -/
theorem levenshtein_le_cons_left (c : Char) (a b : List Char) :
    levenshtein a b ≤ levenshtein (c :: a) b + 1 := by
  induction b with
  | nil =>
    rw [levenshtein_nil_right, levenshtein_nil_right, List.length_cons]
    omega
  | cons d b ih =>
    have hinsert := levenshtein_cons_right_le a d b
    rw [levenshtein_cons_cons]
    omega

theorem levenshtein_le_replaced (c d : Char) (a b : List Char) :
    levenshtein (c :: a) b ≤ levenshtein (d :: a) b + 1 := by
  induction b with
  | nil =>
    rw [levenshtein_nil_right, levenshtein_nil_right, List.length_cons, List.length_cons]
    omega
  | cons e b ih =>
    rw [levenshtein_cons_cons, levenshtein_cons_cons]
    split <;> split <;> omega

/-- What one edit saves, it saves behind a common beginning at most. -/
theorem levenshtein_append_le {a a' : List Char}
    (h : ∀ b, levenshtein a b ≤ levenshtein a' b + 1) (before b : List Char) :
    levenshtein (before ++ a) b ≤ levenshtein (before ++ a') b + 1 := by
  induction before generalizing b with
  | nil => exact h b
  | cons c before ih =>
    rw [List.cons_append, List.cons_append]
    induction b with
    | nil =>
      have hlength := ih []
      rw [levenshtein_nil_right, levenshtein_nil_right] at hlength ⊢
      exact Nat.succ_le_succ hlength
    | cons d b ihb =>
      have hdelete := ih (d :: b)
      have hreplace := ih b
      rw [levenshtein_cons_cons, levenshtein_cons_cons]
      omega

/-- One edit of a text changes its distance to any text by at most one. -/
theorem levenshtein_le_of_edit {a a' : List Char} (h : Edit a a') (b : List Char) :
    levenshtein a b ≤ levenshtein a' b + 1 := by
  cases h with
  | insert before after c =>
    exact levenshtein_append_le (fun b => levenshtein_le_cons_left c after b) before b
  | delete before after c =>
    exact levenshtein_append_le (fun b => levenshtein_cons_left_le c after b) before b
  | replace before after c d =>
    exact levenshtein_append_le (fun b => levenshtein_le_replaced c d after b) before b

theorem levenshtein_le_of_edits {n : Nat} {a b : List Char} (h : Edits n a b) :
    levenshtein a b ≤ n := by
  induction h with
  | none a => exact Nat.le_of_eq (levenshtein_self a)
  | more first _ ih => exact (levenshtein_le_of_edit first _).trans (Nat.succ_le_succ ih)

theorem isLeast_levenshtein (a b : List Char) :
    IsLeast { n | Edits n a b } (levenshtein a b) :=
  ⟨edits_levenshtein a b, fun _ h => levenshtein_le_of_edits h⟩

/-! ## Last characters -/

theorem levenshtein_reverse (a b : List Char) :
    levenshtein a.reverse b.reverse = levenshtein a b := by
  refine Nat.le_antisymm (levenshtein_le_of_edits (edits_levenshtein a b).reverse) ?_
  have hback := (edits_levenshtein a.reverse b.reverse).reverse
  rw [List.reverse_reverse, List.reverse_reverse] at hback
  exact levenshtein_le_of_edits hback

/-- The recursion may go by last characters. -/
theorem levenshtein_concat (a b : List Char) (c d : Char) :
    levenshtein (a ++ [c]) (b ++ [d]) =
      min (min (levenshtein a (b ++ [d]) + 1) (levenshtein (a ++ [c]) b + 1))
        (levenshtein a b + if c = d then 0 else 1) := by
  simp only [← levenshtein_reverse _ b, ← levenshtein_reverse _ (b ++ [d]), List.reverse_append,
    List.reverse_singleton, List.singleton_append, levenshtein_cons_cons]

end NameScope.Spelling
