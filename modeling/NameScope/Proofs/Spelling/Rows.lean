import Mathlib.Data.List.Infix
import NameScope.Proofs.Spelling.Edits

/-
  The distance row by row.  The row for a prefix of the first text holds its distance to every
  beginning of the second, the empty one first (`foldl_nextRow`), so the last entry of the last row
  is the distance of the texts.

  In two rows that are swapped the same is computed: no cell is read or written that a row does not
  have, and what an earlier turn has left in a row is never read before it is overwritten
  (`distanceInPlace?_eq`).
-/

namespace NameScope.Spelling

/-! ## Rows -/

/-- From a row with `f` of every beginning, the next row with `g` of every beginning, if `g` follows
from `f` cell by cell. -/
theorem extendRow_inits {f g : List Char → Nat} {c : Char}
    (h : ∀ e d, g (e ++ [d]) =
      min (min (f (e ++ [d]) + 1) (g e + 1)) (f e + if c = d then 0 else 1)) (b : List Char) :
    g [] :: extendRow c (g []) (b.inits.map f) b = b.inits.map g := by
  induction b generalizing f g with
  | nil => rfl
  | cons d b ih =>
    have hnext := ih (f := fun e => f (d :: e)) (g := fun e => g (d :: e)) fun e d' => h (d :: e) d'
    have hhere := h [] d
    obtain ⟨rest, hrest⟩ : ∃ rest, b.inits.map (fun e => f (d :: e)) = f [d] :: rest := by
      cases b with
      | nil => exact ⟨[], rfl⟩
      | cons d' b => exact ⟨_, rfl⟩
    have hf : (d :: b).inits.map f = f [] :: f [d] :: rest := by
      rw [← hrest, List.inits, List.map_cons, List.map_map]
      rfl
    have hg : (d :: b).inits.map g = g [] :: b.inits.map fun e => g (d :: e) := by
      rw [List.inits, List.map_cons, List.map_map]
      rfl
    rw [hf, hg, ← hnext, hrest, extendRow, ← List.nil_append [d], ← hhere]

theorem firstRow_eq (b : List Char) : firstRow b = b.inits.map (levenshtein []) := by
  have hlength : List.range (b.length + 1) = b.inits.map List.length := by
    induction b with
    | nil => rfl
    | cons d b ih =>
      rw [List.length_cons, List.range_succ_eq_map, ih, List.inits, List.map_cons, List.map_map,
        List.map_map]
      rfl
  rw [firstRow, hlength]
  exact List.map_congr_left fun e _ => (levenshtein_nil_left e).symm

/-- The row for `p` holds the distances from `p` to every beginning of `b`. -/
theorem foldl_nextRow (b p : List Char) :
    p.foldl (nextRow b) (firstRow b) = b.inits.map (levenshtein p) := by
  induction p using List.reverseRecOn with
  | nil => exact firstRow_eq b
  | append_singleton p c ih =>
    have hfirst : (b.inits.map (levenshtein p)).headD 0 + 1 = levenshtein (p ++ [c]) [] := by
      rw [levenshtein_nil_right, List.length_append, List.length_singleton,
        ← levenshtein_nil_right p]
      cases b with
      | nil => rfl
      | cons d b => rfl
    rw [List.foldl_append, ih, List.foldl_cons, List.foldl_nil, nextRow, hfirst]
    exact extendRow_inits (fun e d => levenshtein_concat p e c d) b

theorem getLastD_map_inits (f : List Char → Nat) (b : List Char) (n : Nat) :
    (b.inits.map f).getLastD n = f b := by
  induction b generalizing f n with
  | nil => rfl
  | cons d b ih =>
    rw [List.inits, List.map_cons, List.map_map, List.getLastD_cons]
    exact ih (fun e => f (d :: e)) (f [])

theorem distance_eq_levenshtein (a b : List Char) : distance a b = levenshtein a b := by
  rw [distance, foldl_nextRow, getLastD_map_inits]

/-! ## Two rows in place -/

theorem length_extendRow (c : Char) (left : Nat) {row : List Nat} {b : List Char}
    (h : row.length = b.length + 1) : (extendRow c left row b).length = b.length := by
  induction b generalizing left row with
  | nil =>
    obtain ⟨x, rfl⟩ := List.length_eq_one_iff.1 h
    rfl
  | cons d b ih =>
    obtain ⟨diagonal, row, rfl⟩ := List.exists_cons_of_length_eq_add_one h
    have h : row.length = b.length + 1 := Nat.succ.inj h
    obtain ⟨above, previous, rfl⟩ := List.exists_cons_of_length_eq_add_one h
    rw [extendRow, List.length_cons, List.length_cons, ih _ h]

/-- Filling cells gives the entries of the next row, whatever is in them before. -/
theorem fillRow?_eq (c : Char) {before done row stale : List Nat} {left : Nat} {b : List Char}
    (hbefore : before.length = done.length) (hrow : row.length = b.length + 1)
    (hstale : stale.length = b.length) :
    fillRow? c (before ++ row) done.length (done ++ left :: stale) b =
      some (done ++ left :: extendRow c left row b) := by
  induction b generalizing before done row stale left with
  | nil =>
    obtain ⟨x, rfl⟩ := List.length_eq_one_iff.1 hrow
    obtain rfl := List.eq_nil_of_length_eq_zero hstale
    rfl
  | cons d b ih =>
    obtain ⟨diagonal, row, rfl⟩ := List.exists_cons_of_length_eq_add_one hrow
    have hrow : row.length = b.length + 1 := Nat.succ.inj hrow
    obtain ⟨above, previous, rfl⟩ := List.exists_cons_of_length_eq_add_one hrow
    obtain ⟨old, stale, rfl⟩ := List.exists_cons_of_length_eq_add_one hstale
    have hstale : stale.length = b.length := Nat.succ.inj hstale
    have habove : (before ++ diagonal :: above :: previous)[done.length + 1]? = some above := by
      rw [← hbefore, List.getElem?_append_right (Nat.le_add_right _ 1), Nat.add_sub_cancel_left]
      rfl
    have hdiagonal : (before ++ diagonal :: above :: previous)[done.length]? = some diagonal := by
      rw [← hbefore, List.getElem?_append_right (Nat.le_refl _), Nat.sub_self]
      rfl
    have hleft : (done ++ left :: old :: stale)[done.length]? = some left := by
      rw [List.getElem?_append_right (Nat.le_refl _), Nat.sub_self]
      rfl
    have hset : ∀ n, setCell? (done ++ left :: old :: stale) (done.length + 1) n =
        some (done ++ left :: n :: stale) := by
      intro n
      rw [setCell?, if_pos (by simp), List.set_append_right _ _ (Nat.le_add_right _ 1),
        Nat.add_sub_cancel_left]
      rfl
    generalize hhere : min (min (above + 1) (left + 1)) (diagonal + if c = d then 0 else 1) = here
    have hnext := @ih (before ++ [diagonal]) (done ++ [left]) (above :: previous) stale here
      (by rw [List.length_append, List.length_append, hbefore]; rfl) hrow hstale
    rw [List.length_append, List.append_assoc, List.append_assoc, List.append_assoc] at hnext
    simp only [fillRow?, habove, hdiagonal, hleft, extendRow, Option.bind_eq_bind,
      Option.bind_some, hhere, hset]
    exact hnext

theorem distanceFrom?_eq {a b : List Char} {i : Nat} {previous current : List Nat}
    (hprevious : previous.length = b.length + 1) (hcurrent : current.length = b.length + 1)
    (hi : previous.headD 0 = i) :
    distanceFrom? b i previous current a = some ((a.foldl (nextRow b) previous).getLastD 0) := by
  induction a generalizing i previous current with
  | nil =>
    rw [distanceFrom?, List.foldl_nil, List.getLastD_eq_getLast?, List.getLast?_eq_getElem?,
      hprevious, Nat.add_sub_cancel, List.getElem?_eq_getElem (by omega)]
    rfl
  | cons c a ih =>
    obtain ⟨old, stale, rfl⟩ := List.exists_cons_of_length_eq_add_one hcurrent
    have hset : setCell? (old :: stale) 0 (i + 1) = some ((i + 1) :: stale) := rfl
    have hstale : stale.length = b.length := Nat.succ.inj hcurrent
    have hfill := @fillRow?_eq c [] [] previous stale (i + 1) b rfl hprevious hstale
    have hnext : nextRow b previous c = (i + 1) :: extendRow c (i + 1) previous b := by
      rw [nextRow, hi]
    have hlength : (nextRow b previous c).length = b.length + 1 := by
      rw [hnext, List.length_cons, length_extendRow c (i + 1) hprevious]
    have hhead : (nextRow b previous c).headD 0 = i + 1 := by
      rw [hnext]
      rfl
    have hrest := ih hlength hprevious hhead
    rw [List.foldl_cons, ← hrest, hnext]
    simp only [distanceFrom?, hset, Option.bind_eq_bind, Option.bind_some]
    exact congrArg (·.bind fun row => distanceFrom? b (i + 1) row previous a) hfill

/-- No cell is read or written that a row does not have, and the last cell is the distance. -/
theorem distanceInPlace?_eq (a b : List Char) : distanceInPlace? a b = some (distance a b) := by
  refine distanceFrom?_eq ?_ ?_ ?_
  · exact List.length_range
  · exact List.length_replicate
  · rw [List.range_succ_eq_map]
    rfl

/-- **The edit distance is the least number of edits.** For every two texts it is the length of a
shortest sequence of insertions, deletions and replacements of single characters that turns the one
into the other, and so what the recursion on both texts gives. Computed in two rows that are
swapped and filled anew, it never needs a cell outside of them. -/
theorem distance_is_least (a b : List Char) :
    distanceInPlace? a b = some (distance a b) ∧ IsLeast { n | Edits n a b } (distance a b) ∧
      distance a b = levenshtein a b := by
  refine ⟨distanceInPlace?_eq a b, ?_, distance_eq_levenshtein a b⟩
  rw [distance_eq_levenshtein]
  exact isLeast_levenshtein a b

end NameScope.Spelling
