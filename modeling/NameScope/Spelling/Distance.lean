/-
  The edit distance between two texts: the least number of characters to insert, delete or replace
  that turns one into the other.  It is computed row by row: a row holds the distances from a prefix
  of the first text to every prefix of the second.

  `distance` makes a new row for each character.  `distanceInPlace?` keeps two rows of fixed length
  and swaps them: the cells of one are read, and the other is filled from left to right over what an
  earlier turn has left in it.  It has no result if a cell is read or written that a row does not
  have.
-/

namespace NameScope.Spelling

/-- The distances after the first, for one more character `c` of the first text.  `left` is the
distance just found, `previous` the row before from the column on its left. -/
def extendRow (c : Char) (left : Nat) : List Nat → List Char → List Nat
  | diagonal :: above :: previous, d :: ds =>
    let here := min (min (above + 1) (left + 1)) (diagonal + if c = d then 0 else 1)
    here :: extendRow c here (above :: previous) ds
  | _, _ => []

/-- The row for a prefix that is longer by `c`; `b` is the second text. -/
def nextRow (b : List Char) (row : List Nat) (c : Char) : List Nat :=
  let first := row.headD 0 + 1
  first :: extendRow c first row b

/-- The row for the empty prefix: each prefix of `b` takes as many insertions as it is long. -/
def firstRow (b : List Char) : List Nat := List.range (b.length + 1)

def distance (a b : List Char) : Nat := (a.foldl (nextRow b) (firstRow b)).getLastD 0

/-! ## In place -/

/-- Writes the cell at position `j`. -/
def setCell? (row : List Nat) (j n : Nat) : Option (List Nat) :=
  if j < row.length then some (row.set j n) else none

/-- Fills the cells of `current` behind position `j`, one for each character that is left of the
second text; `previous` is the row before. -/
def fillRow? (c : Char) (previous : List Nat) : Nat → List Nat → List Char → Option (List Nat)
  | _, current, [] => some current
  | j, current, d :: ds => do
    let above ← previous[j + 1]?
    let left ← current[j]?
    let diagonal ← previous[j]?
    let here := min (min (above + 1) (left + 1)) (diagonal + if c = d then 0 else 1)
    fillRow? c previous (j + 1) (← setCell? current (j + 1) here) ds

/-- Takes the characters of the first text from position `i` on, and swaps the rows after each. -/
def distanceFrom? (b : List Char) : Nat → List Nat → List Nat → List Char → Option Nat
  | _, previous, _, [] => previous[b.length]?
  | i, previous, current, c :: a => do
    let current ← setCell? current 0 (i + 1)
    let current ← fillRow? c previous 0 current b
    distanceFrom? b (i + 1) current previous a

def distanceInPlace? (a b : List Char) : Option Nat :=
  distanceFrom? b 0 (List.range (b.length + 1)) (List.replicate (b.length + 1) 0) a

end NameScope.Spelling
