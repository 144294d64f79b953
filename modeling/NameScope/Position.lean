/-
  Places in a source text.  A position is a row and a column, both 32-bit words; rows are compared
  first.  A place that is not known is written `<unknown>`, which no position is written as.
-/

namespace NameScope

/-- A row and a column of a source text. -/
structure Position where
  row : UInt32
  col : UInt32
deriving DecidableEq

namespace Position

instance : Ord Position where
  compare p q := (compare p.row q.row).then (compare p.col q.col)

/-- The row and the column in decimal, parted by a colon. -/
def text (p : Position) : String :=
  toString p.row.toNat ++ ":" ++ toString p.col.toNat

/-- The text of a position, or `<unknown>` without one. -/
def textOrUnknown : Option Position → String
  | some p => p.text
  | none => "<unknown>"

end Position

end NameScope
