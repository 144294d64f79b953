import NameScope.Json.Lexeme
import NameScope.Position

/-
  Positions as JSON.  A position is written as an object with the members `row` and `col`.  It is
  read from such an object, with its members in any order and among any others, or from an array
  of the row and the column.
-/

namespace NameScope.Position

open NameScope.Json

def toJson (p : Position) : String :=
  "\x7b\"row\":" ++ toString p.row.toNat ++ ",\"col\":" ++ toString p.col.toNat ++ "\x7d"

/-- The members of an object up to its closing brace, given those that have been met.  The first
argument bounds the number of members and what is nested in them. -/
def members? : Nat → Option UInt32 → Option UInt32 → List Char → Option (Position × List Char)
  | 0, _, _, _ => none
  | bound + 1, row, col, s => do
    let (key, rest) ← string? (skipBlanks s)
    match skipBlanks rest with
    | ':' :: rest =>
      let s := skipBlanks rest
      let (row, col, rest) ←
        if key = "row" then
          if row.isSome then none else (word? s).map fun (n, rest) => (some n, col, rest)
        else if key = "col" then
          if col.isSome then none else (word? s).map fun (n, rest) => (row, some n, rest)
        else (skipValue? bound s).map fun rest => (row, col, rest)
      match skipBlanks rest with
      | ',' :: rest => members? bound row col rest
      | '}' :: rest => return (⟨← row, ← col⟩, rest)
      | _ => none
    | _ => none

/-- The row and the column up to the closing bracket of an array. -/
def items? (s : List Char) : Option (Position × List Char) := do
  let (row, rest) ← word? (skipBlanks s)
  match skipBlanks rest with
  | ',' :: rest =>
    let (col, rest) ← word? (skipBlanks rest)
    match skipBlanks rest with
    | ']' :: rest => return (⟨row, col⟩, rest)
    | _ => none
  | _ => none

/-- The position that a text describes, with white space around it. -/
def ofJson? (text : String) : Option Position := do
  let s := skipBlanks text.toList
  let (p, rest) ←
    match s with
    | '{' :: rest => members? (2 * s.length + 2) none none rest
    | '[' :: rest => items? rest
    | _ => none
  if (skipBlanks rest).isEmpty then return p else none

end NameScope.Position
