import NameScope.Text.Invisible

/-
  Text between double quotes.  The quote and the backslash get a backslash in front, four controls
  have a letter of their own, other invisible characters are written by number, and every other
  character stands for itself.
-/

namespace NameScope.Text

/-- How a character is written between double quotes. -/
def escape (c : Char) : List Char :=
  match c with
  | '"' => ['\\', '"']
  | '\\' => ['\\', '\\']
  | '\x00' => ['\\', '0']
  | '\t' => ['\\', 't']
  | '\r' => ['\\', 'r']
  | '\n' => ['\\', 'n']
  | c =>
    if isInvisible c then ['\\', 'u', '{'] ++ Nat.toDigits 16 c.toNat ++ ['}'] else [c]

/-- The text between double quotes. -/
def quoted (s : String) : String :=
  String.ofList ('"' :: (s.toList.flatMap escape ++ ['"']))

end NameScope.Text
