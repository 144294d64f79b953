import NameScope.Text.Combining
import NameScope.Text.Unassigned

/-
  Characters that a reader would not see as such: controls, format marks, private use, separators
  other than the space, combining marks, fillers, and code points without a character.
-/

namespace NameScope.Text

/-- First and last code points of the runs of the general categories `Cc`, `Cf`, `Co`, `Zl`, `Zp`
and `Zs`, without the space. -/
def controlsAndSeparators : List (Nat × Nat) :=
  [(0x0, 0x1F), (0x7F, 0xA0), (0xAD, 0xAD), (0x600, 0x605), (0x61C, 0x61C), (0x6DD, 0x6DD),
   (0x70F, 0x70F), (0x890, 0x891), (0x8E2, 0x8E2), (0x1680, 0x1680), (0x180E, 0x180E),
   (0x2000, 0x200F), (0x2028, 0x202F), (0x205F, 0x2064), (0x2066, 0x206F), (0x3000, 0x3000),
   (0xE000, 0xF8FF), (0xFEFF, 0xFEFF), (0xFFF9, 0xFFFB), (0x110BD, 0x110BD), (0x110CD, 0x110CD),
   (0x13430, 0x1343F), (0x1BCA0, 0x1BCA3), (0x1D173, 0x1D17A), (0xE0001, 0xE0001),
   (0xE0020, 0xE007F), (0xF0000, 0xFFFFD), (0x100000, 0x10FFFD)]

/-- First and last code points of the runs of letters with the property
`Default_Ignorable_Code_Point`: the fillers of Hangul, which stand for a letter that is not there. -/
def fillers : List (Nat × Nat) := [(0x115F, 0x1160), (0x3164, 0x3164), (0xFFA0, 0xFFA0)]

/-- Whether a code point lies in one of the runs. -/
def inRuns (runs : List (Nat × Nat)) (code : Nat) : Bool :=
  runs.any fun (first, last) => first ≤ code && code ≤ last

/-- Whether a character is written by its number rather than as itself.  The first test answers for
the printable characters of ASCII. -/
def isInvisible (c : Char) : Bool :=
  let code := c.toNat
  if 0x20 ≤ code ∧ code < 0x7F then false
  else
    inRuns controlsAndSeparators code || inRuns combining code || inRuns fillers code ||
      inRuns unassigned code

end NameScope.Text
