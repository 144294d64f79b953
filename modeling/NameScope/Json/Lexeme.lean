/-
  The grammar of JSON: white space, strings, numbers, and values to skip.  A reader gives what it
  has read together with the rest of the text, or nothing if the text does not go on as it should.
-/

namespace NameScope.Json

def isBlank (c : Char) : Bool := c = ' ' || c = '\t' || c = '\n' || c = '\r'

def skipBlanks (s : List Char) : List Char := s.dropWhile isBlank

/-! ## Strings -/

def hexDigit? (c : Char) : Option Nat :=
  if '0' ≤ c ∧ c ≤ '9' then some (c.toNat - '0'.toNat)
  else if 'a' ≤ c ∧ c ≤ 'f' then some (c.toNat - 'a'.toNat + 10)
  else if 'A' ≤ c ∧ c ≤ 'F' then some (c.toNat - 'A'.toNat + 10)
  else none

/-- The code that a letter after a backslash stands for. -/
def escaped? : Char → Option Nat
  | '"' => some 0x22
  | '\\' => some 0x5C
  | '/' => some 0x2F
  | 'b' => some 0x08
  | 'f' => some 0x0C
  | 'n' => some 0x0A
  | 'r' => some 0x0D
  | 't' => some 0x09
  | _ => none

/-- Where the reader of a string stands. -/
inductive Place where
  /-- Among the characters of the string. -/
  | plain
  /-- After a backslash. -/
  | escape
  /-- In the digits of a code: how many are to come, and the value so far. -/
  | code (left : Nat) (value : Nat)

/-- The codes of a string up to its closing quote.  A code written with four digits may be half of
a surrogate pair. -/
def codes? : Place → List Char → Option (List Nat × List Char)
  | .plain, '"' :: rest => some ([], rest)
  | .plain, '\\' :: rest => codes? .escape rest
  | .plain, c :: rest =>
    if 0x20 ≤ c.toNat then (codes? .plain rest).map fun (cs, rest) => (c.toNat :: cs, rest)
    else none
  | .escape, 'u' :: rest => codes? (.code 4 0) rest
  | .escape, c :: rest => do
    let code ← escaped? c
    (codes? .plain rest).map fun (cs, rest) => (code :: cs, rest)
  | .code (left + 1) value, c :: rest => do
    let value := value * 16 + (← hexDigit? c)
    if left = 0 then (codes? .plain rest).map fun (cs, rest) => (value :: cs, rest)
    else codes? (.code left value) rest
  | _, _ => none

/-- The characters for a list of codes; surrogates must stand in pairs. -/
def chars? : List Nat → Option (List Char)
  | [] => some []
  | hi :: rest =>
    if 0xD800 ≤ hi ∧ hi < 0xDC00 then
      match rest with
      | [] => none
      | lo :: rest =>
        if 0xDC00 ≤ lo ∧ lo < 0xE000 then
          (chars? rest).map (Char.ofNat (0x10000 + (hi - 0xD800) * 0x400 + (lo - 0xDC00)) :: ·)
        else none
    else if 0xDC00 ≤ hi ∧ hi < 0xE000 then none
    else (chars? rest).map (Char.ofNat hi :: ·)

/-- A string. -/
def string? : List Char → Option (String × List Char)
  | '"' :: s => do
    let (codes, rest) ← codes? .plain s
    return (String.ofList (← chars? codes), rest)
  | _ => none

/-- Skips a string, in which surrogates may stand alone. -/
def skipString? : List Char → Option (List Char)
  | '"' :: s => (codes? .plain s).map (·.2)
  | _ => none

/-! ## Numbers -/

/-- Skips at least one digit. -/
def skipDigits? (s : List Char) : Option (List Char) :=
  if s.head?.any Char.isDigit then some (s.dropWhile Char.isDigit) else none

/-- Skips the digits before the point: a zero, or digits that do not start with one. -/
def skipWhole? : List Char → Option (List Char)
  | '0' :: rest => if rest.head?.any Char.isDigit then none else some rest
  | s => skipDigits? s

def skipFraction? : List Char → Option (List Char)
  | '.' :: rest => skipDigits? rest
  | s => some s

def skipExponent? (s : List Char) : Option (List Char) :=
  match s with
  | [] => some []
  | e :: rest =>
    if e = 'e' ∨ e = 'E' then
      match rest with
      | '+' :: rest => skipDigits? rest
      | '-' :: rest => skipDigits? rest
      | rest => skipDigits? rest
    else some s

/-- Skips a number. -/
def skipNumber? (s : List Char) : Option (List Char) :=
  let s :=
    match s with
    | '-' :: s => s
    | s => s
  skipWhole? s >>= skipFraction? >>= skipExponent?

/-- A number without sign, fraction and exponent that fits a 32-bit word. -/
def word? (s : List Char) : Option (UInt32 × List Char) := do
  let rest ← skipWhole? s
  let digits := s.take (s.length - rest.length)
  let n := digits.foldl (fun n c => n * 10 + (c.toNat - '0'.toNat)) 0
  if n < UInt32.size then return (UInt32.ofNat n, rest) else none

/-! ## Values -/

mutual

/-- Skips a value.  The first argument bounds the depth and the length of what is nested in it. -/
def skipValue? : Nat → List Char → Option (List Char)
  | 0, _ => none
  | bound + 1, s =>
    match s with
    | 't' :: 'r' :: 'u' :: 'e' :: rest => some rest
    | 'f' :: 'a' :: 'l' :: 's' :: 'e' :: rest => some rest
    | 'n' :: 'u' :: 'l' :: 'l' :: rest => some rest
    | '[' :: rest =>
      match skipBlanks rest with
      | ']' :: rest => some rest
      | rest => skipItems? bound rest
    | '{' :: rest =>
      match skipBlanks rest with
      | '}' :: rest => some rest
      | rest => skipMembers? bound rest
    | '"' :: rest => skipString? ('"' :: rest)
    | s => skipNumber? s

/-- Skips the values of an array up to its closing bracket. -/
def skipItems? : Nat → List Char → Option (List Char)
  | 0, _ => none
  | bound + 1, s => do
    match skipBlanks (← skipValue? bound (skipBlanks s)) with
    | ',' :: rest => skipItems? bound rest
    | ']' :: rest => return rest
    | _ => none

/-- Skips the members of an object up to its closing brace. -/
def skipMembers? : Nat → List Char → Option (List Char)
  | 0, _ => none
  | bound + 1, s => do
    match skipBlanks (← skipString? (skipBlanks s)) with
    | ':' :: rest =>
      match skipBlanks (← skipValue? bound (skipBlanks rest)) with
      | ',' :: rest => skipMembers? bound rest
      | '}' :: rest => return rest
      | _ => none
    | _ => none

end

end NameScope.Json
