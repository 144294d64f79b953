/-
  The smallest parts of a settings document: blanks, comments, line ends, numbers and strings.  A
  reader gives what it has read together with the rest of the text, or nothing if the text does not
  go on as it should.
-/

namespace NameScope.Toml

def isBlank (c : Char) : Bool := c = ' ' || c = '\t'

/-- A character that may stand in a comment or a string: any but the ASCII controls, of which the
tab is allowed. -/
def isPlain (c : Char) : Bool := c = '\t' || 0x20 ≤ c.toNat && c ≠ '\x7f'

def skipBlanks (s : List Char) : List Char := s.dropWhile isBlank

/-- A line end: a line feed, perhaps after a carriage return. -/
def newline? : List Char → Option (List Char)
  | '\n' :: rest => some rest
  | '\r' :: '\n' :: rest => some rest
  | _ => none

/-- What may stand between the last value of a line and the next line: blanks and a comment. -/
def lineEnd? (s : List Char) : Option (List Char) :=
  let rest :=
    match skipBlanks s with
    | '#' :: comment => comment.dropWhile isPlain
    | s => s
  if rest.isEmpty then some [] else newline? rest

/-- Skips blanks, line ends and comments. -/
def skipGap (inComment : Bool) : List Char → List Char
  | [] => []
  | '\n' :: rest => skipGap false rest
  | '\r' :: '\n' :: rest => skipGap false rest
  | c :: rest =>
    if inComment then if isPlain c then skipGap true rest else c :: rest
    else if isBlank c then skipGap false rest
    else if c = '#' then skipGap true rest
    else c :: rest

/-! ## Integers -/

/-- The value of a digit in the given base, which is at most sixteen. -/
def digit? (base : Nat) (c : Char) : Option Nat :=
  let value :=
    if '0' ≤ c ∧ c ≤ '9' then c.toNat - '0'.toNat
    else if 'a' ≤ c ∧ c ≤ 'f' then c.toNat - 'a'.toNat + 10
    else if 'A' ≤ c ∧ c ≤ 'F' then c.toNat - 'A'.toNat + 10
    else base
  if value < base then some value else none

/-- The value of digits of which any two neighbours may be parted by one underscore. -/
def digitsValue? (base : Nat) (afterDigit : Bool) (value : Nat) : List Char → Option Nat
  | [] => if afterDigit then some value else none
  | '_' :: rest => if afterDigit then digitsValue? base false value rest else none
  | c :: rest => do digitsValue? base true (value * base + (← digit? base c)) rest

/-- The longest run of digits and underscores, and the rest. -/
def digitRun (base : Nat) (s : List Char) : List Char × List Char :=
  s.span fun c => c = '_' || (digit? base c).isSome

/-- Digits in the given base. -/
def digits? (base : Nat) (s : List Char) : Option (Nat × List Char) :=
  let (run, rest) := digitRun base s
  (digitsValue? base false 0 run).map (·, rest)

/-- Decimal digits: a zero stands first only if it stands alone. -/
def decimal? (s : List Char) : Option (Nat × List Char) :=
  let (run, rest) := digitRun 10 s
  if run.head? = some '0' ∧ run ≠ ['0'] then none
  else (digitsValue? 10 false 0 run).map (·, rest)

/-- Numbers are 64-bit words with a sign. -/
def inRange (n : Int) : Bool := -0x8000000000000000 ≤ n && n < 0x8000000000000000

/-- A decimal number, which may have a sign, or a number in base two, eight or sixteen. -/
def integer? (s : List Char) : Option (Int × List Char) := do
  let (n, rest) ←
    match s with
    | '0' :: 'x' :: s => (digits? 16 s).map fun (n, rest) => (Int.ofNat n, rest)
    | '0' :: 'o' :: s => (digits? 8 s).map fun (n, rest) => (Int.ofNat n, rest)
    | '0' :: 'b' :: s => (digits? 2 s).map fun (n, rest) => (Int.ofNat n, rest)
    | '-' :: s => (decimal? s).map fun (n, rest) => (-Int.ofNat n, rest)
    | '+' :: s => (decimal? s).map fun (n, rest) => (Int.ofNat n, rest)
    | s => (decimal? s).map fun (n, rest) => (Int.ofNat n, rest)
  if inRange n then return (n, rest) else none

/-! ## Strings -/

/-- The character with a given code, unless there is none. -/
def charOf? (code : Nat) : Option Char :=
  if code.isValidChar then some (Char.ofNat code) else none

/-- The character that a letter after a backslash stands for. -/
def escaped? : Char → Option Char
  | 'b' => some '\x08'
  | 't' => some '\t'
  | 'n' => some '\n'
  | 'f' => some '\x0c'
  | 'r' => some '\r'
  | '"' => some '"'
  | '\\' => some '\\'
  | _ => none

/-- Where the reader of a string with escapes stands. -/
inductive Place where
  /-- Among the characters of the string. -/
  | plain
  /-- After a backslash. -/
  | escape
  /-- In the digits of a character code: how many are to come, and the value so far. -/
  | code (left : Nat) (value : Nat)
  /-- After a backslash and blanks, where the line has to end. -/
  | lineEnd
  /-- After that line end: blanks and line ends do not count. -/
  | fold

/-- The quotes among the first two characters, and the rest. -/
def extraQuotes (quote : Char) : List Char → List Char × List Char
  | c :: d :: rest =>
    if c = quote then if d = quote then ([c, d], rest) else ([c], d :: rest)
    else ([], c :: d :: rest)
  | [c] => if c = quote then ([c], []) else ([], [c])
  | [] => ([], [])

/-- Puts a character in front of a string that has been read. -/
def prepend (c : Char) : Option (List Char × List Char) → Option (List Char × List Char) :=
  Option.map fun (text, rest) => (c :: text, rest)

/-- A string with escapes up to its closing quote. -/
def basic? : Place → List Char → Option (List Char × List Char)
  | .plain, '"' :: rest => some ([], rest)
  | .plain, '\\' :: rest => basic? .escape rest
  | .plain, c :: rest => if isPlain c then prepend c (basic? .plain rest) else none
  | .escape, 'u' :: rest => basic? (.code 4 0) rest
  | .escape, 'U' :: rest => basic? (.code 8 0) rest
  | .escape, c :: rest => do prepend (← escaped? c) (basic? .plain rest)
  | .code (left + 1) value, c :: rest => do
    let value := value * 16 + (← digit? 16 c)
    if left = 0 then prepend (← charOf? value) (basic? .plain rest)
    else basic? (.code left value) rest
  | _, _ => none

/-- A string with escapes and line ends up to its three closing quotes; one or two quotes more
belong to the string.  A backslash at the end of a line removes the line end and the blanks and
line ends after it. -/
def longBasic? : Place → List Char → Option (List Char × List Char)
  | .plain, '"' :: '"' :: '"' :: rest => some (extraQuotes '"' rest)
  | .plain, '\\' :: rest => longBasic? .escape rest
  | .plain, '\n' :: rest => prepend '\n' (longBasic? .plain rest)
  | .plain, '\r' :: '\n' :: rest => prepend '\n' (longBasic? .plain rest)
  | .plain, c :: rest => if isPlain c then prepend c (longBasic? .plain rest) else none
  | .escape, 'u' :: rest => longBasic? (.code 4 0) rest
  | .escape, 'U' :: rest => longBasic? (.code 8 0) rest
  | .escape, '\n' :: rest => longBasic? .fold rest
  | .escape, '\r' :: '\n' :: rest => longBasic? .fold rest
  | .escape, c :: rest =>
    if isBlank c then longBasic? .lineEnd rest
    else do prepend (← escaped? c) (longBasic? .plain rest)
  | .code (left + 1) value, c :: rest => do
    let value := value * 16 + (← digit? 16 c)
    if left = 0 then prepend (← charOf? value) (longBasic? .plain rest)
    else longBasic? (.code left value) rest
  | .lineEnd, '\n' :: rest => longBasic? .fold rest
  | .lineEnd, '\r' :: '\n' :: rest => longBasic? .fold rest
  | .lineEnd, c :: rest => if isBlank c then longBasic? .lineEnd rest else none
  | .fold, '"' :: '"' :: '"' :: rest => some (extraQuotes '"' rest)
  | .fold, '\\' :: rest => longBasic? .escape rest
  | .fold, '\n' :: rest => longBasic? .fold rest
  | .fold, '\r' :: '\n' :: rest => longBasic? .fold rest
  | .fold, c :: rest =>
    if isBlank c then longBasic? .fold rest
    else if isPlain c then prepend c (longBasic? .plain rest)
    else none
  | _, _ => none

/-- A string without escapes up to its closing quote. -/
def literal? : List Char → Option (List Char × List Char)
  | '\'' :: rest => some ([], rest)
  | c :: rest => if isPlain c then prepend c (literal? rest) else none
  | [] => none

/-- A string without escapes but with line ends, up to its three closing quotes; one or two quotes
more belong to the string. -/
def longLiteral? : List Char → Option (List Char × List Char)
  | '\'' :: '\'' :: '\'' :: rest => some (extraQuotes '\'' rest)
  | '\n' :: rest => prepend '\n' (longLiteral? rest)
  | '\r' :: '\n' :: rest => prepend '\n' (longLiteral? rest)
  | c :: rest => if isPlain c then prepend c (longLiteral? rest) else none
  | [] => none

/-- A line end right after the opening quotes of a long string does not count. -/
def skipNewline (s : List Char) : List Char := (newline? s).getD s

/-- A string of any of the four forms. -/
def string? : List Char → Option (List Char × List Char)
  | '"' :: '"' :: '"' :: s => longBasic? .plain (skipNewline s)
  | '"' :: s => basic? .plain s
  | '\'' :: '\'' :: '\'' :: s => longLiteral? (skipNewline s)
  | '\'' :: s => literal? s
  | _ => none

/-! ## Keys -/

def isBareKeyChar (c : Char) : Bool :=
  'a' ≤ c && c ≤ 'z' || 'A' ≤ c && c ≤ 'Z' || '0' ≤ c && c ≤ '9' || c = '-' || c = '_'

/-- A part of a key: a string on one line, or letters, digits, dashes and underscores. -/
def keyPart? : List Char → Option (String × List Char)
  | '"' :: s => (basic? .plain s).map fun (text, rest) => (String.ofList text, rest)
  | '\'' :: s => (literal? s).map fun (text, rest) => (String.ofList text, rest)
  | s =>
    let (text, rest) := s.span isBareKeyChar
    if text.isEmpty then none else some (String.ofList text, rest)

end NameScope.Toml
