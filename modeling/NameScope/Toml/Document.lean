import NameScope.Toml.Lexeme
import NameScope.Toml.Value

/-
  Settings documents: TOML 1.0 without what no setting can hold, which is floating-point numbers,
  dates and times, and arrays of tables.  A document is a list of statements, one a line: a header
  opens a table, and a setting adds a value to the table whose header came last.
-/

namespace NameScope.Toml

/-- A dotted key: the parts before the last, and the last. -/
structure Key where
  path : List String
  last : String

/-- A dotted key with blanks around its parts.  The first argument bounds the number of parts. -/
def key? : Nat → List Char → Option (Key × List Char)
  | 0, _ => none
  | bound + 1, s => do
    let (part, rest) ← keyPart? (skipBlanks s)
    match skipBlanks rest with
    | '.' :: rest =>
      let (key, rest) ← key? bound rest
      return ({ key with path := part :: key.path }, rest)
    | rest => return (⟨[], part⟩, rest)

mutual

/-- A value.  The first argument bounds the depth and the length of what is nested in it. -/
def value? : Nat → List Char → Option (Value × List Char)
  | 0, _ => none
  | bound + 1, s =>
    match s with
    | 't' :: 'r' :: 'u' :: 'e' :: rest => some (.boolean true, rest)
    | 'f' :: 'a' :: 'l' :: 's' :: 'e' :: rest => some (.boolean false, rest)
    | '[' :: rest => do
      let (items, rest) ← items? bound (skipGap false rest)
      return (.array items, rest)
    | '{' :: rest =>
      match skipBlanks rest with
      | '}' :: rest => some (.table .braces [], rest)
      | rest => do
        let (entries, rest) ← settings? bound [] rest
        return (.table .braces entries, rest)
    | s =>
      if s.head? = some '"' ∨ s.head? = some '\'' then
        (string? s).map fun (text, rest) => (.text (String.ofList text), rest)
      else (integer? s).map fun (n, rest) => (.integer n, rest)

/-- The values of an array up to its closing bracket; a comma may follow the last. -/
def items? : Nat → List Char → Option (List Value × List Char)
  | 0, _ => none
  | _ + 1, ']' :: rest => some ([], rest)
  | bound + 1, s => do
    let (item, rest) ← value? bound s
    match skipGap false rest with
    | ',' :: rest =>
      let (items, rest) ← items? bound (skipGap false rest)
      return (item :: items, rest)
    | ']' :: rest => return ([item], rest)
    | _ => none

/-- The settings of a table between braces up to its closing brace; `t` holds those before. -/
def settings? : Nat → Entries → List Char → Option (Entries × List Char)
  | 0, _, _ => none
  | bound + 1, t, s => do
    let (key, v, rest) ← setting? bound s
    let t ← t.addSetting .braces key.path key.last v
    match skipBlanks rest with
    | ',' :: rest => settings? bound t rest
    | '}' :: rest => return (t, rest)
    | _ => none

/-- A key, the equals sign and a value. -/
def setting? : Nat → List Char → Option (Key × Value × List Char)
  | 0, _ => none
  | bound + 1, s => do
    let (key, rest) ← key? (bound + 1) s
    match rest with
    | '=' :: rest =>
      let (v, rest) ← value? bound (skipBlanks rest)
      return (key, v, rest)
    | _ => none

end

/-- A line of a document that says something. -/
inductive Statement where
  | header (key : Key)
  | setting (key : Key) (value : Value)

/-- The key of a header between its brackets. -/
def header? (s : List Char) : Option (Key × List Char) := do
  let (key, rest) ← key? (s.length + 1) s
  match rest with
  | ']' :: rest => return (key, rest)
  | _ => none

/-- The statement at the start of a line, and the rest of the line. -/
def statement? (s : List Char) : Option (Statement × List Char) :=
  match s with
  | '[' :: s => (header? s).map fun (key, rest) => (.header key, rest)
  | s => (setting? (2 * s.length + 2) s).map fun (key, v, rest) => (.setting key v, rest)

/-- The statements of a document.  The first argument bounds the number of lines. -/
def statements? : Nat → List Char → Option (List Statement)
  | 0, _ => none
  | bound + 1, s =>
    match skipBlanks s with
    | [] => some []
    | c :: rest =>
      if c = '#' ∨ c = '\n' ∨ c = '\r' then do statements? bound (← lineEnd? (c :: rest))
      else do
        let (statement, rest) ← statement? (c :: rest)
        let statements ← statements? bound (← lineEnd? rest)
        return statement :: statements

/-- The table that statements describe.  `header` is the path of the table at hand. -/
def build (header : List String) (t : Entries) : List Statement → Option Entries
  | [] => some t
  | .header key :: rest => do
    build (key.path ++ [key.last]) (← t.addHeader key.path key.last) rest
  | .setting key v :: rest => do
    build header (← t.addUnder header key.path key.last v) rest

/-- A byte order mark may stand in front of a document. -/
def skipMark : List Char → List Char
  | '\uFEFF' :: rest => rest
  | s => s

/-- The table that a document describes, unless it is malformed. -/
def read? (document : String) : Option Entries := do
  let s := skipMark document.toList
  build [] [] (← statements? (s.length + 1) s)

end NameScope.Toml
