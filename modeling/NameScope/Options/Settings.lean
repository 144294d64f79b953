import NameScope.Options.Basic
import NameScope.Toml.Document

/-
  Options as a settings document.  Each option has a key, a document may leave any of them out, and
  no other key is allowed.  `toToml?` writes all three; it refuses a number of suggestions that is
  no 64-bit number with a sign, as no document can hold it.
-/

namespace NameScope

namespace Options

/-- The greatest number that a document can hold. -/
def maxWritten : Nat := 0x7fffffffffffffff

/-- The document that says what the options are. -/
def toToml? (o : Options) : Option String :=
  if o.maxSuggestions ≤ maxWritten then
    some ("shadow_policy = \"" ++ o.rule.text ++ "\"\n" ++
      "max_suggestions = " ++ toString o.maxSuggestions ++ "\n" ++
      "allow_param_initializers = " ++ toString o.allowParamInit ++ "\n")
  else none

/-- Whether a value has nothing in it. -/
def isVacant : Toml.Value → Bool
  | .array [] | .table _ [] => true
  | _ => false

/-- A rule is given by its name, or by a table that has the name as its only key, with nothing in
it. -/
def ruleOf? : Toml.Value → Option RedeclarationRule
  | .text name => RedeclarationRule.ofText? name
  | .table _ [(name, v)] => if isVacant v then RedeclarationRule.ofText? name else none
  | _ => none

def countOf? : Toml.Value → Option Nat
  | .integer (.ofNat n) => some n
  | _ => none

def flagOf? : Toml.Value → Option Bool
  | .boolean b => some b
  | _ => none

/-- The options with one of them set. -/
def set? (o : Options) (key : String) (v : Toml.Value) : Option Options :=
  if key = "shadow_policy" then (ruleOf? v).map fun rule => { o with rule := rule }
  else if key = "max_suggestions" then (countOf? v).map fun n => { o with maxSuggestions := n }
  else if key = "allow_param_initializers" then
    (flagOf? v).map fun b => { o with allowParamInit := b }
  else none

/-- The defaults, overridden by the entries of a document. -/
def ofEntries? (t : Toml.Entries) : Option Options :=
  t.foldlM (fun o (key, v) => o.set? key v) {}

/-- The options that a document describes. -/
def ofToml? (document : String) : Option Options := Toml.read? document >>= ofEntries?

end Options

/-- Why no options come from a settings document. -/
inductive OptionsFault where
  /-- The document is malformed, or its settings are. -/
  | malformed (path : Option String)
  /-- There is no file at the path, or it holds no text. -/
  | unreadable (path : String)
deriving DecidableEq

def OptionsFault.message : OptionsFault → String
  | malformed none => "Failed to parse binder options"
  | malformed (some path) => "Failed to parse binder options: " ++ path
  | unreadable path => "Failed to read binder options: " ++ path

namespace Options

def ofDocument (document : String) : Except OptionsFault Options :=
  match ofToml? document with
  | some o => .ok o
  | none => .error (.malformed none)

/-- Reads the options from the bytes of the file at `path`, if there is such a file. -/
def ofFile (path : String) (contents : Option ByteArray) : Except OptionsFault Options :=
  match contents.bind String.fromUTF8? with
  | none => .error (.unreadable path)
  | some document =>
    match ofToml? document with
    | some o => .ok o
    | none => .error (.malformed (some path))

end Options

end NameScope
