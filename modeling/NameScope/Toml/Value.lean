/-
  Values of a settings document, and tables as they grow.  How a table came to be decides what may
  still be added to it: a table that was only implied by a longer header may get a header of its
  own, a table made by dotted keys may get more dotted keys, and a table between braces is closed.
-/

namespace NameScope.Toml

/-- What made a table. -/
inductive Origin where
  /-- It is written between braces. -/
  | braces
  /-- A header names a table inside it. -/
  | implied
  /-- A dotted key names a value inside it. -/
  | dotted
  /-- It has a header of its own, or is the document itself. -/
  | header
deriving DecidableEq

inductive Value where
  | text (s : String)
  | integer (n : Int)
  | boolean (b : Bool)
  | array (items : List Value)
  | table (origin : Origin) (entries : List (String × Value))

/-- The entries of a table, in the order in which their keys were first met. -/
abbrev Entries := List (String × Value)

namespace Entries

/-- Replaces the value of a key where it stands, or appends the key. -/
def set (key : String) (v : Value) : Entries → Entries
  | [] => [(key, v)]
  | (k, old) :: rest => if k = key then (k, v) :: rest else (k, old) :: set key v rest

/-- Changes the table at the end of a path, where `f` is given its origin.  A table that is missing
on the way is made with the origin `fresh`; one that is there must have an origin that `admits`
lets pass. -/
def updateTable (fresh : Origin) (admits : Origin → Bool)
    (f : Origin → Entries → Option Entries) (origin : Origin) :
    List String → Entries → Option Entries
  | [], t => f origin t
  | key :: path, t =>
    match t.lookup key with
    | none => do
      let inner ← updateTable fresh admits f fresh path []
      return t.set key (.table fresh inner)
    | some (.table o inner) =>
      if admits o then do
        let inner ← updateTable fresh admits f o path inner
        return t.set key (.table o inner)
      else none
    | some _ => none

/-- Adds a value under a dotted key to a table of the given origin.  The key must be new, and a
table that only a header implies is not extended by dotted keys. -/
def addSetting (origin : Origin) (path : List String) (key : String) (v : Value) (t : Entries) :
    Option Entries :=
  updateTable .dotted (fun o => o = .implied || o = .dotted)
    (fun o t => if o = .implied || (t.lookup key).isSome then none else some (t.set key v))
    origin path t

/-- Gives the table with the given path a header, which it must not have yet. -/
def addHeader (path : List String) (key : String) (t : Entries) : Option Entries :=
  updateTable .implied (· ≠ .braces)
    (fun _ t =>
      match t.lookup key with
      | none => some (t.set key (.table .header []))
      | some (.table .implied inner) => some (t.set key (.table .header inner))
      | some _ => none)
    .header path t

/-- Adds a value under a dotted key to the table that has the given header. -/
def addUnder (header : List String) (path : List String) (key : String) (v : Value)
    (t : Entries) : Option Entries :=
  updateTable .implied (· ≠ .braces) (fun o t => t.addSetting o path key v) .header header t

end Entries

end NameScope.Toml
