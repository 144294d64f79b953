import NameScope.Decl.Layers
import NameScope.Options.Basic
import NameScope.Session.Diagnostic
import NameScope.Spelling.Nearest

/-
  A session gathers the declarations of a unit and keeps track of the names that are visible.
  Values are bound in the global table; records and enumerations have a name space of their own,
  the tags.  A declaration that cannot be bound is reported and kept all the same.
-/

namespace NameScope

/-- What a tag stands for, and the place of its declaration when that is known. -/
structure Tag where
  kind : Decl.Kind
  pos : Option Position := none
deriving DecidableEq

structure Session where
  unit : Globals Decl := {}
  tags : NameTable Tag := {}
  options : Options := {}
  diagnostics : List Diagnostic := []

namespace Session

def hasErrors (s : Session) : Bool := !s.diagnostics.isEmpty

def report (s : Session) (d : Diagnostic) : Session :=
  { s with diagnostics := s.diagnostics ++ [d] }

def addDecl (s : Session) (d : Decl) : Session := { s with unit := s.unit.addDecl d }

/-- The kind of declaration that a tag stands for. -/
def tagKind? (s : Session) (name : String) : Option Decl.Kind := (s.tags.get? name).map (·.kind)

/-- The type of a global name. -/
def globalType? (s : Session) (name : String) : Option TypeUse :=
  (s.unit.lookup? name).map (·.type)

/-- Binds a global name, or reports why it cannot be bound; nothing is done without a name. -/
def bindGlobal (s : Session) (name : String) (b : Binding) : Session :=
  if name = "" then s
  else
    match s.unit.declare name b with
    | .ok unit => { s with unit := unit }
    | .error fault => s.report (.scope fault)

/-- Binds a tag, or reports that it is bound already; nothing is done without a name. -/
def bindTag (s : Session) (name : String) (tag : Tag) : Session :=
  if name = "" then s
  else
    match s.tags.get? name with
    | some old => s.report (.scope (.redeclared name old.pos tag.pos))
    | none => { s with tags := s.tags.insert name tag }

/-- Binds the name of a top-level declaration: a tag for a record or an enumeration, a global name
for a declaration with a type. -/
def bindDecl (s : Session) (d : Decl) (pos : Option Position) : Session :=
  match d with
  | .record r => s.bindTag r.name ⟨.record, pos⟩
  | .enumeration e => s.bindTag e.name ⟨.enumeration, pos⟩
  | d =>
    match d.value? with
    | some v => s.bindGlobal v.name ⟨v.type, pos⟩
    | none => s

/-- Adds a top-level declaration.  Its place is the given one, or else its own. -/
def declare (s : Session) (d : Decl) (pos : Option Position := none) : Session :=
  (s.bindDecl d (pos <|> d.pos?)).addDecl d

end Session

end NameScope
