import NameScope.Blocks

/-
  Declarations.  A declaration is one of ten kinds, and what it carries grows in layers: a name; a
  type on top of a name; an initializer on top of a typed name.  A function owns the blocks of its
  body, and a unit owns the global names, so declarations nest to any depth.
-/

namespace NameScope

/-- The blocks of a function body, and the declarations made in it, in order.  Leaving a block
closes its table but keeps its declarations. -/
structure Scope (δ : Type) where
  blocks : Blocks := {}
  decls : List δ := []

namespace Scope

variable {δ : Type}

def addDecl (s : Scope δ) (d : δ) : Scope δ := { s with decls := s.decls ++ [d] }

/-- The declaration at position `i`. -/
def decl (s : Scope δ) (i : Nat) : Except IndexFault δ := elementAt .declaration s.decls i

/-- Runs `f` on the declaration at position `i`. -/
def updateDecl {β : Type} (s : Scope δ) (i : Nat) (f : δ → β × δ) :
    Except IndexFault (β × Scope δ) := do
  let (b, decls) ← updateAt .declaration s.decls i f
  return (b, { s with decls := decls })

end Scope

/-- The global names, declarations and statements of a unit, each in source order. -/
structure Globals (δ : Type) where
  table : NameTable Binding := {}
  decls : List δ := []
  stmts : List StmtRef := []

namespace Globals

variable {δ : Type}

def addDecl (g : Globals δ) (d : δ) : Globals δ := { g with decls := g.decls ++ [d] }

def addStmt (g : Globals δ) (s : StmtRef) : Globals δ := { g with stmts := g.stmts ++ [s] }

/-- The declaration at position `i`. -/
def decl (g : Globals δ) (i : Nat) : Except IndexFault δ := elementAt .declaration g.decls i

/-- Runs `f` on the declaration at position `i`. -/
def updateDecl {β : Type} (g : Globals δ) (i : Nat) (f : δ → β × δ) :
    Except IndexFault (β × Globals δ) := do
  let (b, decls) ← updateAt .declaration g.decls i f
  return (b, { g with decls := decls })

/-- The statement at position `i`. -/
def stmt (g : Globals δ) (i : Nat) : Except IndexFault StmtRef := elementAt .statement g.stmts i

/-- The binding of a global name. -/
def lookup? (g : Globals δ) (name : String) : Option Binding := g.table.get? name

/-- Binds a global name, unless it is bound already: the first declaration wins. -/
def declare (g : Globals δ) (name : String) (new : Binding) : Except ScopeFault (Globals δ) :=
  match g.lookup? name with
  | some old => .error (.redeclared name old.pos new.pos)
  | none => .ok { g with table := g.table.insert name new }

/-- Unbinds a global name. -/
def unbind (g : Globals δ) (name : String) : Globals δ :=
  { g with table := g.table.erase name }

/-- Unbinds a global name, and gives what it was bound to. -/
def take (g : Globals δ) (name : String) : Option Binding × Globals δ :=
  let (old, table) := g.table.take name
  (old, { g with table := table })

/-- Unbinds every global name. -/
def unbindAll (g : Globals δ) : Globals δ := { g with table := .empty }

end Globals

/-- A name and the place where it is declared. -/
structure Named where
  name : String
  pos : Option Position := none
deriving DecidableEq

/-- A name with a type. -/
structure Valued extends Named where
  type : TypeUse
deriving DecidableEq

/-- A variable or a parameter, perhaps with an initializer. -/
structure Variable extends Valued where
  init : Option ExprRef := none
deriving DecidableEq

/-- A structure or a union. -/
structure Record extends Named where
  members : List StmtRef := []
  isStruct : Bool := true
deriving DecidableEq

namespace Record

def isUnion (r : Record) : Bool := !r.isStruct

/-- Whether the record has a tag to refer to it by. -/
def hasTag (r : Record) : Bool := r.name ≠ ""

def addMember (r : Record) (s : StmtRef) : Record := { r with members := r.members ++ [s] }

/-- The member at position `i`. -/
def member (r : Record) (i : Nat) : Except IndexFault StmtRef := elementAt .member r.members i

end Record

/-- A name of an enumeration, perhaps with a value of its own. -/
structure Enumerator where
  name : String
  value : Option ExprRef := none
deriving DecidableEq

structure Enumeration extends Named where
  enumerators : List Enumerator := []
deriving DecidableEq

namespace Enumeration

/-- Whether the enumeration has a tag to refer to it by. -/
def hasTag (e : Enumeration) : Bool := e.name ≠ ""

def addEnumerator (e : Enumeration) (new : Enumerator) : Enumeration :=
  { e with enumerators := e.enumerators ++ [new] }

/-- The enumerator at position `i`. -/
def enumerator (e : Enumeration) (i : Nat) : Except IndexFault Enumerator :=
  elementAt .enumerator e.enumerators i

/-- Gives the enumerator at position `i` a value. -/
def setValue (e : Enumeration) (i : Nat) (value : ExprRef) : Except IndexFault Enumeration := do
  let (_, enumerators) ← updateAt .enumerator e.enumerators i fun c =>
    ((), { c with value := some value })
  return { e with enumerators := enumerators }

end Enumeration

/-- A function: its type is the type that it returns. -/
structure Func (δ : Type) extends Valued where
  params : List Variable := []
  body : Option StmtRef := none
  scope : Scope δ := {}

namespace Func

variable {δ : Type}

/-- A function with a body is a definition, not a declaration only. -/
def isDefinition (f : Func δ) : Bool := f.body.isSome

def addParam (f : Func δ) (p : Variable) : Func δ := { f with params := f.params ++ [p] }

/-- The parameter at position `i`. -/
def param (f : Func δ) (i : Nat) : Except IndexFault Variable := elementAt .parameter f.params i

end Func

/-- A declaration of any kind. -/
inductive Decl where
  | unit (globals : Globals Decl)
  | named (decl : Named)
  | typeName (decl : Named)
  | record (decl : Record)
  | enumeration (decl : Enumeration)
  | value (decl : Valued)
  | declarator (decl : Valued)
  | func (decl : Func Decl)
  | var (decl : Variable)
  | param (decl : Variable)

instance : Inhabited Decl := ⟨.unit {}⟩

end NameScope
