import NameScope.Position

/-
  What can go wrong with positions in lists and with names in blocks.  Every fault is a cause; its
  wording, its code and its advice are functions of the cause.
-/

namespace NameScope

/-- The lists that are read by position. -/
inductive ListName where
  | declaration
  | parameter
  | enumerator
  | member
  | statement
deriving DecidableEq

def ListName.text : ListName → String
  | declaration => "declaration"
  | parameter => "parameter"
  | enumerator => "enumerator"
  | member => "member"
  | statement => "statement"

/-- A position at or past the end of a list. -/
structure IndexFault where
  list : ListName
  index : Nat
  length : Nat
deriving DecidableEq

namespace IndexFault

def message (f : IndexFault) : String :=
  f.list.text ++ " index " ++ toString f.index ++ " is out of range (length " ++
    toString f.length ++ ")"

def code (_ : IndexFault) : String := "decl::index_out_of_range"

end IndexFault

/-- The element at position `i`, or the fault that says there is none. -/
def elementAt {α : Type} (list : ListName) (items : List α) (i : Nat) : Except IndexFault α :=
  match items[i]? with
  | some a => .ok a
  | none => .error ⟨list, i, items.length⟩

/-- Runs `f` on the element at position `i` and puts its result in that place. -/
def updateAt {α β : Type} (list : ListName) (items : List α) (i : Nat) (f : α → β × α) :
    Except IndexFault (β × List α) := do
  let a ← elementAt list items i
  let (b, a) := f a
  return (b, items.set i a)

/-- Why a name cannot be bound or a block cannot be left. -/
inductive ScopeFault where
  /-- The name has a binding already, made at `first`. -/
  | redeclared (name : String) (first second : Option Position)
  /-- A block is left while none is open. -/
  | underflow
  /-- A name is declared while no block is open. -/
  | outsideBlock (name : String)
deriving DecidableEq

namespace ScopeFault

def message : ScopeFault → String
  | redeclared name first _ =>
    "`" ++ name ++ "` is already declared (first declared at " ++
      Position.textOrUnknown first ++ ")"
  | underflow => "no open scope to exit"
  | outsideBlock name => "cannot declare `" ++ name ++ "` outside of any scope"

def code : ScopeFault → String
  | redeclared .. => "scope::duplicate_declaration"
  | underflow => "scope::underflow"
  | outsideBlock _ => "scope::no_active_scope"

/-- Advice on how to mend the fault. -/
def help? : ScopeFault → Option String
  | redeclared name _ _ => some ("remove or rename one of the declarations of `" ++ name ++ "`")
  | underflow | outsideBlock _ => none

def name? : ScopeFault → Option String
  | redeclared name _ _ | outsideBlock name => some name
  | underflow => none

/-- Where the refused declaration stands, when that is known. -/
def position? : ScopeFault → Option Position
  | redeclared _ _ second => second
  | underflow | outsideBlock _ => none

end ScopeFault

end NameScope
