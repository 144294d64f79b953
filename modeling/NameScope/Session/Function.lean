import NameScope.Session.Basic

/-
  A function whose body is being read.  Its name is bound before its parameters, so that the body
  may use it; the parameters and the outermost block of the body share a block.  A function ends in
  one of two ways: `close` adds it to the unit, `abandon` takes back what opening it has bound.
-/

namespace NameScope

/-- A session with a function at work.  `bound` is the name of the function if opening the function
has bound it. -/
structure OpenFunction where
  session : Session
  func : Func Decl
  bound : Option String

namespace OpenFunction

def blocks (f : OpenFunction) : Blocks := f.func.scope.blocks

def setBlocks (f : OpenFunction) (b : Blocks) : OpenFunction :=
  { f with func := { f.func with scope := { f.func.scope with blocks := b } } }

def report (f : OpenFunction) (d : Diagnostic) : OpenFunction :=
  { f with session := f.session.report d }

/-- The number of open blocks. -/
def depth (f : OpenFunction) : Nat := f.blocks.depth

def enter (f : OpenFunction) : OpenFunction := f.setBlocks f.blocks.enter

/-- Leaves the innermost block and gives its table; a fault here is the caller's, and is not
reported. -/
def exit (f : OpenFunction) : Except ScopeFault (NameTable Binding × OpenFunction) := do
  let (table, blocks) ← f.blocks.exit
  return (table, f.setBlocks blocks)

/-- Binds a name in the innermost block, or reports why it cannot be bound; nothing is done without
a name. -/
def bindLocal (f : OpenFunction) (name : String) (b : Binding) : OpenFunction :=
  if name = "" then f
  else
    match f.blocks.declare name b with
    | .ok blocks => f.setBlocks blocks
    | .error fault => f.report (.scope fault)

/-- Binds a parameter and reports an initializer that is not allowed. -/
def bindParam (f : OpenFunction) (p : Variable) : OpenFunction :=
  let f :=
    if p.init.isSome ∧ ¬ f.session.options.allowParamInit then
      f.report (.initializedParameter p.name p.pos)
    else f
  f.bindLocal p.name ⟨p.type, p.pos⟩

/-- Adds a variable to the innermost block.  Its place is the given one, or else its own. -/
def declare (f : OpenFunction) (v : Variable) (pos : Option Position := none) : OpenFunction :=
  let f := f.bindLocal v.name ⟨v.type, pos <|> v.pos⟩
  { f with func := { f.func with scope := f.func.scope.addDecl (.var v) } }

/-- The type of the nearest visible binding: in the blocks, innermost first, or else global. -/
def lookup? (f : OpenFunction) (name : String) : Option TypeUse :=
  ((f.blocks.lookup? name).map (·.type)) <|> f.session.globalType? name

/-- The visible names in the order in which a look-up meets them. -/
def visibleNames (f : OpenFunction) : List String :=
  f.blocks.visibleNames ++ f.session.unit.table.names

/-- Looks a name up, and reports a name that is not visible together with names that are like it. -/
def resolve (f : OpenFunction) (name : String) (pos : Option Position) :
    Option TypeUse × OpenFunction :=
  match f.lookup? name with
  | some type => (some type, f)
  | none =>
    let near := Spelling.nearest name f.visibleNames f.session.options.maxSuggestions
    (none, f.report (.undefined name pos near))

/-- Adds the function to the unit with all its blocks closed, and gives its position there. -/
def close (f : OpenFunction) : Nat × Session :=
  let f := f.setBlocks f.blocks.closeAll
  (f.session.unit.decls.length, f.session.addDecl (.func f.func))

/-- Drops the function: its name is unbound if opening it has bound it, and the reports stay. -/
def abandon (f : OpenFunction) : Session :=
  match f.bound with
  | none => f.session
  | some name => { f.session with unit := f.session.unit.unbind name }

end OpenFunction

/-- Begins a function: binds its name, opens a block and binds the parameters in it.  The place of
the function is the given one, or else its own. -/
def Session.openFunction (s : Session) (func : Func Decl) (pos : Option Position := none) :
    OpenFunction :=
  let fresh := func.name ≠ "" && (s.unit.lookup? func.name).isNone
  let s := s.bindGlobal func.name ⟨func.type, pos <|> func.pos⟩
  let blocks := { func.scope.blocks with rule := s.options.rule }
  let f : OpenFunction := ⟨s, func, if fresh then some func.name else none⟩
  func.params.foldl OpenFunction.bindParam (f.setBlocks blocks.enter)

end NameScope
