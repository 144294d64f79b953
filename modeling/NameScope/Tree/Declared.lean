import NameScope.Decl.Basic
import NameScope.Tree.Basic

/-
  What a node of a syntax tree declares.  The name of a declaration is the text of the first
  identifier below its node, and its place is where that identifier stands; its type is what the
  first type specifier names.  A node without a type, or with one that is not known, is malformed.

  The other way round, `declaration`, `function` and `unit` build nodes that declare what they are
  given.
-/

namespace NameScope

/-- Why a tree cannot be read. -/
inductive TreeFault where
  | notUnit (symbol : String)
  | unexpectedChild (symbol : String)
  | untyped (symbol : String)
  | unknownType (name : String)
  | scope (fault : ScopeFault)
  /-- A fault inside the function with the given name. -/
  | inFunction (name : String) (cause : TreeFault)

namespace TreeFault

/-- The messages from the outermost cause to the innermost. -/
def messages : TreeFault → List String
  | notUnit symbol => ["expected a translation_unit, found `" ++ symbol ++ "`"]
  | unexpectedChild symbol => ["unexpected top-level `" ++ symbol ++ "`"]
  | untyped symbol => ["`" ++ symbol ++ "` has no type_specifier"]
  | unknownType name => ["unknown type `" ++ name ++ "`"]
  | scope fault => [fault.message]
  | inFunction name cause => ("in function `" ++ name ++ "`") :: cause.messages

end TreeFault

namespace Tree

/-! ## Parts of a node -/

/-- The first child with the given symbol. -/
def child? (t : Tree) (symbol : String) : Option Tree := t.children.find? (·.symbol = symbol)

/-- The text of the first identifier among the children. -/
def declaredName (t : Tree) : String := ((t.child? "identifier").map (·.label.text)).getD ""

/-- Where the first identifier among the children stands. -/
def declaredPos? (t : Tree) : Option Position := (t.child? "identifier").bind (·.label.pos?)

/-- The name that a node declares. -/
def declared (t : Tree) : Named := ⟨t.declaredName, t.declaredPos?⟩

/-- The type that the first type specifier among the children names. -/
def specifiedType (t : Tree) (types : BuiltinTypes) : Except TreeFault TypeUse :=
  match t.child? "type_specifier" with
  | none => .error (.untyped t.symbol)
  | some specifier =>
    match types.ofName? specifier.label.text with
    | none => .error (.unknownType specifier.label.text)
    | some type => .ok type

/-- The name and the type that a node declares. -/
def declaredValue (t : Tree) (types : BuiltinTypes) : Except TreeFault Valued := do
  return { t.declared with type := ← t.specifiedType types }

/-- The variable that a node declares. -/
def declaredVariable (t : Tree) (types : BuiltinTypes) : Except TreeFault Variable := do
  return { ← t.declaredValue types with }

/-- The structure or the union that a node declares. -/
def declaredRecord (t : Tree) (isStruct : Bool) : Record :=
  { t.declared with isStruct := isStruct }

/-- The enumeration that a node declares; its enumerators have no values. -/
def declaredEnumeration (t : Tree) : Enumeration :=
  { t.declared with
    enumerators := (t.children.filter (·.symbol = "enumerator")).map fun c => ⟨c.label.text, none⟩ }

/-- The function that a node declares, with its parameters but with nothing of its body. -/
def declaredFunc (t : Tree) (types : BuiltinTypes) : Except TreeFault (Func Decl) := do
  let value ← t.declaredValue types
  let lists := t.children.filter (·.symbol = "parameter_list")
  let params ← (lists.flatMap (·.children)).mapM (·.declaredVariable types)
  return { value with params := params }

/-! ## Building nodes -/

/-- The node of a token. -/
def token (symbol text : String) (pos : Position) : Tree := .ofToken ⟨text, symbol, pos⟩

/-- A type specifier and, one column behind it, an identifier. -/
def typedName (type name : String) (pos : Position) : List Tree :=
  [token "type_specifier" type pos,
    token "identifier" name { pos with col := pos.col + UInt32.ofNat (type.length + 1) }]

def declaration (type name : String) (pos : Position) : Tree :=
  reduce "declaration" (typedName type name pos)

def block (statements : List Tree) : Tree := reduce "compound_statement" statements

def function (type name : String) (pos : Position) (params body : List Tree) : Tree :=
  reduce "function_definition"
    (typedName type name pos ++ [reduce "parameter_list" params, block body])

def unit (children : List Tree) : Tree := reduce "translation_unit" children

/-! ## Nodes that declare something -/

variable {t : Tree} {types : BuiltinTypes}

theorem declaredValue_ok {v : Valued} (h : t.declaredValue types = .ok v) :
    v.toNamed = t.declared ∧ t.specifiedType types = .ok v.type := by
  unfold declaredValue at h
  cases ht : t.specifiedType types with
  | error fault => rw [ht] at h; cases h
  | ok type =>
    rw [ht] at h
    cases h
    exact ⟨rfl, rfl⟩

theorem declaredVariable_ok {v : Variable} (h : t.declaredVariable types = .ok v) :
    t.declaredValue types = .ok v.toValued ∧ v.init = none := by
  unfold declaredVariable at h
  cases hv : t.declaredValue types with
  | error fault => rw [hv] at h; cases h
  | ok value =>
    rw [hv] at h
    cases h
    exact ⟨rfl, rfl⟩

/-- A function has the parameters that its parameter lists declare, and nothing of a body yet. -/
theorem declaredFunc_ok {f : Func Decl} (h : t.declaredFunc types = .ok f) :
    t.declaredValue types = .ok f.toValued ∧
      ((t.children.filter (·.symbol = "parameter_list")).flatMap (·.children)).mapM
        (·.declaredVariable types) = .ok f.params ∧
      f.body = none ∧ f.scope = {} := by
  unfold declaredFunc at h
  cases hv : t.declaredValue types with
  | error fault => rw [hv] at h; cases h
  | ok value =>
    rw [hv] at h
    cases hp : ((t.children.filter (·.symbol = "parameter_list")).flatMap (·.children)).mapM
        (·.declaredVariable types) with
    | error fault =>
      simp only [hp] at h
      cases h
    | ok params =>
      simp only [hp] at h
      cases h
      exact ⟨rfl, rfl, rfl, rfl⟩

end Tree

end NameScope
