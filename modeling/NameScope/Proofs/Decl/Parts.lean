import NameScope.Decl.Layers

/-
  Parts and layers.  What a declaration holds are parts: a name, a place, a type, and so on
  (`Decl.part?`); with its kind, they are all there is to it (`Decl.eq_of_parts`).  A part can be
  reached through several layers, of which one contains another, and each layer has accessors of its
  own.  Which layers a declaration has is a matter of its kind, and so is which parts it has.
  Whatever layer a part is read through, it is the same (`Decl.read?_eq`).
-/

namespace NameScope

/-! ## Parts -/

/-- The parts that declarations have. -/
inductive Decl.Part where
  | name
  | pos
  | type
  | init
  | members
  | isStruct
  | enumerators
  | params
  | body
  | scope
  | globals
deriving DecidableEq

/-- What stands in a part. -/
abbrev Decl.Part.Value : Decl.Part → Type
  | name => String
  | pos => Option Position
  | type => TypeUse
  | init => Option ExprRef
  | members => List StmtRef
  | isStruct => Bool
  | enumerators => List Enumerator
  | params => List Variable
  | body => Option StmtRef
  | scope => Scope Decl
  | globals => Globals Decl

/-- The kinds of declarations that have the part. -/
def Decl.Part.isOf : Decl.Part → Decl.Kind → Bool
  | name, k | pos, k => k.isNamed
  | type, k => k.isValue
  | init, k => k.isVariable
  | members, k | isStruct, k => k = .record
  | enumerators, k => k = .enumeration
  | params, k | body, k | scope, k => k = .func
  | globals, k => k = .unit

def Named.part? (n : Named) : (q : Decl.Part) → Option q.Value
  | .name => some n.name
  | .pos => some n.pos
  | _ => none

def Valued.part? (v : Valued) : (q : Decl.Part) → Option q.Value
  | .type => some v.type
  | q => v.toNamed.part? q

def Variable.part? (v : Variable) : (q : Decl.Part) → Option q.Value
  | .init => some v.init
  | q => v.toValued.part? q

def Record.part? (r : Record) : (q : Decl.Part) → Option q.Value
  | .members => some r.members
  | .isStruct => some r.isStruct
  | q => r.toNamed.part? q

def Enumeration.part? (e : Enumeration) : (q : Decl.Part) → Option q.Value
  | .enumerators => some e.enumerators
  | q => e.toNamed.part? q

def Func.part? (f : Func Decl) : (q : Decl.Part) → Option q.Value
  | .params => some f.params
  | .body => some f.body
  | .scope => some f.scope
  | q => f.toValued.part? q

/-- What stands in a part of a declaration, if it has that part. -/
def Decl.part? : Decl → (q : Decl.Part) → Option q.Value
  | unit g, .globals => some g
  | unit _, _ => none
  | named n, q | typeName n, q => n.part? q
  | record r, q => r.part? q
  | enumeration e, q => e.part? q
  | value v, q | declarator v, q => v.part? q
  | func f, q => f.part? q
  | var v, q | param v, q => v.part? q

theorem Decl.isSome_part? (d : Decl) (q : Decl.Part) : (d.part? q).isSome = q.isOf d.kind := by
  cases d <;> cases q <;> rfl

/-! ### Nothing but parts -/

theorem Named.eq_of_parts {m n : Named} (h : ∀ q, m.part? q = n.part? q) : m = n := by
  obtain ⟨name, pos⟩ := m
  obtain rfl : name = n.name := Option.some.inj (h .name)
  obtain rfl : pos = n.pos := Option.some.inj (h .pos)
  rfl

theorem Valued.eq_of_parts {v w : Valued} (h : ∀ q, v.part? q = w.part? q) : v = w := by
  obtain ⟨⟨name, pos⟩, type⟩ := v
  obtain rfl : name = w.name := Option.some.inj (h .name)
  obtain rfl : pos = w.pos := Option.some.inj (h .pos)
  obtain rfl : type = w.type := Option.some.inj (h .type)
  rfl

theorem Variable.eq_of_parts {v w : Variable} (h : ∀ q, v.part? q = w.part? q) : v = w := by
  obtain ⟨⟨⟨name, pos⟩, type⟩, init⟩ := v
  obtain rfl : name = w.name := Option.some.inj (h .name)
  obtain rfl : pos = w.pos := Option.some.inj (h .pos)
  obtain rfl : type = w.type := Option.some.inj (h .type)
  obtain rfl : init = w.init := Option.some.inj (h .init)
  rfl

theorem Record.eq_of_parts {r s : Record} (h : ∀ q, r.part? q = s.part? q) : r = s := by
  obtain ⟨⟨name, pos⟩, members, isStruct⟩ := r
  obtain rfl : name = s.name := Option.some.inj (h .name)
  obtain rfl : pos = s.pos := Option.some.inj (h .pos)
  obtain rfl : members = s.members := Option.some.inj (h .members)
  obtain rfl : isStruct = s.isStruct := Option.some.inj (h .isStruct)
  rfl

theorem Enumeration.eq_of_parts {e f : Enumeration} (h : ∀ q, e.part? q = f.part? q) : e = f := by
  obtain ⟨⟨name, pos⟩, enumerators⟩ := e
  obtain rfl : name = f.name := Option.some.inj (h .name)
  obtain rfl : pos = f.pos := Option.some.inj (h .pos)
  obtain rfl : enumerators = f.enumerators := Option.some.inj (h .enumerators)
  rfl

theorem Func.eq_of_parts {f g : Func Decl} (h : ∀ q, f.part? q = g.part? q) : f = g := by
  obtain ⟨⟨⟨name, pos⟩, type⟩, params, body, scope⟩ := f
  obtain rfl : name = g.name := Option.some.inj (h .name)
  obtain rfl : pos = g.pos := Option.some.inj (h .pos)
  obtain rfl : type = g.type := Option.some.inj (h .type)
  obtain rfl : params = g.params := Option.some.inj (h .params)
  obtain rfl : body = g.body := Option.some.inj (h .body)
  obtain rfl : scope = g.scope := Option.some.inj (h .scope)
  rfl

/-- Declarations of one kind with the same parts are the same. -/
theorem Decl.eq_of_parts {d e : Decl} (hkind : d.kind = e.kind) (h : ∀ q, d.part? q = e.part? q) :
    d = e := by
  cases d <;> cases e <;> cases hkind
  case unit.unit g g' => exact congrArg unit (Option.some.inj (h .globals))
  case named.named n n' => exact congrArg named (Named.eq_of_parts h)
  case typeName.typeName n n' => exact congrArg typeName (Named.eq_of_parts h)
  case record.record r r' => exact congrArg record (Record.eq_of_parts h)
  case enumeration.enumeration e e' => exact congrArg enumeration (Enumeration.eq_of_parts h)
  case value.value v v' => exact congrArg value (Valued.eq_of_parts h)
  case declarator.declarator v v' => exact congrArg declarator (Valued.eq_of_parts h)
  case func.func f f' => exact congrArg func (Func.eq_of_parts h)
  case var.var v v' => exact congrArg var (Variable.eq_of_parts h)
  case param.param v v' => exact congrArg param (Variable.eq_of_parts h)

/-! ## Layers -/

/-- The layers through which parts are reached. -/
inductive Decl.Layer where
  | named
  | value
  | var
  | param
  | record
  | enumeration
  | func
deriving DecidableEq

namespace Decl.Layer

abbrev Carrier : Layer → Type
  | named => Named
  | value => Valued
  | var | param => Variable
  | record => Record
  | enumeration => Enumeration
  | func => Func Decl

/-- The kinds of declarations that have the layer. -/
def isOf : Layer → Kind → Bool
  | named, k => k.isNamed
  | value, k => k.isValue
  | var, k => k.isVariable
  | param, k => k = .param
  | record, k => k = .record
  | enumeration, k => k = .enumeration
  | func, k => k = .func

/-- Whether the layer has accessors for the part. -/
def offers : Layer → Part → Bool
  | _, .name | _, .pos => true
  | value, .type | var, .type | param, .type | func, .type => true
  | var, .init | param, .init => true
  | record, .members | record, .isStruct => true
  | enumeration, .enumerators => true
  | func, .params | func, .body | func, .scope => true
  | _, _ => false

/-- What the layer gives for the part, if it offers it. -/
def part? : (l : Layer) → l.Carrier → (q : Part) → Option q.Value
  | named => Named.part?
  | value => Valued.part?
  | var | param => Variable.part?
  | record => Record.part?
  | enumeration => Enumeration.part?
  | func => Func.part?

end Decl.Layer

namespace Decl

/-- The layer of a declaration, if it has it. -/
def layer? (d : Decl) : (l : Layer) → Option l.Carrier
  | .named => d.named?
  | .value => d.value?
  | .var => d.var?
  | .param => d.param?
  | .record => d.record?
  | .enumeration => d.enumeration?
  | .func => d.func?

/-- What is read of a part through a layer. -/
def read? (d : Decl) (l : Layer) (q : Part) : Option q.Value := (d.layer? l).bind (l.part? · q)

theorem isSome_layer? (d : Decl) (l : Layer) : (d.layer? l).isSome = l.isOf d.kind := by
  cases d <;> cases l <;> rfl

/-- Through every layer that the declaration has and that offers the part, the part itself is
read. -/
theorem read?_eq (d : Decl) (l : Layer) (q : Part) :
    d.read? l q = if l.isOf d.kind && l.offers q then d.part? q else none := by
  cases d <;> cases l <;> cases q <;> rfl

theorem isOf_of_offers {k : Kind} {l : Layer} {q : Part} (hlayer : l.isOf k = true)
    (hoffers : l.offers q = true) : q.isOf k = true := by
  cases l <;> cases q <;>
    first | exact hlayer | (cases hoffers; done) | (cases k <;> first | rfl | cases hlayer)

/-- The layers of a declaration agree with its kind, and with each other on every part. -/
structure Coherent (d : Decl) : Prop where
  named : d.named?.isSome = d.kind.isNamed
  value : d.value?.isSome = d.kind.isValue
  typed : d.type?.isSome = d.kind.isValue
  var : d.var?.isSome = d.kind.isVariable
  scope : d.scope?.isSome = decide (d.kind = .func)
  globals : d.globals?.isSome = decide (d.kind = .unit)
  isScope : d.isScope = d.kind.introducesScope
  name? : d.name? = d.part? .name
  pos? : d.pos? = (d.part? .pos).join
  type? : d.type? = d.part? .type
  read? : ∀ l q, d.read? l q = if l.isOf d.kind && l.offers q then d.part? q else none
  union : ∀ r, d.record? = some r → r.isUnion = !r.isStruct

theorem coherent (d : Decl) : d.Coherent where
  named := d.isSome_layer? .named
  value := d.isSome_layer? .value
  typed := by cases d <;> rfl
  var := d.isSome_layer? .var
  scope := by cases d <;> rfl
  globals := by cases d <;> rfl
  isScope := by cases d <;> rfl
  name? := by cases d <;> rfl
  pos? := by cases d <;> rfl
  type? := by cases d <;> rfl
  read? := d.read?_eq
  union _ _ := rfl

/-! ## New declarations -/

/-- What stands in a part at first, but for the name and the type, which are given. -/
def Part.initial (name : String) (type : TypeUse) : (q : Part) → q.Value
  | .name => name
  | .type => type
  | .pos | .init | .body => none
  | .members | .enumerators | .params => []
  | .isStruct => true
  | .scope => {}
  | .globals => { table := .empty }

/-- A new declaration of a kind, with the name and the type if the kind has them. -/
def fresh (name : String) (type : TypeUse) : Kind → Decl
  | .unit => unit { table := .empty }
  | .named => named { name }
  | .typeName => typeName { name }
  | .record => record { name }
  | .enumeration => enumeration { name }
  | .value => value { name, type }
  | .declarator => declarator { name, type }
  | .func => func { name, type }
  | .var => var { name, type }
  | .param => param { name, type }

theorem kind_fresh (name : String) (type : TypeUse) (k : Kind) : (fresh name type k).kind = k := by
  cases k <;> rfl

theorem part?_fresh (name : String) (type : TypeUse) (k : Kind) (q : Part) :
    (fresh name type k).part? q = if q.isOf k then some (q.initial name type) else none := by
  cases k <;> cases q <;> rfl

end Decl

end NameScope
