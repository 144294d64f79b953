import NameScope.Decl.Basic

/-
  The layers of a declaration.  The kind says which layers there are: `named?`, `value?` and
  `var?` give the part of a declaration that belongs to a layer, and `mapNamed`, `mapValue` and
  `mapVariable` change that part and nothing else.
-/

namespace NameScope

namespace Decl

inductive Kind where
  | unit
  | named
  | typeName
  | record
  | enumeration
  | value
  | declarator
  | func
  | var
  | param
deriving DecidableEq

namespace Kind

/-- Every kind but a whole unit has a name. -/
def isNamed : Kind → Bool
  | unit => false
  | _ => true

def isType : Kind → Bool
  | typeName | record | enumeration => true
  | _ => false

/-- The kinds that have a type. -/
def isValue : Kind → Bool
  | value | declarator | func | var | param => true
  | _ => false

def isDeclarator : Kind → Bool
  | declarator | func | var | param => true
  | _ => false

def isVariable : Kind → Bool
  | var | param => true
  | _ => false

def introducesScope : Kind → Bool
  | func | unit => true
  | _ => false

def text : Kind → String
  | unit => "TranslationUnitDecl"
  | named => "NamedDecl"
  | typeName => "TypeDecl"
  | record => "RecordDecl"
  | enumeration => "EnumDecl"
  | value => "ValueDecl"
  | declarator => "DeclaratorDecl"
  | func => "FunctionDecl"
  | var => "VarDecl"
  | param => "ParamVarDecl"

end Kind

def kind : Decl → Kind
  | unit _ => .unit
  | named _ => .named
  | typeName _ => .typeName
  | record _ => .record
  | enumeration _ => .enumeration
  | value _ => .value
  | declarator _ => .declarator
  | func _ => .func
  | var _ => .var
  | param _ => .param

/-! ## Reading a layer -/

def named? : Decl → Option Named
  | unit _ => none
  | named n | typeName n => some n
  | record r => some r.toNamed
  | enumeration e => some e.toNamed
  | value v | declarator v => some v.toNamed
  | func f => some f.toNamed
  | var v | param v => some v.toNamed

def value? : Decl → Option Valued
  | value v | declarator v => some v
  | func f => some f.toValued
  | var v | param v => some v.toValued
  | unit _ | named _ | typeName _ | record _ | enumeration _ => none

/-- A parameter is a variable too. -/
def var? : Decl → Option Variable
  | var v | param v => some v
  | _ => none

def param? : Decl → Option Variable
  | param v => some v
  | _ => none

def record? : Decl → Option Record
  | record r => some r
  | _ => none

def enumeration? : Decl → Option Enumeration
  | enumeration e => some e
  | _ => none

def func? : Decl → Option (Func Decl)
  | func f => some f
  | _ => none

def globals? : Decl → Option (Globals Decl)
  | unit g => some g
  | _ => none

def scope? (d : Decl) : Option (Scope Decl) := d.func?.map (·.scope)

def name? (d : Decl) : Option String := d.named?.map (·.name)

def pos? (d : Decl) : Option Position := d.named?.bind (·.pos)

def type? (d : Decl) : Option TypeUse := d.value?.map (·.type)

/-- Whether the declaration owns names: blocks or globals. -/
def isScope (d : Decl) : Bool := d.scope?.isSome || d.globals?.isSome

/-! ## Changing a layer -/

def mapNamed (f : Named → Named) : Decl → Decl
  | unit g => unit g
  | named n => named (f n)
  | typeName n => typeName (f n)
  | record r => record { r with toNamed := f r.toNamed }
  | enumeration e => enumeration { e with toNamed := f e.toNamed }
  | value v => value { v with toNamed := f v.toNamed }
  | declarator v => declarator { v with toNamed := f v.toNamed }
  | func g => func { g with toNamed := f g.toNamed }
  | var v => var { v with toNamed := f v.toNamed }
  | param v => param { v with toNamed := f v.toNamed }

def mapValue (f : Valued → Valued) : Decl → Decl
  | value v => value (f v)
  | declarator v => declarator (f v)
  | func g => func { g with toValued := f g.toValued }
  | var v => var { v with toValued := f v.toValued }
  | param v => param { v with toValued := f v.toValued }
  | d => d

def mapVariable (f : Variable → Variable) : Decl → Decl
  | var v => var (f v)
  | param v => param (f v)
  | d => d

def mapRecord (f : Record → Record) : Decl → Decl
  | record r => record (f r)
  | d => d

def mapFunc (f : Func Decl → Func Decl) : Decl → Decl
  | func g => func (f g)
  | d => d

def setName (name : String) : Decl → Decl := mapNamed fun n => { n with name := name }

def setPos (pos : Position) : Decl → Decl := mapNamed fun n => { n with pos := some pos }

def setType (type : TypeUse) : Decl → Decl := mapValue fun v => { v with type := type }

def setInit (init : ExprRef) : Decl → Decl := mapVariable fun v => { v with init := some init }

end Decl

end NameScope
