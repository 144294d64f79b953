/-
  Types as they are used.  The types themselves live elsewhere and are known here by number only;
  a use adds the qualifiers written at that place.  What the names of types stand for is for others
  to say (`BuiltinTypes`).
-/

namespace NameScope

/-- The type with the given number. -/
structure TypeRef where
  index : UInt32
deriving DecidableEq

/-- The statement with the given number. -/
structure StmtRef where
  index : UInt32
deriving DecidableEq

/-- The expression with the given number. -/
structure ExprRef where
  index : UInt32
deriving DecidableEq

/-- A set of type qualifiers. -/
structure QualifierSet where
  const : Bool := false
  volatile : Bool := false
  restrict : Bool := false
deriving DecidableEq

namespace QualifierSet

def empty : QualifierSet := {}

def union (p q : QualifierSet) : QualifierSet where
  const := p.const || q.const
  volatile := p.volatile || q.volatile
  restrict := p.restrict || q.restrict

/-- Reads the three lowest bits: `const`, `volatile`, `restrict`. -/
def ofBits (bits : Nat) : QualifierSet where
  const := bits.testBit 0
  volatile := bits.testBit 1
  restrict := bits.testBit 2

def toBits (q : QualifierSet) : Nat :=
  q.const.toNat + 2 * q.volatile.toNat + 4 * q.restrict.toNat

/-- Reading the bits of a set gives the set back. -/
theorem ofBits_toBits (q : QualifierSet) : ofBits q.toBits = q := by
  obtain ⟨c, v, r⟩ := q
  cases c <;> cases v <;> cases r <;> rfl

/-- Each qualifier of the set followed by a space, in the order `const`, `volatile`, `restrict`. -/
def text (q : QualifierSet) : String :=
  (if q.const then "const " else "") ++ (if q.volatile then "volatile " else "") ++
    (if q.restrict then "restrict " else "")

end QualifierSet

/-- A type together with the qualifiers of one place where it is used. -/
structure TypeUse where
  type : TypeRef
  qualifiers : QualifierSet := {}
deriving DecidableEq

namespace TypeUse

/-- Adds qualifiers to those already there. -/
def qualify (t : TypeUse) (extra : QualifierSet) : TypeUse :=
  { t with qualifiers := t.qualifiers.union extra }

/-- The same type with no qualifier. -/
def bare (t : TypeUse) : TypeUse := { type := t.type }

/-- The qualifiers, then `#` and the number of the type. -/
def text (t : TypeUse) : String :=
  t.qualifiers.text ++ "#" ++ toString t.type.index.toNat

end TypeUse

/-- What the names of types stand for. -/
structure BuiltinTypes where
  int : TypeUse
  float : TypeUse
  char : TypeUse
  void : TypeUse

namespace BuiltinTypes

/-- The first four types, none of them qualified. -/
def numbered : BuiltinTypes where
  int := { type := ⟨0⟩ }
  float := { type := ⟨1⟩ }
  char := { type := ⟨2⟩ }
  void := { type := ⟨3⟩ }

/-- The type with the given name. -/
def ofName? (types : BuiltinTypes) : String → Option TypeUse
  | "int" => some types.int
  | "float" => some types.float
  | "char" => some types.char
  | "void" => some types.void
  | _ => none

end BuiltinTypes

end NameScope
