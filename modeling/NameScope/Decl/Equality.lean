import NameScope.Decl.Basic

/-
  Equality of declarations.  Two declarations are equal when they are of one kind and equal part by
  part, down through the scopes of functions and the globals of units; tables of names are compared
  as maps, so the order of their entries does not count.
-/

namespace NameScope

namespace Decl

mutual

def same : Decl → Decl → Bool
  | unit ⟨table₁, decls₁, stmts₁⟩, unit ⟨table₂, decls₂, stmts₂⟩ =>
    sameAll decls₁ decls₂ && table₁ == table₂ && stmts₁ == stmts₂
  | named n₁, named n₂ => n₁ == n₂
  | typeName n₁, typeName n₂ => n₁ == n₂
  | record r₁, record r₂ => r₁ == r₂
  | enumeration e₁, enumeration e₂ => e₁ == e₂
  | value v₁, value v₂ => v₁ == v₂
  | declarator v₁, declarator v₂ => v₁ == v₂
  | func ⟨value₁, params₁, body₁, ⟨blocks₁, decls₁⟩⟩,
      func ⟨value₂, params₂, body₂, ⟨blocks₂, decls₂⟩⟩ =>
    value₁ == value₂ && params₁ == params₂ && body₁ == body₂ && blocks₁ == blocks₂ &&
      sameAll decls₁ decls₂
  | var v₁, var v₂ => v₁ == v₂
  | param v₁, param v₂ => v₁ == v₂
  | _, _ => false

/-- The lists are of one length and equal element by element. -/
def sameAll : List Decl → List Decl → Bool
  | [], [] => true
  | d₁ :: ds₁, d₂ :: ds₂ => same d₁ d₂ && sameAll ds₁ ds₂
  | _, _ => false

end

instance : BEq Decl := ⟨same⟩

end Decl

instance {δ : Type} [BEq δ] : BEq (Scope δ) :=
  ⟨fun s t => s.blocks == t.blocks && s.decls == t.decls⟩

instance {δ : Type} [BEq δ] : BEq (Globals δ) :=
  ⟨fun g h => g.table == h.table && g.decls == h.decls && g.stmts == h.stmts⟩

end NameScope
