import NameScope.Blocks

/-
  Options of a session: the redeclaration rule, how many names are suggested for an unknown one,
  and whether parameters may have initializers.
-/

namespace NameScope

structure Options where
  rule : RedeclarationRule := .visible
  maxSuggestions : Nat := 3
  allowParamInit : Bool := false
deriving DecidableEq

instance : Inhabited Options := ⟨{}⟩

end NameScope
