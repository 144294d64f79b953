import NameScope.Proofs.Blocks.Visibility
import NameScope.Proofs.Session.History
import NameScope.Proofs.Spelling.Ranking

/-
  What becomes of a name that is used.  In every state of an open function there are three cases
  (`Resolves`): the innermost block that binds the name gives its type; or no block binds it, and
  the type is the global one; or the name is not visible, and then one report says so, with the
  names that may have been meant.  Nothing else changes, so each of those can be used at once.
-/

namespace NameScope.OpenFunction

/-- What using `name` at `pos` answers, and what it makes of the function. -/
inductive Resolves (f : OpenFunction) (name : String) (pos : Option Position) :
    Option TypeUse → OpenFunction → Prop where
  /-- The blocks further inside do not bind the name. -/
  | inBlock {inner outer : List (NameTable Binding)} {table : NameTable Binding} {b : Binding}
      (tables : f.blocks.tables = inner ++ table :: outer) (bound : table.get? name = some b)
      (nearest : ∀ t ∈ inner, name ∉ t.names) : Resolves f name pos (some b.type) f
  | global {b : Binding} (free : ∀ t ∈ f.blocks.tables, name ∉ t.names)
      (bound : f.session.unit.table.get? name = some b) : Resolves f name pos (some b.type) f
  | unknown {names : List String} (free : ∀ t ∈ f.blocks.tables, name ∉ t.names)
      (unbound : name ∉ f.session.unit.table.names)
      (suggested : Spelling.Suggested name
        (f.blocks.tables.flatMap (·.names) ++ f.session.unit.table.names)
        f.session.options.maxSuggestions names)
      (usable : ∀ m ∈ names, ∀ pos',
        ((f.report (.undefined name pos names)).resolve m pos').1.isSome = true) :
      Resolves f name pos none (f.report (.undefined name pos names))

/-- A look-up finds exactly the visible names. -/
theorem isSome_lookup?_iff (f : OpenFunction) (name : String) :
    (f.lookup? name).isSome = true ↔ name ∈ f.visibleNames := by
  have hblocks := f.blocks.isSome_lookup?_iff name
  have hglobals := f.session.unit.table.contains_iff name
  unfold visibleNames
  rw [List.mem_append, Blocks.visibleNames, ← Blocks.namesIn, ← hblocks, ← hglobals]
  simp [lookup?, Session.globalType?, Globals.lookup?, NameTable.contains]

theorem isSome_resolve (f : OpenFunction) (name : String) (pos : Option Position) :
    (f.resolve name pos).1.isSome = (f.lookup? name).isSome := by
  unfold resolve
  cases hl : f.lookup? name with
  | some type => rfl
  | none => rfl

/-- Reports do not change what is visible. -/
theorem lookup?_report (f : OpenFunction) (d : Diagnostic) (name : String) :
    (f.report d).lookup? name = f.lookup? name := rfl

/-- **A name is resolved to the nearest visible binding.** In every state, using a name gives the
type of the binding in the innermost block that has one, or else that of the global of this name,
and changes nothing; where there is neither, the one change is a report, with the right suggestions
from the visible names, innermost block first, and each of these can be resolved at once. -/
theorem resolve_resolves (f : OpenFunction) (name : String) (pos : Option Position) :
    f.Resolves name pos (f.resolve name pos).1 (f.resolve name pos).2 := by
  have hblocks := f.blocks.lookup?_eq_findSome? name
  unfold resolve lookup?
  rw [hblocks]
  cases hfound : f.blocks.tables.findSome? (·.get? name) with
  | some b =>
    obtain ⟨inner, table, outer, htables, hbound, hinner⟩ := List.findSome?_eq_some_iff.1 hfound
    refine .inBlock htables hbound ?_
    intro t ht
    exact (t.get?_eq_none_iff name).1 (hinner t ht)
  | none =>
    have hfree : ∀ t ∈ f.blocks.tables, name ∉ t.names := by
      intro t ht
      exact (t.get?_eq_none_iff name).1 (List.findSome?_eq_none_iff.1 hfound t ht)
    cases hglobal : f.session.unit.table.get? name with
    | some b =>
      simp only [Session.globalType?, Globals.lookup?, hglobal]
      exact .global hfree hglobal
    | none =>
      have hsuggested := Spelling.suggested_nearest name f.visibleNames
        f.session.options.maxSuggestions
      simp only [Session.globalType?, Globals.lookup?, hglobal]
      refine .unknown hfree ((NameTable.get?_eq_none_iff _ name).1 hglobal) hsuggested ?_
      intro m hm pos'
      rw [isSome_resolve, lookup?_report, isSome_lookup?_iff]
      exact hsuggested.candidate m hm

end NameScope.OpenFunction
