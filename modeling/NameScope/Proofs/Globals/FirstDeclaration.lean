import NameScope.Proofs.Decl.Requests
import NameScope.Proofs.NameTable.History

/-
  The first declaration of a global name wins.  `first_declaration_wins`: after every history of
  requests to the globals of a unit, a name is bound to what was declared first since it was last
  unbound, and the bound names stand in the order of these declarations.  A declaration of a bound
  name is refused and changes nothing; one of a free name can be taken back without a trace.

  Only some requests are about names.  These are read as calls on a table (`onNames?`), although a
  refused declaration never reaches the table: it is a value that comes after the first.
-/

namespace NameScope.Globals

open NameTable (firstGiven? firstGiven?_of_gives settles_firstGiven? InOrder Reflects)

/-- The call on a table of names that the request is, if it is one. -/
def Request.onNames? : Request → Option (NameTable.Call Binding)
  | declare name type pos => some (.put name ⟨type, pos⟩)
  | take name => some (.take name)
  | unbindAll => some .clear
  | lookup _ | addDecl _ | decl _ | updateDecl .. | addStmt _ | stmt _ => none

/-! ## One request -/

/-- To declare a free name and take it back changes nothing, the order of the names included. -/
theorem unbind_insert_of_free {δ : Type} {g : Globals δ} {name : String}
    (h : g.lookup? name = none) (new : Binding) :
    Globals.unbind { g with table := g.table.insert name new } name = g := by
  have hfree : name ∉ g.table.names := (g.table.get?_eq_none_iff name).1 h
  unfold unbind
  rw [NameTable.erase_insert_of_not_mem g.table name new hfree]

theorem table_updateDecl {β : Type} {g g' : Globals Decl} {i : Nat} {f : Decl → β × Decl} {b : β}
    (h : g.updateDecl i f = .ok (b, g')) : g'.table = g.table := by
  unfold updateDecl at h
  cases hu : updateAt .declaration g.decls i f with
  | error fault => rw [hu] at h; cases h
  | ok r => rw [hu] at h; cases h; rfl

/-- A request that is not about names does not reach the table. -/
theorem table_perform_of_onNames?_none (g : Globals Decl) {r : Request} (h : r.onNames? = none) :
    (g.perform r).2.table = g.table := by
  cases r with
  | declare name type pos => cases h
  | take name => cases h
  | unbindAll => cases h
  | lookup name => rfl
  | addDecl d => rfl
  | decl i =>
    simp only [perform]
    cases g.decl i with
    | ok d => rfl
    | error fault => rfl
  | updateDecl i r =>
    simp only [perform]
    cases hu : g.updateDecl i fun d => d.perform r with
    | ok result => exact table_updateDecl hu
    | error fault => rfl
  | addStmt s => rfl
  | stmt i =>
    simp only [perform]
    cases g.stmt i with
    | ok s => rfl
    | error fault => rfl

/-! ## The table against the history -/

/-- Every request keeps the first declarations; the history grows by what it says about names. -/
theorem reflects_perform {g : Globals Decl} {edits : List (NameTable.Call Binding)}
    (h : Reflects firstGiven? g.table edits) (r : Request) :
    Reflects firstGiven? (g.perform r).2.table (edits ++ r.onNames?.toList) := by
  cases hr : r.onNames? with
  | none =>
    rw [table_perform_of_onNames?_none g hr, Option.toList_none, List.append_nil]
    exact h
  | some c =>
    rw [Option.toList_some]
    cases r with
    | declare name type pos =>
      cases hr
      have hvalue : firstGiven? name (edits ++ [.put name ⟨type, pos⟩]) =
          (g.table.get? name).or (some ⟨type, pos⟩) := by
        rw [h.get? name]
        exact firstGiven?_of_gives (NameTable.Call.gives?_put_self name _)
      cases hl : g.table.get? name with
      | some old =>
        rw [hl, Option.some_or, ← hl, h.get? name] at hvalue
        rw [perform_declare_of_bound hl]
        exact h.keep settles_firstGiven? (NameTable.mem_names_of_get? hl) hvalue
      | none =>
        rw [hl, Option.none_or] at hvalue
        rw [perform_declare_of_free hl]
        exact h.insert settles_firstGiven? hvalue
    | take name =>
      cases hr
      rw [perform_take]
      exact h.erase settles_firstGiven? name
    | unbindAll =>
      cases hr
      exact .clear settles_firstGiven? edits
    | _ => cases hr

theorem reflects_run (requests : List Request) :
    Reflects firstGiven? (run {} requests).2.table (requests.filterMap (·.onNames?)) := by
  induction requests using List.reverseRecOn with
  | nil => exact .empty settles_firstGiven?
  | append_singleton requests r ih =>
    have hr : [r].filterMap (·.onNames?) = r.onNames?.toList := by
      cases hr : r.onNames? <;> simp [hr]
    rw [run, History.run_concat, List.filterMap_append, hr]
    exact reflects_perform ih r

/-- **The first declaration wins.** After every history of requests from empty globals, every name
is bound to what was declared first since it was last unbound, and the names stand in the order of
these declarations.  To declare a name is refused iff it is bound; the fault gives the place of the
binding and that of the refused declaration, and nothing changes.  To take a name gives its binding
and keeps the other names in order, so a free name that is declared and taken leaves no trace. -/
theorem first_declaration_wins (requests : List Request) :
    let g := (run {} requests).2
    let edits := requests.filterMap (·.onNames?)
    (∀ name, g.perform (.lookup name) = (.binding (firstGiven? name edits), g)) ∧
      InOrder g.table.names edits ∧
      (∀ name type pos old, firstGiven? name edits = some old →
        g.perform (.declare name type pos) = (.scopeFault (.redeclared name old.pos pos), g)) ∧
      (∀ name type pos, firstGiven? name edits = none →
        ∃ g', g.perform (.declare name type pos) = (.done, g') ∧
          g'.table.names = g.table.names ++ [name] ∧
          g'.perform (.take name) = (.binding (some ⟨type, pos⟩), g)) ∧
      (∀ name, ∃ g', g.perform (.take name) = (.binding (firstGiven? name edits), g') ∧
        g'.table.names = g.table.names.filter (· ≠ name) ∧
        (∀ m, g'.lookup? m = if m = name then none else g.lookup? m) ∧
        g'.decls = g.decls ∧ g'.stmts = g.stmts) := by
  intro g edits
  have h : Reflects firstGiven? g.table edits := reflects_run requests
  have hlookup : ∀ name, g.lookup? name = firstGiven? name edits := h.get?
  refine ⟨fun name => ?_, h.names, fun name type pos old hold => ?_, fun name type pos hfree => ?_,
    fun name => ?_⟩
  · rw [← hlookup name]
    rfl
  · exact perform_declare_of_bound ((hlookup name).trans hold) type pos
  · have hfree : g.lookup? name = none := (hlookup name).trans hfree
    have hnew : name ∉ g.table.names := (g.table.get?_eq_none_iff name).1 hfree
    refine ⟨_, perform_declare_of_free hfree type pos, ?_, ?_⟩
    · exact (NameTable.names_insert g.table name _).trans (if_neg hnew)
    · have hbound : (g.table.insert name ⟨type, pos⟩).get? name = some ⟨type, pos⟩ :=
        (NameTable.get?_insert g.table name _ name).trans (if_pos rfl)
      rw [perform_take, unbind_insert_of_free hfree, lookup?, hbound]
  · refine ⟨g.unbind name, ?_, NameTable.names_erase g.table name,
      NameTable.get?_erase g.table name, rfl, rfl⟩
    rw [perform_take, hlookup name]

/-- A name that is taken and declared afresh comes after the others, and its last declaration is now
the first. -/
theorem first_declaration_wins_afresh :
    let type : TypeUse := ⟨⟨1⟩, .empty⟩
    let declare (name : String) (row : UInt32) : Request := .declare name type (some ⟨row, 0⟩)
    let requests := [declare "a" 1, declare "b" 2, declare "a" 3, .take "a", declare "a" 4]
    let g := (run {} requests).2
    g.table.names = ["b", "a"] ∧
      g.perform (.lookup "a") = (.binding (some ⟨type, some ⟨4, 0⟩⟩), g) ∧
      g.perform (declare "a" 5) =
        (.scopeFault (.redeclared "a" (some ⟨4, 0⟩) (some ⟨5, 0⟩)), g) := by
  intro type declare requests g
  have hfirst : firstGiven? "a" (requests.filterMap (·.onNames?)) =
      some ⟨type, some ⟨4, 0⟩⟩ := by decide
  obtain ⟨hlookup, -, hrefused, -⟩ := first_declaration_wins requests
  refine ⟨by decide, ?_, hrefused "a" type _ _ hfirst⟩
  rw [hlookup "a", hfirst]

end NameScope.Globals
