import NameScope.Proofs.Session.Namespaces
import NameScope.Proofs.Session.Outcome

/-
  Closing a function commits it whole.  `close_commits`: whatever has been called on an open
  function, when it is closed the unit has one declaration more, at the position that is given
  back: the function as it was opened, with all its blocks closed, under the rule of the session,
  and with every local of its body among its declarations, those that were refused included.  Its
  name is a global if it was free, and nothing else has changed but the reports.

  Calls on an open function reach its scope only.  `Scope.Grows` says how: the tables of the blocks
  may be any in the end, the rule stays, and the declarations are added to.
-/

namespace NameScope

/-- `later` is `scope` with other tables, and with more variables at the end of its
declarations. -/
def Scope.Grows (scope : Scope Decl) (vars : List Variable) (later : Scope Decl) : Prop :=
  ∃ tables, later =
    { blocks := { tables := tables, rule := scope.blocks.rule }
      decls := scope.decls ++ vars.map Decl.var }

namespace Scope.Grows

theorem refl (scope : Scope Decl) : scope.Grows [] scope :=
  ⟨scope.blocks.tables, by rw [List.map_nil, List.append_nil]⟩

theorem trans {scope scope' scope'' : Scope Decl} {vars vars' : List Variable}
    (h : scope.Grows vars scope') (h' : scope'.Grows vars' scope'') :
    scope.Grows (vars ++ vars') scope'' := by
  obtain ⟨tables, rfl⟩ := h
  obtain ⟨tables', rfl⟩ := h'
  exact ⟨tables', by rw [List.map_append, List.append_assoc]⟩

theorem setTables (scope : Scope Decl) (tables : List (NameTable Binding)) :
    scope.Grows [] { scope with blocks := { scope.blocks with tables := tables } } :=
  ⟨tables, by rw [List.map_nil, List.append_nil]⟩

theorem addVar (scope : Scope Decl) (v : Variable) : scope.Grows [v] (scope.addDecl (.var v)) :=
  ⟨scope.blocks.tables, rfl⟩

end Scope.Grows

namespace OpenFunction

/-! ## Calls on the function -/

/-- The variable that a call adds to the declarations of the function. -/
def Call.added? : Call → Option Variable
  | .declare v _ => some v
  | .enter | .exit | .resolve .. | .depth => none

theorem grows_bindLocal (f : OpenFunction) (name : String) (b : Binding) :
    f.func.scope.Grows [] (f.bindLocal name b).func.scope := by
  obtain ⟨tables, reports, -, hbind⟩ := f.bindLocal_outcome name b
  rw [hbind]
  exact .setTables _ tables

theorem grows_bindParams (f : OpenFunction) (params : List Variable) :
    f.func.scope.Grows [] (params.foldl bindParam f).func.scope := by
  induction params generalizing f with
  | nil => exact .refl _
  | cons p params ih =>
    obtain ⟨tables, reports, -, hbind⟩ := f.bindParam_outcome p
    rw [List.foldl_cons, hbind]
    exact (Scope.Grows.setTables f.func.scope tables).trans (ih _)

theorem func_resolve (f : OpenFunction) (name : String) (pos : Option Position) :
    (f.resolve name pos).2.func = f.func := by
  unfold resolve
  split
  · rfl
  · rfl

theorem grows_step (f : OpenFunction) (c : Call) :
    f.func.scope.Grows c.added?.toList (f.step c).2.func.scope := by
  cases c with
  | enter => exact .setTables _ _
  | exit =>
    unfold step exit Blocks.exit
    cases f.blocks.tables with
    | nil => exact .refl _
    | cons table outer => exact .setTables _ outer
  | declare v pos =>
    have hbind := f.grows_bindLocal v.name ⟨v.type, pos <|> v.pos⟩
    exact hbind.trans (.addVar _ v)
  | resolve name pos =>
    show f.func.scope.Grows [] (f.resolve name pos).2.func.scope
    rw [func_resolve]
    exact .refl _
  | depth => exact .refl _

/-- A body adds the variables that its calls declare, in order. -/
theorem grows_run (f : OpenFunction) (body : List Call) :
    f.func.scope.Grows (body.filterMap (·.added?)) (f.run body).2.func.scope := by
  induction body generalizing f with
  | nil => exact .refl _
  | cons c body ih =>
    have hstep := (f.grows_step c).trans (ih (f.step c).2)
    cases hc : c.added? with
    | none =>
      rw [List.filterMap_cons_none hc]
      rw [hc] at hstep
      exact hstep
    | some v =>
      rw [List.filterMap_cons_some hc]
      rw [hc] at hstep
      exact hstep

/-- The function when it has been added to the unit: a function without a name stands in its place,
and there is no name left to unbind. -/
def handOver (f : OpenFunction) : OpenFunction where
  session := f.session.addDecl (.func (f.setBlocks f.blocks.closeAll).func)
  func := { name := "", type := f.func.type }
  bound := none

end OpenFunction

namespace Session

/-! ## The function that is closed -/

theorem stmts_bindGlobal (s : Session) (name : String) (b : Binding) :
    (s.bindGlobal name b).unit.stmts = s.unit.stmts := by
  obtain ⟨table, reports, -, hbind⟩ := s.bindGlobal_outcome name b
  rw [hbind]
  rfl

/-- A body works under the rule of the session, and adds its locals to the declarations of the
function. -/
theorem grows_runBody (s : Session) (func : Func Decl) (pos : Option Position)
    (body : List OpenFunction.Call) :
    Scope.Grows { func.scope with blocks := { func.scope.blocks with rule := s.options.rule } }
      (body.filterMap (·.added?)) (s.runBody func pos body).2.func.scope := by
  have hopen : Scope.Grows
      { func.scope with blocks := { func.scope.blocks with rule := s.options.rule } } []
      (s.openFunction func pos).func.scope := by
    have hrule := (later_bindGlobal s func.name ⟨func.type, pos <|> func.pos⟩).options
    unfold openFunction
    dsimp only
    rw [hrule]
    exact (Scope.Grows.setTables _ (.empty :: func.scope.blocks.tables)).trans
      (OpenFunction.grows_bindParams _ func.params)
  exact hopen.trans (OpenFunction.grows_run _ body)

/-- The function that a body leaves when it is closed. -/
theorem func_close (s : Session) (func : Func Decl) (pos : Option Position)
    (body : List OpenFunction.Call) :
    ((s.runBody func pos body).2.setBlocks (s.runBody func pos body).2.blocks.closeAll).func =
      { func with
        scope :=
          { blocks := { tables := [], rule := s.options.rule }
            decls := func.scope.decls ++ (body.filterMap (·.added?)).map Decl.var } } := by
  obtain ⟨-, ⟨scope, hfunc⟩, -⟩ := runBody_keeps s func pos body
  obtain ⟨tables, hscope⟩ := s.grows_runBody func pos body
  unfold OpenFunction.setBlocks OpenFunction.blocks Blocks.closeAll
  rw [hscope, hfunc]

/-- **Closing a function commits it whole.** Whatever the session, the function and the calls on
it, closing it gives back how many declarations there were before it was opened, and adds one to
them: the function with its name, place, type, parameters and body, no block open however many were
left open, the rule of the session, and its own declarations followed by all variables of the calls
in order. Its name joins the globals, at the end and at the given place or else at its own, iff it
is not empty and was not bound; statements, tags and options stay, and reports are only added. And
nothing of this is undone when what is left of the open function is abandoned. -/
theorem close_commits (s : Session) (func : Func Decl) (pos : Option Position)
    (body : List OpenFunction.Call) :
    let f := (s.runBody func pos body).2
    f.close.1 = s.unit.decls.length ∧
      f.close.2.unit.decls =
        s.unit.decls ++
          [.func
            { func with
              scope :=
                { blocks := { tables := [], rule := s.options.rule }
                  decls := func.scope.decls ++ (body.filterMap (·.added?)).map Decl.var } }] ∧
      f.close.2.unit.table.entries =
        s.unit.table.entries ++
          (if func.name ≠ "" ∧ func.name ∉ s.unit.table.names then
            [(func.name, ⟨func.type, pos <|> func.pos⟩)] else []) ∧
      f.close.2.unit.stmts = s.unit.stmts ∧ f.close.2.tags = s.tags ∧
      f.close.2.options = s.options ∧ s.diagnostics <+: f.close.2.diagnostics ∧
      f.handOver.session = f.close.2 ∧ f.handOver.abandon = f.close.2 := by
  intro f
  have hkeeps := (runBody_keeps s func pos body).session
  have hdecls : f.session.unit.decls = s.unit.decls := by
    rw [hkeeps.unit_eq, decls_bindGlobal]
  have hlater : s.Later f.close.2 := (later_runBody s func pos body).trans (later_close f)
  refine ⟨congrArg List.length hdecls, ?_, entries_runBody s func pos body, ?_, ?_, hlater.options,
    hlater.diagnostics, rfl, rfl⟩
  · show f.session.unit.decls ++ [.func (f.setBlocks f.blocks.closeAll).func] = _
    rw [hdecls, func_close]
  · show f.session.unit.stmts = s.unit.stmts
    rw [hkeeps.unit_eq, stmts_bindGlobal]
  · show f.session.tags = s.tags
    rw [hkeeps.tags_eq, tags_bindGlobal]

end Session

end NameScope
