import NameScope.Proofs.Session.Outcome

/-
  Revised sessions.  What a call does hangs on the names that are bound, on the tags and on the rule
  for redeclarations.  Declarations and reports are written and never read, and the other two
  options are looked at only where a report is made.  So all of these may be other than they are:
  a `Revision` says which declarations, reports and options stand in the place of those of a
  session, and its laws say that this goes on to hold when more is declared and reported.

  Then every operation commutes with the revision, and so does every history (`run_revise`).  Only
  the position of a function that is closed counts the declarations before it.
-/

namespace NameScope

namespace Session

/-- Other declarations, reports and options in the place of those of a session.  What is declared
and reported later is added behind them, as the other options have it. -/
structure Revision where
  decls : List Decl → List Decl
  reports : List Diagnostic → List Diagnostic
  options : Options → Options
  rule : ∀ o, (options o).rule = o.rule
  add : ∀ ds d, decls (ds ++ [d]) = decls ds ++ [d]
  scope : ∀ rs fault, reports (rs ++ [.scope fault]) = reports rs ++ [.scope fault]
  undefined : ∀ o rs name pos candidates,
    reports (rs ++ [.undefined name pos (Spelling.nearest name candidates o.maxSuggestions)]) =
      reports rs ++
        [.undefined name pos (Spelling.nearest name candidates (options o).maxSuggestions)]
  initialized : ∀ o rs (p : Variable),
    reports (rs ++ if p.init.isSome ∧ ¬ o.allowParamInit then
        [.initializedParameter p.name p.pos] else []) =
      reports rs ++ if p.init.isSome ∧ ¬ (options o).allowParamInit then
        [.initializedParameter p.name p.pos] else []

/-- The session with what the revision puts in the place of its declarations, reports and
options. -/
def revise (s : Session) (r : Revision) : Session where
  unit := { s.unit with decls := r.decls s.unit.decls }
  tags := s.tags
  options := r.options s.options
  diagnostics := r.reports s.diagnostics

end Session

/-- The function in the revised session. -/
def OpenFunction.revise (f : OpenFunction) (r : Session.Revision) : OpenFunction :=
  { f with session := f.session.revise r }

variable (r : Session.Revision)

namespace Session

theorem report_scope_revise (s : Session) (fault : ScopeFault) :
    (s.revise r).report (.scope fault) = (s.report (.scope fault)).revise r := by
  simp only [report, revise, r.scope]

theorem addDecl_revise (s : Session) (d : Decl) :
    (s.revise r).addDecl d = (s.addDecl d).revise r := by
  simp only [addDecl, Globals.addDecl, revise, r.add]

theorem lookup?_revise (s : Session) (name : String) :
    (s.revise r).unit.lookup? name = s.unit.lookup? name := rfl

theorem bindGlobal_revise (s : Session) (name : String) (b : Binding) :
    (s.revise r).bindGlobal name b = (s.bindGlobal name b).revise r := by
  unfold bindGlobal Globals.declare
  rw [lookup?_revise]
  by_cases hname : name = ""
  · rw [if_pos hname, if_pos hname]
  · rw [if_neg hname, if_neg hname]
    cases s.unit.lookup? name with
    | some old => exact report_scope_revise r s _
    | none => rfl

theorem bindTag_revise (s : Session) (name : String) (tag : Tag) :
    (s.revise r).bindTag name tag = (s.bindTag name tag).revise r := by
  have htags : (s.revise r).tags = s.tags := rfl
  unfold bindTag
  rw [htags]
  by_cases hname : name = ""
  · rw [if_pos hname, if_pos hname]
  · rw [if_neg hname, if_neg hname]
    cases s.tags.get? name with
    | some old => exact report_scope_revise r s _
    | none => rfl

theorem bindDecl_revise (s : Session) (d : Decl) (pos : Option Position) :
    (s.revise r).bindDecl d pos = (s.bindDecl d pos).revise r := by
  unfold bindDecl
  split
  · exact bindTag_revise r s _ _
  · exact bindTag_revise r s _ _
  · split
    · exact bindGlobal_revise r s _ _
    · rfl

theorem declare_revise (s : Session) (d : Decl) (pos : Option Position) :
    (s.revise r).declare d pos = (s.declare d pos).revise r := by
  unfold declare
  rw [bindDecl_revise, addDecl_revise]

end Session

namespace OpenFunction

theorem bindLocal_revise (f : OpenFunction) (name : String) (b : Binding) :
    (f.revise r).bindLocal name b = (f.bindLocal name b).revise r := by
  have hblocks : (f.revise r).blocks = f.blocks := rfl
  unfold bindLocal
  rw [hblocks]
  by_cases hname : name = ""
  · rw [if_pos hname, if_pos hname]
  · rw [if_neg hname, if_neg hname]
    cases f.blocks.declare name b with
    | ok blocks => rfl
    | error fault =>
      have hreport := Session.report_scope_revise r f.session fault
      exact congrArg (fun s : Session => { f with session := s }) hreport

/-- An initializer is reported or not as the options of the revised session have it. -/
theorem bindParam_revise (f : OpenFunction) (p : Variable) :
    (f.revise r).bindParam p = (f.bindParam p).revise r := by
  have hinit : (f.revise r).reportAll ((f.revise r).initReports p) =
      (f.reportAll (f.initReports p)).revise r := by
    have hreports := r.initialized f.session.options f.session.diagnostics p
    exact congrArg (fun rs => { f with session := { f.session.revise r with diagnostics := rs } })
      hreports.symm
  rw [bindParam_eq, bindParam_eq, hinit, bindLocal_revise]

theorem bindParams_revise (f : OpenFunction) (params : List Variable) :
    params.foldl bindParam (f.revise r) = (params.foldl bindParam f).revise r := by
  induction params generalizing f with
  | nil => rfl
  | cons p params ih => rw [List.foldl_cons, List.foldl_cons, bindParam_revise, ih]

theorem declare_revise (f : OpenFunction) (v : Variable) (pos : Option Position) :
    (f.revise r).declare v pos = (f.declare v pos).revise r := by
  unfold declare
  dsimp only
  rw [bindLocal_revise]
  rfl

/-- The same names are found, and those that are not get the suggestions that the options of the
revised session ask for. -/
theorem resolve_revise (f : OpenFunction) (name : String) (pos : Option Position) :
    (f.revise r).resolve name pos =
      ((f.resolve name pos).1, (f.resolve name pos).2.revise r) := by
  have hlookup : (f.revise r).lookup? name = f.lookup? name := rfl
  unfold resolve
  rw [hlookup]
  cases f.lookup? name with
  | some type => rfl
  | none =>
    have hreports := r.undefined f.session.options f.session.diagnostics name pos f.visibleNames
    exact congrArg
      (fun rs => (none, { f with session := { f.session.revise r with diagnostics := rs } }))
      hreports.symm

theorem exit_revise (f : OpenFunction) :
    (f.revise r).exit = f.exit.map fun e => (e.1, e.2.revise r) := by
  have hblocks : (f.revise r).blocks = f.blocks := rfl
  unfold exit
  rw [hblocks]
  cases f.blocks.exit with
  | error fault => rfl
  | ok e => rfl

theorem step_revise (f : OpenFunction) (c : Call) :
    (f.revise r).step c = ((f.step c).1, (f.step c).2.revise r) := by
  cases c with
  | enter => rfl
  | exit =>
    simp only [step, exit_revise]
    cases f.exit with
    | error fault => rfl
    | ok e => rfl
  | declare v pos => simp only [step, declare_revise]
  | resolve name pos => simp only [step, resolve_revise]
  | depth => rfl

theorem run_revise (f : OpenFunction) (calls : List Call) :
    (f.revise r).run calls = ((f.run calls).1, (f.run calls).2.revise r) :=
  History.run_map (fun g : OpenFunction => g.revise r) (step_revise r) f calls

theorem close_revise (f : OpenFunction) :
    (f.revise r).close = ((r.decls f.session.unit.decls).length, f.close.2.revise r) :=
  Prod.ext rfl (Session.addDecl_revise r f.session _)

theorem abandon_revise (f : OpenFunction) : (f.revise r).abandon = f.abandon.revise r := by
  have hbound : (f.revise r).bound = f.bound := rfl
  unfold abandon
  rw [hbound]
  cases f.bound with
  | none => rfl
  | some name => rfl

end OpenFunction

namespace Session

theorem openFunction_revise (s : Session) (func : Func Decl) (pos : Option Position) :
    (s.revise r).openFunction func pos = (s.openFunction func pos).revise r := by
  have hrule : ((s.bindGlobal func.name ⟨func.type, pos <|> func.pos⟩).revise r).options.rule =
      (s.bindGlobal func.name ⟨func.type, pos <|> func.pos⟩).options.rule := r.rule _
  unfold openFunction
  dsimp only
  rw [lookup?_revise, bindGlobal_revise, hrule, ← OpenFunction.bindParams_revise]
  rfl

theorem runBody_revise (s : Session) (func : Func Decl) (pos : Option Position)
    (body : List OpenFunction.Call) :
    (s.revise r).runBody func pos body =
      ((s.runBody func pos body).1, (s.runBody func pos body).2.revise r) := by
  unfold runBody
  rw [openFunction_revise, OpenFunction.run_revise]

variable {r}

/-- A revision that leaves declarations as many as they are changes no answer. -/
theorem step_revise (hlength : ∀ ds, (r.decls ds).length = ds.length) (s : Session) (c : Call) :
    (s.revise r).step c = ((s.step c).1, (s.step c).2.revise r) := by
  cases c with
  | declare d pos => simp only [step, declare_revise]
  | function func pos body ending =>
    have hbody := runBody_revise r s func pos body
    cases ending with
    | close =>
      simp only [step, hbody, OpenFunction.close_revise, hlength]
      rfl
    | abandon => simp only [step, hbody, OpenFunction.abandon_revise]
  | tagKind name => rfl
  | globalType name => rfl

theorem run_revise (hlength : ∀ ds, (r.decls ds).length = ds.length) (s : Session)
    (calls : List Call) : (s.revise r).run calls = ((s.run calls).1, (s.run calls).2.revise r) :=
  History.run_map (fun t : Session => t.revise r) (step_revise hlength) s calls

end Session

end NameScope
