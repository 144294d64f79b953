import NameScope.Proofs.Session.Commit

/-
  A function without a body.  There are two ways to add it to the unit: to declare it, as any other
  declaration, or to open it and close it at once.  `close_openFunction_agrees`: both leave the same
  session, but for two things.  The function that has been opened is kept with no block open and
  under the rule of the session, and its parameters have been looked at, so there may be reports on
  them at the end (`Diagnostic.OnParam`).

  Opening a function goes through its name first and through its parameters then.  What it does to
  the name is what declaring it does; the parameters touch nothing of the session but its reports
  (`BindsParams.onParams`), as there is always a block to bind them in.
-/

namespace NameScope

/-! ## Reports on parameters -/

/-- A report on parameter `p`: for an initializer, which is not allowed, or for a name that cannot
be declared again. -/
inductive Diagnostic.OnParam (allow : Bool) (p : Variable) : Diagnostic → Prop where
  | initialized (init : p.init.isSome) (strict : allow = false) :
      OnParam allow p (.initializedParameter p.name p.pos)
  | redeclared (named : p.name ≠ "") (first : Option Position) :
      OnParam allow p (.scope (.redeclared p.name first p.pos))

/-- There is no report on a parameter that has neither a name nor an initializer. -/
theorem Diagnostic.OnParam.named_or_initialized {allow : Bool} {p : Variable} {d : Diagnostic}
    (h : d.OnParam allow p) : p.name ≠ "" ∨ p.init.isSome := by
  cases h with
  | initialized init strict => exact .inr init
  | redeclared named first => exact .inl named

/-- Where a block is open, a parameter keeps one open, and is reported only if it is refused. -/
theorem Blocks.Outcome.onParam {b : Blocks} {p : Variable} {tables : List (NameTable Binding)}
    {reports : List Diagnostic} (h : b.Outcome p.name ⟨p.type, p.pos⟩ tables reports)
    (hopen : b.tables ≠ []) (allow : Bool) :
    tables ≠ [] ∧ ∀ d ∈ reports, d.OnParam allow p := by
  cases h with
  | anonymous hname => exact ⟨hopen, List.forall_mem_nil _⟩
  | bound named htables free entries => exact ⟨List.cons_ne_nil _ _, List.forall_mem_nil _⟩
  | @refused old named taken =>
    exact ⟨hopen, List.forall_mem_singleton.2 (.redeclared named old.pos)⟩
  | outside named closed => exact absurd closed hopen

namespace OpenFunction

theorem onParam_initReports (f : OpenFunction) (p : Variable) :
    ∀ d ∈ f.initReports p, d.OnParam f.session.options.allowParamInit p := by
  unfold initReports
  split
  · rename_i h
    exact List.forall_mem_singleton.2 (.initialized h.1 (Bool.eq_false_iff.2 h.2))
  · exact List.forall_mem_nil _

/-- Parameters that are bound where a block is open leave the session as it was, but for reports on
them. -/
theorem BindsParams.onParams {f g : OpenFunction} {params : List Variable}
    (h : f.BindsParams params g) (hopen : f.blocks.tables ≠ []) :
    ∃ reports, g.session = f.session.reportAll reports ∧
      ∀ d ∈ reports, ∃ p ∈ params, d.OnParam f.session.options.allowParamInit p := by
  induction h with
  | nil f => exact ⟨[], (Session.reportAll_nil _).symm, List.forall_mem_nil _⟩
  | @cons f g p params tables reports outcome rest ih =>
    obtain ⟨hopen', hreports⟩ := outcome.onParam hopen f.session.options.allowParamInit
    obtain ⟨others, hsession, hothers⟩ := ih hopen'
    have hthis : ∀ d ∈ f.initReports p ++ reports,
        ∃ q ∈ p :: params, d.OnParam f.session.options.allowParamInit q := by
      intro d hd
      refine ⟨p, List.mem_cons_self, ?_⟩
      rcases List.mem_append.1 hd with hinit | hname
      · exact f.onParam_initReports p d hinit
      · exact hreports d hname
    have hrest : ∀ d ∈ others,
        ∃ q ∈ p :: params, d.OnParam f.session.options.allowParamInit q := by
      intro d hd
      obtain ⟨q, hq, hon⟩ := hothers d hd
      exact ⟨q, List.mem_cons_of_mem p hq, hon⟩
    refine ⟨(f.initReports p ++ reports) ++ others, ?_, List.forall_mem_append.2 ⟨hthis, hrest⟩⟩
    rw [hsession]
    exact f.session.reportAll_reportAll _ others

end OpenFunction

namespace Session

/-! ## Opened and closed at once -/

/-- A function that is opened has its name bound as if it were declared, and its parameters
reported. -/
theorem session_openFunction (s : Session) (func : Func Decl) (pos : Option Position) :
    ∃ reports,
      (s.openFunction func pos).session =
        (s.bindGlobal func.name ⟨func.type, pos <|> func.pos⟩).reportAll reports ∧
      ∀ d ∈ reports, ∃ p ∈ func.params, d.OnParam s.options.allowParamInit p := by
  rw [← (later_bindGlobal s func.name ⟨func.type, pos <|> func.pos⟩).options]
  exact (OpenFunction.bindsParams_foldl _ func.params).onParams (List.cons_ne_nil _ _)

/-- **The two ways to add a function agree.** Take any session and any function, with or without a
name, bound already or not, and declare it, or open it and close it at once. The global names, the
tags, the statements and the options are the same, and so are the declarations, but that the
function that was opened is kept with no block open and under the rule of the session. The reports
are those on the declared function, followed by reports on parameters; without parameters that have
a name or an initializer there are none. -/
theorem close_openFunction_agrees (s : Session) (func : Func Decl) (pos : Option Position) :
    let declared := s.declare (.func func) pos
    let blocks : Blocks := { tables := [], rule := s.options.rule }
    let kept : Func Decl := { func with scope := { func.scope with blocks := blocks } }
    declared.unit.decls = s.unit.decls ++ [.func func] ∧
      ∃ reports,
        (s.openFunction func pos).close.2 =
          { declared with
            unit := { declared.unit with decls := s.unit.decls ++ [.func kept] }
            diagnostics := declared.diagnostics ++ reports } ∧
        (∀ d ∈ reports, ∃ p ∈ func.params, d.OnParam s.options.allowParamInit p) ∧
        ((∀ p ∈ func.params, p.name = "" ∧ p.init = none) → reports = []) := by
  intro declared blocks kept
  have hdecls := s.decls_bindGlobal func.name ⟨func.type, pos <|> func.pos⟩
  obtain ⟨reports, hsession, hreports⟩ := s.session_openFunction func pos
  have hkept : ((s.openFunction func pos).setBlocks
      (s.openFunction func pos).blocks.closeAll).func = kept := by
    have hclose := s.func_close func pos []
    rwa [List.filterMap_nil, List.map_nil, List.append_nil] at hclose
  refine ⟨congrArg (· ++ [Decl.func func]) hdecls, reports, ?_, hreports, ?_⟩
  · show (s.openFunction func pos).session.addDecl (.func _) = _
    rw [hkept, hsession, ← hdecls]
    rfl
  · intro hparams
    refine List.eq_nil_iff_forall_not_mem.2 fun d hd => ?_
    obtain ⟨p, hp, hon⟩ := hreports d hd
    obtain ⟨hname, hinit⟩ := hparams p hp
    rcases hon.named_or_initialized with named | init
    · exact named hname
    · rw [hinit] at init
      cases init

end Session

end NameScope
