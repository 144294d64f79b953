import NameScope.Proofs.Session.Frame
import NameScope.Proofs.Session.Past

/-
  Abandoning a function is a rollback.  `abandon_rolls_back`: whatever session a function is opened
  on, and whatever is called on the function before it is abandoned, the session is the one before
  the function was opened, global names with their order, types and places, tags, declarations and
  options included; only reports have been added.  And no later call can tell the difference: every
  later history gives the same answers and the same session, up to those reports.

  The second half rests on what reports are: they are written and never read.  `after` puts reports
  in front of those of a session, a past without declarations, and every later history commutes
  with it (`run_after`).
-/

namespace NameScope

namespace Session

/-! ## Earlier reports -/

/-- The session with other reports made before its own. -/
def after (s : Session) (earlier : List Diagnostic) : Session :=
  { s with diagnostics := earlier ++ s.diagnostics }

/-- What a history answers and does does not depend on earlier reports. -/
theorem run_after (e : List Diagnostic) (s : Session) (calls : List Call) :
    (s.after e).run calls = ((s.run calls).1, (s.run calls).2.after e) :=
  run_revise (r := past [] e) (fun _ => rfl) s calls

end Session

namespace OpenFunction

/-! ## Abandoning -/

/-- Abandoning takes back what opening has bound, whatever has become of the function meanwhile. -/
theorem extends_abandon_of_keeps {s : Session} {func : Func Decl} {pos : Option Position}
    {f : OpenFunction} (h : (s.openFunction func pos).Keeps f) : s.Extends f.abandon := by
  have hopen := (s.openFunction_keeps func pos).trans h
  unfold abandon
  by_cases hfree : s.IsFree func.name
  · rw [if_pos hfree, Session.bindGlobal_of_free hfree] at hopen
    obtain ⟨reports, hr⟩ := hopen.session
    refine ⟨reports, ?_⟩
    rw [hopen.bound, hr]
    dsimp only [Session.withGlobal, Globals.unbind]
    rw [NameTable.erase_insert_of_not_mem _ _ _ hfree.2]
  · rw [if_neg hfree] at hopen
    rw [hopen.bound]
    exact (Session.bindGlobal_of_not_free hfree _).trans hopen.session

theorem extends_abandon (s : Session) (func : Func Decl) (pos : Option Position)
    (body : List Call) : s.Extends ((s.runBody func pos body).2).abandon :=
  extends_abandon_of_keeps (keeps_run _ body)

end OpenFunction

namespace Session

/-- **Abandoning a function is a rollback.** Whatever the session, the function and the calls on
it, abandoning the function gives the session before it was opened, with more reports; and every
later history answers what it would have answered without the function, and ends in the session in
which it would have ended, up to those reports. -/
theorem abandon_rolls_back (s : Session) (func : Func Decl) (pos : Option Position)
    (body : List OpenFunction.Call) :
    ∃ reports,
      ((s.runBody func pos body).2).abandon =
          { s with diagnostics := s.diagnostics ++ reports } ∧
        ∀ later : List Call, ∃ more,
          (s.run later).2.diagnostics = s.diagnostics ++ more ∧
            ((s.runBody func pos body).2).abandon.run later =
              ((s.run later).1,
                { (s.run later).2 with diagnostics := s.diagnostics ++ reports ++ more }) := by
  obtain ⟨reports, hr⟩ := OpenFunction.extends_abandon s func pos body
  refine ⟨reports, hr, fun later => ?_⟩
  -- Both sessions are one session without reports, with the reports made before it put back.
  have hs : s = { s with diagnostics := [] }.after s.diagnostics := by
    simp only [after, List.append_nil]
  have ha : ((s.runBody func pos body).2).abandon =
      { s with diagnostics := [] }.after (s.diagnostics ++ reports) := by
    rw [hr]
    simp only [after, List.append_nil]
  have hlater := run_after s.diagnostics { s with diagnostics := [] } later
  rw [← hs] at hlater
  refine ⟨(run { s with diagnostics := [] } later).2.diagnostics, ?_, ?_⟩
  · rw [hlater]
    rfl
  · rw [ha, run_after, hlater]
    rfl

end Session

end NameScope
