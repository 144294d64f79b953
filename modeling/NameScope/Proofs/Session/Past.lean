import NameScope.Proofs.Session.Revision

/-
  The past of a session.  Its declarations and its reports are written and never read: what a call
  does hangs on the names that are bound, on the tags and on the options, and on nothing else.
  `since` puts declarations and reports in front of those of a session, as if more had happened
  before.  This is a revision of the session (`past`), so every operation commutes with it.
-/

namespace NameScope

/-- The session with other declarations and reports made before its own. -/
def Session.since (s : Session) (decls : List Decl) (reports : List Diagnostic) : Session :=
  { s with
    unit := { s.unit with decls := decls ++ s.unit.decls }
    diagnostics := reports ++ s.diagnostics }

/-- The function in a session with other declarations and reports made before its own. -/
def OpenFunction.since (f : OpenFunction) (decls : List Decl) (reports : List Diagnostic) :
    OpenFunction := { f with session := f.session.since decls reports }

variable (ds : List Decl) (rs : List Diagnostic)

namespace Session

/-- Declarations and reports that come before all others; the options are as they are. -/
def past : Revision where
  decls := (ds ++ ·)
  reports := (rs ++ ·)
  options := id
  rule _ := rfl
  add _ _ := (List.append_assoc ..).symm
  scope _ _ := (List.append_assoc ..).symm
  undefined _ _ _ _ _ := (List.append_assoc ..).symm
  initialized _ _ _ := (List.append_assoc ..).symm

theorem declare_since (s : Session) (d : Decl) (pos : Option Position) :
    (s.since ds rs).declare d pos = (s.declare d pos).since ds rs :=
  declare_revise (past ds rs) s d pos

end Session

namespace OpenFunction

open Session (past)

theorem declare_since (f : OpenFunction) (v : Variable) (pos : Option Position) :
    (f.since ds rs).declare v pos = (f.declare v pos).since ds rs :=
  declare_revise (past ds rs) f v pos

theorem resolve_since (f : OpenFunction) (name : String) (pos : Option Position) :
    (f.since ds rs).resolve name pos =
      ((f.resolve name pos).1, (f.resolve name pos).2.since ds rs) :=
  resolve_revise (past ds rs) f name pos

theorem exit_since (f : OpenFunction) :
    (f.since ds rs).exit = f.exit.map fun r => (r.1, r.2.since ds rs) :=
  exit_revise (past ds rs) f

theorem close_since (f : OpenFunction) :
    (f.since ds rs).close = (ds.length + f.close.1, f.close.2.since ds rs) := by
  have hlength : (ds ++ f.session.unit.decls).length = ds.length + f.close.1 := List.length_append
  rw [← hlength]
  exact close_revise (past ds rs) f

theorem abandon_since (f : OpenFunction) :
    (f.since ds rs).abandon = f.abandon.since ds rs :=
  abandon_revise (past ds rs) f

end OpenFunction

namespace Session

theorem openFunction_since (s : Session) (func : Func Decl) (pos : Option Position) :
    (s.since ds rs).openFunction func pos = (s.openFunction func pos).since ds rs :=
  openFunction_revise (past ds rs) s func pos

end Session

end NameScope
