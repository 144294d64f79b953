import NameScope.Proofs.History
import NameScope.Session.Function

/-
  Histories of sessions.  A call on a session declares something, asks for something, or runs a
  whole function: while a function is open its session can be reached through the function only, so
  the calls on the function, and the way it ends, are part of one call.
-/

namespace NameScope

namespace OpenFunction

/-- A call on an open function. -/
inductive Call where
  | enter
  | exit
  | declare (v : Variable) (pos : Option Position)
  | resolve (name : String) (pos : Option Position)
  | depth

/-- What a call on an open function gives back. -/
inductive Answer where
  | done
  | closed (table : NameTable Binding)
  | fault (fault : ScopeFault)
  | resolved (type : Option TypeUse)
  | depth (n : Nat)

def step (f : OpenFunction) : Call → Answer × OpenFunction
  | .enter => (.done, f.enter)
  | .exit =>
    match f.exit with
    | .ok (table, f) => (.closed table, f)
    | .error fault => (.fault fault, f)
  | .declare v pos => (.done, f.declare v pos)
  | .resolve name pos => (.resolved (f.resolve name pos).1, (f.resolve name pos).2)
  | .depth => (.depth f.depth, f)

/-- Makes the calls of a body in order. -/
def run (f : OpenFunction) (calls : List Call) : List Answer × OpenFunction :=
  History.run step f calls

end OpenFunction

namespace Session

/-- The two ways in which a function ends. -/
inductive Ending where
  | close
  | abandon

/-- A call on a session.  A record or an enumeration is declared at its own place. -/
inductive Call where
  | declare (d : Decl) (pos : Option Position)
  | function (func : Func Decl) (pos : Option Position) (body : List OpenFunction.Call)
      (ending : Ending)
  | tagKind (name : String)
  | globalType (name : String)

/-- What a call on a session gives back; a function that is closed has a position in the unit. -/
inductive Answer where
  | done
  | closed (body : List OpenFunction.Answer) (position : Nat)
  | abandoned (body : List OpenFunction.Answer)
  | tag (kind : Option Decl.Kind)
  | type (found : Option TypeUse)

/-- The function when the calls of its body have been made, with their answers. -/
def runBody (s : Session) (func : Func Decl) (pos : Option Position)
    (body : List OpenFunction.Call) : List OpenFunction.Answer × OpenFunction :=
  (s.openFunction func pos).run body

def step (s : Session) : Call → Answer × Session
  | .declare d pos => (.done, s.declare d pos)
  | .function func pos body .close =>
    let (answers, f) := s.runBody func pos body
    (.closed answers f.close.1, f.close.2)
  | .function func pos body .abandon =>
    let (answers, f) := s.runBody func pos body
    (.abandoned answers, f.abandon)
  | .tagKind name => (.tag (s.tagKind? name), s)
  | .globalType name => (.type (s.globalType? name), s)

/-- Makes the calls of a history in order. -/
def run (s : Session) (calls : List Call) : List Answer × Session := History.run step s calls

/-- The session in which nothing has happened yet. -/
def start (options : Options) : Session :=
  { unit := { table := .empty }, tags := .empty, options := options }

end Session

end NameScope
