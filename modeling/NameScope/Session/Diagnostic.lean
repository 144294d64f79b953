import NameScope.Fault

/-
  What a session reports about a program.
-/

namespace NameScope

inductive Diagnostic where
  | scope (fault : ScopeFault)
  /-- No binding of the name is visible; the suggestions are names that are. -/
  | undefined (name : String) (pos : Option Position) (suggestions : List String)
  /-- A parameter has an initializer where none is allowed. -/
  | initializedParameter (name : String) (pos : Option Position)
deriving DecidableEq

namespace Diagnostic

def message : Diagnostic → String
  | scope fault => fault.message
  | undefined name _ _ => "use of undeclared identifier `" ++ name ++ "`"
  | initializedParameter name _ => "parameter `" ++ name ++ "` cannot have an initializer"

def code : Diagnostic → String
  | scope fault => fault.code
  | undefined .. => "bind::undefined"
  | initializedParameter .. => "bind::initialized_parameter"

/-- Advice on how to mend the program: the suggestions for an unknown name, if there are any. -/
def help? : Diagnostic → Option String
  | scope fault => fault.help?
  | undefined _ _ [] => none
  | undefined _ _ names =>
    some ("did you mean " ++ " or ".intercalate (names.map fun n => "`" ++ n ++ "`") ++ "?")
  | initializedParameter name _ => some ("remove the initializer from `" ++ name ++ "`")

def position? : Diagnostic → Option Position
  | scope fault => fault.position?
  | undefined _ pos _ | initializedParameter _ pos => pos

end Diagnostic

end NameScope
