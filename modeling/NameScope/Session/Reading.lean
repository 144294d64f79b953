import NameScope.Session.Function
import NameScope.Tree.Declared

/-
  Reading a syntax tree into a session.  The tree of a unit has declarations, functions, records
  and enumerations as children.  In the body of a function a compound statement is a block, a
  declaration adds a variable, an identifier is looked up, and any other node is read for what
  is in it.  Reading stops at the first malformed node; what was read before it is kept.
-/

namespace NameScope

namespace OpenFunction

mutual

/-- Reads a statement of the body. -/
def readStatement (f : OpenFunction) (types : BuiltinTypes) :
    Tree → OpenFunction × Except TreeFault Unit
  | .node l children =>
    match l.symbol with
    | "declaration" =>
      match (Tree.node l children).declaredVariable types with
      | .ok v => (f.declare v, .ok ())
      | .error fault => (f, .error fault)
    | "compound_statement" =>
      match readStatements f.enter types children with
      | (f, .error fault) => (f, .error fault)
      | (f, .ok ()) =>
        match f.exit with
        | .ok (_, f) => (f, .ok ())
        | .error fault => (f, .error (.scope fault))
    | "identifier" =>
      if l.text = "" then (f, .ok ()) else ((f.resolve l.text l.pos?).2, .ok ())
    | _ => readStatements f types children

/-- Reads statements up to the first malformed one. -/
def readStatements (f : OpenFunction) (types : BuiltinTypes) :
    List Tree → OpenFunction × Except TreeFault Unit
  | [] => (f, .ok ())
  | t :: ts =>
    match readStatement f types t with
    | (f, .ok ()) => readStatements f types ts
    | (f, .error fault) => (f, .error fault)

end

variable {f : OpenFunction} {types : BuiltinTypes} {l : Label} {cs : List Tree}

theorem readStatement_declaration (h : l.symbol = "declaration") :
    f.readStatement types (.node l cs) =
      match (Tree.node l cs).declaredVariable types with
      | .ok v => (f.declare v, .ok ())
      | .error fault => (f, .error fault) := by
  rw [readStatement, h]
  rfl

theorem readStatement_block (h : l.symbol = "compound_statement") :
    f.readStatement types (.node l cs) =
      match f.enter.readStatements types cs with
      | (g, .error fault) => (g, .error fault)
      | (g, .ok ()) =>
        match g.exit with
        | .ok (_, g) => (g, .ok ())
        | .error fault => (g, .error (.scope fault)) := by
  rw [readStatement, h]
  rfl

theorem readStatement_identifier (h : l.symbol = "identifier") :
    f.readStatement types (.node l cs) =
      if l.text = "" then (f, .ok ()) else ((f.resolve l.text l.pos?).2, .ok ()) := by
  rw [readStatement, h]
  rfl

theorem readStatement_wrapper (hd : l.symbol ≠ "declaration") (hc : l.symbol ≠ "compound_statement")
    (hi : l.symbol ≠ "identifier") :
    f.readStatement types (.node l cs) = f.readStatements types cs := by
  unfold readStatement
  split
  · exact absurd ‹_› hd
  · exact absurd ‹_› hc
  · exact absurd ‹_› hi
  · rfl

/-- Reads the body of a function: what is in its compound statements, all in the block of the
parameters. -/
def readBody (f : OpenFunction) (types : BuiltinTypes) (t : Tree) :
    OpenFunction × Except TreeFault Unit :=
  f.readStatements types
    ((t.children.filter (·.symbol = "compound_statement")).flatMap (·.children))

end OpenFunction

namespace Session

/-- Reads a function.  A function with a malformed body is abandoned. -/
def readFunction (s : Session) (types : BuiltinTypes) (t : Tree) :
    Session × Except TreeFault Unit :=
  match t.declaredFunc types with
  | .error fault => (s, .error fault)
  | .ok func =>
    match (s.openFunction func).readBody types t with
    | (f, .ok ()) => (f.close.2, .ok ())
    | (f, .error fault) => (f.abandon, .error fault)

/-- Reads a child of the tree of a unit. -/
def readChild (s : Session) (types : BuiltinTypes) (t : Tree) : Session × Except TreeFault Unit :=
  match t.symbol with
  | "declaration" =>
    match t.declaredVariable types with
    | .ok v => (s.declare (.var v), .ok ())
    | .error fault => (s, .error fault)
  | "function_definition" =>
    match s.readFunction types t with
    | (s, .ok ()) => (s, .ok ())
    | (s, .error fault) => (s, .error (.inFunction t.declaredName fault))
  | "struct_specifier" => (s.declare (.record (t.declaredRecord true)), .ok ())
  | "union_specifier" => (s.declare (.record (t.declaredRecord false)), .ok ())
  | "enum_specifier" => (s.declare (.enumeration t.declaredEnumeration), .ok ())
  | symbol => (s, .error (.unexpectedChild symbol))

/-- Reads children up to the first malformed one. -/
def readChildren (s : Session) (types : BuiltinTypes) :
    List Tree → Session × Except TreeFault Unit
  | [] => (s, .ok ())
  | t :: ts =>
    match s.readChild types t with
    | (s, .ok ()) => s.readChildren types ts
    | (s, .error fault) => (s, .error fault)

/-- Reads the tree of a unit. -/
def readUnit (s : Session) (types : BuiltinTypes) (t : Tree) : Session × Except TreeFault Unit :=
  if t.symbol = "translation_unit" then s.readChildren types t.children
  else (s, .error (.notUnit t.symbol))

end Session

end NameScope
