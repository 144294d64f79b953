import NameScope.Text.Quoted
import NameScope.Tree.Walk

/-
  Trees as text.  A dump has a line for each node, indented by the depth of the node, with its
  symbol and its text.  A record names every part of every node, on one line.
-/

namespace NameScope.Tree

/-- The line of a dump for a node at the given depth; a node without text shows its symbol only. -/
def dumpLine (depth : Nat) (l : Label) : String :=
  String.ofList (List.replicate depth ' ') ++ "-" ++ l.symbol ++
    (if l.text = "" then "" else " '" ++ l.text ++ "'") ++ "\n"

/-- The lines for all nodes in pre-order, the root being at the given depth. -/
def dumpFrom (depth : Nat) (t : Tree) : String :=
  t.fold (fun out d n => out ++ dumpLine (depth + d) n.label) ""

def dump (t : Tree) : String := t.dumpFrom 0

/-- The greatest indent that a line can have. -/
def maxIndent : Nat := 65535

/-- Writes the lines for all nodes one after another, the root being at the given depth; a line
that cannot be indented as far as its depth asks stops the whole. -/
def print? (depth : Nat) (t : Tree) : Option String :=
  t.fold (fun out d n =>
    if depth + d ≤ maxIndent then out.map (· ++ dumpLine (depth + d) n.label) else none) (some "")

/-! ## Records -/

def symbolClassRecord : SymbolClass → String
  | .terminal => "Terminal"
  | .nonterminal => "NonTerminal"

def actionRecord : Action → String
  | .pass => "Pass"
  | .named name => "Named(" ++ Text.quoted name ++ ")"

def tokenRecord : Option Token → String
  | none => "None"
  | some t =>
    "Some(LexUnit \x7b id: " ++ Text.quoted t.text ++ ", symbol: " ++ Text.quoted t.symbol ++
      ", row: " ++ toString t.pos.row.toNat ++ ", col: " ++ toString t.pos.col.toNat ++ " \x7d)"

/-- All parts of a node: its depth, its label and the number of its children. -/
def nodeRecord (depth : Nat) (n : Tree) : String :=
  "CstNode \x7b depth: " ++ toString depth ++
    ", kind: " ++ symbolClassRecord n.label.symbolClass ++
    ", id: " ++ Text.quoted n.label.text ++
    ", symbol: " ++ Text.quoted n.label.symbol ++
    ", family_pos: " ++ toString n.label.rank.toNat ++
    ", action: " ++ actionRecord n.label.action ++
    ", token: " ++ tokenRecord n.label.token ++
    ", children: " ++ toString n.children.length ++ " \x7d"

/-- The records of all nodes in pre-order, between brackets. -/
def record (t : Tree) : String :=
  "[" ++ ", ".intercalate (t.walk.map fun (d, n) => nodeRecord d n) ++ "]"

end NameScope.Tree
