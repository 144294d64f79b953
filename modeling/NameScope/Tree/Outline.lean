import NameScope.Tree.Walk

/-
  Outlines and copies.  The outline of a tree lists its labels in pre-order with their depths, and
  that is enough to build the tree again: `ofOutline?` keeps the ancestors of the node at hand, and
  closes those at its depth and deeper when the next node comes.  A copy is built from the outline,
  so it does not recurse into the tree.
-/

namespace NameScope.Tree

/-- The labels in pre-order, each with its depth. -/
def outline (t : Tree) : List (Nat × Label) := t.walk.map fun (d, n) => (d, n.label)

/-- A node whose children are not all known yet; those that are known stand last first.  `depth` is
the number of its unfinished ancestors. -/
structure Unfinished where
  depth : Nat
  label : Label
  children : List Tree := []

namespace Unfinished

/-- The tree of the node, with the children known so far. -/
def finish (u : Unfinished) : Tree := node u.label u.children.reverse

def add (u : Unfinished) (child : Tree) : Unfinished :=
  { u with children := child :: u.children }

/-- Finishes the nodes at depth `d` and deeper and hands each to its parent; the root, which has
no parent, stays.  The innermost node stands first. -/
def closeTo (d : Nat) : List Unfinished → List Unfinished
  | u :: parent :: rest =>
    if d ≤ u.depth then closeTo d (parent.add u.finish :: rest) else u :: parent :: rest
  | us => us
termination_by us => us.length

/-- The number of unfinished nodes, as the innermost one has it. -/
def count : List Unfinished → Nat
  | [] => 0
  | u :: _ => u.depth + 1

/-- Starts a node inside the innermost of the others. -/
def nest (l : Label) (us : List Unfinished) : List Unfinished := ⟨count us, l, []⟩ :: us

/-- Reads a line of an outline: nodes at the depth of the new node and deeper are finished, and
the new node is started. -/
def readLine (us : List Unfinished) (line : Nat × Label) : List Unfinished :=
  nest line.2 (closeTo line.1 us)

/-- The nodes that are left unfinished at the end of an outline, when all that have a parent have
been handed to it. -/
def read (lines : List (Nat × Label)) : List Unfinished := closeTo 1 (lines.foldl readLine [])

end Unfinished

/-- The tree that an outline builds; an outline without lines builds none. -/
def ofOutline? (lines : List (Nat × Label)) : Option Tree :=
  (Unfinished.read lines).head?.map (·.finish)

/-- A copy, built from the outline; the root alone if the outline builds nothing. -/
def copy (t : Tree) : Tree := (ofOutline? t.outline).getD (leaf t.label)

end NameScope.Tree
