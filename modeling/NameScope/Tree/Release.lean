import NameScope.Tree.Walk

/-
  Taking a tree apart.  Every node is visited once, after all of its children, and at its visit it
  has no children any more.  What is left to do stands in a list, so depth does not matter.
-/

namespace NameScope.Tree

mutual

/-- The labels in post-order: the children from left to right, then their parent. -/
def postorder : Tree → List Label
  | node l cs => postorderAll cs ++ [l]

def postorderAll : List Tree → List Label
  | [] => []
  | t :: ts => postorder t ++ postorderAll ts

end

/-- A step of taking apart: detach the children of a tree, or visit a node that has lost them. -/
inductive ReleaseStep where
  | detach (tree : Tree)
  | visit (label : Label)

namespace ReleaseStep

/-- A node is detached once and visited once. -/
def weight : ReleaseStep → Nat
  | detach t => 2 * t.size
  | visit _ => 1

def totalWeight : List ReleaseStep → Nat
  | [] => 0
  | s :: rest => s.weight + totalWeight rest

/-- Puts siblings that are still to be taken apart in front of other steps. -/
def detachAll (ts : List Tree) (rest : List ReleaseStep) : List ReleaseStep :=
  ts.map detach ++ rest

theorem totalWeight_detachAll (ts : List Tree) (rest : List ReleaseStep) :
    totalWeight (detachAll ts rest) = 2 * sizeAll ts + totalWeight rest := by
  induction ts with
  | nil => simp [detachAll, sizeAll]
  | cons t ts ih =>
    simp only [detachAll] at ih
    simp only [detachAll, List.map_cons, List.cons_append, totalWeight, weight, sizeAll, ih]
    omega

/-- Does the steps in order; the result holds the number of visits. -/
def run {β : Type} (onVisit : β → Tree → β) (b : β) (visits : Nat) : List ReleaseStep → β × Nat
  | [] => (b, visits)
  | visit l :: rest => run onVisit (onVisit b (leaf l)) (visits + 1) rest
  | detach (node l cs) :: rest => run onVisit b visits (detachAll cs (visit l :: rest))
termination_by steps => totalWeight steps
decreasing_by
  · simp only [totalWeight, weight]; omega
  · simp only [totalWeight_detachAll, totalWeight, weight, size]; omega

end ReleaseStep

/-- Takes the tree apart and counts the visits. -/
def release {β : Type} (onVisit : β → Tree → β) (b : β) (t : Tree) : β × Nat :=
  ReleaseStep.run onVisit b 0 [.detach t]

/-- The number of nodes that go with a tree, if there is one. -/
def releaseCount : Option Tree → Nat
  | none => 0
  | some t => (t.release (fun _ _ => ()) ()).2

end NameScope.Tree
