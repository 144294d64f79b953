import NameScope.Tree.Basic

/-
  Walks over trees of any depth.  A walk keeps the subtrees that it has yet to visit in a list, so
  its own depth does not grow with the tree's.  A walk visits the nodes in pre-order, each with its
  depth (`fold_eq`, `walk_eq`), and as often as there are nodes (`count_eq_size`).  Equality
  compares two walks step by step.
-/

namespace NameScope.Tree

mutual

/-- The nodes in pre-order, each with its depth; the root is at depth `d`. -/
def preorder (d : Nat) : Tree → List (Nat × Tree)
  | node l cs => (d, node l cs) :: preorderAll (d + 1) cs

def preorderAll (d : Nat) : List Tree → List (Nat × Tree)
  | [] => []
  | t :: ts => preorder d t ++ preorderAll d ts

end

/-- The number of nodes in the trees that wait for a visit. -/
def pendingSize : List (Nat × Tree) → Nat
  | [] => 0
  | (_, t) :: rest => t.size + pendingSize rest

/-- Puts siblings at depth `d` in front of the trees that wait. -/
def enqueue (d : Nat) (ts : List Tree) (rest : List (Nat × Tree)) : List (Nat × Tree) :=
  ts.map (d, ·) ++ rest

theorem pendingSize_enqueue (d : Nat) (ts : List Tree) (rest : List (Nat × Tree)) :
    pendingSize (enqueue d ts rest) = sizeAll ts + pendingSize rest := by
  induction ts with
  | nil => simp [enqueue, sizeAll]
  | cons t ts ih =>
    simp only [enqueue] at ih
    simp only [enqueue, List.map_cons, List.cons_append, pendingSize, sizeAll, ih]
    omega

/-- Visits the trees that wait, from left to right, each in pre-order. -/
def foldPending {β : Type} (visit : β → Nat → Tree → β) (b : β) : List (Nat × Tree) → β
  | [] => b
  | (d, node l cs) :: rest =>
    foldPending visit (visit b d (node l cs)) (enqueue (d + 1) cs rest)
termination_by pending => pendingSize pending
decreasing_by simp only [pendingSize_enqueue, pendingSize, size]; omega

theorem flatMap_enqueue (d : Nat) (ts : List Tree) (rest : List (Nat × Tree)) :
    (enqueue d ts rest).flatMap (fun p => preorder p.1 p.2) =
      preorderAll d ts ++ rest.flatMap fun p => preorder p.1 p.2 := by
  induction ts with
  | nil => simp [enqueue, preorderAll]
  | cons t ts ih =>
    simp only [enqueue] at ih
    simp only [enqueue, List.map_cons, List.cons_append, List.flatMap_cons, preorderAll, ih,
      List.append_assoc]

theorem foldPending_eq {β : Type} (visit : β → Nat → Tree → β) (b : β)
    (pending : List (Nat × Tree)) :
    foldPending visit b pending =
      (pending.flatMap fun p => preorder p.1 p.2).foldl (fun b p => visit b p.1 p.2) b := by
  fun_induction foldPending visit b pending with
  | case1 => rfl
  | case2 b d l cs rest ih =>
    rw [ih, flatMap_enqueue]
    simp [preorder]

/-- Visits every node in pre-order, with its depth. -/
def fold {β : Type} (visit : β → Nat → Tree → β) (b : β) (t : Tree) : β :=
  foldPending visit b [(0, t)]

/-- The nodes in the order in which a walk visits them, each with its depth. -/
def walk (t : Tree) : List (Nat × Tree) :=
  (t.fold (fun seen d n => (d, n) :: seen) []).reverse

/-- The number of nodes that a walk visits. -/
def count (t : Tree) : Nat := t.fold (fun n _ _ => n + 1) 0

/-- The greatest depth that a walk meets. -/
def maxDepth (t : Tree) : Nat := t.fold (fun m d _ => max m d) 0

theorem fold_eq {β : Type} (visit : β → Nat → Tree → β) (b : β) (t : Tree) :
    t.fold visit b = (t.preorder 0).foldl (fun b p => visit b p.1 p.2) b := by
  rw [fold, foldPending_eq]
  simp

theorem foldl_cons {α : Type} (l seen : List α) :
    l.foldl (fun seen a => a :: seen) seen = l.reverse ++ seen := by
  induction l generalizing seen with
  | nil => rfl
  | cons a l ih => simp [ih]

theorem walk_eq (t : Tree) : t.walk = t.preorder 0 := by
  have h := foldl_cons (t.preorder 0) []
  rw [walk, fold_eq]
  simp only [Prod.eta, h]
  simp

mutual

theorem length_preorder (d : Nat) : ∀ t : Tree, (t.preorder d).length = t.size
  | node l cs => by rw [preorder, size, List.length_cons, length_preorderAll]

theorem length_preorderAll (d : Nat) : ∀ ts : List Tree, (preorderAll d ts).length = sizeAll ts
  | [] => rfl
  | t :: ts => by
    rw [preorderAll, sizeAll, List.length_append, length_preorder, length_preorderAll]

end

theorem foldl_succ {α : Type} (l : List α) (n : Nat) :
    l.foldl (fun n _ => n + 1) n = n + l.length := by
  induction l generalizing n with
  | nil => rfl
  | cons a l ih => rw [List.foldl_cons, ih, List.length_cons]; omega

theorem count_eq_size (t : Tree) : t.count = t.size := by
  rw [count, fold_eq, foldl_succ, length_preorder, Nat.zero_add]

/-! ## Equality -/

/-- Whether two walks agree from here on: in depth, label and number of children at each step. -/
def walksAgree : List (Nat × Tree) → List (Nat × Tree) → Bool
  | [], [] => true
  | (d₁, node l₁ cs₁) :: rest₁, (d₂, node l₂ cs₂) :: rest₂ =>
    if d₁ = d₂ ∧ l₁ = l₂ ∧ cs₁.length = cs₂.length then
      walksAgree (enqueue (d₁ + 1) cs₁ rest₁) (enqueue (d₂ + 1) cs₂ rest₂)
    else false
  | _, _ => false
termination_by pending => pendingSize pending
decreasing_by simp only [pendingSize_enqueue, pendingSize, size]; omega

instance : BEq Tree := ⟨fun s t => walksAgree [(0, s)] [(0, t)]⟩

end NameScope.Tree
