import NameScope.Tree.Outline

/-
  Copies are exact.  `copy_eq_self`: the copy of a tree, which is built node by node from the
  outline, is the tree itself, so every node has its own label and its own children in order; and
  at the end of the outline exactly one node is unfinished, the root with all of its children, so
  the root alone is never given instead.

  What carries the proof is what the lines of whole subtrees do to the unfinished nodes
  (`closeTo_readLines`): once closed, the subtrees are the last children of the node below which
  they stand, and the other unfinished nodes are as before.
-/

namespace NameScope.Tree

/-! ## Outlines of siblings -/

/-- The lines of a tree whose root is at depth `d`. -/
def lines (d : Nat) (t : Tree) : List (Nat × Label) :=
  (t.preorder d).map fun p => (p.1, p.2.label)

/-- The lines of siblings at depth `d`. -/
def linesAll (d : Nat) (ts : List Tree) : List (Nat × Label) :=
  (preorderAll d ts).map fun p => (p.1, p.2.label)

theorem outline_eq_lines (t : Tree) : t.outline = t.lines 0 := by
  rw [outline, walk_eq, lines]

theorem lines_node (d : Nat) (l : Label) (cs : List Tree) :
    (node l cs).lines d = (d, l) :: linesAll (d + 1) cs := by
  rw [lines, preorder]
  rfl

theorem linesAll_cons (d : Nat) (t : Tree) (ts : List Tree) :
    linesAll d (t :: ts) = t.lines d ++ linesAll d ts := by
  rw [linesAll, preorderAll, List.map_append]
  rfl

namespace Unfinished

/-! ## Closing -/

theorem closeTo_nil (d : Nat) : closeTo d [] = [] := by
  rw [closeTo]
  simp

/-- Closing stops at a node above depth `d`. -/
theorem closeTo_of_lt {d : Nat} {u : Unfinished} (h : u.depth < d) (us : List Unfinished) :
    closeTo d (u :: us) = u :: us := by
  cases us with
  | nil => rw [closeTo]; simp
  | cons parent rest => rw [closeTo, if_neg (by omega)]

/-- Closing hands a node at depth `d` or deeper to its parent. -/
theorem closeTo_of_le {d : Nat} {u : Unfinished} (h : d ≤ u.depth) (parent : Unfinished)
    (rest : List Unfinished) :
    closeTo d (u :: parent :: rest) = closeTo d (parent.add u.finish :: rest) := by
  rw [closeTo, if_pos h]

/-- Closing to a depth and then to a lesser one is closing to the lesser one at once. -/
theorem closeTo_closeTo {d e : Nat} (h : d ≤ e) (us : List Unfinished) :
    closeTo d (closeTo e us) = closeTo d us := by
  fun_induction closeTo e us with
  | case1 u parent rest hle ih => rw [ih, closeTo_of_le (by omega)]
  | case2 => rfl
  | case3 => rfl

/-! ## Reading the lines of subtrees -/

/-- The node with the trees as its next children. -/
def addAll (u : Unfinished) (ts : List Tree) : Unfinished :=
  { u with children := ts.reverse ++ u.children }

theorem addAll_cons (u : Unfinished) (t : Tree) (ts : List Tree) :
    u.addAll (t :: ts) = (u.add t).addAll ts := by
  simp [addAll, add]

/-- The first line of siblings at depth `d` closes to that depth, so closing before it changes
nothing. -/
theorem readLines_closeTo (d : Nat) (us : List Unfinished) (ts : List Tree) :
    closeTo d ((linesAll d ts).foldl readLine (closeTo d us)) =
      closeTo d ((linesAll d ts).foldl readLine us) := by
  cases ts with
  | nil => exact closeTo_closeTo (Nat.le_refl d) us
  | cons t ts =>
    obtain ⟨l, cs⟩ := t
    rw [linesAll_cons, lines_node, List.cons_append, List.foldl_cons, List.foldl_cons, readLine,
      readLine, closeTo_closeTo (Nat.le_refl d)]

mutual

/-- The lines of a tree below `u`, closed, make the tree the next child of `u`. -/
theorem closeTo_readLines (u : Unfinished) (us : List Unfinished) : ∀ t : Tree,
    closeTo (u.depth + 1) ((t.lines (u.depth + 1)).foldl readLine (u :: us)) = u.add t :: us
  | node l cs => by
    have hread : readLine (u :: us) (u.depth + 1, l) = ⟨u.depth + 1, l, []⟩ :: u :: us := by
      rw [readLine, closeTo_of_lt (Nat.lt_succ_self _)]
      rfl
    have hfinish : (addAll ⟨u.depth + 1, l, []⟩ cs).finish = node l cs := by
      simp [finish, addAll]
    -- The children are closed down to the node first, and then the node itself is.
    rw [lines_node, List.foldl_cons, hread, ← closeTo_closeTo (Nat.le_succ (u.depth + 1)),
      closeTo_readLinesAll ⟨u.depth + 1, l, []⟩ (u :: us) cs,
      closeTo_of_le (Nat.le_refl (u.depth + 1)), hfinish]
    exact closeTo_of_lt (u := u.add (node l cs)) (Nat.lt_succ_self u.depth) us

/-- The lines of siblings below `u`, closed, make the siblings the next children of `u`. -/
theorem closeTo_readLinesAll (u : Unfinished) (us : List Unfinished) : ∀ ts : List Tree,
    closeTo (u.depth + 1) ((linesAll (u.depth + 1) ts).foldl readLine (u :: us)) =
      u.addAll ts :: us
  | [] => closeTo_of_lt (Nat.lt_succ_self _) us
  | t :: ts => by
    rw [linesAll_cons, List.foldl_append, ← readLines_closeTo, closeTo_readLines u us t]
    exact (closeTo_readLinesAll (u.add t) us ts).trans (by rw [addAll_cons])

end

/-- At the end of the outline of a tree the root is unfinished, with all of its children. -/
theorem read_outline (l : Label) (cs : List Tree) :
    read (node l cs).outline = [⟨0, l, cs.reverse⟩] := by
  have hroot : readLine [] (0, l) = [⟨0, l, []⟩] := by
    rw [readLine, closeTo_nil]
    rfl
  rw [read, outline_eq_lines, lines_node, List.foldl_cons, hroot]
  refine (closeTo_readLinesAll ⟨0, l, []⟩ [] cs).trans ?_
  simp [addAll]

end Unfinished

theorem ofOutline?_outline (t : Tree) : ofOutline? t.outline = some t := by
  obtain ⟨l, cs⟩ := t
  rw [ofOutline?, Unfinished.read_outline]
  simp [Unfinished.finish]

/-- Two trees with one outline are one tree. -/
theorem outline_injective {s t : Tree} (h : s.outline = t.outline) : s = t := by
  have hs := ofOutline?_outline s
  rw [h, ofOutline?_outline t] at hs
  exact (Option.some.inj hs).symm

/-- **Copies are exact.** The copy of a tree is the tree: the same label at every node, the same
children in the same order at every level.  When the outline has been read, one node is unfinished,
and it is the root with all of its children; so the root alone is never the copy of a tree with
more nodes. -/
theorem copy_eq_self (t : Tree) :
    t.copy = t ∧
      ∃ root, Unfinished.read t.outline = [root] ∧ root.finish = t := by
  obtain ⟨l, cs⟩ := t
  have hread := Unfinished.read_outline l cs
  refine ⟨?_, _, hread, ?_⟩
  · rw [copy, ofOutline?_outline]
    rfl
  · simp [Unfinished.finish]

end NameScope.Tree
