import NameScope.Tree.Release

/-
  Release is a post-order visit.  `release_visits_postorder`: whatever the visitor does, taking a
  tree apart calls it on the labels of the tree in post-order, each on a node without children, and
  no other calls are made; so it makes one call for each node, as many as a walk counts.

  The steps that are left to do are what the proof is about: they will visit the labels `visited`
  says, whether a node among them has been detached yet or not (`run_eq_foldl`).
-/

namespace NameScope.Tree

/-! ## Post-order and pre-order -/

mutual

/-- Both orders list the same labels, each as often. -/
theorem postorder_perm (d : Nat) : ∀ t : Tree,
    t.postorder.Perm ((t.preorder d).map (·.2.label))
  | node l cs => by
    rw [postorder, preorder, List.map_cons]
    exact ((postorderAll_perm (d + 1) cs).append_right [l]).trans (List.perm_append_singleton _ _)

theorem postorderAll_perm (d : Nat) : ∀ ts : List Tree,
    (postorderAll ts).Perm ((preorderAll d ts).map (·.2.label))
  | [] => .nil
  | t :: ts => by
    rw [postorderAll, preorderAll, List.map_append]
    exact (postorder_perm d t).append (postorderAll_perm d ts)

end

namespace ReleaseStep

/-! ## Steps that are left -/

/-- The labels that a step will visit, in order. -/
def visited : ReleaseStep → List Label
  | detach t => t.postorder
  | visit l => [l]

theorem flatMap_detachAll (ts : List Tree) (rest : List ReleaseStep) :
    (detachAll ts rest).flatMap visited = postorderAll ts ++ rest.flatMap visited := by
  induction ts with
  | nil => rfl
  | cons t ts ih =>
    have hcons : detachAll (t :: ts) rest = detach t :: detachAll ts rest := rfl
    rw [hcons, List.flatMap_cons, ih, postorderAll, List.append_assoc]
    rfl

/-- The steps that are left visit their labels in order, and each visit is counted. -/
theorem run_eq_foldl {β : Type} (onVisit : β → Tree → β) (b : β) (visits : Nat)
    (steps : List ReleaseStep) :
    run onVisit b visits steps =
      (((steps.flatMap visited).map leaf).foldl onVisit b,
        visits + (steps.flatMap visited).length) := by
  fun_induction run onVisit b visits steps with
  | case1 b visits => rfl
  | case2 b visits l rest ih =>
    rw [ih, List.flatMap_cons, visited, List.singleton_append, List.map_cons, List.foldl_cons,
      List.length_cons]
    congr 1
    omega
  | case3 b visits l cs rest ih =>
    -- Detaching a node does not change what is left to visit.
    have hsame : (detachAll cs (visit l :: rest)).flatMap visited =
        (detach (node l cs) :: rest).flatMap visited := by
      rw [flatMap_detachAll, List.flatMap_cons, List.flatMap_cons, visited, visited, postorder,
        List.append_assoc]
    rw [ih, hsame]

end ReleaseStep

theorem release_eq_foldl {β : Type} (onVisit : β → Tree → β) (b : β) (t : Tree) :
    t.release onVisit b = ((t.postorder.map leaf).foldl onVisit b, t.postorder.length) := by
  have hleft : [ReleaseStep.detach t].flatMap ReleaseStep.visited = t.postorder := by
    rw [List.flatMap_singleton, ReleaseStep.visited]
  rw [release, ReleaseStep.run_eq_foldl, hleft, Nat.zero_add]

/-- There are as many labels in post-order as a walk counts nodes. -/
theorem length_postorder (t : Tree) : t.postorder.length = t.count := by
  rw [(postorder_perm 0 t).length_eq, List.length_map, length_preorder, count_eq_size]

/-- **Release visits in post-order, each node once.** Taking a tree apart makes the visits of the
tree's post-order, in that order and no others: each sees the label of its node and no children.
The visits are counted, and there are as many as a walk counts nodes; post-order lists the labels
that a walk meets, each as often.  For no tree the count is zero. -/
theorem release_visits_postorder {β : Type} (onVisit : β → Tree → β) (b : β) (t : Tree) :
    t.release onVisit b = ((t.postorder.map leaf).foldl onVisit b, t.count) ∧
      t.postorder.length = t.count ∧
      t.postorder.Perm (t.walk.map (·.2.label)) ∧
      releaseCount (some t) = t.count ∧ releaseCount none = 0 := by
  refine ⟨?_, length_postorder t, ?_, ?_, rfl⟩
  · rw [release_eq_foldl, length_postorder]
  · rw [walk_eq]
    exact postorder_perm 0 t
  · show (t.release (fun _ _ => ()) ()).2 = t.count
    rw [release_eq_foldl, length_postorder]

end NameScope.Tree
