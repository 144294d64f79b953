import NameScope.Proofs.Tree.Copy
import NameScope.Proofs.Tree.Recursion
import NameScope.Proofs.Tree.Release

/-
  Grafting a tree.  `graft_inserts`: a tree that is grafted at the end of a path becomes the last
  child of the node there, and nothing else changes.  In pre-order its nodes stand right after the
  last descendant of that node, in post-order right before the node itself, and every other node
  keeps its label, its depth and its path.

  What a change at the end of a path does is said once (`Replaced`): on the way to the node, each
  level keeps the siblings on the left and on the right of the path.
-/

namespace NameScope.Tree

/-! ## Where a node stands -/

/-- The number of nodes that a walk meets before the node at the end of the path. -/
def preIndex : List Nat → Tree → Nat
  | [], _ => 0
  | i :: path, t =>
    1 + sizeAll (t.children.take i) + (t.children[i]?.map (preIndex path)).getD 0

/-- The number of nodes that are visited before the node at the end of the path when the tree is
taken apart. -/
def postIndex : List Nat → Tree → Nat
  | [], t => sizeAll t.children
  | i :: path, t => sizeAll (t.children.take i) + (t.children[i]?.map (postIndex path)).getD 0

/-- Lines of an outline, further down by `d` levels. -/
def lowered (d : Nat) (lines : List (Nat × Label)) : List (Nat × Label) :=
  lines.map fun p => (p.1 + d, p.2)

theorem lines_eq_lowered (d : Nat) (t : Tree) : t.lines d = lowered d t.outline := by
  rw [outline_eq_lines]
  induction d with
  | zero => simp [lowered]
  | succ d ih =>
    have hdeeper : t.lines (d + 1) = (t.lines d).map fun p => (p.1 + 1, p.2) := by
      rw [lines, lines, preorder_succ, List.map_map, List.map_map]
      rfl
    rw [hdeeper, ih, lowered, lowered, List.map_map]
    rfl

/-! ## Siblings -/

theorem linesAll_append (d : Nat) (left right : List Tree) :
    linesAll d (left ++ right) = linesAll d left ++ linesAll d right := by
  induction left with
  | nil => rfl
  | cons c left ih => rw [List.cons_append, linesAll_cons, linesAll_cons, ih, List.append_assoc]

theorem postorderAll_append (left right : List Tree) :
    postorderAll (left ++ right) = postorderAll left ++ postorderAll right := by
  induction left with
  | nil => rfl
  | cons c left ih =>
    rw [List.cons_append, postorderAll, postorderAll, ih, List.append_assoc]

theorem length_postorderAll (ts : List Tree) : (postorderAll ts).length = sizeAll ts := by
  rw [(postorderAll_perm 0 ts).length_eq, List.length_map, length_preorderAll]

/-! ## A change at the end of a path -/

/-- The trees are the same but for the node at the end of the path, which is `n` in the first and
`m` in the second. -/
inductive Replaced (n m : Tree) : List Nat → Tree → Tree → Prop where
  | here : Replaced n m [] n m
  | inside {path : List Nat} {c d : Tree} (h : Replaced n m path c d) (l : Label)
    (left right : List Tree) :
    Replaced n m (left.length :: path) (node l (left ++ c :: right)) (node l (left ++ d :: right))

/-- A path into a child parts its siblings on the left from those on the right. -/
theorem exists_split_of_at? {i : Nat} {path : List Nat} {t n : Tree}
    (h : t.at? (i :: path) = some n) :
    ∃ l left c right, t = node l (left ++ c :: right) ∧ left.length = i ∧ c.at? path = some n := by
  obtain ⟨l, cs⟩ := t
  obtain ⟨c, hchild, hat⟩ := Option.bind_eq_some_iff.1 h
  rw [children] at hchild
  obtain ⟨hi, rfl⟩ := List.getElem?_eq_some_iff.1 hchild
  refine ⟨l, cs.take i, cs[i], cs.drop (i + 1), ?_, List.length_take_of_le (by omega), hat⟩
  rw [← List.drop_eq_getElem_cons hi, List.take_append_drop]

/-- Changing the node at the end of a path replaces it and gives a tree. -/
theorem modifyAt?_replaces (f : Tree → Tree) {path : List Nat} {t n : Tree}
    (h : t.at? path = some n) :
    ∃ u, t.modifyAt? f path = some u ∧ Replaced n (f n) path t u := by
  induction path generalizing t with
  | nil =>
    cases h
    exact ⟨f n, rfl, .here⟩
  | cons i path ih =>
    obtain ⟨l, left, c, right, rfl, rfl, hat⟩ := exists_split_of_at? h
    obtain ⟨d, hmodify, hreplaced⟩ := ih hat
    refine ⟨node l (left ++ d :: right), ?_, hreplaced.inside l left right⟩
    simp [modifyAt?, children, label, hmodify]

/-- Where a path leads to no node, there is nothing to change. -/
theorem modifyAt?_eq_none {f : Tree → Tree} {path : List Nat} {t : Tree}
    (h : t.at? path = none) : t.modifyAt? f path = none := by
  induction path generalizing t with
  | nil => cases h
  | cons i path ih =>
    rw [at?, Option.bind_eq_none_iff] at h
    cases hchild : t.children[i]? with
    | none => simp [modifyAt?, hchild]
    | some c => simp [modifyAt?, hchild, ih (h c hchild)]

/-- A path that takes a child that is not there leads to no node. -/
theorem at?_eq_none_of_length_le {above : List Nat} {i : Nat} {t n : Tree}
    (h : t.at? above = some n) (hi : n.children.length ≤ i) (below : List Nat) :
    t.at? (above ++ i :: below) = none := by
  induction above generalizing t with
  | nil =>
    cases h
    rw [List.nil_append, at?, List.getElem?_eq_none hi]
    rfl
  | cons j above ih =>
    obtain ⟨c, hchild, hat⟩ := Option.bind_eq_some_iff.1 h
    rw [List.cons_append, at?, hchild]
    exact ih hat

/-- Every node of the first tree is in the second, at the end of the same path and with the same
label. -/
def Keeps (t u : Tree) : Prop :=
  ∀ path n, t.at? path = some n → ∃ m, u.at? path = some m ∧ m.label = n.label

namespace Replaced

variable {n m t u : Tree} {path : List Nat}

theorem preIndex_inside (l : Label) (left : List Tree) (c : Tree) (right : List Tree) :
    (node l (left ++ c :: right)).preIndex (left.length :: path) =
      1 + sizeAll left + c.preIndex path := by
  simp [preIndex, children]

theorem postIndex_inside (l : Label) (left : List Tree) (c : Tree) (right : List Tree) :
    (node l (left ++ c :: right)).postIndex (left.length :: path) =
      sizeAll left + c.postIndex path := by
  simp [postIndex, children]

/-- In pre-order only the lines of the node that is replaced are others. -/
theorem lines (h : Replaced n m path t u) (d : Nat) :
    ∃ before after, before.length = t.preIndex path ∧
      t.lines d = before ++ n.lines (d + path.length) ++ after ∧
      u.lines d = before ++ m.lines (d + path.length) ++ after := by
  induction h generalizing d with
  | here => exact ⟨[], [], rfl, by simp, by simp⟩
  | @inside path c e _ l left right ih =>
    obtain ⟨before, after, hlength, hc, he⟩ := ih (d + 1)
    have hdeeper : d + 1 + path.length = d + (left.length :: path).length := by
      rw [List.length_cons]
      omega
    refine ⟨(d, l) :: linesAll (d + 1) left ++ before, after ++ linesAll (d + 1) right, ?_, ?_, ?_⟩
    · have hleft : (linesAll (d + 1) left).length = sizeAll left := by
        rw [linesAll, List.length_map, length_preorderAll]
      rw [preIndex_inside, List.length_append, List.length_cons, hleft, hlength, Nat.add_comm 1]
    · rw [lines_node, linesAll_append, linesAll_cons, hc, hdeeper]
      simp
    · rw [lines_node, linesAll_append, linesAll_cons, he, hdeeper]
      simp

/-- In post-order only the visits to the node that is replaced are others. -/
theorem postorder (h : Replaced n m path t u) :
    ∃ before after, before.length + sizeAll n.children = t.postIndex path ∧
      t.postorder = before ++ n.postorder ++ after ∧
      u.postorder = before ++ m.postorder ++ after := by
  induction h with
  | here => exact ⟨[], [], by simp [postIndex], by simp, by simp⟩
  | @inside path c e _ l left right ih =>
    obtain ⟨before, after, hlength, hc, he⟩ := ih
    refine ⟨postorderAll left ++ before, after ++ (postorderAll right ++ [l]), ?_, ?_, ?_⟩
    · rw [postIndex_inside, List.length_append, length_postorderAll, Nat.add_assoc, hlength]
    · rw [Tree.postorder, postorderAll_append, postorderAll, hc]
      simp
    · rw [Tree.postorder, postorderAll_append, postorderAll, he]
      simp

/-- If the node that is replaced keeps its nodes, so does the tree. -/
theorem keeps (h : Replaced n m path t u) (hkeeps : Keeps n m) : Keeps t u := by
  induction h with
  | here => exact hkeeps
  | @inside path c e _ l left right ih =>
    intro q a hat
    cases q with
    | nil =>
      cases hat
      exact ⟨_, rfl, rfl⟩
    | cons j q =>
      obtain ⟨b, hchild, hb⟩ := Option.bind_eq_some_iff.1 hat
      rw [children] at hchild
      have hother : j ≠ left.length → (left ++ e :: right)[j]? = some b := by
        intro hj
        rw [← hchild, List.getElem?_append, List.getElem?_append]
        by_cases hlt : j < left.length
        · rw [if_pos hlt, if_pos hlt]
        · obtain ⟨k, hk⟩ : ∃ k, j - left.length = k + 1 := ⟨j - left.length - 1, by omega⟩
          rw [if_neg hlt, if_neg hlt, hk, List.getElem?_cons_succ, List.getElem?_cons_succ]
      by_cases hj : j = left.length
      · subst hj
        have hc : c = b := by simpa using hchild
        subst hc
        obtain ⟨a', hat', hlabel⟩ := ih q a hb
        exact ⟨a', by simp [at?, children, hat'], hlabel⟩
      · exact ⟨a, by rw [at?, children, hother hj]; exact hb, rfl⟩

end Replaced

/-! ## A new last child -/

theorem lines_push (d : Nat) (n c : Tree) : (n.push c).lines d = n.lines d ++ c.lines (d + 1) := by
  obtain ⟨l, cs⟩ := n
  rw [push, label, children, lines_node, lines_node, linesAll_append, linesAll_cons]
  simp [linesAll, preorderAll]

theorem postorder_eq_concat (n : Tree) : n.postorder = postorderAll n.children ++ [n.label] := by
  obtain ⟨l, cs⟩ := n
  rw [postorder]
  rfl

theorem postorder_push (n c : Tree) :
    (n.push c).postorder = postorderAll n.children ++ c.postorder ++ [n.label] := by
  rw [postorder_eq_concat, push, children, postorderAll_append, postorderAll, postorderAll,
    List.append_nil]
  rfl

theorem keeps_push (n c : Tree) : Keeps n (n.push c) := by
  intro q a hat
  cases q with
  | nil =>
    cases hat
    exact ⟨_, rfl, rfl⟩
  | cons j q =>
    obtain ⟨b, hchild, hb⟩ := Option.bind_eq_some_iff.1 hat
    obtain ⟨hj, -⟩ := List.getElem?_eq_some_iff.1 hchild
    refine ⟨a, ?_, rfl⟩
    rw [at?, push, children, List.getElem?_append_left hj, hchild]
    exact hb

/-- **Grafting a tree changes nothing else.** Where a path leads to a node `n` of `t`, grafting `c`
gives a tree.  Its nodes in pre-order are those of `t`, with those of `c` right after the last
descendant of `n`, one level below `n`; the nodes of `t` have kept their paths and all of their
labels; and there are as many as in both trees.  Taking it apart visits the nodes of `t` in their
order, with those of `c`, in the order of `c`, right before `n`.  A path that takes a child that is
not there leads to no node, grafting gives no tree, and whoever asked for it still has `t`. -/
theorem graft_inserts (t c : Tree) (path : List Nat) :
    (∀ n, t.at? path = some n → ∃ u, t.graft? path c = some u ∧
        (∃ before after, before.length = t.preIndex path ∧
          t.outline = before ++ lowered path.length n.outline ++ after ∧
          u.outline = before ++ lowered path.length n.outline ++
            lowered (path.length + 1) c.outline ++ after) ∧
        Keeps t u ∧ u.count = t.count + c.count ∧
        ∃ before after, before.length = t.postIndex path ∧
          t.postorder = before ++ n.label :: after ∧
          ∀ {β : Type} (onVisit : β → Tree → β) (b : β), u.release onVisit b =
            (((before ++ c.postorder ++ n.label :: after).map leaf).foldl onVisit b,
              t.count + c.count)) ∧
      ∀ above i below n, path = above ++ i :: below → t.at? above = some n →
        n.children.length ≤ i →
          t.at? path = none ∧ t.graft? path c = none ∧ (t.graft? path c).getD t = t := by
  constructor
  · intro n hat
    obtain ⟨u, hgraft, hreplaced⟩ := modifyAt?_replaces (·.push c) hat
    obtain ⟨before, after, hpre, ht, hu⟩ := hreplaced.lines 0
    obtain ⟨gone, left, hpost, ht', hu'⟩ := hreplaced.postorder
    have houtline : u.outline = before ++ lowered path.length n.outline ++
        lowered (path.length + 1) c.outline ++ after := by
      rw [outline_eq_lines, hu, Nat.zero_add, lines_push, lines_eq_lowered, lines_eq_lowered]
      simp only [List.append_assoc]
    have hcount : u.count = t.count + c.count := by
      rw [← length_postorder, ← length_postorder, ← length_postorder, hu', ht', postorder_push,
        postorder_eq_concat n]
      simp only [List.length_append]
      omega
    refine ⟨u, hgraft, ⟨before, after, hpre, ?_, houtline⟩, hreplaced.keeps (keeps_push n c),
      hcount, gone ++ postorderAll n.children, left, ?_, ?_, fun onVisit b => ?_⟩
    · rw [outline_eq_lines, ht, Nat.zero_add, lines_eq_lowered]
    · rw [List.length_append, length_postorderAll, hpost]
    · rw [ht', postorder_eq_concat]
      simp
    · rw [release_eq_foldl, length_postorder, hcount, hu', postorder_push]
      simp
  · intro above i below n hpath hat hi
    subst hpath
    have hnone := at?_eq_none_of_length_le hat hi below
    have hgraft : t.graft? (above ++ i :: below) c = none := modifyAt?_eq_none hnone
    exact ⟨hnone, hgraft, by rw [hgraft]; rfl⟩

/-- A tree with two equal children: the new nodes go into the first, and there is no third. -/
theorem graft_inserts_twins :
    let l (symbol : String) : Label := { symbolClass := .nonterminal, symbol := symbol }
    let twin := node (l "twin") [leaf (l "leaf")]
    let t := node (l "root") [twin, twin]
    let c := node (l "new") [leaf (l "inner")]
    t.at? [0] = some twin ∧ t.at? [] = some t ∧ t.children.length ≤ 2 ∧
      (∃ u, t.graft? [0] c = some u ∧
        u.release (fun seen n => seen ++ [n.symbol]) [] =
          (["leaf", "inner", "new", "twin", "leaf", "twin", "root"], 7)) ∧
      t.graft? [2, 0] c = none := by
  intro l twin t c
  obtain ⟨u, hgraft, -, -, -, before, after, hlength, hpost, hrelease⟩ :=
    (graft_inserts t c [0]).1 twin rfl
  obtain ⟨-, hnone, -⟩ := (graft_inserts t c [2, 0]).2 [] 2 [0] t rfl rfl (by decide)
  have hsplit : [l "leaf"] ++ twin.label :: [l "leaf", l "twin", l "root"] =
      before ++ twin.label :: after := hpost
  obtain ⟨rfl, hafter⟩ := List.append_inj hsplit hlength.symm
  obtain ⟨-, rfl⟩ := List.cons.inj hafter
  refine ⟨rfl, rfl, by decide, ⟨u, hgraft, ?_⟩, hnone⟩
  rw [hrelease, count_eq_size, count_eq_size]
  rfl

end NameScope.Tree
