import NameScope.Proofs.Tree.Copy

/-
  Trees of one shape.  A tree is its shape and its labels: two trees with the same labels at the end
  of the same paths are the same (`eq_of_at?`), and other labels may be put on the shape of a tree
  without moving a node (`at?_relabel`, `outline_relabel`).
-/

namespace NameScope.Tree

/-! ## Other labels on the same shape -/

mutual

/-- The tree of the same shape with another label at every node. -/
def relabel (f : Label → Label) : Tree → Tree
  | node l cs => node (f l) (relabelAll f cs)

def relabelAll (f : Label → Label) : List Tree → List Tree
  | [] => []
  | t :: ts => relabel f t :: relabelAll f ts

end

theorem relabelAll_eq_map (f : Label → Label) (ts : List Tree) :
    relabelAll f ts = ts.map (relabel f) := by
  induction ts with
  | nil => rfl
  | cons t ts ih => rw [relabelAll, List.map_cons, ih]

mutual

theorem lines_relabel (f : Label → Label) (d : Nat) : ∀ t : Tree,
    (t.relabel f).lines d = (t.lines d).map fun p => (p.1, f p.2)
  | node l cs => by
    rw [relabel, lines_node, lines_node, List.map_cons, linesAll_relabelAll]

theorem linesAll_relabelAll (f : Label → Label) (d : Nat) : ∀ ts : List Tree,
    linesAll d (relabelAll f ts) = (linesAll d ts).map fun p => (p.1, f p.2)
  | [] => rfl
  | t :: ts => by
    rw [relabelAll, linesAll_cons, linesAll_cons, List.map_append, lines_relabel,
      linesAll_relabelAll]

end

theorem outline_relabel (f : Label → Label) (t : Tree) :
    (t.relabel f).outline = t.outline.map fun p => (p.1, f p.2) := by
  rw [outline_eq_lines, outline_eq_lines, lines_relabel]

theorem label_relabel (f : Label → Label) (t : Tree) : (t.relabel f).label = f t.label := by
  obtain ⟨l, cs⟩ := t
  rw [relabel]
  rfl

theorem at?_relabel (f : Label → Label) (path : List Nat) (t : Tree) :
    (t.relabel f).at? path = (t.at? path).map (relabel f) := by
  induction path generalizing t with
  | nil => rfl
  | cons i path ih =>
    obtain ⟨l, cs⟩ := t
    rw [relabel, relabelAll_eq_map, at?, at?, children, children, List.getElem?_map]
    cases cs[i]? with
    | none => rfl
    | some c => exact ih c

/-! ## Labels by path -/

mutual

/-- Trees with the same labels at the end of the same paths are the same. -/
theorem eq_of_at? : ∀ {s t : Tree},
    (∀ path, (s.at? path).map label = (t.at? path).map label) → s = t
  | node l cs, node m ds, h => by
    have hroot : l = m := Option.some.inj (h [])
    have hchildren : cs = ds := eqAll_of_at? fun i path => h (i :: path)
    rw [hroot, hchildren]

theorem eqAll_of_at? : ∀ {ss ts : List Tree},
    (∀ (i : Nat) (path : List Nat),
      (ss[i]?.bind (at? path)).map label = (ts[i]?.bind (at? path)).map label) → ss = ts
  | [], [], _ => rfl
  | [], _ :: _, h => nomatch h 0 []
  | _ :: _, [], h => nomatch h 0 []
  | s :: ss, t :: ts, h => by
    have hhead : s = t := eq_of_at? fun path => h 0 path
    have htail : ss = ts := eqAll_of_at? fun i path => h (i + 1) path
    rw [hhead, htail]

end

end NameScope.Tree
