import Mathlib.Algebra.Ring.Nat
import NameScope.Tree.Dump

/-
  Walks and dumps by recursion on the tree.  A walk is a loop over the subtrees that wait;
  `walk_and_print_recursive`: it meets a tree and then what the walks over its children meet, one
  level further down, and so the number of nodes and the printed text are those of the children put
  together.  Nothing is printed iff the deepest node asks for more indent than there is.
-/

namespace NameScope.Tree

/-! ## The walk -/

/-- A node, one level further down. -/
def deeper (p : Nat × Tree) : Nat × Tree := (p.1 + 1, p.2)

mutual

theorem preorder_succ (d : Nat) : ∀ t : Tree, t.preorder (d + 1) = (t.preorder d).map deeper
  | node l cs => by
    rw [preorder, preorder, List.map_cons, preorderAll_succ]
    rfl

theorem preorderAll_succ (d : Nat) : ∀ ts : List Tree,
    preorderAll (d + 1) ts = (preorderAll d ts).map deeper
  | [] => rfl
  | t :: ts => by
    rw [preorderAll, preorderAll, List.map_append, preorder_succ, preorderAll_succ]

end

theorem preorderAll_eq_flatMap (d : Nat) (ts : List Tree) :
    preorderAll d ts = ts.flatMap (preorder d) := by
  induction ts with
  | nil => rfl
  | cons t ts ih => rw [preorderAll, List.flatMap_cons, ih]

/-- A walk meets the tree itself, then its children's nodes one level further down. -/
theorem walk_eq_cons (t : Tree) :
    t.walk = (0, t) :: t.children.flatMap fun c => c.walk.map deeper := by
  obtain ⟨l, cs⟩ := t
  rw [walk_eq, preorder, preorderAll_succ, preorderAll_eq_flatMap, List.map_flatMap]
  simp only [walk_eq, children]

theorem sizeAll_eq_sum (ts : List Tree) : sizeAll ts = (ts.map count).sum := by
  induction ts with
  | nil => rfl
  | cons t ts ih => rw [sizeAll, List.map_cons, List.sum_cons, ih, count_eq_size]

theorem count_eq_add_sum (t : Tree) : t.count = 1 + (t.children.map count).sum := by
  obtain ⟨l, cs⟩ := t
  rw [count_eq_size, size, sizeAll_eq_sum, Nat.add_comm, children]

/-! ## The text -/

theorem foldl_append_eq {α : Type} (line : α → String) (l : List α) (out : String) :
    l.foldl (fun out a => out ++ line a) out = out ++ String.join (l.map line) := by
  induction l generalizing out with
  | nil => rw [List.foldl_nil, List.map_nil, String.join_nil, String.append_empty]
  | cons a l ih => rw [List.foldl_cons, ih, List.map_cons, String.join_cons, String.append_assoc]

theorem join_flatMap {α : Type} (l : List α) (f : α → List String) :
    String.join (l.flatMap f) = String.join (l.map fun a => String.join (f a)) := by
  induction l with
  | nil => rfl
  | cons a l ih => rw [List.flatMap_cons, String.join_append, ih, List.map_cons, String.join_cons]

/-- A dump is the lines of the walk, one after another. -/
theorem dumpFrom_eq_join (depth : Nat) (t : Tree) :
    t.dumpFrom depth = String.join (t.walk.map fun p => dumpLine (depth + p.1) p.2.label) := by
  rw [dumpFrom, fold_eq, walk_eq, foldl_append_eq, String.empty_append]

/-- The dump of a tree is its own line and the dumps of its children one level further down. -/
theorem dumpFrom_eq_append (depth : Nat) (t : Tree) :
    t.dumpFrom depth =
      dumpLine depth t.label ++ String.join (t.children.map (dumpFrom (depth + 1))) := by
  have hlines : ∀ c : Tree, String.join ((c.walk.map deeper).map fun p =>
      dumpLine (depth + p.1) p.2.label) = c.dumpFrom (depth + 1) := by
    intro c
    rw [dumpFrom_eq_join, List.map_map]
    refine congrArg String.join (List.map_congr_left fun p _ => ?_)
    show dumpLine (depth + (p.1 + 1)) p.2.label = dumpLine (depth + 1 + p.1) p.2.label
    rw [Nat.add_comm p.1 1, ← Nat.add_assoc]
  rw [dumpFrom_eq_join, walk_eq_cons, List.map_cons, String.join_cons, List.map_flatMap,
    join_flatMap]
  simp only [hlines]
  rfl

/-! ## The indent -/

mutual

/-- A bound for all depths is a bound for the greatest, that of a lowest node. -/
theorem preorder_depth_le_iff (n d : Nat) : ∀ t : Tree,
    (∀ p ∈ t.preorder d, p.1 ≤ n) ↔ d + t.height ≤ n
  | node l cs => by
    rw [preorder, List.forall_mem_cons, height]
    constructor
    · rintro ⟨hroot, hbelow⟩
      exact (preorderAll_depth_le_iff n d hroot cs).1 hbelow
    · intro h
      have hroot : d ≤ n := Nat.le_trans (Nat.le_add_right d _) h
      exact ⟨hroot, (preorderAll_depth_le_iff n d hroot cs).2 h⟩

theorem preorderAll_depth_le_iff (n d : Nat) (hd : d ≤ n) : ∀ ts : List Tree,
    (∀ p ∈ preorderAll (d + 1) ts, p.1 ≤ n) ↔ d + heightAll ts ≤ n
  | [] => by simp [preorderAll, heightAll, hd]
  | t :: ts => by
    rw [preorderAll, List.forall_mem_append, preorder_depth_le_iff n (d + 1) t,
      preorderAll_depth_le_iff n d hd ts, heightAll]
    omega

end

theorem walk_depth_le_iff (n depth : Nat) (t : Tree) :
    (∀ p ∈ t.walk, depth + p.1 ≤ n) ↔ depth + t.height ≤ n := by
  have hshift : t.preorder depth = t.walk.map fun p => (depth + p.1, p.2) := by
    rw [walk_eq]
    induction depth with
    | zero => simp
    | succ depth ih =>
      rw [preorder_succ, ih, List.map_map]
      refine List.map_congr_left fun p _ => ?_
      show (depth + p.1 + 1, p.2) = (depth + 1 + p.1, p.2)
      rw [Nat.add_right_comm]
  rw [← preorder_depth_le_iff, hshift, List.forall_mem_map]

/-- Printing goes on as long as every line so far can be indented. -/
theorem foldl_print (depth : Nat) (l : List (Nat × Tree)) (out : Option String) :
    l.foldl (fun out p => if depth + p.1 ≤ maxIndent then
        out.map (· ++ dumpLine (depth + p.1) p.2.label) else none) out =
      if ∀ p ∈ l, depth + p.1 ≤ maxIndent then
        out.map (· ++ String.join (l.map fun p => dumpLine (depth + p.1) p.2.label)) else none := by
  induction l generalizing out with
  | nil => cases out <;> simp
  | cons p l ih =>
    rw [List.foldl_cons, ih]
    by_cases hp : depth + p.1 ≤ maxIndent
    · simp only [hp, if_true, List.forall_mem_cons, true_and, Option.map_map, List.map_cons,
        String.join_cons, Function.comp_def, String.append_assoc]
    · simp only [hp, if_false, List.forall_mem_cons, false_and, Option.map_none, ite_self]

/-- What is printed is the dump, unless the deepest node stands too deep. -/
theorem print?_eq (depth : Nat) (t : Tree) :
    t.print? depth = if depth + t.height ≤ maxIndent then some (t.dumpFrom depth) else none := by
  have hfold := foldl_print depth t.walk (some "")
  rw [Option.map_some, String.empty_append, ← dumpFrom_eq_join] at hfold
  rw [print?, fold_eq, ← walk_eq, hfold]
  exact if_congr (walk_depth_le_iff maxIndent depth t) rfl rfl

theorem height_lt_heightAll {c : Tree} {ts : List Tree} (h : c ∈ ts) : c.height < heightAll ts := by
  induction ts with
  | nil => cases h
  | cons t ts ih =>
    rw [heightAll]
    cases h with
    | head => omega
    | tail _ h => exact Nat.lt_of_lt_of_le (ih h) (Nat.le_max_right _ _)

/-- Siblings that can be printed are printed one after another. -/
theorem mapM_print? {depth : Nat} {ts : List Tree}
    (h : ∀ t ∈ ts, depth + t.height ≤ maxIndent) :
    ts.mapM (print? depth) = some (ts.map (dumpFrom depth)) := by
  induction ts with
  | nil => rfl
  | cons t ts ih =>
    rw [List.forall_mem_cons] at h
    obtain ⟨ht, hts⟩ := h
    rw [List.mapM_cons, print?_eq, if_pos ht, ih hts]
    rfl

/-- Where a tree can be printed, its children can be printed one level further down. -/
theorem print?_children {depth : Nat} {t : Tree} (h : depth + t.height ≤ maxIndent) :
    t.children.mapM (print? (depth + 1)) = some (t.children.map (dumpFrom (depth + 1))) := by
  refine mapM_print? fun c hc => ?_
  obtain ⟨l, cs⟩ := t
  have hlower : c.height < heightAll cs := height_lt_heightAll hc
  rw [height] at h
  omega

/-- **The walk and the printer are recursive functions of the tree.** A walk meets the root, and
then what walks over the children meet, one level further down; nodes are counted in the same way.
The text of a tree at some depth is the line of the root, with as many spaces as the depth, a dash,
the symbol, and the text in quotes if there is any, and then the texts of the children one level
further down; there is a text iff no node is deeper than a line can be indented.  A dump is the text
at depth zero. -/
theorem walk_and_print_recursive (t : Tree) :
    t.walk = (0, t) :: t.children.flatMap (fun c => c.walk.map fun (d, n) => (d + 1, n)) ∧
      t.count = 1 + (t.children.map count).sum ∧
      (∀ depth, (t.print? depth).isSome = true ↔ depth + t.height ≤ 65535) ∧
      (∀ depth, t.print? depth = if depth + t.height ≤ 65535 then
          (t.children.mapM (print? (depth + 1))).map fun below =>
            String.ofList (List.replicate depth ' ') ++ "-" ++ t.symbol ++
              (if t.label.text = "" then "" else " '" ++ t.label.text ++ "'") ++ "\n" ++
              String.join below
        else none) ∧
      (t.print? 0 = if t.height ≤ 65535 then some t.dump else none) := by
  refine ⟨walk_eq_cons t, count_eq_add_sum t, fun depth => ?_, fun depth => ?_, ?_⟩
  · rw [print?_eq]
    by_cases h : depth + t.height ≤ maxIndent
    · exact iff_of_true (by rw [if_pos h]; rfl) h
    · exact iff_of_false (by rw [if_neg h]; exact Bool.false_ne_true) h
  · rw [print?_eq]
    refine ite_congr rfl (fun h => ?_) fun _ => rfl
    rw [print?_children h, Option.map_some, dumpFrom_eq_append]
    rfl
  · rw [print?_eq, Nat.zero_add]
    rfl

end NameScope.Tree
