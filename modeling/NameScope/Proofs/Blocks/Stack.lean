import NameScope.NameTable.Lemmas
import NameScope.Proofs.Blocks.History

/-
  Blocks as a stack of lists.  The specification of blocks knows neither tables nor searches
  through tables: an open block is the list of the declarations that were accepted in it, in order,
  a name is looked up in the concatenation of the lists, innermost block first, and a declaration
  is refused outside of all blocks before any binding is looked for.

  `history_refines_stack`: from no open block and any rule, every history of calls gives the same
  answers on blocks and on the stack, faults with all their parts included, and leaves the same
  entries in the same open blocks; and a call that fails changes nothing.
-/

namespace NameScope

/-- The entries of the open blocks, innermost block first, and the rule for new ones. -/
structure BlockStack where
  blocks : List (List (String × Binding)) := []
  rule : RedeclarationRule := .visible

namespace BlockStack

open Blocks (Call Answer)

/-- The entry of `name` in the innermost block that holds one. -/
def nearest? (s : BlockStack) (name : String) : Option Binding := s.blocks.flatten.lookup name

/-- The nearest entry of `name` among those that the rule takes into account, `block` being the
innermost block. -/
def rival? (s : BlockStack) (block : List (String × Binding)) (name : String) : Option Binding :=
  match s.rule with
  | .visible => s.nearest? name
  | .sameBlock => block.lookup name

def step (s : BlockStack) : Call → Answer × BlockStack
  | .enter => (.done, { s with blocks := [] :: s.blocks })
  | .exit =>
    match s.blocks with
    | [] => (.fault .underflow, s)
    | block :: outer => (.closed block, { s with blocks := outer })
  | .closeAll => (.done, { s with blocks := [] })
  | .setRule rule => (.done, { s with rule := rule })
  | .declare name type pos =>
    match s.blocks with
    | [] => (.fault (.outsideBlock name), s)
    | block :: outer =>
      match s.rival? block name with
      | some old => (.fault (.redeclared name old.pos pos), s)
      | none => (.done, { s with blocks := (block ++ [(name, ⟨type, pos⟩)]) :: outer })
  | .lookup name => (.binding (s.nearest? name), s)
  | .lookupType name => (.type ((s.nearest? name).map (·.type)), s)

def run (s : BlockStack) (calls : List Call) : List Answer × BlockStack := History.run step s calls

end BlockStack

namespace Blocks

/-- The stack that blocks stand for. -/
def toStack (b : Blocks) : BlockStack := ⟨b.tables.map (·.entries), b.rule⟩

/-! ## Looking up -/

theorem lookup_flatten {α : Type} (blocks : List (List (String × α))) (name : String) :
    blocks.flatten.lookup name = blocks.findSome? (·.lookup name) := by
  induction blocks with
  | nil => rfl
  | cons block outer ih =>
    rw [List.flatten_cons, List.lookup_append, ih, List.findSome?_cons]
    cases block.lookup name <;> rfl

theorem nearest?_toStack (b : Blocks) (name : String) :
    b.toStack.nearest? name = b.lookup? name := by
  unfold BlockStack.nearest? toStack
  rw [lookup_flatten, List.findSome?_map, lookup?_eq_findSome?]
  rfl

theorem rival?_toStack {b : Blocks} {table : NameTable Binding} {outer : List (NameTable Binding)}
    (h : b.tables = table :: outer) (name : String) :
    b.toStack.rival? table.entries name = b.obstacle? name := by
  have hrule : b.toStack.rule = b.rule := rfl
  unfold BlockStack.rival? obstacle? innermost?
  rw [hrule, nearest?_toStack, h]
  cases b.rule <;> rfl

/-! ## Declaring -/

theorem obstacle?_nil {b : Blocks} (h : b.tables = []) (name : String) :
    b.obstacle? name = none := by
  unfold obstacle? innermost?
  rw [lookup?_eq_findSome?, h]
  cases b.rule <;> rfl

theorem step_declare_toStack (b : Blocks) (name : String) (type : TypeUse)
    (pos : Option Position) :
    b.toStack.step (.declare name type pos) =
      ((b.step (.declare name type pos)).1, (b.step (.declare name type pos)).2.toStack) := by
  cases ht : b.tables with
  | nil =>
    have hs : b.toStack.blocks = [] := by simp [toStack, ht]
    simp only [BlockStack.step, hs, step, declare, obstacle?_nil ht, ht]
  | cons table outer =>
    have hs : b.toStack.blocks = table.entries :: outer.map (·.entries) := by simp [toStack, ht]
    have hr := rival?_toStack ht name
    cases ho : b.obstacle? name with
    | some old => simp only [BlockStack.step, hs, hr, step, declare, ho]
    | none =>
      have hfree : table.get? name = none := get?_innermost_of_obstacle?_none ht ho
      have hins := NameTable.entries_insert_of_get?_eq_none hfree (⟨type, pos⟩ : Binding)
      simp only [BlockStack.step, hs, hr, step, declare, ho, ht]
      simp only [toStack, List.map_cons, hins]

/-! ## Histories -/

/-- One call does the same to blocks and to the stack that they stand for. -/
theorem step_toStack (b : Blocks) (c : Call) :
    b.toStack.step c = ((b.step c).1, (b.step c).2.toStack) := by
  cases c with
  | enter => rfl
  | exit =>
    cases ht : b.tables with
    | nil =>
      have hs : b.toStack.blocks = [] := by simp [toStack, ht]
      simp only [BlockStack.step, hs, step, exit, ht]
    | cons table outer =>
      have hs : b.toStack.blocks = table.entries :: outer.map (·.entries) := by simp [toStack, ht]
      simp only [BlockStack.step, hs, step, exit, ht]
      rfl
  | closeAll => rfl
  | setRule rule => rfl
  | declare name type pos => exact step_declare_toStack b name type pos
  | lookup name => simp only [BlockStack.step, step, nearest?_toStack]
  | lookupType name => simp only [BlockStack.step, step, nearest?_toStack]

/-- **Blocks are a stack of lists.** Every history from no open block gives the answers of the
stack and leaves the blocks of the stack, under either rule and however the rule changes; and after
every history, a call that fails leaves the blocks as they were. -/
theorem history_refines_stack (rule : RedeclarationRule) (calls : List Call) :
    ((run { rule := rule } calls).1, (run { rule := rule } calls).2.toStack) =
        BlockStack.run { rule := rule } calls ∧
      ∀ (c : Call) (fault : ScopeFault),
        ((run { rule := rule } calls).2.step c).1 = .fault fault →
          ((run { rule := rule } calls).2.step c).2 = (run { rule := rule } calls).2 := by
  refine ⟨?_, fun c fault h => step_of_fault h⟩
  have h := History.run_map toStack step_toStack { rule := rule } calls
  exact h.symm

/-- The second `n` is refused while the first is visible, and nothing is bound for it. -/
theorem history_refines_stack_redeclared :
    let calls : List Call :=
      [.enter, .declare "n" ⟨⟨0⟩, {}⟩ (some ⟨1, 5⟩), .enter]
    let again : Call := .declare "n" ⟨⟨1⟩, {}⟩ (some ⟨3, 9⟩)
    ((run {} calls).2.step again).1 = .fault (.redeclared "n" (some ⟨1, 5⟩) (some ⟨3, 9⟩)) ∧
      ((run {} calls).2.step again).2 = (run {} calls).2 := by
  intro calls again
  have hfault : ((run {} calls).2.step again).1 =
      .fault (.redeclared "n" (some ⟨1, 5⟩) (some ⟨3, 9⟩)) := rfl
  exact ⟨hfault, (history_refines_stack .visible calls).2 again _ hfault⟩

end Blocks

end NameScope
