import Mathlib.Data.List.Infix
import NameScope.Proofs.Blocks.Visibility
import NameScope.Proofs.Scope.History

/-
  Leaving a block brings back what was around it.  Calls that leave only blocks which they have
  entered themselves work above the blocks that are open when they begin, but for the innermost,
  in which they may bind names: the blocks around that one stay as they are (`run_above`).  The
  calls look at them all the same, as a name that is visible outside may be refused inside.

  `exit_restores_outer`: enter a block, make such calls, whatever they are, and leave it: the
  blocks are those that were open before, with all their tables.
-/

namespace NameScope

namespace Blocks

/-! ## Calls that balance -/

namespace Call

/-- Whether the call enters a block. -/
def enters : Call → Bool
  | enter => true
  | _ => false

/-- Whether the call leaves a block. -/
def exits : Call → Bool
  | exit => true
  | _ => false

end Call

/-- The calls leave the blocks that they enter and no others: at no point have they left more
blocks than they have entered, in the end they have left as many, and none closes all blocks. -/
structure Balanced (calls : List Call) : Prop where
  within : ∀ before, before <+: calls → before.countP Call.exits ≤ before.countP Call.enters
  even : calls.countP Call.exits = calls.countP Call.enters
  single : Call.closeAll ∉ calls

/-! ## What lies around -/

/-- A call where the inner blocks are its own leaves the others alone, and leaves no block that is
not open. -/
theorem step_above {b : Blocks} {table : NameTable Binding} {inner outer : List (NameTable Binding)}
    (h : b.tables = table :: inner ++ outer) {c : Call} (hc : c ≠ .closeAll) :
    (b.step c).1 ≠ .fault .underflow ∧
      ∃ inner', (b.step c).2.tables = inner' ++ outer ∧
        inner'.length + (if c.exits then 1 else 0) =
          inner.length + 1 + if c.enters then 1 else 0 := by
  cases c with
  | enter =>
    refine ⟨by rintro ⟨⟩, .empty :: table :: inner, ?_, rfl⟩
    simp only [step, enter, h, List.cons_append]
  | exit =>
    simp only [step, exit, h, List.cons_append]
    exact ⟨by rintro ⟨⟩, inner, rfl, rfl⟩
  | closeAll => exact absurd rfl hc
  | setRule rule => exact ⟨by rintro ⟨⟩, table :: inner, h, rfl⟩
  | declare name type pos =>
    obtain ⟨table', ht, -⟩ := tables_step_declare h name type pos
    refine ⟨?_, table' :: inner, ht, rfl⟩
    cases ho : b.obstacle? name with
    | some old =>
      simp only [step, declare_of_obstacle? ho]
      rintro ⟨⟩
    | none =>
      simp only [step, declare_of_free h ho]
      rintro ⟨⟩
  | lookup name => exact ⟨by rintro ⟨⟩, table :: inner, h, rfl⟩
  | lookupType name => exact ⟨by rintro ⟨⟩, table :: inner, h, rfl⟩

/-- Calls that leave no more blocks than are their own leave the others alone. -/
theorem run_above {b : Blocks} {inner outer : List (NameTable Binding)}
    (h : b.tables = inner ++ outer) {calls : List Call}
    (hwithin : ∀ before, before <+: calls →
      before.countP Call.exits < inner.length + before.countP Call.enters)
    (hsingle : Call.closeAll ∉ calls) :
    .fault .underflow ∉ (b.run calls).1 ∧
      ∃ inner', (b.run calls).2.tables = inner' ++ outer ∧
        inner'.length + calls.countP Call.exits = inner.length + calls.countP Call.enters := by
  induction calls generalizing b inner with
  | nil => exact ⟨List.not_mem_nil, inner, h, rfl⟩
  | cons c calls ih =>
    have hrun : b.run (c :: calls) =
        ((b.step c).1 :: ((b.step c).2.run calls).1, ((b.step c).2.run calls).2) := rfl
    have hne : c ≠ .closeAll := (List.ne_of_not_mem_cons hsingle).symm
    have hrest : Call.closeAll ∉ calls := List.not_mem_of_not_mem_cons hsingle
    cases inner with
    | nil => exact absurd (hwithin [] List.nil_prefix) (Nat.lt_irrefl 0)
    | cons table inner =>
      obtain ⟨hok, inner', ht, hcount⟩ := step_above h hne
      have hwithin' : ∀ before, before <+: calls →
          before.countP Call.exits < inner'.length + before.countP Call.enters := by
        intro before hbefore
        have hc := hwithin (c :: before) (List.cons_prefix_cons.2 ⟨rfl, hbefore⟩)
        rw [List.countP_cons, List.countP_cons, List.length_cons] at hc
        omega
      obtain ⟨hoks, inner'', ht', hcount'⟩ := ih ht hwithin' hrest
      rw [hrun]
      refine ⟨List.not_mem_cons_of_ne_of_not_mem (Ne.symm hok) hoks, inner'', ht', ?_⟩
      rw [List.countP_cons, List.countP_cons, List.length_cons]
      omega

end Blocks

namespace Scope

variable {δ : Type}

/-- **Leaving a block restores the outer scope.** Whatever the scope, enter a block, make calls that
balance, with changes of the rule and calls on declarations among them, and leave the block: no
block is left that is not open, and the blocks are those that were open before, each with its names,
their order, types and places.  So under either rule they are as they were, and every look-up finds
what it found before. -/
theorem exit_restores_outer (s : Scope δ) {body : List (Call δ)}
    (h : Blocks.Balanced (body.filterMap (·.onBlocks?))) :
    let inside := s.run (.blocks .enter :: body)
    let left := inside.2.step (.blocks .exit)
    .blocks (.fault .underflow) ∉ inside.1 ∧
      (∃ entries, left.1 = .blocks (.closed entries)) ∧
      left.2.blocks.tables = s.blocks.tables ∧
      (∀ rule, { left.2.blocks with rule := rule } = { s.blocks with rule := rule }) ∧
      ∀ name, left.2.blocks.lookup? name = s.blocks.lookup? name := by
  intro inside left
  have hrun : s.blocks.enter.run (body.filterMap (·.onBlocks?)) =
      (((s.step (.blocks .enter)).2.run body).1.filterMap (·.ofBlocks?), inside.2.blocks) :=
    (s.step (.blocks .enter)).2.run_onBlocks body
  have henter : s.blocks.enter.tables = [.empty] ++ s.blocks.tables := rfl
  have hwithin : ∀ before, before <+: body.filterMap (·.onBlocks?) →
      before.countP Blocks.Call.exits < 1 + before.countP Blocks.Call.enters := by
    intro before hbefore
    rw [Nat.add_comm]
    exact Nat.lt_succ_of_le (h.within before hbefore)
  obtain ⟨hok, inner, ht, hcount⟩ := Blocks.run_above henter hwithin h.single
  -- As many blocks are left as are entered, so the one above the outer blocks is the first.
  obtain ⟨table, rfl⟩ : ∃ table, inner = [table] := by
    rw [h.even, List.length_singleton] at hcount
    exact List.length_eq_one_iff.1 (Nat.add_right_cancel hcount)
  rw [hrun] at hok ht
  have ht : inside.2.blocks.tables = table :: s.blocks.tables := ht
  have hexit : inside.2.blocks.exit =
      .ok (table, { inside.2.blocks with tables := s.blocks.tables }) := by
    simp only [Blocks.exit, ht]
  have hleft : left = (.blocks (.closed table.entries),
      { inside.2 with blocks := { inside.2.blocks with tables := s.blocks.tables } }) := by
    simp only [left, step, Blocks.step, hexit]
  rw [hleft]
  refine ⟨?_, ⟨table.entries, rfl⟩, rfl, fun rule => rfl, fun name => rfl⟩
  intro hmem
  rcases List.mem_cons.1 hmem with henter | hbody
  · cases henter
  · exact hok (List.mem_filterMap.2 ⟨_, hbody, rfl⟩)

/-- Inside the block `n` is refused once, and declared under the other rule; when the block is left
it is again what it was. -/
theorem exit_restores_outer_shadowed :
    let first : Call Decl := .blocks (.declare "n" ⟨⟨0⟩, {}⟩ (some ⟨1, 5⟩))
    let again : Call Decl := .blocks (.declare "n" ⟨⟨1⟩, {}⟩ (some ⟨3, 9⟩))
    let body : List (Call Decl) :=
      [again, .addDecl (.named ⟨"n", none⟩), .blocks (.setRule .sameBlock), again,
        .updateDecl 7 id, .blocks .enter, again, .blocks .exit]
    let s : Scope Decl := (run {} [.blocks .enter, first]).2
    let inside := s.run (.blocks .enter :: body)
    let left := inside.2.step (.blocks .exit)
    Blocks.Balanced (body.filterMap (·.onBlocks?)) ∧
      inside.2.blocks.lookup? "n" = some ⟨⟨⟨1⟩, {}⟩, some ⟨3, 9⟩⟩ ∧
      left.2.blocks.lookup? "n" = some ⟨⟨⟨0⟩, {}⟩, some ⟨1, 5⟩⟩ ∧
      left.2.blocks.tables = s.blocks.tables := by
  intro first again body s inside left
  have hwithin : ∀ before ∈ (body.filterMap (·.onBlocks?)).inits,
      before.countP Blocks.Call.exits ≤ before.countP Blocks.Call.enters := by decide
  have hbalanced : Blocks.Balanced (body.filterMap (·.onBlocks?)) :=
    ⟨fun before hbefore => hwithin before ((List.mem_inits _ _).2 hbefore), rfl, nofun⟩
  obtain ⟨-, -, htables, -, hlookup⟩ := exit_restores_outer s hbalanced
  exact ⟨hbalanced, rfl, hlookup "n", htables⟩

end Scope

end NameScope
