import NameScope.Decl.Basic
import NameScope.Proofs.Blocks.History

/-
  Histories of scopes.  A scope has blocks, and declarations that outlive them; a call on it goes
  to the ones or to the others.  So what becomes of the blocks is what the calls on blocks among
  the history do by themselves (`run_onBlocks`).
-/

namespace NameScope.Scope

variable {δ : Type}

/-- A call on a scope. -/
inductive Call (δ : Type) where
  | blocks (call : Blocks.Call)
  | addDecl (d : δ)
  | decl (i : Nat)
  /-- Changes the declaration at position `i`. -/
  | updateDecl (i : Nat) (f : δ → δ)
  | declCount

/-- What a call gives back; a declaration that is changed is given as it was. -/
inductive Answer (δ : Type) where
  | blocks (answer : Blocks.Answer)
  | done
  | decl (d : δ)
  | fault (fault : IndexFault)
  | count (n : Nat)

def step (s : Scope δ) : Call δ → Answer δ × Scope δ
  | .blocks c => (.blocks (s.blocks.step c).1, { s with blocks := (s.blocks.step c).2 })
  | .addDecl d => (.done, s.addDecl d)
  | .decl i =>
    match s.decl i with
    | .ok d => (.decl d, s)
    | .error fault => (.fault fault, s)
  | .updateDecl i f =>
    match s.updateDecl i fun d => (d, f d) with
    | .ok (d, s) => (.decl d, s)
    | .error fault => (.fault fault, s)
  | .declCount => (.count s.decls.length, s)

/-- Makes the calls of a history in order. -/
def run (s : Scope δ) (calls : List (Call δ)) : List (Answer δ) × Scope δ :=
  History.run step s calls

/-! ## Blocks -/

/-- The call on blocks that the call is, if it is one. -/
def Call.onBlocks? : Call δ → Option Blocks.Call
  | blocks c => some c
  | addDecl _ | decl _ | updateDecl .. | declCount => none

/-- The answer to a call on blocks. -/
def Answer.ofBlocks? : Answer δ → Option Blocks.Answer
  | blocks a => some a
  | done | decl _ | fault _ | count _ => none

theorem blocks_updateDecl {β : Type} {s s' : Scope δ} {i : Nat} {f : δ → β × δ} {b : β}
    (h : s.updateDecl i f = .ok (b, s')) : s'.blocks = s.blocks := by
  unfold updateDecl at h
  cases hu : updateAt .declaration s.decls i f with
  | error fault => rw [hu] at h; cases h
  | ok r => rw [hu] at h; cases h; rfl

/-- A call on declarations does not reach the blocks. -/
theorem step_of_onBlocks?_none (s : Scope δ) {c : Call δ} (h : c.onBlocks? = none) :
    (s.step c).1.ofBlocks? = none ∧ (s.step c).2.blocks = s.blocks := by
  cases c with
  | blocks c => cases h
  | addDecl d => exact ⟨rfl, rfl⟩
  | decl i =>
    simp only [step]
    cases s.decl i with
    | ok d => exact ⟨rfl, rfl⟩
    | error fault => exact ⟨rfl, rfl⟩
  | updateDecl i f =>
    simp only [step]
    cases hu : s.updateDecl i fun d => (d, f d) with
    | ok r => exact ⟨rfl, blocks_updateDecl hu⟩
    | error fault => exact ⟨rfl, rfl⟩
  | declCount => exact ⟨rfl, rfl⟩

/-- The calls on blocks give the answers, and leave the blocks, that they would without the other
calls. -/
theorem run_onBlocks (s : Scope δ) (calls : List (Call δ)) :
    s.blocks.run (calls.filterMap (·.onBlocks?)) =
      ((s.run calls).1.filterMap (·.ofBlocks?), (s.run calls).2.blocks) := by
  induction calls generalizing s with
  | nil => rfl
  | cons c calls ih =>
    have hrun : s.run (c :: calls) =
        ((s.step c).1 :: ((s.step c).2.run calls).1, ((s.step c).2.run calls).2) := rfl
    rw [hrun]
    cases hc : c.onBlocks? with
    | none =>
      obtain ⟨hanswer, hblocks⟩ := s.step_of_onBlocks?_none hc
      rw [List.filterMap_cons_none hc, List.filterMap_cons_none hanswer, ← hblocks]
      exact ih (s.step c).2
    | some b =>
      obtain rfl : c = .blocks b := by
        cases c with
        | blocks c => cases hc; rfl
        | _ => cases hc
      have hnext := ih (s.step (.blocks b)).2
      rw [List.filterMap_cons_some hc]
      exact congrArg (fun r => ((s.blocks.step b).1 :: r.1, r.2)) hnext

end NameScope.Scope
