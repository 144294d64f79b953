import NameScope.Blocks
import NameScope.Proofs.History

/-
  Histories of blocks.  A call is anything that can be asked of the blocks of a function.  A call
  that fails answers with its fault and leaves the blocks as they are (`step_of_fault`).
-/

namespace NameScope.Blocks

/-- A call on blocks. -/
inductive Call where
  | enter
  | exit
  | closeAll
  | setRule (rule : RedeclarationRule)
  | declare (name : String) (type : TypeUse) (pos : Option Position)
  | lookup (name : String)
  | lookupType (name : String)

/-- What a call gives back; a table that is closed is given by its entries. -/
inductive Answer where
  | done
  | closed (entries : List (String × Binding))
  | binding (found : Option Binding)
  | type (found : Option TypeUse)
  | fault (fault : ScopeFault)

def step (b : Blocks) : Call → Answer × Blocks
  | .enter => (.done, b.enter)
  | .exit =>
    match b.exit with
    | .ok (table, outer) => (.closed table.entries, outer)
    | .error fault => (.fault fault, b)
  | .closeAll => (.done, b.closeAll)
  | .setRule rule => (.done, { b with rule := rule })
  | .declare name type pos =>
    match b.declare name ⟨type, pos⟩ with
    | .ok b => (.done, b)
    | .error fault => (.fault fault, b)
  | .lookup name => (.binding (b.lookup? name), b)
  | .lookupType name => (.type ((b.lookup? name).map (·.type)), b)

/-- Makes the calls of a history in order. -/
def run (b : Blocks) (calls : List Call) : List Answer × Blocks := History.run step b calls

theorem step_of_fault {b : Blocks} {c : Call} {fault : ScopeFault}
    (h : (b.step c).1 = .fault fault) : (b.step c).2 = b := by
  cases c with
  | exit =>
    simp only [step] at h ⊢
    cases he : b.exit with
    | ok r => rw [he] at h; cases h
    | error fault => rfl
  | declare name type pos =>
    simp only [step] at h ⊢
    cases hd : b.declare name ⟨type, pos⟩ with
    | ok b' => rw [hd] at h; cases h
    | error fault => rfl
  | enter => cases h
  | closeAll => cases h
  | setRule rule => cases h
  | lookup name => rfl
  | lookupType name => rfl

end NameScope.Blocks
