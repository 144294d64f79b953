import NameScope.Fault
import NameScope.NameTable
import NameScope.TypeUse

/-
  Nested blocks of names.  Each open block has a table of its own; blocks are left in the reverse
  order of entry, and look-up goes from the innermost block outwards, so an inner binding hides an
  outer one.  A redeclaration rule says which bindings stand in the way of a new one.
-/

namespace NameScope

/-- What a name is bound to: its type, and the place of its declaration when that is known. -/
structure Binding where
  type : TypeUse
  pos : Option Position := none
deriving DecidableEq

/-- Which bindings of a name forbid another one in the innermost block. -/
inductive RedeclarationRule where
  /-- Any binding of the name in an open block. -/
  | visible
  /-- A binding in the innermost block only. -/
  | sameBlock
deriving DecidableEq, Inhabited

namespace RedeclarationRule

/-- The name of the rule in settings. -/
def text : RedeclarationRule → String
  | visible => "reject-if-visible"
  | sameBlock => "reject-in-current-scope"

/-- The rule with the given name. -/
def ofText? (s : String) : Option RedeclarationRule :=
  if s = visible.text then some visible
  else if s = sameBlock.text then some sameBlock
  else none

theorem ofText?_text (r : RedeclarationRule) : ofText? r.text = some r := by
  cases r <;> decide

end RedeclarationRule

/-- The tables of the open blocks, innermost first, and the rule for new bindings. -/
structure Blocks where
  tables : List (NameTable Binding) := []
  rule : RedeclarationRule := .visible

namespace Blocks

instance : BEq Blocks := ⟨fun a b => a.tables == b.tables && a.rule == b.rule⟩

/-- The number of open blocks. -/
def depth (b : Blocks) : Nat := b.tables.length

/-- The table of the innermost block. -/
def innermost? (b : Blocks) : Option (NameTable Binding) := b.tables.head?

/-- Opens a block inside the others. -/
def enter (b : Blocks) : Blocks := { b with tables := .empty :: b.tables }

/-- Closes the innermost block and gives its table. -/
def exit (b : Blocks) : Except ScopeFault (NameTable Binding × Blocks) :=
  match b.tables with
  | [] => .error .underflow
  | table :: outer => .ok (table, { b with tables := outer })

/-- Closes every block. -/
def closeAll (b : Blocks) : Blocks := { b with tables := [] }

/-- The binding of `name` in the innermost block that has one; empty tables are passed over. -/
def lookup? (b : Blocks) (name : String) : Option Binding :=
  (b.tables.filter (!·.isEmpty)).findSome? (·.get? name)

/-- Passing over empty tables does not change what is found. -/
theorem lookup?_eq_findSome? (b : Blocks) (name : String) :
    b.lookup? name = b.tables.findSome? (·.get? name) := by
  unfold lookup?
  induction b.tables with
  | nil => rfl
  | cons table outer ih =>
    by_cases h : table.isEmpty
    · have hnone : table.get? name = none := by
        have he : table.entries = [] := List.isEmpty_iff.1 h
        rw [NameTable.get?, he, List.lookup_nil]
      simp [h, hnone, ih]
    · rw [List.filter_cons_of_pos (by simpa using h), List.findSome?_cons, List.findSome?_cons, ih]

/-- The binding that forbids to declare `name` in the innermost block. -/
def obstacle? (b : Blocks) (name : String) : Option Binding :=
  match b.rule with
  | .visible => b.lookup? name
  | .sameBlock => b.innermost?.bind (·.get? name)

/-- Where nothing stands in the way of a name, the innermost block does not bind it. -/
theorem get?_innermost_of_obstacle?_none {b : Blocks} {table : NameTable Binding}
    {outer : List (NameTable Binding)} (h : b.tables = table :: outer) {name : String}
    (hn : b.obstacle? name = none) : table.get? name = none := by
  unfold obstacle? at hn
  cases hr : b.rule with
  | visible =>
    rw [hr] at hn
    have hf : b.tables.findSome? (·.get? name) = none := by
      rw [← lookup?_eq_findSome?]
      exact hn
    rw [h] at hf
    exact List.findSome?_eq_none_iff.1 hf table List.mem_cons_self
  | sameBlock =>
    rw [hr] at hn
    simpa [innermost?, h] using hn

/-- Binds `name` in the innermost block, unless an earlier binding forbids it. -/
def declare (b : Blocks) (name : String) (new : Binding) : Except ScopeFault Blocks :=
  match b.obstacle? name with
  | some old => .error (.redeclared name old.pos new.pos)
  | none =>
    match b.tables with
    | [] => .error (.outsideBlock name)
    | table :: outer => .ok { b with tables := table.insert name new :: outer }

/-- The names of all open blocks, innermost block first, with repetitions. -/
def visibleNames (b : Blocks) : List String := b.tables.flatMap (·.names)

/-- A block that is left at once was empty and leaves nothing behind. -/
theorem exit_enter (b : Blocks) : b.enter.exit = .ok (.empty, b) := rfl

/-- An empty block hides no name. -/
theorem lookup?_enter (b : Blocks) (name : String) : b.enter.lookup? name = b.lookup? name := rfl

end Blocks

end NameScope
