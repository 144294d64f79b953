import NameScope.Proofs.Reading.Frame
import NameScope.Proofs.Session.Commit

/-
  Reading a statement is balanced.  `readStatement_balanced`: whatever is open when a statement is
  read, and under either rule, a statement that can be read leaves as many blocks open as it has
  found, and all that it may have done to them is to bind new names in the innermost; one that
  cannot be read may leave blocks of its own open, on top of those that it has found.  A block is
  left only where its statements could be read, and then it is the one that was entered for them.

  `Fills` says what becomes of the open blocks while no block is left, and `Leaves` adds what the
  result of the reading says about them.  One induction over the tree carries `Leaves`; the one
  case with an argument is a block, where the block that was entered is found again on top.
-/

namespace NameScope

/-! ## Tables with more entries -/

namespace NameTable

variable {α : Type} {t t' : NameTable α} {new : List (String × α)}

/-- Entries that are added to a table are those of names that it does not bind. -/
theorem not_mem_names_of_entries (h : t'.entries = t.entries ++ new) :
    ∀ e ∈ new, e.1 ∉ t.names := by
  intro e he hmem
  have hnodup := t'.nodup
  rw [h, List.map_append] at hnodup
  exact (List.nodup_append.1 hnodup).2.2 e.1 hmem e.1 (List.mem_map_of_mem he) rfl

/-- The names that a table binds keep their values when entries are added. -/
theorem get?_of_entries (h : t'.entries = t.entries ++ new) {name : String}
    (hname : name ∈ t.names) : t'.get? name = t.get? name := by
  obtain ⟨a, ha⟩ := exists_get?_of_mem_names hname
  have hlookup : t.entries.lookup name = some a := ha
  rw [ha, get?, h, List.lookup_append, hlookup]
  rfl

end NameTable

/-! ## Open blocks -/

namespace Blocks

/-- The blocks are open as before, and the innermost has got more entries, at its end. -/
inductive Fills : List (NameTable Binding) → List (NameTable Binding) → Prop where
  | closed : Fills [] []
  | inner {table table' : NameTable Binding} {new : List (String × Binding)}
      (entries : table'.entries = table.entries ++ new) (outer : List (NameTable Binding)) :
      Fills (table :: outer) (table' :: outer)

namespace Fills

variable {before between after : List (NameTable Binding)}

theorem refl (tables : List (NameTable Binding)) : Fills tables tables := by
  cases tables with
  | nil => exact .closed
  | cons table outer => exact .inner (List.append_nil _).symm outer

theorem trans (h : Fills before between) (h' : Fills between after) : Fills before after := by
  cases h with
  | closed => exact h'
  | @inner table _ new entries outer =>
    cases h' with
    | @inner _ table'' new' entries' =>
      have hall : table''.entries = table.entries ++ (new ++ new') := by
        rw [entries', entries, List.append_assoc]
      exact .inner hall outer

theorem length_eq (h : Fills before after) : after.length = before.length := by
  cases h with
  | closed => rfl
  | inner _ outer => rfl

theorem tail_eq (h : Fills before after) : after.tail = before.tail := by
  cases h with
  | closed => rfl
  | inner _ outer => rfl

/-- The block on top is the one that was there, with all its bindings. -/
theorem head (h : Fills before after) {table : NameTable Binding} (ht : before.head? = some table) :
    ∃ table' new, after.head? = some table' ∧ table'.entries = table.entries ++ new ∧
      (∀ e ∈ new, e.1 ∉ table.names) ∧
        ∀ name ∈ table.names, table'.get? name = table.get? name := by
  cases h with
  | closed => cases ht
  | @inner _ table' new entries outer =>
    cases ht
    exact ⟨table', new, rfl, entries, NameTable.not_mem_names_of_entries entries,
      fun _ hname => NameTable.get?_of_entries entries hname⟩

end Fills

theorem Outcome.fills {b : Blocks} {name : String} {new : Binding}
    {tables : List (NameTable Binding)} {reports : List Diagnostic}
    (h : b.Outcome name new tables reports) : Fills b.tables tables := by
  cases h with
  | anonymous _ => exact .refl _
  | bound _ ht _ entries =>
    rw [ht]
    exact .inner entries _
  | refused _ _ => exact .refl _
  | outside _ _ => exact .refl _

/-- What a reading leaves of the blocks that were open before it, by its result.  Where it stops,
more blocks may lie inside, and the fault is not one of blocks and names. -/
inductive Leaves (before : List (NameTable Binding)) :
    List (NameTable Binding) → Except TreeFault Unit → Prop where
  | read {after : List (NameTable Binding)} (fills : Fills before after) :
      Leaves before after (.ok ())
  | stopped {after : List (NameTable Binding)} {fault : TreeFault} (fills : Fills before after)
      (inner : List (NameTable Binding)) (typing : ∀ cause, fault ≠ .scope cause) :
      Leaves before (inner ++ after) (.error fault)

namespace Leaves

variable {before between after : List (NameTable Binding)} {result : Except TreeFault Unit}
  {fault : TreeFault}

theorem fills_of_ok (h : Leaves before after (.ok ())) : Fills before after := by
  cases h with
  | read fills => exact fills

theorem of_error (h : Leaves before after (.error fault)) :
    ∃ inner bottom, after = inner ++ bottom ∧ Fills before bottom ∧
      ∀ cause, fault ≠ .scope cause := by
  cases h with
  | stopped fills inner typing => exact ⟨inner, _, rfl, fills, typing⟩

theorem after_fills (h : Leaves between after result) (hfills : Fills before between) :
    Leaves before after result := by
  cases h with
  | read fills => exact .read (hfills.trans fills)
  | stopped fills inner typing => exact .stopped (hfills.trans fills) inner typing

/-- What stops in a block leaves the blocks around it as they were. -/
theorem stopped_inside {table : NameTable Binding}
    (h : Leaves (table :: before) after (.error fault)) : Leaves before after (.error fault) := by
  obtain ⟨inner, bottom, rfl, fills, typing⟩ := h.of_error
  cases fills with
  | @inner _ table' _ _ _ =>
    rw [← List.singleton_append, ← List.append_assoc]
    exact .stopped (.refl before) (inner ++ [table']) typing

end Leaves

end Blocks

/-! ## Statements -/

/-- A node that declares no variable has no type, or one that is not known. -/
theorem Tree.ne_scope_of_declaredVariable {types : BuiltinTypes} {t : Tree} {fault : TreeFault}
    (h : t.declaredVariable types = .error fault) (cause : ScopeFault) : fault ≠ .scope cause := by
  have htype : t.specifiedType types = .error fault := by
    unfold declaredVariable declaredValue at h
    cases ht : t.specifiedType types with
    | error fault' =>
      rw [ht] at h
      cases h
      rfl
    | ok type =>
      rw [ht] at h
      cases h
  unfold specifiedType at htype
  split at htype
  · cases htype
    nofun
  · split at htype
    · cases htype
      nofun
    · cases htype

namespace OpenFunction

open Blocks (Fills Leaves)

variable {f g : OpenFunction}

theorem fills_declare (f : OpenFunction) (v : Variable) (pos : Option Position) :
    Fills f.blocks.tables (f.declare v pos).blocks.tables := by
  obtain ⟨tables, reports, outcome, hdeclare⟩ := f.declares_declare v pos
  rw [hdeclare]
  exact outcome.fills

theorem fills_resolve (f : OpenFunction) (name : String) (pos : Option Position) :
    Fills f.blocks.tables (f.resolve name pos).2.blocks.tables := by
  rw [blocks, blocks, func_resolve]
  exact .refl _

/-- A block in which statements could be read is on top again when they have been read. -/
theorem exit_of_leaves (h : Leaves f.enter.blocks.tables g.blocks.tables (.ok ())) :
    ∃ table g', g.exit = .ok (table, g') ∧ g'.blocks.tables = f.blocks.tables := by
  have hfills : Fills (.empty :: f.blocks.tables) g.blocks.tables := h.fills_of_ok
  generalize hg : g.blocks.tables = after at hfills
  cases hfills with
  | @inner _ table _ _ _ =>
    refine ⟨table, g.setBlocks { g.blocks with tables := f.blocks.tables }, ?_, rfl⟩
    unfold exit Blocks.exit
    rw [hg]
    rfl

variable (types : BuiltinTypes)

mutual

theorem leaves_readStatement : ∀ (t : Tree) (f : OpenFunction),
    Leaves f.blocks.tables (f.readStatement types t).1.blocks.tables (f.readStatement types t).2
  | .node l cs, f => by
    by_cases hd : l.symbol = "declaration"
    · rw [readStatement_declaration hd]
      cases hv : (Tree.node l cs).declaredVariable types with
      | ok v => exact .read (fills_declare f v none)
      | error fault => exact .stopped (.refl _) [] (Tree.ne_scope_of_declaredVariable hv)
    · by_cases hc : l.symbol = "compound_statement"
      · rw [readStatement_block hc]
        have hcs := leaves_readStatements cs f.enter
        cases hr : f.enter.readStatements types cs with
        | mk g result =>
          rw [hr] at hcs
          cases result with
          | error fault => exact hcs.stopped_inside
          | ok _ =>
            obtain ⟨table, g', hexit, htables⟩ := exit_of_leaves hcs
            simp only [hexit, htables]
            exact .read (.refl _)
      · by_cases hi : l.symbol = "identifier"
        · rw [readStatement_identifier hi]
          split
          · exact .read (.refl _)
          · exact .read (fills_resolve f l.text l.pos?)
        · rw [readStatement_wrapper hd hc hi]
          exact leaves_readStatements cs f

theorem leaves_readStatements : ∀ (ts : List Tree) (f : OpenFunction),
    Leaves f.blocks.tables (f.readStatements types ts).1.blocks.tables (f.readStatements types ts).2
  | [], f => .read (.refl _)
  | t :: ts, f => by
    have ht := leaves_readStatement t f
    unfold readStatements
    cases hr : f.readStatement types t with
    | mk g result =>
      rw [hr] at ht
      cases result with
      | error fault => exact ht
      | ok _ => exact (leaves_readStatements ts g).after_fills ht.fills_of_ok

end

/-- Where the statements of a block can be read, the block is left, and the blocks around it are
open again as they were. -/
theorem exit_readStatements (f : OpenFunction) (ts : List Tree)
    (h : (f.enter.readStatements types ts).2 = .ok ()) :
    ∃ table g, (f.enter.readStatements types ts).1.exit = .ok (table, g) ∧
      g.blocks.tables = f.blocks.tables := by
  have hleaves := leaves_readStatements types ts f.enter
  rw [h] at hleaves
  exact exit_of_leaves hleaves

/-- **Reading a statement is balanced.** Whatever blocks are open, none included, and under either
rule: a statement that can be read leaves as many open; those around the innermost are as they
were, and the innermost has its bindings and perhaps new names behind them. A statement that cannot
be read leaves at least as many open, and those around the one that was the innermost are as they
were. Blocks are never the fault: where the statements of a block can be read, the block can be
left, and the blocks that were open before it are open again. -/
theorem readStatement_balanced (f : OpenFunction) (t : Tree) :
    let g := (f.readStatement types t).1
    ((f.readStatement types t).2 = .ok () →
        g.depth = f.depth ∧ g.blocks.tables.tail = f.blocks.tables.tail ∧
          ∀ table, f.blocks.innermost? = some table →
            ∃ table' new, g.blocks.innermost? = some table' ∧
              table'.entries = table.entries ++ new ∧ (∀ e ∈ new, e.1 ∉ table.names) ∧
              ∀ name ∈ table.names, table'.get? name = table.get? name) ∧
      (∀ fault, (f.readStatement types t).2 = .error fault →
        f.depth ≤ g.depth ∧ f.blocks.tables.tail <:+ g.blocks.tables ∧
          ∀ cause, fault ≠ .scope cause) ∧
      ∀ ts, (f.enter.readStatements types ts).2 = .ok () →
        ∃ table h, (f.enter.readStatements types ts).1.exit = .ok (table, h) ∧
          h.blocks.tables = f.blocks.tables := by
  intro g
  have hleaves := leaves_readStatement types t f
  refine ⟨fun hok => ?_, fun fault hfault => ?_, exit_readStatements types f⟩
  · rw [hok] at hleaves
    have hfills := hleaves.fills_of_ok
    exact ⟨hfills.length_eq, hfills.tail_eq, fun _ ht => hfills.head ht⟩
  · rw [hfault] at hleaves
    obtain ⟨inner, bottom, htables, hfills, typing⟩ := hleaves.of_error
    refine ⟨?_, ?_, typing⟩
    · have hdepth : g.depth = (inner ++ bottom).length := congrArg List.length htables
      have hbottom : bottom.length = f.depth := hfills.length_eq
      rw [hdepth, List.length_append]
      omega
    · have htail : f.blocks.tables.tail <:+ inner ++ bottom := by
        rw [← hfills.tail_eq]
        exact (List.tail_suffix bottom).trans (List.suffix_append inner bottom)
      exact htables ▸ htail

end OpenFunction

end NameScope
