import Mathlib.Data.List.Pairwise
import NameScope.Proofs.Blocks.Visibility

/-
  The strict rule.  A name is refused wherever it is visible, and so no binding is ever hidden by
  another: of the open blocks at most one binds a name, and it does not matter in which order they
  are searched (`Unshadowed.findSome?_perm`).

  Hence what a name means changes with its block only.  A block is known by its level, the number
  of blocks around it, which stays the same for as long as it is open.  A block that is not closed
  keeps its bindings whatever is called (`Holds.run`), under the strict rule they are what look-up
  finds, and when the block is closed the name is gone until it is declared again
  (`strict_rule_hides_nothing`).
-/

namespace NameScope.Blocks

/-! ## One binding for a name -/

/-- The rule is the strict one, and no two open blocks bind the same name. -/
structure Unshadowed (b : Blocks) : Prop where
  rule : b.rule = .visible
  disjoint : b.tables.Pairwise fun inner outer => inner.names.Disjoint outer.names

/-- The call does not lead away from the strict rule. -/
def Call.KeepsStrict : Call → Prop
  | .setRule rule => rule = .visible
  | .enter | .exit | .closeAll | .declare .. | .lookup _ | .lookupType _ => True

/-- Under the strict rule nothing stands in the way of a name iff no open block binds it. -/
theorem obstacle?_eq_none_iff {b : Blocks} (hr : b.rule = .visible) (name : String) :
    b.obstacle? name = none ↔ ∀ table ∈ b.tables, name ∉ table.names := by
  unfold obstacle?
  rw [hr]
  dsimp only
  rw [lookup?_eq_findSome?, List.findSome?_eq_none_iff]
  exact forall₂_congr fun table _ => table.get?_eq_none_iff name

namespace Unshadowed

variable {b : Blocks}

theorem declare (h : b.Unshadowed) (name : String) (type : TypeUse) (pos : Option Position) :
    (b.step (.declare name type pos)).2.Unshadowed := by
  cases ho : b.obstacle? name with
  | some old =>
    simp only [Blocks.step, declare_of_obstacle? ho]
    exact h
  | none =>
    cases ht : b.tables with
    | nil =>
      simp only [Blocks.step, declare_of_no_block ht]
      exact h
    | cons table outer =>
      have hdisjoint := h.disjoint
      have hnew := (obstacle?_eq_none_iff h.rule name).1 ho
      rw [ht] at hdisjoint hnew
      obtain ⟨hinner, houter⟩ := List.pairwise_cons.1 hdisjoint
      have hnames : (table.insert name ⟨type, pos⟩).names = table.names ++ [name] := by
        rw [NameTable.names_insert, if_neg (hnew table List.mem_cons_self)]
      simp only [Blocks.step, declare_of_free ht ho]
      refine ⟨h.rule, List.pairwise_cons.2 ⟨?_, houter⟩⟩
      intro other hother m hm hm'
      rw [hnames, List.mem_append, List.mem_singleton] at hm
      rcases hm with hm | rfl
      · exact hinner other hother hm hm'
      · exact hnew other (List.mem_cons_of_mem table hother) hm'

/-- Every call that keeps to the strict rule keeps names apart. -/
theorem step (h : b.Unshadowed) {c : Call} (hc : c.KeepsStrict) : (b.step c).2.Unshadowed := by
  cases c with
  | enter =>
    refine ⟨h.rule, List.pairwise_cons.2 ⟨?_, h.disjoint⟩⟩
    intro table _ name hname
    cases hname
  | exit =>
    unfold Blocks.step exit
    cases ht : b.tables with
    | nil => exact h
    | cons table outer =>
      have hdisjoint := h.disjoint
      rw [ht] at hdisjoint
      exact ⟨h.rule, hdisjoint.of_cons⟩
  | closeAll => exact ⟨h.rule, .nil⟩
  | setRule rule => exact ⟨hc, h.disjoint⟩
  | declare name type pos => exact h.declare name type pos
  | lookup name => exact h
  | lookupType name => exact h

theorem run (h : b.Unshadowed) {calls : List Call} (hcalls : ∀ c ∈ calls, c.KeepsStrict) :
    (b.run calls).2.Unshadowed := by
  induction calls generalizing b with
  | nil => exact h
  | cons c calls ih =>
    have hnext := h.step (hcalls c List.mem_cons_self)
    exact ih hnext fun d hd => hcalls d (List.mem_cons_of_mem c hd)

/-- Two open blocks that bind a name are one block. -/
theorem eq_of_mem (h : b.Unshadowed) {t u : NameTable Binding} (ht : t ∈ b.tables)
    (hu : u ∈ b.tables) {name : String} (hname : name ∈ t.names) (hname' : name ∈ u.names) :
    t = u := by
  have hsymm : Std.Symm fun t u : NameTable Binding => t.names.Disjoint u.names :=
    ⟨fun _ _ hd name hu ht => hd ht hu⟩
  by_contra hne
  exact h.disjoint.forall ht hu hne hname hname'

/-- The order in which the blocks are searched does not matter. -/
theorem findSome?_perm (h : b.Unshadowed) {tables : List (NameTable Binding)}
    (hperm : tables.Perm b.tables) (name : String) :
    tables.findSome? (·.get? name) = b.lookup? name := by
  rw [lookup?_eq_findSome?]
  cases hfound : b.tables.findSome? (·.get? name) with
  | none =>
    rw [List.findSome?_eq_none_iff] at hfound ⊢
    intro table htable
    exact hfound table (hperm.mem_iff.1 htable)
  | some x =>
    obtain ⟨table, htable, hget⟩ := List.exists_of_findSome?_eq_some hfound
    have hsome : (tables.findSome? (·.get? name)).isSome = true :=
      List.findSome?_isSome_iff.2 ⟨table, hperm.mem_iff.2 htable, Option.isSome_of_eq_some hget⟩
    obtain ⟨y, hy⟩ := Option.isSome_iff_exists.1 hsome
    obtain ⟨table', htable', hget'⟩ := List.exists_of_findSome?_eq_some hy
    have heq : table' = table :=
      h.eq_of_mem (hperm.mem_iff.1 htable') htable (NameTable.mem_names_of_get? hget')
        (NameTable.mem_names_of_get? hget)
    rw [hy, ← hget', heq, hget]

end Unshadowed

/-! ## The block that holds a binding -/

/-- The open block with `level` blocks around it binds `name` to `x`. -/
def Holds (b : Blocks) (level : Nat) (name : String) (x : Binding) : Prop :=
  ∃ inner table outer,
    b.tables = inner ++ table :: outer ∧ outer.length = level ∧ table.get? name = some x

/-- The call closes the block with `level` blocks around it: it leaves that block, which is the
innermost then, or it closes all of them. -/
def Closes (b : Blocks) (level : Nat) : Call → Prop
  | .exit => b.depth = level + 1
  | .closeAll => level < b.depth
  | .enter | .setRule _ | .declare .. | .lookup _ | .lookupType _ => False

/-- No call of the history closes the block with `level` blocks around it. -/
def StaysOpen (b : Blocks) (level : Nat) (calls : List Call) : Prop :=
  ∀ before c, before ++ [c] <+: calls → ¬ (b.run before).2.Closes level c

/-- A call of the history declares `name` and is accepted. -/
def Adds (b : Blocks) (name : String) (calls : List Call) : Prop :=
  ∃ type pos, (Call.declare name type pos, Answer.done) ∈ calls.zip (b.run calls).1

theorem StaysOpen.head {b : Blocks} {level : Nat} {c : Call} {calls : List Call}
    (h : b.StaysOpen level (c :: calls)) : ¬ b.Closes level c := by
  refine h [] c ?_
  exact List.prefix_append [c] calls

theorem StaysOpen.tail {b : Blocks} {level : Nat} {c : Call} {calls : List Call}
    (h : b.StaysOpen level (c :: calls)) : (b.step c).2.StaysOpen level calls := by
  intro before d hd
  refine h (c :: before) d ?_
  exact List.cons_prefix_cons.2 ⟨rfl, hd⟩

theorem lookup?_eq_some_of_holds {b : Blocks} (h : b.Unshadowed) {level : Nat} {name : String}
    {x : Binding} (hx : b.Holds level name x) : b.lookup? name = some x := by
  obtain ⟨inner, table, outer, ht, -, hget⟩ := hx
  have hname : name ∈ table.names := NameTable.mem_names_of_get? hget
  have hdisjoint := h.disjoint
  rw [ht] at hdisjoint
  obtain ⟨-, -, hinner⟩ := List.pairwise_append.1 hdisjoint
  rw [lookup?_eq_findSome?, List.findSome?_eq_some_iff]
  refine ⟨inner, table, outer, ht, hget, ?_⟩
  intro other hother
  rw [NameTable.get?_eq_none_iff]
  intro hname'
  exact hinner other hother table List.mem_cons_self hname' hname

/-- What is found is held by some open block. -/
theorem holds_of_lookup? {b : Blocks} {name : String} {x : Binding}
    (h : b.lookup? name = some x) : ∃ level, b.Holds level name x := by
  rw [lookup?_eq_findSome?] at h
  obtain ⟨inner, table, outer, ht, hget, -⟩ := List.findSome?_eq_some_iff.1 h
  exact ⟨outer.length, inner, table, outer, ht, rfl, hget⟩

namespace Holds

variable {b : Blocks} {level : Nat} {name : String} {x : Binding}

theorem declare (h : b.Holds level name x) (m : String) (type : TypeUse)
    (pos : Option Position) : (b.step (.declare m type pos)).2.Holds level name x := by
  obtain ⟨inner, table, outer, ht, hlevel, hget⟩ := h
  cases ho : b.obstacle? m with
  | some old =>
    simp only [Blocks.step, declare_of_obstacle? ho]
    exact ⟨inner, table, outer, ht, hlevel, hget⟩
  | none =>
    cases inner with
    | nil =>
      have hfree := get?_innermost_of_obstacle?_none ht ho
      have hne : ¬ name = m := by
        rintro rfl
        rw [hfree] at hget
        cases hget
      simp only [Blocks.step, declare_of_free ht ho]
      refine ⟨[], table.insert m ⟨type, pos⟩, outer, rfl, hlevel, ?_⟩
      rw [NameTable.get?_insert, if_neg hne, hget]
    | cons innermost inner =>
      simp only [Blocks.step, declare_of_free ht ho]
      exact ⟨innermost.insert m ⟨type, pos⟩ :: inner, table, outer, rfl, hlevel, hget⟩

/-- A call that does not close the block leaves its bindings as they are. -/
theorem step (h : b.Holds level name x) {c : Call} (hc : ¬ b.Closes level c) :
    (b.step c).2.Holds level name x := by
  obtain ⟨inner, table, outer, ht, hlevel, hget⟩ := h
  have hdepth : b.depth = inner.length + level + 1 := by
    rw [depth, ht, List.length_append, List.length_cons, hlevel, Nat.add_assoc]
  cases c with
  | enter =>
    refine ⟨.empty :: inner, table, outer, ?_, hlevel, hget⟩
    simp only [Blocks.step, enter, ht, List.cons_append]
  | exit =>
    cases inner with
    | nil =>
      refine absurd ?_ hc
      show b.depth = level + 1
      rw [hdepth, List.length_nil, Nat.zero_add]
    | cons innermost inner =>
      simp only [Blocks.step, exit, ht, List.cons_append]
      exact ⟨inner, table, outer, rfl, hlevel, hget⟩
  | closeAll =>
    refine absurd ?_ hc
    show level < b.depth
    omega
  | setRule rule => exact ⟨inner, table, outer, ht, hlevel, hget⟩
  | declare m type pos => exact declare ⟨inner, table, outer, ht, hlevel, hget⟩ m type pos
  | lookup m => exact ⟨inner, table, outer, ht, hlevel, hget⟩
  | lookupType m => exact ⟨inner, table, outer, ht, hlevel, hget⟩

/-- A block keeps its bindings for as long as it is open, under either rule. -/
theorem run (h : b.Holds level name x) {calls : List Call} (hopen : b.StaysOpen level calls) :
    (b.run calls).2.Holds level name x := by
  induction calls generalizing b with
  | nil => exact h
  | cons c calls ih => exact ih (h.step hopen.head) hopen.tail

/-- With its block a name goes out of sight, as no other block binds it. -/
theorem lookup?_of_closes (h : b.Holds level name x) (hb : b.Unshadowed) {c : Call}
    (hc : b.Closes level c) : (b.step c).2.lookup? name = none := by
  obtain ⟨inner, table, outer, ht, hlevel, hget⟩ := h
  cases c with
  | exit =>
    have hinner : inner = [] := by
      have hdepth : b.tables.length = level + 1 := hc
      rw [ht, List.length_append, List.length_cons, hlevel] at hdepth
      exact List.eq_nil_of_length_eq_zero (by omega)
    have hname : name ∈ table.names := NameTable.mem_names_of_get? hget
    have hdisjoint := hb.disjoint
    rw [ht, hinner] at hdisjoint
    simp only [Blocks.step, exit, ht, hinner, List.nil_append]
    rw [lookup?_eq_findSome?, List.findSome?_eq_none_iff]
    intro other hother
    rw [NameTable.get?_eq_none_iff]
    exact (List.pairwise_cons.1 hdisjoint).1 other hother hname
  | closeAll => rfl
  | enter => cases hc
  | setRule rule => cases hc
  | declare m type pos => cases hc
  | lookup m => cases hc
  | lookupType m => cases hc

end Holds

/-! ## Names that are not visible -/

/-- A name that is not visible becomes so only by a declaration of it that is accepted. -/
theorem lookup?_step_eq_none {b : Blocks} {name : String} (h : b.lookup? name = none) {c : Call}
    (hc : ∀ type pos, c = .declare name type pos → (b.step c).1 ≠ .done) :
    (b.step c).2.lookup? name = none := by
  rw [lookup?_eq_findSome?, List.findSome?_eq_none_iff] at h ⊢
  cases c with
  | enter => exact List.forall_mem_cons.2 ⟨rfl, h⟩
  | exit =>
    unfold step exit
    cases ht : b.tables with
    | nil => exact h
    | cons table outer =>
      rw [ht] at h
      exact (List.forall_mem_cons.1 h).2
  | closeAll =>
    intro table htable
    cases htable
  | setRule rule => exact h
  | declare m type pos =>
    cases hd : b.declare m ⟨type, pos⟩ with
    | error fault =>
      simp only [step, hd]
      exact h
    | ok b' =>
      have hne : ¬ name = m := by
        rintro rfl
        refine hc type pos rfl ?_
        simp only [step, hd]
      simp only [step, hd]
      unfold declare at hd
      split at hd
      · cases hd
      · split at hd
        · cases hd
        · next table outer ht =>
          cases hd
          rw [ht] at h
          obtain ⟨hinner, houter⟩ := List.forall_mem_cons.1 h
          refine List.forall_mem_cons.2 ⟨?_, houter⟩
          rw [NameTable.get?_insert, if_neg hne]
          exact hinner
  | lookup m => exact h
  | lookupType m => exact h

theorem lookup?_run_eq_none {b : Blocks} {name : String} (h : b.lookup? name = none)
    {calls : List Call} (hcalls : ¬ b.Adds name calls) : (b.run calls).2.lookup? name = none := by
  induction calls generalizing b with
  | nil => exact h
  | cons c calls ih =>
    have hzip : (c :: calls).zip (b.run (c :: calls)).1 =
        (c, (b.step c).1) :: calls.zip ((b.step c).2.run calls).1 := rfl
    refine ih (lookup?_step_eq_none h ?_) ?_
    · rintro type pos rfl hdone
      refine hcalls ⟨type, pos, ?_⟩
      rw [hzip, hdone]
      exact List.mem_cons_self
    · rintro ⟨type, pos, hmem⟩
      refine hcalls ⟨type, pos, ?_⟩
      rw [hzip]
      exact List.mem_cons_of_mem _ hmem

/-! ## Histories under the strict rule -/

/-- **Under the strict rule nothing is hidden.** After every history from no open block that keeps
to the strict rule, no name is bound in two open blocks, so the blocks may be searched in any order;
and what is found is what some open block binds. As long as that block is not closed, whatever else
is called, a look-up finds the same type and place; when it is closed the name is not visible, and
it is not until a declaration of it is accepted. -/
theorem strict_rule_hides_nothing {calls : List Call} (hcalls : ∀ c ∈ calls, c.KeepsStrict) :
    let b := (run {} calls).2
    b.tables.Pairwise (fun inner outer => inner.names.Disjoint outer.names) ∧
      (∀ tables : List (NameTable Binding), tables.Perm b.tables → ∀ name,
        tables.findSome? (·.get? name) = b.lookup? name) ∧
      (∀ name x, b.lookup? name = some x ↔ ∃ level, b.Holds level name x) ∧
      ∀ level name x, b.Holds level name x →
        ∀ later, (∀ c ∈ later, c.KeepsStrict) → b.StaysOpen level later →
          let b' := (b.run later).2
          b'.lookup? name = some x ∧
            ∀ c, b'.Closes level c →
              (b'.step c).2.lookup? name = none ∧
                ∀ more, ¬ (b'.step c).2.Adds name more →
                  ((b'.step c).2.run more).2.lookup? name = none := by
  intro b
  have hb : b.Unshadowed := Unshadowed.run ⟨rfl, .nil⟩ hcalls
  refine ⟨hb.disjoint, fun tables hperm name => hb.findSome?_perm hperm name, ?_, ?_⟩
  · intro name x
    refine ⟨holds_of_lookup?, ?_⟩
    rintro ⟨level, hx⟩
    exact lookup?_eq_some_of_holds hb hx
  · intro level name x hx later hlater hopen b'
    have hb' : b'.Unshadowed := hb.run hlater
    have hx' : b'.Holds level name x := hx.run hopen
    refine ⟨lookup?_eq_some_of_holds hb' hx', ?_⟩
    intro c hc
    have hgone := hx'.lookup?_of_closes hb' hc
    exact ⟨hgone, fun more hmore => lookup?_run_eq_none hgone hmore⟩

/-- `n` is refused in the inner block, and keeps its type when that block is left; with its own
block it goes out of sight, and a declaration outside of all blocks does not bring it back. -/
theorem strict_rule_hides_nothing_refused :
    let n : Binding := ⟨⟨⟨0⟩, {}⟩, some ⟨1, 5⟩⟩
    let calls : List Call := [.enter, .declare "n" n.type n.pos, .enter]
    let again : Call := .declare "n" ⟨⟨1⟩, {}⟩ (some ⟨3, 9⟩)
    let later : List Call := [again, .exit]
    let more : List Call := [again, .enter]
    let b := (run {} calls).2
    let b' := (b.run later).2
    (∀ c ∈ calls, c.KeepsStrict) ∧ (∀ c ∈ later, c.KeepsStrict) ∧ b.Holds 0 "n" n ∧
      b.StaysOpen 0 later ∧ b'.Closes 0 .exit ∧ ¬ (b'.step .exit).2.Adds "n" more ∧
      b'.lookup? "n" = some n ∧ (b'.step .exit).2.lookup? "n" = none ∧
      ((b'.step .exit).2.run more).2.lookup? "n" = none := by
  intro n calls again later more b b'
  have hcalls : ∀ c ∈ calls, c.KeepsStrict := by simp [calls, Call.KeepsStrict]
  have hlater : ∀ c ∈ later, c.KeepsStrict := by simp [later, again, Call.KeepsStrict]
  have hx : b.Holds 0 "n" n := by
    refine ⟨[.empty], NameTable.empty.insert "n" n, [], ?_, rfl, ?_⟩
    · rfl
    · rfl
  have hopen : b.StaysOpen 0 later := by
    rintro before c ⟨rest, hsplit⟩
    -- The inner block is still open when the second call of `later` is made.
    have hcases : (before = [] ∧ c = again) ∨ (before = [again] ∧ c = .exit) := by
      match before with
      | [] => exact Or.inl ⟨rfl, (List.cons.inj hsplit).1⟩
      | [d] =>
        obtain ⟨rfl, hrest⟩ := List.cons.inj hsplit
        exact Or.inr ⟨rfl, (List.cons.inj hrest).1⟩
      | d :: e :: before =>
        have hlength := congrArg List.length hsplit
        simp [later] at hlength
    rcases hcases with ⟨rfl, rfl⟩ | ⟨rfl, rfl⟩
    · exact id
    · show ¬ (2 = 0 + 1)
      decide
  have hcloses : b'.Closes 0 .exit := rfl
  have hmore : ¬ (b'.step .exit).2.Adds "n" more := by
    rintro ⟨type, pos, hmem⟩
    have hzip : more.zip ((b'.step .exit).2.run more).1 =
        [(again, .fault (.outsideBlock "n")), (.enter, .done)] := rfl
    rw [hzip] at hmem
    simp [again] at hmem
  have h := (strict_rule_hides_nothing hcalls).2.2.2 0 "n" n hx later hlater hopen
  obtain ⟨hfound, hclosed⟩ := h
  obtain ⟨hgone, hafter⟩ := hclosed .exit hcloses
  exact ⟨hcalls, hlater, hx, hopen, hcloses, hmore, hfound, hgone, hafter more hmore⟩

end NameScope.Blocks
