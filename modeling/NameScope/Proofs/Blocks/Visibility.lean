import NameScope.Proofs.Blocks.Stack

/-
  Which names are visible does not depend on the rule for redeclarations.  The rule decides what a
  name that is declared again means, and so two sets of blocks that are driven by the same calls
  under different rules soon hold different tables.  But a declaration that is refused is refused
  for a name that is visible already; so whichever rule is in force, after the attempt the name is
  visible, no other name has become so, and the blocks around are as they were
  (`tables_step_declare`).

  `SameNames` is the invariant: from every open block outwards the same names are bound.  Every
  call keeps it (`SameNames.step`), whatever the two rules are, and so it holds after any two
  histories that differ in changes of the rule only (`SameNames.run`).
  `visibility_independent_of_rule` reads off it all that the rule cannot change.
-/

namespace NameScope.Blocks

/-! ## Names in blocks -/

/-- The names that are bound in some of the tables. -/
def namesIn (tables : List (NameTable Binding)) : List String := tables.flatMap (·.names)

/-- The names that the `k` outermost open blocks bind. -/
def outerNames (b : Blocks) (k : Nat) : List String := namesIn (b.tables.reverse.take k)

theorem mem_namesIn_cons {table : NameTable Binding} {outer : List (NameTable Binding)}
    {name : String} :
    name ∈ namesIn (table :: outer) ↔ name ∈ table.names ∨ name ∈ namesIn outer := by
  rw [namesIn, List.flatMap_cons, List.mem_append, namesIn]

theorem isSome_lookup?_iff (b : Blocks) (name : String) :
    (b.lookup? name).isSome = true ↔ name ∈ namesIn b.tables := by
  rw [lookup?_eq_findSome?, List.findSome?_isSome_iff, namesIn, List.mem_flatMap]
  constructor
  · rintro ⟨table, ht, hname⟩
    exact ⟨table, ht, (table.contains_iff name).1 hname⟩
  · rintro ⟨table, ht, hname⟩
    exact ⟨table, ht, (table.contains_iff name).2 hname⟩

/-! ## Declaring -/

/-- What stands in the way of a name is visible. -/
theorem mem_namesIn_of_obstacle? {b : Blocks} {name : String} {old : Binding}
    (h : b.obstacle? name = some old) : name ∈ namesIn b.tables := by
  unfold obstacle? at h
  cases hr : b.rule with
  | visible =>
    rw [hr] at h
    have hfound : (b.lookup? name).isSome = true := Option.isSome_of_eq_some h
    exact (b.isSome_lookup?_iff name).1 hfound
  | sameBlock =>
    rw [hr] at h
    cases ht : b.tables with
    | nil => simp [innermost?, ht] at h
    | cons table outer =>
      have hget : table.get? name = some old := by simpa [innermost?, ht] using h
      exact mem_namesIn_cons.2 (Or.inl (NameTable.mem_names_of_get? hget))

/-- Under the stricter rule every visible name stands in its own way. -/
theorem obstacle?_of_visible {b : Blocks} (hr : b.rule = .visible) {name : String}
    (h : name ∈ namesIn b.tables) : ∃ old, b.obstacle? name = some old := by
  have hsome := (b.isSome_lookup?_iff name).2 h
  unfold obstacle?
  rw [hr]
  exact Option.isSome_iff_exists.1 hsome

theorem declare_of_obstacle? {b : Blocks} {name : String} {old : Binding}
    (h : b.obstacle? name = some old) (new : Binding) :
    b.declare name new = .error (.redeclared name old.pos new.pos) := by
  simp only [declare, h]

theorem declare_of_no_block {b : Blocks} (h : b.tables = []) (name : String) (new : Binding) :
    b.declare name new = .error (.outsideBlock name) := by
  simp only [declare, obstacle?_nil h, h]

theorem declare_of_free {b : Blocks} {table : NameTable Binding}
    {outer : List (NameTable Binding)} (ht : b.tables = table :: outer) {name : String}
    (h : b.obstacle? name = none) (new : Binding) :
    b.declare name new = .ok { b with tables := table.insert name new :: outer } := by
  simp only [declare, h, ht]

/-- A declaration is outside of all blocks iff no block is open, whatever the rule. -/
theorem declare_eq_outsideBlock_iff (b : Blocks) (name : String) (new : Binding) :
    b.declare name new = .error (.outsideBlock name) ↔ b.tables = [] := by
  refine ⟨fun h => ?_, fun h => declare_of_no_block h name new⟩
  cases ht : b.tables with
  | nil => rfl
  | cons table outer =>
    cases ho : b.obstacle? name with
    | some old => rw [declare_of_obstacle? ho] at h; cases h
    | none => rw [declare_of_free ht ho] at h; cases h

theorem obstacle?_of_redeclared {b : Blocks} {name : String} {new : Binding}
    {first second : Option Position}
    (h : b.declare name new = .error (.redeclared name first second)) :
    ∃ old, b.obstacle? name = some old := by
  cases ho : b.obstacle? name with
  | some old => exact ⟨old, rfl⟩
  | none =>
    cases ht : b.tables with
    | nil => rw [declare_of_no_block ht] at h; cases h
    | cons table outer => rw [declare_of_free ht ho] at h; cases h

theorem exit_eq_underflow_iff (b : Blocks) : b.exit = .error .underflow ↔ b.tables = [] := by
  unfold exit
  cases b.tables with
  | nil => simp
  | cons table outer => simp

/-- After the attempt to declare a name in a block, accepted or not, the name is visible, and no
other name has become so; the blocks around are as they were. -/
theorem tables_step_declare {b : Blocks} {table : NameTable Binding}
    {outer : List (NameTable Binding)} (ht : b.tables = table :: outer) (name : String)
    (type : TypeUse) (pos : Option Position) :
    ∃ table', (b.step (.declare name type pos)).2.tables = table' :: outer ∧
      ∀ m, m ∈ namesIn (table' :: outer) ↔ m = name ∨ m ∈ namesIn (table :: outer) := by
  cases ho : b.obstacle? name with
  | some old =>
    have hmem : name ∈ namesIn (table :: outer) := ht ▸ mem_namesIn_of_obstacle? ho
    refine ⟨table, ?_, fun m => ?_⟩
    · simp only [step, declare_of_obstacle? ho, ht]
    · exact ⟨Or.inr, fun h => h.elim (fun e => e ▸ hmem) id⟩
  | none =>
    have hfree : table.get? name = none := get?_innermost_of_obstacle?_none ht ho
    have hnames : (table.insert name ⟨type, pos⟩).names = table.names ++ [name] := by
      rw [NameTable.names_insert, if_neg ((table.get?_eq_none_iff name).1 hfree)]
    refine ⟨table.insert name ⟨type, pos⟩, ?_, fun m => ?_⟩
    · simp only [step, declare_of_free ht ho]
    · rw [mem_namesIn_cons, mem_namesIn_cons, hnames, List.mem_append, List.mem_singleton,
        or_assoc, or_left_comm]

/-! ## The same names in every block -/

/-- The tables are as many, and from every table outwards the same names are bound. -/
inductive SameNames : List (NameTable Binding) → List (NameTable Binding) → Prop where
  | nil : SameNames [] []
  | cons {table table' : NameTable Binding} {outer outer' : List (NameTable Binding)}
      (names : ∀ name, name ∈ namesIn (table :: outer) ↔ name ∈ namesIn (table' :: outer'))
      (rest : SameNames outer outer') : SameNames (table :: outer) (table' :: outer')

namespace SameNames

variable {ts us vs : List (NameTable Binding)}

theorem refl (ts : List (NameTable Binding)) : SameNames ts ts := by
  induction ts with
  | nil => exact .nil
  | cons table outer ih => exact .cons (fun _ => Iff.rfl) ih

theorem symm (h : SameNames ts us) : SameNames us ts := by
  induction h with
  | nil => exact .nil
  | cons names _ ih => exact .cons (fun name => (names name).symm) ih

theorem trans (h : SameNames ts us) (h' : SameNames us vs) : SameNames ts vs := by
  induction h generalizing vs with
  | nil => exact h'
  | cons names _ ih =>
    cases h' with
    | cons names' rest' => exact .cons (fun name => (names name).trans (names' name)) (ih rest')

theorem length_eq (h : SameNames ts us) : ts.length = us.length := by
  induction h with
  | nil => rfl
  | cons _ _ ih => rw [List.length_cons, List.length_cons, ih]

theorem eq_nil_iff (h : SameNames ts us) : ts = [] ↔ us = [] := by
  rw [← List.length_eq_zero_iff, ← List.length_eq_zero_iff, h.length_eq]

theorem exists_cons {table : NameTable Binding} {outer : List (NameTable Binding)}
    (h : SameNames (table :: outer) us) :
    ∃ table' outer', us = table' :: outer' ∧ SameNames outer outer' := by
  cases h with
  | cons _ rest => exact ⟨_, _, rfl, rest⟩

theorem mem_iff (h : SameNames ts us) (name : String) : name ∈ namesIn ts ↔ name ∈ namesIn us := by
  cases h with
  | nil => exact Iff.rfl
  | cons names _ => exact names name

theorem drop (h : SameNames ts us) (n : Nat) : SameNames (ts.drop n) (us.drop n) := by
  induction n generalizing ts us with
  | zero => exact h
  | succ n ih =>
    cases h with
    | nil => exact .nil
    | cons _ rest => exact ih rest

/-- The `k` outermost tables bind the same names. -/
theorem mem_outer_iff (h : SameNames ts us) (k : Nat) (name : String) :
    name ∈ namesIn (ts.reverse.take k) ↔ name ∈ namesIn (us.reverse.take k) := by
  have hdrop := (h.drop (ts.length - k)).mem_iff name
  have hlen : us.length - k = ts.length - k := by rw [h.length_eq]
  rw [List.take_reverse, List.take_reverse, hlen]
  simpa [namesIn] using hdrop

end SameNames

/-! ## Histories -/

namespace SameNames

variable {b b' : Blocks}

/-- An attempt to declare a name makes it visible in both, under any two rules. -/
theorem declare (h : SameNames b.tables b'.tables) (name : String) (type : TypeUse)
    (pos : Option Position) :
    SameNames (b.step (.declare name type pos)).2.tables
      (b'.step (.declare name type pos)).2.tables := by
  cases hb : b.tables with
  | nil =>
    have hb' : b'.tables = [] := h.eq_nil_iff.1 hb
    simp only [step, declare_of_no_block hb, declare_of_no_block hb', hb, hb']
    exact .nil
  | cons table outer =>
    obtain ⟨table', outer', hb', hrest⟩ := exists_cons (hb ▸ h)
    obtain ⟨new, ht, hnew⟩ := tables_step_declare hb name type pos
    obtain ⟨new', ht', hnew'⟩ := tables_step_declare hb' name type pos
    rw [ht, ht']
    refine .cons (fun m => ?_) hrest
    rw [hnew, hnew', ← hb, ← hb', h.mem_iff]

/-- Every call keeps it. -/
theorem step (h : SameNames b.tables b'.tables) (c : Call) :
    SameNames (b.step c).2.tables (b'.step c).2.tables := by
  cases c with
  | enter => exact .cons (fun name => by rw [mem_namesIn_cons, mem_namesIn_cons, h.mem_iff]) h
  | exit =>
    cases hb : b.tables with
    | nil =>
      have hb' : b'.tables = [] := h.eq_nil_iff.1 hb
      simp only [Blocks.step, exit, hb, hb']
      exact .nil
    | cons table outer =>
      obtain ⟨table', outer', hb', hrest⟩ := exists_cons (hb ▸ h)
      simp only [Blocks.step, exit, hb, hb']
      exact hrest
  | closeAll => exact .nil
  | setRule rule => exact h
  | declare name type pos => exact h.declare name type pos
  | lookup name => exact h
  | lookupType name => exact h

/-- What a declaration does under the two rules where the same names are bound: it is accepted by
both, or refused by the stricter rule alone, or refused by both, or outside of all blocks. -/
theorem declare_cases (h : SameNames b.tables b'.tables) (hr : b.rule = .visible)
    (hr' : b'.rule = .sameBlock) (name : String) (new : Binding) :
    (∃ c c', b.declare name new = .ok c ∧ b'.declare name new = .ok c' ∧ c.rule = .visible ∧
        c'.rule = .sameBlock ∧ SameNames c.tables c'.tables) ∨
      (∃ first c', b.declare name new = .error (.redeclared name first new.pos) ∧
        b'.declare name new = .ok c' ∧ c'.rule = .sameBlock ∧ SameNames b.tables c'.tables) ∨
      (∃ first first', b.declare name new = .error (.redeclared name first new.pos) ∧
        b'.declare name new = .error (.redeclared name first' new.pos)) ∨
      (b.declare name new = .error (.outsideBlock name) ∧
        b'.declare name new = .error (.outsideBlock name)) := by
  obtain ⟨type, pos⟩ := new
  cases ht : b.tables with
  | nil =>
    have ht' : b'.tables = [] := h.eq_nil_iff.1 ht
    exact .inr (.inr (.inr ⟨declare_of_no_block ht _ _, declare_of_no_block ht' _ _⟩))
  | cons table outer =>
    obtain ⟨table', outer', ht', -⟩ := exists_cons (ht ▸ h)
    cases ho' : b'.obstacle? name with
    | some old' =>
      have hvisible : name ∈ namesIn b.tables := (h.mem_iff name).2 (mem_namesIn_of_obstacle? ho')
      obtain ⟨old, ho⟩ := obstacle?_of_visible hr hvisible
      exact .inr (.inr (.inl ⟨_, _, declare_of_obstacle? ho _, declare_of_obstacle? ho' _⟩))
    | none =>
      have hafter := h.declare name type pos
      have hd' := declare_of_free ht' ho' ⟨type, pos⟩
      cases ho : b.obstacle? name with
      | some old =>
        have hd := declare_of_obstacle? ho ⟨type, pos⟩
        simp only [Blocks.step, hd, hd', ht] at hafter
        exact .inr (.inl ⟨_, _, hd, hd', hr', hafter⟩)
      | none =>
        have hd := declare_of_free ht ho ⟨type, pos⟩
        simp only [Blocks.step, hd, hd'] at hafter
        exact .inl ⟨_, _, hd, hd', hr, hr', hafter⟩

end SameNames

/-- Whether the call changes the rule. -/
def Call.setsRule : Call → Bool
  | .setRule _ => true
  | _ => false

/-- The calls but for changes of the rule. -/
def withoutRules (calls : List Call) : List Call := calls.filter fun c => !c.setsRule

/-- A history leaves the names that it would leave without its changes of the rule. -/
theorem SameNames.run_withoutRules {b b' : Blocks} (h : SameNames b.tables b'.tables)
    (calls : List Call) :
    SameNames (b.run calls).2.tables (b'.run (withoutRules calls)).2.tables := by
  induction calls generalizing b b' with
  | nil => exact h
  | cons c calls ih =>
    by_cases hc : c.setsRule = true
    · obtain ⟨rule, rfl⟩ : ∃ rule, c = .setRule rule := by
        cases c with
        | setRule rule => exact ⟨rule, rfl⟩
        | _ => cases hc
      exact ih (b := (b.step (.setRule rule)).2) h
    · have hkept : withoutRules (c :: calls) = c :: withoutRules calls :=
        List.filter_cons_of_pos (by simpa using hc)
      rw [hkept]
      exact ih (h.step c)

/-- Histories that differ in changes of the rule only leave the same names. -/
theorem SameNames.run {calls calls' : List Call} (hcalls : withoutRules calls = withoutRules calls')
    (rule rule' : RedeclarationRule) :
    SameNames (Blocks.run { rule := rule } calls).2.tables
      (Blocks.run { rule := rule' } calls').2.tables := by
  have h : SameNames (Blocks.run { rule := rule } calls).2.tables
      (Blocks.run {} (withoutRules calls)).2.tables := run_withoutRules .nil calls
  have h' : SameNames (Blocks.run { rule := rule' } calls').2.tables
      (Blocks.run {} (withoutRules calls')).2.tables := run_withoutRules .nil calls'
  rw [hcalls] at h
  exact h.trans h'.symm

/-- **Visibility does not depend on the rule.** Let two histories from no open block consist of the
same calls but for changes of the rule, made wherever they are and under whatever rules they start.
Then as many blocks are open, the `k` outermost bind the same names for every `k`, the same names
are found, a block can be left after both or after neither, and a declaration lies outside of all
blocks after both or after neither; and a redeclaration that is refused after one, under whichever
rule, is refused after the other if the rule is then the stricter one.  As every beginning of a
history is a history, this holds at every point of longer ones. -/
theorem visibility_independent_of_rule (rule rule' : RedeclarationRule) {calls calls' : List Call}
    (hcalls : withoutRules calls = withoutRules calls') :
    let b := (run { rule := rule } calls).2
    let b' := (run { rule := rule' } calls').2
    b.depth = b'.depth ∧
      (∀ k name, name ∈ b.outerNames k ↔ name ∈ b'.outerNames k) ∧
      (∀ name, ((b.lookup? name).map (·.type)).isSome = ((b'.lookup? name).map (·.type)).isSome) ∧
      (b.exit = .error .underflow ↔ b'.exit = .error .underflow) ∧
      (∀ name new, b.declare name new = .error (.outsideBlock name) ↔
        b'.declare name new = .error (.outsideBlock name)) ∧
      ∀ name new first, b.declare name new = .error (.redeclared name first new.pos) →
        b'.rule = .visible →
          ∃ first', b'.declare name new = .error (.redeclared name first' new.pos) := by
  intro b b'
  have h : SameNames b.tables b'.tables := SameNames.run hcalls rule rule'
  refine ⟨h.length_eq, h.mem_outer_iff, fun name => ?_, ?_, fun name new => ?_, ?_⟩
  · rw [Option.isSome_map, Option.isSome_map, Bool.eq_iff_iff, isSome_lookup?_iff,
      isSome_lookup?_iff, h.mem_iff]
  · rw [exit_eq_underflow_iff, exit_eq_underflow_iff, h.eq_nil_iff]
  · rw [declare_eq_outsideBlock_iff, declare_eq_outsideBlock_iff, h.eq_nil_iff]
  · intro name new first hrefused hr'
    obtain ⟨old, ho⟩ := obstacle?_of_redeclared hrefused
    have hvisible : name ∈ namesIn b'.tables := (h.mem_iff name).1 (mem_namesIn_of_obstacle? ho)
    obtain ⟨old', ho'⟩ := obstacle?_of_visible hr' hvisible
    exact ⟨old'.pos, declare_of_obstacle? ho' new⟩

/-- In one history `n` is declared again in the inner block, in the other it is refused there: it
means different things, but it is visible in both. -/
theorem visibility_independent_of_rule_shadowed :
    let first : Call := .declare "n" ⟨⟨0⟩, {}⟩ (some ⟨1, 5⟩)
    let again : Call := .declare "n" ⟨⟨1⟩, {}⟩ (some ⟨3, 9⟩)
    let calls : List Call := [.enter, first, .enter, .setRule .sameBlock, again]
    let calls' : List Call := [.setRule .visible, .enter, first, .enter, again]
    let b := (run {} calls).2
    let b' := (run { rule := .sameBlock } calls').2
    let new : Binding := ⟨⟨⟨2⟩, {}⟩, some ⟨4, 9⟩⟩
    withoutRules calls = withoutRules calls' ∧
      (b.lookup? "n").map (·.type) = some ⟨⟨1⟩, {}⟩ ∧
      (b'.lookup? "n").map (·.type) = some ⟨⟨0⟩, {}⟩ ∧
      b.depth = b'.depth ∧ (∀ k name, name ∈ b.outerNames k ↔ name ∈ b'.outerNames k) ∧
      b.declare "n" new = .error (.redeclared "n" (some ⟨3, 9⟩) (some ⟨4, 9⟩)) ∧
      b'.rule = .visible ∧
      ∃ first', b'.declare "n" new = .error (.redeclared "n" first' (some ⟨4, 9⟩)) := by
  intro first again calls calls' b b' new
  have hcalls : withoutRules calls = withoutRules calls' := rfl
  have hrefused : b.declare "n" new = .error (.redeclared "n" (some ⟨3, 9⟩) (some ⟨4, 9⟩)) := rfl
  have hrule : b'.rule = .visible := rfl
  have h := visibility_independent_of_rule .visible .sameBlock hcalls
  obtain ⟨hdepth, hnames, -, -, -, hadd⟩ := h
  exact ⟨hcalls, rfl, rfl, hdepth, hnames, hrefused, hrule, hadd "n" new _ hrefused hrule⟩

end NameScope.Blocks
