import NameScope.Proofs.NameTable.Equality
import NameScope.Proofs.NameTable.History

/-
  A name table is a map that remembers the order of insertion.  `history_is_ordered_map`: whatever
  calls have been made on an empty table, it binds every name to the value that the name was given
  last since it was last unbound, and lists the bound names in the order in which they were bound;
  everything else that can be asked of the table agrees with these two views, and equality with
  another table depends on the values alone.

  The invariant is `Reflects`, with the last values.
-/

namespace NameScope.NameTable

variable {α : Type}

/-- Every call keeps the last values. -/
theorem reflects_step {t : NameTable α} {calls : List (Call α)}
    (h : Reflects lastGiven? t calls) (c : Call α) :
    Reflects lastGiven? (t.step c).2 (calls ++ [c]) := by
  cases c with
  | put name a =>
    rw [step, put_eq]
    exact h.insert settles_lastGiven? (lastGiven?_of_gives (Call.gives?_put_self name a))
  | take name =>
    rw [step, take_eq]
    exact h.erase settles_lastGiven? name
  | clear => exact .clear settles_lastGiven? calls

theorem reflects_run (calls : List (Call α)) : Reflects lastGiven? (run empty calls).2 calls := by
  induction calls using List.reverseRecOn with
  | nil => exact .empty settles_lastGiven?
  | append_singleton calls c ih =>
    rw [run, History.run_concat]
    exact reflects_step ih c

/-- **A table is a map in order of insertion.** After every history of calls from the empty table no
name occurs twice, the names are those that are bound, first those that have been bound for longer,
and every name has the value that it was given last.  A new value goes to the place of a bound name,
or to the end, and the old value is given back; unbinding a name gives its value back and keeps the
others in order.  Membership, size and entries agree with names and values.  And two tables are
equal iff all names have the same values in both, whatever the histories that made them. -/
theorem history_is_ordered_map [DecidableEq α] (calls others : List (Call α)) :
    let t := (run empty calls).2
    let u := (run empty others).2
    t.names.Nodup ∧ InOrder t.names calls ∧ (∀ name, t.get? name = lastGiven? name calls) ∧
      (∀ name a, (t.put name a).1 = lastGiven? name calls ∧
        (t.put name a).2.names = (if name ∈ t.names then t.names else t.names ++ [name]) ∧
        ∀ m, (t.put name a).2.get? m = if m = name then some a else t.get? m) ∧
      (∀ name, (t.take name).1 = lastGiven? name calls ∧
        (t.take name).2.names = t.names.filter (· ≠ name) ∧
        ∀ m, (t.take name).2.get? m = if m = name then none else t.get? m) ∧
      (∀ name, t.contains name = true ↔ name ∈ t.names) ∧
      (∀ name, t.contains name = (t.get? name).isSome) ∧
      t.size = t.names.length ∧ (t.isEmpty = true ↔ t.names = []) ∧
      t.entries = t.names.filterMap (fun name => (t.get? name).map (Prod.mk name)) ∧
      ((t == u) = true ↔ ∀ name, t.get? name = u.get? name) := by
  intro t u
  have h : Reflects lastGiven? t calls := reflects_run calls
  refine ⟨t.nodup, h.names, h.get?, fun name a => ?_, fun name => ?_, t.contains_iff, fun _ => rfl,
    t.length_names.symm, ?_, t.filterMap_names.symm, beq_iff_get? t u⟩
  · rw [put_eq, h.get? name]
    exact ⟨rfl, names_insert t name a, get?_insert t name a⟩
  · rw [take_eq, h.get? name]
    exact ⟨rfl, names_erase t name, get?_erase t name⟩
  · show t.entries.isEmpty = true ↔ t.entries.map Prod.fst = []
    rw [List.isEmpty_iff, List.map_eq_nil_iff]

end NameScope.NameTable
