import Mathlib.Data.List.Perm.Subperm
import NameScope.NameTable.Lemmas

/-
  When two tables are the same.  A table is determined by its names in order and their values
  (`ext_get?`).  Equality of tables does not see the order: two tables are equal iff every name is
  bound to the same value in both (`beq_iff_get?`).  The comparison counts the entries and looks
  each entry of one table up in the other, and as no name occurs twice, equal counts leave no room
  for a name that the first table does not bind.
-/

namespace NameScope.NameTable

variable {α : Type}

/-! ## Names with their values -/

/-- The entries can be read off the names and their values. -/
theorem filterMap_names (t : NameTable α) :
    (t.names.filterMap fun name => (t.get? name).map (Prod.mk name)) = t.entries := by
  obtain ⟨entries, nodup⟩ := t
  show ((entries.map Prod.fst).filterMap fun name => (entries.lookup name).map (Prod.mk name)) =
    entries
  induction entries with
  | nil => rfl
  | cons e es ih =>
    obtain ⟨k, v⟩ := e
    obtain ⟨hk, hes⟩ := List.nodup_cons.1 nodup
    have hrest : ∀ name ∈ es.map Prod.fst,
        (((k, v) :: es).lookup name).map (Prod.mk name) =
          (es.lookup name).map (Prod.mk name) := by
      intro name hname
      have hother : (name == k) = false := by
        simpa using fun heq : name = k => hk (heq ▸ hname)
      rw [List.lookup_cons, hother]
    rw [List.map_cons, List.filterMap_cons, List.lookup_cons_self, List.filterMap_congr hrest,
      ih hes]
    rfl

/-- A table is determined by its names in order and their values. -/
theorem ext_get? {t u : NameTable α} (names : t.names = u.names)
    (get? : ∀ name, t.get? name = u.get? name) : t = u := by
  refine NameTable.ext ?_
  rw [← t.filterMap_names, ← u.filterMap_names, names, funext get?]

/-- An entry of a table is what its name is bound to. -/
theorem mem_entries_iff (t : NameTable α) (name : String) (a : α) :
    (name, a) ∈ t.entries ↔ t.get? name = some a := by
  obtain ⟨entries, nodup⟩ := t
  show (name, a) ∈ entries ↔ entries.lookup name = some a
  induction entries with
  | nil => simp
  | cons e es ih =>
    obtain ⟨hnew, hrest⟩ := List.nodup_cons.1 nodup
    obtain ⟨k, b⟩ := e
    by_cases hk : name = k
    · subst hk
      have hnone : ∀ a, (name, a) ∉ es := fun a h => hnew (List.mem_map.2 ⟨_, h, rfl⟩)
      simp [hnone, eq_comm]
    · rw [List.lookup_cons, beq_eq_false_iff_ne.2 hk]
      simp [hk, ih hrest]

/-! ## Equality -/

theorem length_names (t : NameTable α) : t.names.length = t.size := List.length_map _

/-- Tables that bind the same names to the same values have the same names, in some order. -/
theorem names_perm {t u : NameTable α} (h : ∀ name, t.get? name = u.get? name) :
    t.names.Perm u.names := by
  refine (List.perm_ext_iff_of_nodup t.nodup u.nodup).2 fun name => ?_
  rw [← not_iff_not]
  exact (t.get?_eq_none_iff name).symm.trans ((h name) ▸ u.get?_eq_none_iff name)

/-- Two tables are equal iff they bind the same names to the same values. -/
theorem beq_iff_get? [BEq α] [LawfulBEq α] (t u : NameTable α) :
    (t == u) = true ↔ ∀ name, t.get? name = u.get? name := by
  have hbeq : (t == u) = true ↔ t.size = u.size ∧ ∀ e ∈ t.entries, u.get? e.1 = some e.2 := by
    show sameEntries t u = true ↔ _
    simp only [sameEntries, Bool.and_eq_true, beq_iff_eq, List.all_eq_true]
  rw [hbeq]
  constructor
  · rintro ⟨hsize, hentries⟩ name
    have hsub : t.names ⊆ u.names := by
      intro m hm
      obtain ⟨a, ha⟩ := exists_get?_of_mem_names hm
      exact mem_names_of_get? (hentries (m, a) ((t.mem_entries_iff m a).2 ha))
    have hlength : t.names.length = u.names.length := by rw [length_names, length_names, hsize]
    have hsubperm : t.names.Subperm u.names := t.nodup.subperm hsub
    have hperm : t.names.Perm u.names := hsubperm.perm_of_length_le (Nat.le_of_eq hlength.symm)
    cases hg : t.get? name with
    | some a => exact (hentries (name, a) ((t.mem_entries_iff name a).2 hg)).symm
    | none =>
      have hfree : name ∉ u.names := fun hm =>
        (t.get?_eq_none_iff name).1 hg (hperm.mem_iff.2 hm)
      exact ((u.get?_eq_none_iff name).2 hfree).symm
  · intro h
    refine ⟨?_, fun e he => ?_⟩
    · rw [← length_names, ← length_names, (names_perm h).length_eq]
    · rw [← h e.1]
      exact (t.mem_entries_iff e.1 e.2).1 he

end NameScope.NameTable
