import NameScope.Proofs.Toml.Lines

/-
  No document gives a key a number that is out of range.  A number is checked where it is read
  (`value?_fits`), and what a document builds holds nothing but the values it read and the tables
  around them (`build_forall`).
-/

namespace NameScope.Toml

variable {bound : Nat} {s rest : List Char} {v : Value}

/-! ## Statements -/

theorem value?_fits (h : value? bound s = some (v, rest)) : v.Fits := by
  cases bound with
  | zero => cases h
  | succ bound =>
    rw [value?.eq_def] at h
    dsimp only at h
    split at h
    · cases h; trivial
    · cases h; trivial
    · obtain ⟨⟨items, rest'⟩, -, h⟩ := Option.bind_eq_some_iff.1 h
      cases h; trivial
    · split at h
      · cases h; trivial
      · obtain ⟨⟨entries, rest'⟩, -, h⟩ := Option.bind_eq_some_iff.1 h
        cases h; trivial
    · split at h
      · obtain ⟨⟨text, rest'⟩, -, h⟩ := Option.map_eq_some_iff.1 h
        cases h; trivial
      · obtain ⟨⟨n, rest'⟩, hread, h⟩ := Option.map_eq_some_iff.1 h
        cases h
        exact integer?_inRange hread

theorem setting?_fits {key : Key} (h : setting? bound s = some (key, v, rest)) : v.Fits := by
  cases bound with
  | zero => cases h
  | succ bound =>
    rw [setting?] at h
    obtain ⟨⟨key', rest'⟩, -, h⟩ := Option.bind_eq_some_iff.1 h
    dsimp only at h
    split at h
    · obtain ⟨⟨v', rest''⟩, hread, h⟩ := Option.bind_eq_some_iff.1 h
      cases h
      exact value?_fits hread
    · cases h

theorem statement?_fits {key : Key} (h : statement? s = some (.setting key v, rest)) : v.Fits := by
  unfold statement? at h
  split at h
  · obtain ⟨⟨key', rest'⟩, -, h⟩ := Option.map_eq_some_iff.1 h
    cases h
  · obtain ⟨⟨key', v', rest'⟩, hread, h⟩ := Option.map_eq_some_iff.1 h
    cases h
    exact setting?_fits hread

theorem statements?_fits {statements : List Statement} (h : statements? bound s = some statements) :
    ∀ key v, .setting key v ∈ statements → v.Fits := by
  induction bound generalizing s statements with
  | zero => cases h
  | succ bound ih =>
    rw [statements?] at h
    split at h
    · cases h
      intro _ _ hmem
      cases hmem
    · split at h
      · obtain ⟨rest, -, h⟩ := Option.bind_eq_some_iff.1 h
        exact ih h
      · obtain ⟨⟨first, rest⟩, hfirst, h⟩ := Option.bind_eq_some_iff.1 h
        obtain ⟨rest', -, h⟩ := Option.bind_eq_some_iff.1 h
        obtain ⟨others, hothers, h⟩ := Option.bind_eq_some_iff.1 h
        cases h
        intro key v hmem
        cases hmem with
        | head => exact statement?_fits hfirst
        | tail _ hmem => exact ih hothers key v hmem

/-! ## Tables -/

section Tables

variable {P : Value → Prop}

namespace Entries

theorem forall_set {t : Entries} {key : String} (ht : ∀ e ∈ t, P e.2) (hv : P v) :
    ∀ e ∈ t.set key v, P e.2 := by
  induction t with
  | nil => exact List.forall_mem_singleton.2 hv
  | cons e t ih =>
    obtain ⟨k, old⟩ := e
    obtain ⟨he, ht⟩ := List.forall_mem_cons.1 ht
    rw [set]
    split
    · exact List.forall_mem_cons.2 ⟨hv, ht⟩
    · exact List.forall_mem_cons.2 ⟨he, ih ht⟩

variable (htable : ∀ origin entries, P (.table origin entries))
include htable

/-- A change inside a table leaves a table where the table was. -/
theorem forall_updateTable {fresh : Origin} {admits : Origin → Bool}
    {f : Origin → Entries → Option Entries} {origin : Origin} {path : List String} {t t' : Entries}
    (hf : ∀ o t', f o t = some t' → ∀ e ∈ t', P e.2) (ht : ∀ e ∈ t, P e.2)
    (h : updateTable fresh admits f origin path t = some t') : ∀ e ∈ t', P e.2 := by
  cases path with
  | nil => exact hf _ _ h
  | cons key path =>
    rw [updateTable] at h
    split at h
    · obtain ⟨inner, -, h⟩ := Option.bind_eq_some_iff.1 h
      cases h
      exact forall_set ht (htable _ _)
    · split at h
      · obtain ⟨inner, -, h⟩ := Option.bind_eq_some_iff.1 h
        cases h
        exact forall_set ht (htable _ _)
      · cases h
    · cases h

theorem forall_addSetting {origin : Origin} {path : List String} {key : String} {t t' : Entries}
    (ht : ∀ e ∈ t, P e.2) (hv : P v) (h : t.addSetting origin path key v = some t') :
    ∀ e ∈ t', P e.2 := by
  refine forall_updateTable htable (fun o t' hadd => ?_) ht h
  obtain ⟨-, h⟩ := Option.ite_none_left_eq_some.1 hadd
  cases h
  exact forall_set ht hv

theorem forall_addHeader {path : List String} {key : String} {t t' : Entries}
    (ht : ∀ e ∈ t, P e.2) (h : t.addHeader path key = some t') : ∀ e ∈ t', P e.2 := by
  refine forall_updateTable htable (fun o t' hadd => ?_) ht h
  split at hadd
  · cases hadd
    exact forall_set ht (htable _ _)
  · cases hadd
    exact forall_set ht (htable _ _)
  · cases hadd

theorem forall_addUnder {header path : List String} {key : String} {t t' : Entries}
    (ht : ∀ e ∈ t, P e.2) (hv : P v) (h : t.addUnder header path key v = some t') :
    ∀ e ∈ t', P e.2 :=
  forall_updateTable htable (fun _ _ => forall_addSetting htable ht hv) ht h

end Entries

/-- What holds of every table and of every value that is set holds of every entry. -/
theorem build_forall (htable : ∀ origin entries, P (.table origin entries))
    {statements : List Statement} : ∀ {header : List String} {t t' : Entries},
      (∀ key v, .setting key v ∈ statements → P v) → (∀ e ∈ t, P e.2) →
      build header t statements = some t' → ∀ e ∈ t', P e.2 := by
  induction statements with
  | nil =>
    intro header t t' _ ht h
    cases h
    exact ht
  | cons first others ih =>
    intro header t t' hset ht h
    have hothers := fun key v hmem => hset key v (List.mem_cons_of_mem _ hmem)
    cases first with
    | header key =>
      obtain ⟨mid, hmid, h⟩ := Option.bind_eq_some_iff.1 h
      exact ih hothers (Entries.forall_addHeader htable ht hmid) h
    | setting key v =>
      obtain ⟨mid, hmid, h⟩ := Option.bind_eq_some_iff.1 h
      have hv := hset key v List.mem_cons_self
      exact ih hothers (Entries.forall_addUnder htable ht hv hmid) h

end Tables

theorem read?_fits {document : String} {t : Entries} (h : read? document = some t) :
    ∀ e ∈ t, e.2.Fits := by
  obtain ⟨statements, hread, hbuild⟩ := Option.bind_eq_some_iff.1 h
  have hnil : ∀ e ∈ ([] : Entries), e.2.Fits := fun _ he => absurd he List.not_mem_nil
  exact build_forall (fun _ _ => trivial) (statements?_fits hread) hnil hbuild

end NameScope.Toml
