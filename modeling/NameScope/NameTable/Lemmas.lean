import NameScope.NameTable

/-
  What the operations on name tables do to the two views of a table: the names in order, and the
  value of each name.  A name that is bound afresh and then unbound leaves no trace.
-/

namespace NameScope.NameTable

variable {α : Type}

/-! ## Entries -/

theorem lookup_eq_none_iff (name : String) (entries : List (String × α)) :
    entries.lookup name = none ↔ name ∉ entries.map Prod.fst := by
  induction entries with
  | nil => simp
  | cons e es ih =>
    obtain ⟨k, v⟩ := e
    by_cases h : name = k
    · subst h; simp
    · have hb : (name == k) = false := by simpa using h
      simp only [List.lookup_cons, hb, List.map_cons, List.mem_cons, h, false_or]
      exact ih

theorem lookup_replaceIn (name : String) (a : α) (entries : List (String × α)) (m : String) :
    (replaceIn name a entries).lookup m =
      if m = name ∧ name ∈ entries.map Prod.fst then some a else entries.lookup m := by
  induction entries with
  | nil => simp [replaceIn]
  | cons e es ih =>
    simp only [replaceIn] at ih
    obtain ⟨k, v⟩ := e
    by_cases hk : k = name
    · subst hk
      by_cases hm : m = k
      · subst hm; simp [replaceIn]
      · have hb : (m == k) = false := by simpa using hm
        simp [replaceIn, List.lookup_cons, hb, hm, ih]
    · have hk' : ¬ name = k := fun e => hk e.symm
      by_cases hm : m = k
      · subst hm; simp [replaceIn, hk]
      · have hb : (m == k) = false := by simpa using hm
        simp only [replaceIn, List.map_cons, if_neg hk, List.lookup_cons, hb, List.mem_cons, hk',
          false_or]
        exact ih

theorem lookup_filter_ne (name : String) (entries : List (String × α)) (m : String) :
    (entries.filter fun e => e.1 ≠ name).lookup m =
      if m = name then none else entries.lookup m := by
  induction entries with
  | nil => simp
  | cons e es ih =>
    obtain ⟨k, v⟩ := e
    by_cases hk : k = name
    · subst hk
      by_cases hm : m = k
      · simp [hm] at ih ⊢; exact ih
      · have hb : (m == k) = false := by simpa using hm
        simp [List.lookup_cons, hb, hm] at ih ⊢
        exact ih
    · rw [List.filter_cons_of_pos (by simpa using hk), List.lookup_cons, List.lookup_cons, ih]
      by_cases hm : m = k
      · subst hm; simp [hk]
      · have hb : (m == k) = false := by simpa using hm
        simp [hb]

/-! ## Values -/

theorem get?_eq_none_iff (t : NameTable α) (name : String) : t.get? name = none ↔ name ∉ t.names :=
  lookup_eq_none_iff name t.entries

theorem contains_iff (t : NameTable α) (name : String) :
    t.contains name = true ↔ name ∈ t.names := by
  have h := t.get?_eq_none_iff name
  cases hg : t.get? name with
  | none => simp [contains, hg, h.1 hg]
  | some a =>
    have : name ∈ t.names := by
      by_cases hm : name ∈ t.names
      · exact hm
      · rw [h.2 hm] at hg; cases hg
    simp [contains, hg, this]

theorem mem_names_of_get? {t : NameTable α} {name : String} {a : α} (h : t.get? name = some a) :
    name ∈ t.names := by
  rw [← contains_iff, contains, h]
  rfl

theorem exists_get?_of_mem_names {t : NameTable α} {name : String} (h : name ∈ t.names) :
    ∃ a, t.get? name = some a :=
  Option.ne_none_iff_exists'.1 fun hnone => (t.get?_eq_none_iff name).1 hnone h

@[simp] theorem get?_empty (name : String) : (empty : NameTable α).get? name = none := rfl

theorem get?_insert (t : NameTable α) (name : String) (a : α) (m : String) :
    (t.insert name a).get? m = if m = name then some a else t.get? m := by
  by_cases h : name ∈ t.names
  · have h' : name ∈ t.entries.map Prod.fst := h
    rw [insert, dif_pos h, get?, lookup_replaceIn, get?]
    simp [h']
  · rw [insert, dif_neg h, get?, List.lookup_append, get?]
    by_cases hm : m = name
    · subst hm
      simp [(lookup_eq_none_iff m t.entries).2 h]
    · have hb : (m == name) = false := by simpa using hm
      simp [hm, hb, List.lookup_cons]

/-- A name that is not bound gets its entry at the end. -/
theorem entries_insert_of_get?_eq_none {t : NameTable α} {name : String}
    (h : t.get? name = none) (a : α) : (t.insert name a).entries = t.entries ++ [(name, a)] := by
  have hn : name ∉ t.names := (t.get?_eq_none_iff name).1 h
  rw [insert, dif_neg hn]

theorem get?_erase (t : NameTable α) (name : String) (m : String) :
    (t.erase name).get? m = if m = name then none else t.get? m :=
  lookup_filter_ne name t.entries m

/-! ## Names -/

theorem names_insert (t : NameTable α) (name : String) (a : α) :
    (t.insert name a).names = if name ∈ t.names then t.names else t.names ++ [name] := by
  by_cases h : name ∈ t.names
  · rw [insert, dif_pos h, if_pos h]
    exact map_fst_replaceIn name a t.entries
  · rw [insert, dif_neg h, if_neg h]
    simp [names]

theorem names_erase (t : NameTable α) (name : String) :
    (t.erase name).names = t.names.filter (· ≠ name) := by
  rw [names, names, List.filter_map]
  rfl

/-- Where no entry has the name, there is nothing to filter out. -/
theorem filter_ne_of_not_mem {name : String} {entries : List (String × α)}
    (h : name ∉ entries.map Prod.fst) : (entries.filter fun e => e.1 ≠ name) = entries := by
  rw [List.filter_eq_self]
  intro e he
  have hne : e.1 ≠ name := fun eq => h (eq ▸ List.mem_map_of_mem he)
  exact decide_eq_true hne

/-- A fresh name that is bound and unbound again leaves the table as it was, order included. -/
theorem erase_insert_of_not_mem (t : NameTable α) (name : String) (a : α) (h : name ∉ t.names) :
    (t.insert name a).erase name = t := by
  rw [insert, dif_neg h]
  apply NameTable.ext
  show (t.entries ++ [(name, a)]).filter (fun e => e.1 ≠ name) = t.entries
  rw [List.filter_append, filter_ne_of_not_mem h]
  simp

/-! ## Old values -/

/-- Where no entry has the name, replacing changes nothing. -/
theorem replaceIn_of_not_mem {name : String} {entries : List (String × α)}
    (h : name ∉ entries.map Prod.fst) (a : α) : replaceIn name a entries = entries := by
  refine (List.map_congr_left fun e he => ?_).trans (List.map_id entries)
  have hne : e.1 ≠ name := fun eq => h (eq ▸ List.mem_map_of_mem he)
  exact if_neg hne

theorem replaceIn_cons (name : String) (a : α) (e : String × α) (es : List (String × α)) :
    replaceIn name a (e :: es) =
      (if e.1 = name then (name, a) else e) :: replaceIn name a es := rfl

/-- Under one name there is one entry at most, so giving the value to the first is giving it to
all. -/
theorem putIn_eq (name : String) (a : α) {entries : List (String × α)}
    (h : (entries.map Prod.fst).Nodup) :
    putIn name a entries =
      (entries.lookup name,
        if name ∈ entries.map Prod.fst then replaceIn name a entries
        else entries ++ [(name, a)]) := by
  induction entries with
  | nil => rfl
  | cons e es ih =>
    obtain ⟨hnew, hrest⟩ := List.nodup_cons.1 h
    rw [List.map_cons, replaceIn_cons]
    by_cases hk : e.1 = name
    · rw [putIn, if_pos hk, if_pos (hk ▸ List.mem_cons_self), if_pos hk,
        replaceIn_of_not_mem (hk ▸ hnew) a, ← hk, List.lookup_cons_self]
    · have hne : name ≠ e.1 := fun eq => hk eq.symm
      have hlookup : (e :: es).lookup name = es.lookup name := by
        rw [List.lookup_cons, beq_eq_false_iff_ne.2 hne]
      rw [putIn, if_neg hk, ih hrest, hlookup, if_neg hk]
      by_cases hmem : name ∈ es.map Prod.fst
      · rw [if_pos hmem, if_pos (List.mem_cons_of_mem _ hmem)]
      · rw [if_neg hmem, if_neg (List.not_mem_cons_of_ne_of_not_mem hne hmem), List.cons_append]

/-- Under one name there is one entry at most, so taking out the first is taking out all. -/
theorem takeFrom_eq (name : String) {entries : List (String × α)}
    (h : (entries.map Prod.fst).Nodup) :
    takeFrom name entries = (entries.lookup name, entries.filter fun e => e.1 ≠ name) := by
  induction entries with
  | nil => rfl
  | cons e es ih =>
    obtain ⟨hnew, hrest⟩ := List.nodup_cons.1 h
    by_cases hk : e.1 = name
    · rw [takeFrom, if_pos hk, List.filter_cons_of_neg (by simpa using hk),
        filter_ne_of_not_mem (hk ▸ hnew), ← hk, List.lookup_cons_self]
    · have hb : (name == e.1) = false := beq_eq_false_iff_ne.2 fun eq => hk eq.symm
      rw [takeFrom, if_neg hk, ih hrest, List.filter_cons_of_pos (by simpa using hk),
        List.lookup_cons, hb]

/-- Putting gives the value before, and binds. -/
theorem put_eq (t : NameTable α) (name : String) (a : α) :
    t.put name a = (t.get? name, t.insert name a) := by
  have h := putIn_eq name a t.nodup
  refine Prod.ext (congrArg Prod.fst h :) (NameTable.ext ((congrArg Prod.snd h :).trans ?_))
  by_cases hn : name ∈ t.names
  · rw [insert, dif_pos hn]
    exact if_pos hn
  · rw [insert, dif_neg hn]
    exact if_neg hn

/-- Taking gives the value before, and unbinds. -/
theorem take_eq (t : NameTable α) (name : String) : t.take name = (t.get? name, t.erase name) := by
  have h := takeFrom_eq name t.nodup
  exact Prod.ext (congrArg Prod.fst h :) (NameTable.ext (congrArg Prod.snd h :))

end NameScope.NameTable
