import Mathlib.Data.List.DropRight
import NameScope.NameTable.Lemmas
import NameScope.Proofs.History

/-
  Histories of name tables.  A table can be read off the calls that made it.  What matters for a
  name is its tenure: the calls since the last one that unbound it, from the first that binds it
  on.  The name is bound iff its tenure is not empty, the first call of the tenure is the one that
  gave the name its place, and the last value in the tenure is the one that it has now; so of two
  bound names the one with the longer tenure stands first.

  `InOrder` says this of a list of names, and each call keeps it, whether a binding of a bound name
  replaces the value or is refused.  `Reflects` says it of a table, with the first values or the
  last; what the two have in common is that a value goes when the name is unbound and that it is
  left alone by calls that are not about the name (`Settles`).
-/

namespace NameScope.NameTable

variable {α : Type}

/-- A call that changes a table. -/
inductive Call (α : Type) where
  | put (name : String) (a : α)
  | take (name : String)
  | clear

/-- Makes a call, and gives what `name` was bound to before if the call is about a name. -/
def step (t : NameTable α) : Call α → Option α × NameTable α
  | .put name a => t.put name a
  | .take name => t.take name
  | .clear => (none, empty)

/-- Makes the calls of a history in order. -/
def run (t : NameTable α) (calls : List (Call α)) : List (Option α) × NameTable α :=
  History.run step t calls

namespace Call

/-- The value that the call gives to `name`, if it gives one. -/
def gives? (name : String) : Call α → Option α
  | put n a => if n = name then some a else none
  | take _ | clear => none

/-- Whether `name` is unbound after the call in any case. -/
def unbinds (name : String) : Call α → Bool
  | put .. => false
  | take n => n = name
  | clear => true

theorem gives?_put_self (name : String) (a : α) : (put name a).gives? name = some a := if_pos rfl

theorem gives?_put_of_ne {m name : String} (h : m ≠ name) (a : α) :
    (put name a).gives? m = none := if_neg h.symm

theorem unbinds_take_self (name : String) : (take name : Call α).unbinds name = true :=
  decide_eq_true rfl

theorem unbinds_take_of_ne {m name : String} (h : m ≠ name) :
    (take name : Call α).unbinds m = false := decide_eq_false h.symm

theorem unbinds_of_gives? {name : String} {c : Call α} {a : α} (h : c.gives? name = some a) :
    c.unbinds name = false := by
  cases c with
  | put n a => rfl
  | take n => cases h
  | clear => cases h

end Call

/-! ## Tenure -/

/-- The calls since the last one that unbinds `name`, from the first that gives it a value on. -/
def tenure (name : String) (calls : List (Call α)) : List (Call α) :=
  (calls.rtakeWhile fun c => !c.unbinds name).dropWhile fun c => (c.gives? name).isNone

/-- The first value of `name` since it was last unbound. -/
def firstGiven? (name : String) (calls : List (Call α)) : Option α :=
  (tenure name calls).findSome? (·.gives? name)

/-- The last value of `name` since it was last unbound. -/
def lastGiven? (name : String) (calls : List (Call α)) : Option α :=
  (tenure name calls).reverse.findSome? (·.gives? name)

section Concat

variable {name : String} {calls : List (Call α)} {c : Call α}

/-- A call that unbinds the name ends its tenure. -/
theorem tenure_of_unbinds (h : c.unbinds name = true) : tenure name (calls ++ [c]) = [] := by
  rw [tenure, List.rtakeWhile_concat, if_neg (by simp [h])]
  rfl

/-- Any other call prolongs the tenure of a bound name. -/
theorem tenure_of_bound (hc : c.unbinds name = false) (h : tenure name calls ≠ []) :
    tenure name (calls ++ [c]) = tenure name calls ++ [c] := by
  rw [tenure, List.rtakeWhile_concat, if_pos (by simp [hc]), List.dropWhile_append]
  exact if_neg fun he => h (List.isEmpty_iff.1 he)

/-- A call that gives no value to a free name leaves it free. -/
theorem tenure_of_free (hc : c.gives? name = none) (h : tenure name calls = []) :
    tenure name (calls ++ [c]) = [] := by
  cases hu : c.unbinds name with
  | true => exact tenure_of_unbinds hu
  | false =>
    rw [tenure, List.rtakeWhile_concat, if_pos (by simp [hu]), List.dropWhile_append]
    refine (if_pos (List.isEmpty_iff.2 h)).trans ?_
    rw [List.dropWhile_cons_of_pos (by simp [hc]), List.dropWhile_nil]

/-- A call that gives the name a value is part of its tenure. -/
theorem tenure_of_gives {a : α} (h : c.gives? name = some a) :
    tenure name (calls ++ [c]) = tenure name calls ++ [c] := by
  have hc := Call.unbinds_of_gives? h
  by_cases hfree : tenure name calls = []
  · rw [hfree, tenure, List.rtakeWhile_concat, if_pos (by simp [hc]), List.dropWhile_append]
    refine (if_pos (List.isEmpty_iff.2 hfree)).trans ?_
    rw [List.dropWhile_cons_of_neg (by simp [h]), List.nil_append]
  · exact tenure_of_bound hc hfree

/-- A call that is not about the name neither binds nor unbinds it. -/
theorem tenure_eq_nil_iff_of_passes (hu : c.unbinds name = false) (hg : c.gives? name = none) :
    tenure name (calls ++ [c]) = [] ↔ tenure name calls = [] := by
  by_cases hfree : tenure name calls = []
  · exact iff_of_true (tenure_of_free hg hfree) hfree
  · rw [tenure_of_bound hu hfree]
    simp [hfree]

/-! ## Values -/

/-- The first value stays the first. -/
theorem firstGiven?_of_gives {a : α} (h : c.gives? name = some a) :
    firstGiven? name (calls ++ [c]) = (firstGiven? name calls).or (some a) := by
  rw [firstGiven?, tenure_of_gives h, List.findSome?_append, List.findSome?_singleton, h,
    firstGiven?]

/-- A new value is the last. -/
theorem lastGiven?_of_gives {a : α} (h : c.gives? name = some a) :
    lastGiven? name (calls ++ [c]) = some a := by
  rw [lastGiven?, tenure_of_gives h, List.reverse_concat, List.findSome?_cons, h]

end Concat

/-- A reading of histories as values: a name has no value once it is unbound, and a call that is
not about the name leaves its value alone. -/
structure Settles (given? : String → List (Call α) → Option α) : Prop where
  nil : ∀ name, given? name [] = none
  of_unbinds : ∀ {name calls c}, c.unbinds name = true → given? name (calls ++ [c]) = none
  of_passes : ∀ {name calls c}, c.unbinds name = false → c.gives? name = none →
    given? name (calls ++ [c]) = given? name calls

theorem settles_firstGiven? : Settles (firstGiven? (α := α)) where
  nil := fun _ => rfl
  of_unbinds := by
    intro name calls c h
    rw [firstGiven?, tenure_of_unbinds h, List.findSome?_nil]
  of_passes := by
    intro name calls c hu hg
    unfold firstGiven?
    by_cases hfree : tenure name calls = []
    · rw [tenure_of_free hg hfree, hfree]
    · rw [tenure_of_bound hu hfree, List.findSome?_append, List.findSome?_singleton, hg,
        Option.or_none]

theorem settles_lastGiven? : Settles (lastGiven? (α := α)) where
  nil := fun _ => rfl
  of_unbinds := by
    intro name calls c h
    rw [lastGiven?, tenure_of_unbinds h, List.reverse_nil, List.findSome?_nil]
  of_passes := by
    intro name calls c hu hg
    unfold lastGiven?
    by_cases hfree : tenure name calls = []
    · rw [tenure_of_free hg hfree, hfree]
    · rw [tenure_of_bound hu hfree, List.reverse_concat, List.findSome?_cons, hg]

/-! ## Names in order -/

/-- The names are those that the history leaves bound, and those that have been bound for longer
stand first. -/
structure InOrder (names : List String) (calls : List (Call α)) : Prop where
  mem : ∀ name, name ∈ names ↔ tenure name calls ≠ []
  order : names.Pairwise fun m n => (tenure n calls).length < (tenure m calls).length

namespace InOrder

variable {names : List String} {calls : List (Call α)}

theorem nil : InOrder [] ([] : List (Call α)) :=
  ⟨fun _ => ⟨fun h => absurd h List.not_mem_nil, fun h => absurd rfl h⟩, .nil⟩

/-- While no name is unbound, all that are bound grow old together. -/
theorem order_concat (h : InOrder names calls) {c : Call α} {kept : List String}
    (hkept : kept.Sublist names) (hc : ∀ name ∈ kept, c.unbinds name = false) :
    kept.Pairwise fun m n =>
      (tenure n (calls ++ [c])).length < (tenure m (calls ++ [c])).length := by
  have hlonger : ∀ name ∈ kept,
      (tenure name (calls ++ [c])).length = (tenure name calls).length + 1 := by
    intro name hname
    have hbound := (h.mem name).1 (hkept.subset hname)
    rw [tenure_of_bound (hc name hname) hbound, List.length_append, List.length_singleton]
  refine (h.order.sublist hkept).imp_of_mem fun hm hn hlt => ?_
  rw [hlonger _ hm, hlonger _ hn]
  exact Nat.succ_lt_succ hlt

theorem put (h : InOrder names calls) (name : String) (a : α) :
    InOrder (if name ∈ names then names else names ++ [name]) (calls ++ [.put name a]) := by
  have hself := Call.gives?_put_self name a
  have hold : names.Pairwise fun m n => (tenure n (calls ++ [.put name a])).length <
      (tenure m (calls ++ [.put name a])).length :=
    h.order_concat (List.Sublist.refl names) fun _ _ => rfl
  -- The name itself is bound, and every other name is bound as before.
  have hmem : ∀ m, tenure m (calls ++ [.put name a]) ≠ [] ↔ m = name ∨ m ∈ names := by
    intro m
    by_cases hm : m = name
    · subst hm
      rw [tenure_of_gives hself]
      simp
    · simp [tenure_eq_nil_iff_of_passes rfl (Call.gives?_put_of_ne hm a), h.mem m, hm]
  by_cases hn : name ∈ names
  · rw [if_pos hn]
    refine ⟨fun m => ?_, hold⟩
    rw [hmem m]
    exact ⟨Or.inr, fun h => h.elim (fun eq => eq ▸ hn) id⟩
  · rw [if_neg hn]
    refine ⟨fun m => ?_, List.pairwise_append.2 ⟨hold, List.pairwise_singleton _ _, ?_⟩⟩
    · rw [hmem m, List.mem_append, List.mem_singleton, or_comm]
    · intro m hm n hname
      have hfree : tenure name calls = [] := Decidable.byContradiction fun hb =>
        hn ((h.mem name).2 hb)
      have hbound := (h.mem m).1 hm
      rw [List.mem_singleton.1 hname, tenure_of_gives hself, hfree, tenure_of_bound rfl hbound,
        List.nil_append, List.length_append]
      exact Nat.lt_add_of_pos_left (List.length_pos_of_ne_nil hbound)

theorem take (h : InOrder names calls) (name : String) :
    InOrder (names.filter (· ≠ name)) (calls ++ [.take name]) := by
  refine ⟨fun m => ?_, h.order_concat List.filter_sublist fun m hm => ?_⟩
  · rw [List.mem_filter, h.mem m]
    by_cases hm : m = name
    · subst hm
      rw [tenure_of_unbinds (Call.unbinds_take_self m)]
      simp
    · simp [tenure_eq_nil_iff_of_passes (Call.unbinds_take_of_ne hm) rfl, hm]
  · exact Call.unbinds_take_of_ne (by simpa using (List.mem_filter.1 hm).2)

theorem clear (calls : List (Call α)) : InOrder [] (calls ++ [.clear]) := by
  refine ⟨fun m => ?_, .nil⟩
  rw [tenure_of_unbinds rfl]
  simp

end InOrder

/-! ## Tables -/

/-- The table has the names in the order, and with the values, that the history gives them. -/
structure Reflects (given? : String → List (Call α) → Option α) (t : NameTable α)
    (calls : List (Call α)) : Prop where
  names : InOrder t.names calls
  get? : ∀ name, t.get? name = given? name calls

namespace Reflects

variable {given? : String → List (Call α) → Option α} {t : NameTable α} {calls : List (Call α)}

theorem empty (hgiven : Settles given?) : Reflects given? .empty [] :=
  ⟨.nil, fun name => (hgiven.nil name).symm⟩

/-- A value that the history makes the value of the name is put into the table. -/
theorem insert (hgiven : Settles given?) (h : Reflects given? t calls) {name : String} {a : α}
    (hvalue : given? name (calls ++ [.put name a]) = some a) :
    Reflects given? (t.insert name a) (calls ++ [.put name a]) := by
  constructor
  · rw [names_insert]
    exact h.names.put name a
  · intro m
    rw [get?_insert]
    by_cases hm : m = name
    · rw [if_pos hm, hm, hvalue]
    · rw [if_neg hm, hgiven.of_passes rfl (Call.gives?_put_of_ne hm a), h.get? m]

/-- A value that changes nothing about a bound name need not be put into the table. -/
theorem keep (hgiven : Settles given?) (h : Reflects given? t calls) {name : String} {a : α}
    (hname : name ∈ t.names)
    (hvalue : given? name (calls ++ [.put name a]) = given? name calls) :
    Reflects given? t (calls ++ [.put name a]) := by
  constructor
  · have hnames := h.names.put name a
    rw [if_pos hname] at hnames
    exact hnames
  · intro m
    by_cases hm : m = name
    · rw [hm, hvalue, h.get? name]
    · rw [hgiven.of_passes rfl (Call.gives?_put_of_ne hm a), h.get? m]

theorem erase (hgiven : Settles given?) (h : Reflects given? t calls) (name : String) :
    Reflects given? (t.erase name) (calls ++ [.take name]) := by
  constructor
  · rw [names_erase]
    exact h.names.take name
  · intro m
    rw [get?_erase]
    by_cases hm : m = name
    · rw [if_pos hm, hm, hgiven.of_unbinds (Call.unbinds_take_self name)]
    · rw [if_neg hm, hgiven.of_passes (Call.unbinds_take_of_ne hm) rfl, h.get? m]

theorem clear (hgiven : Settles given?) (calls : List (Call α)) :
    Reflects given? .empty (calls ++ [.clear]) :=
  ⟨.clear calls, fun _ => (hgiven.of_unbinds rfl).symm⟩

end Reflects

end NameScope.NameTable
