/-
  Tables from names to values that remember the order in which names were first bound.

  `insert` replaces the value of a bound name where it stands and appends a new name; `erase`
  keeps the order of the other names.  `put` and `take` do the same in one pass over the entries and
  give the value that is replaced or removed.  Two tables are equivalent (`==`) when they bind the
  same names to the same values, whatever the order.
-/

namespace NameScope

/-- Names with a value each, in the order in which they were bound; no name occurs twice. -/
@[ext]
structure NameTable (α : Type) where
  entries : List (String × α) := []
  nodup : (entries.map Prod.fst).Nodup := by simp

namespace NameTable

variable {α : Type}

def empty : NameTable α := {}

instance : Inhabited (NameTable α) := ⟨empty⟩

/-- The bound names in order. -/
def names (t : NameTable α) : List String := t.entries.map Prod.fst

def size (t : NameTable α) : Nat := t.entries.length

def isEmpty (t : NameTable α) : Bool := t.entries.isEmpty

/-- The value bound to `name`. -/
def get? (t : NameTable α) (name : String) : Option α := t.entries.lookup name

def contains (t : NameTable α) (name : String) : Bool := (t.get? name).isSome

/-- Gives `a` to the entry of `name`, if there is one. -/
def replaceIn (name : String) (a : α) (entries : List (String × α)) : List (String × α) :=
  entries.map fun e => if e.1 = name then (name, a) else e

theorem map_fst_replaceIn (name : String) (a : α) (entries : List (String × α)) :
    (replaceIn name a entries).map Prod.fst = entries.map Prod.fst := by
  induction entries with
  | nil => rfl
  | cons e es ih =>
    have ih : (es.map fun e => if e.1 = name then (name, a) else e).map Prod.fst =
        es.map Prod.fst := ih
    by_cases h : e.1 = name
    · simp [replaceIn, h, ih]
    · simp [replaceIn, h, ih]

theorem nodup_concat {names : List String} (h : names.Nodup) {name : String} (hn : name ∉ names) :
    (names ++ [name]).Nodup := by
  refine List.nodup_append.2 ⟨h, by simp, ?_⟩
  intro x hx y hy
  have hy : y = name := by simpa using hy
  exact fun e => hn (hy ▸ e ▸ hx)

/-- Binds `name` to `a`: in place if it is bound, at the end otherwise. -/
def insert (t : NameTable α) (name : String) (a : α) : NameTable α :=
  if h : name ∈ t.names then
    { entries := replaceIn name a t.entries
      nodup := by rw [map_fst_replaceIn]; exact t.nodup }
  else
    { entries := t.entries ++ [(name, a)]
      nodup := by
        rw [List.map_append]
        exact nodup_concat t.nodup h }

/-- Unbinds `name`. -/
def erase (t : NameTable α) (name : String) : NameTable α where
  entries := t.entries.filter fun e => e.1 ≠ name
  nodup := (List.filter_sublist.map Prod.fst).nodup t.nodup

/-! ## Operations that give the old value -/

/-- Gives `a` to the first entry of `name`, or to a new entry at the end; with the old value. -/
def putIn (name : String) (a : α) : List (String × α) → Option α × List (String × α)
  | [] => (none, [(name, a)])
  | e :: es =>
    if e.1 = name then (some e.2, (name, a) :: es)
    else
      let (old, es) := putIn name a es
      (old, e :: es)

/-- Takes the first entry of `name` out; with its value. -/
def takeFrom (name : String) : List (String × α) → Option α × List (String × α)
  | [] => (none, [])
  | e :: es =>
    if e.1 = name then (some e.2, es)
    else
      let (old, es) := takeFrom name es
      (old, e :: es)

theorem map_fst_putIn (name : String) (a : α) (entries : List (String × α)) :
    (putIn name a entries).2.map Prod.fst =
      if name ∈ entries.map Prod.fst then entries.map Prod.fst
      else entries.map Prod.fst ++ [name] := by
  induction entries with
  | nil => simp [putIn]
  | cons e es ih =>
    by_cases h : e.1 = name
    · simp [putIn, h]
    · have hne : ¬ name = e.1 := fun eq => h eq.symm
      by_cases hm : name ∈ es.map Prod.fst
      · rw [if_pos hm] at ih
        simp only [putIn, if_neg h, List.map_cons, ih, List.mem_cons, hm, or_true, if_true]
      · rw [if_neg hm] at ih
        simp only [putIn, if_neg h, List.map_cons, ih, List.mem_cons, hm, hne, or_false, if_false,
          List.cons_append]

theorem takeFrom_sublist (name : String) (entries : List (String × α)) :
    (takeFrom name entries).2.Sublist entries := by
  induction entries with
  | nil => exact List.nil_sublist _
  | cons e es ih =>
    by_cases h : e.1 = name
    · rw [takeFrom, if_pos h]
      exact List.sublist_cons_self e es
    · rw [takeFrom, if_neg h]
      exact ih.cons_cons e

/-- Binds `name` to `a`, and gives what it was bound to before. -/
def put (t : NameTable α) (name : String) (a : α) : Option α × NameTable α where
  fst := (putIn name a t.entries).1
  snd :=
    { entries := (putIn name a t.entries).2
      nodup := by
        rw [map_fst_putIn]
        split
        · exact t.nodup
        · next hn => exact nodup_concat t.nodup hn }

/-- Unbinds `name`, and gives what it was bound to. -/
def take (t : NameTable α) (name : String) : Option α × NameTable α where
  fst := (takeFrom name t.entries).1
  snd :=
    { entries := (takeFrom name t.entries).2
      nodup := ((takeFrom_sublist name t.entries).map Prod.fst).nodup t.nodup }

/-! ## Equivalence -/

/-- Both tables bind the same names to the same values. -/
def sameEntries [BEq α] (t u : NameTable α) : Bool :=
  t.size == u.size && t.entries.all fun e => u.get? e.1 == some e.2

instance [BEq α] : BEq (NameTable α) := ⟨sameEntries⟩

end NameTable

end NameScope
