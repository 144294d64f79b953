import NameScope.Proofs.Scope.History

/-
  Blocks and declarations of a scope evolve apart.  A call on the blocks works on the blocks alone,
  and a call on the declarations on the declarations alone (`confines_step`), so a history is two
  histories that do not notice each other, however they are mixed.

  Of the calls on declarations only two kinds change anything: one more declaration comes last, or
  the one at some position gives way to another.  Hence a list of declarations only grows, and every
  declaration keeps its position for good (`grown_run`).
-/

namespace NameScope

/-! ## Lists that grow at the end -/

/-- A change of a list: one more element at the end, or another one in the place of that at position
`i`, if there is one. -/
inductive Change (δ : Type) where
  | append (a : δ)
  | update (i : Nat) (f : δ → δ)

namespace Change

variable {δ : Type}

def apply : Change δ → List δ → List δ
  | append a, items => items ++ [a]
  | update i f, items => items.modify i f

/-- What changes make of the element `a` at position `i`. -/
def updated (i : Nat) (a : δ) : List (Change δ) → δ
  | [] => a
  | append _ :: changes => updated i a changes
  | update j f :: changes => updated i (if j = i then f a else a) changes

/-- The elements that changes append, the first of them at position `n`; each is given as the
changes after it leave it. -/
def appended (n : Nat) : List (Change δ) → List δ
  | [] => []
  | append a :: changes => updated n a changes :: appended (n + 1) changes
  | update .. :: changes => appended n changes

/-- What becomes of a list: every element stays where it is, and what is appended follows. -/
def grown (items : List δ) (changes : List (Change δ)) : List δ :=
  items.mapIdx (fun i a => updated i a changes) ++ appended items.length changes

theorem mapIdx_modify {β : Type} (g : Nat → δ → β) (i : Nat) (f : δ → δ) (items : List δ) :
    (items.modify i f).mapIdx g = items.mapIdx fun j a => g j (if i = j then f a else a) := by
  refine List.ext_getElem? fun j => ?_
  rw [List.getElem?_mapIdx, List.getElem?_mapIdx, List.getElem?_modify, Option.map_eq_map,
    Option.map_map]
  rfl

theorem foldl_apply (items : List δ) (changes : List (Change δ)) :
    changes.foldl (fun items c => c.apply items) items = grown items changes := by
  induction changes generalizing items with
  | nil =>
    have hsame : items.mapIdx (fun _ a => a) = items := List.ext_getElem? fun i => by simp
    simp only [List.foldl_nil, grown, updated, appended, List.append_nil, hsame]
  | cons c changes ih =>
    rw [List.foldl_cons, ih]
    cases c with
    | append a =>
      simp only [apply, grown, updated, appended, List.mapIdx_append, List.mapIdx_singleton,
        List.length_append, List.length_singleton, Nat.zero_add, List.append_assoc,
        List.singleton_append]
    | update i f => simp only [apply, grown, updated, appended, mapIdx_modify, List.length_modify]

/-- If every step changes a list in one of these ways or not at all, then a run leaves the list
grown. -/
theorem grown_run {σ ι α : Type} {step : σ → ι → α × σ} {get : σ → List δ}
    {change? : ι → Option (Change δ)}
    (h : ∀ s c, get (step s c).2 = (change? c).elim (get s) (·.apply (get s))) (s : σ)
    (calls : List ι) :
    get (History.run step s calls).2 = grown (get s) (calls.filterMap change?) := by
  rw [← foldl_apply]
  induction calls generalizing s with
  | nil => rfl
  | cons c calls ih =>
    show get (History.run step (step s c).2 calls).2 = _
    rw [ih, h]
    cases hc : change? c with
    | none => rw [List.filterMap_cons_none hc]; rfl
    | some change => rw [List.filterMap_cons_some hc]; rfl

end Change

/-- To run a function on an element is to look it up and to put in its place what becomes of it;
without an element there, nothing changes. -/
theorem updateAt_eq {δ : Type} (list : ListName) (items : List δ) (i : Nat) (f : δ → δ) :
    updateAt list items i (fun d => (d, f d)) =
      (elementAt list items i).map fun d => (d, items.modify i f) := by
  unfold updateAt elementAt
  rw [List.modify_eq_set_getElem?]
  cases items[i]? with
  | none => rfl
  | some d => rfl

theorem modify_of_error {δ : Type} {list : ListName} {items : List δ} {i : Nat} {fault : IndexFault}
    (h : elementAt list items i = .error fault) (f : δ → δ) : items.modify i f = items := by
  unfold elementAt at h
  cases hi : items[i]? with
  | none => rw [List.modify_eq_set_getElem?, hi]; rfl
  | some d => rw [hi] at h; cases h

namespace Scope

variable {δ : Type}

/-- The two parts of a scope that calls go to. -/
inductive Part where
  | blocks
  | decls
deriving DecidableEq

namespace Call

/-- The part of a scope that the call goes to. -/
def part : Call δ → Part
  | blocks _ => .blocks
  | addDecl _ | decl _ | updateDecl .. | declCount => .decls

/-- How the call changes the list of declarations, if it does. -/
def change? : Call δ → Option (Change δ)
  | addDecl d => some (.append d)
  | updateDecl i f => some (.update i f)
  | blocks _ | decl _ | declCount => none

end Call

/-- The answer of a call that looks a declaration up. -/
def Answer.ofDecl : Except IndexFault δ → Answer δ
  | .ok d => decl d
  | .error e => fault e

theorem step_decl (s : Scope δ) (i : Nat) : s.step (.decl i) = (.ofDecl (s.decl i), s) := by
  simp only [step]
  cases s.decl i with
  | ok d => rfl
  | error fault => rfl

theorem step_updateDecl (s : Scope δ) (i : Nat) (f : δ → δ) :
    s.step (.updateDecl i f) =
      (.ofDecl (s.decl i), { s with decls := s.decls.modify i f }) := by
  simp only [step, updateDecl, updateAt_eq, decl]
  cases h : elementAt .declaration s.decls i with
  | ok d => rfl
  | error fault => rw [modify_of_error h]; rfl

/-- The blocks and the declarations of a scope. -/
def parts : History.Parts (Scope δ) Part where
  Carrier
    | .blocks => Blocks
    | .decls => List δ
  get
    | .blocks => blocks
    | .decls => decls
  put
    | .blocks, blocks, s => { s with blocks := blocks }
    | .decls, decls, s => { s with decls := decls }
  get_put_of_ne {j k} hne _ _ := by
    cases j <;> cases k <;> first | exact absurd rfl hne | rfl
  put_comm {j k} hne _ _ _ := by
    cases j <;> cases k <;> first | exact absurd rfl hne | rfl

/-- A call on the blocks works on the blocks alone, and one on declarations on these alone. -/
theorem confines_step : History.Confines parts (step (δ := δ)) Call.part := by
  intro c
  cases c with
  | blocks c => exact ⟨fun b : Blocks => (.blocks (b.step c).1, (b.step c).2), fun _ => rfl⟩
  | addDecl d => exact ⟨fun decls : List δ => (.done, decls ++ [d]), fun _ => rfl⟩
  | decl i =>
    exact ⟨fun decls : List δ => (.ofDecl (elementAt .declaration decls i), decls),
      fun s => s.step_decl i⟩
  | updateDecl i f =>
    exact ⟨fun decls : List δ => (.ofDecl (elementAt .declaration decls i), decls.modify i f),
      fun s => s.step_updateDecl i f⟩
  | declCount => exact ⟨fun decls : List δ => (.count decls.length, decls), fun _ => rfl⟩

/-! ## The list of declarations -/

theorem decls_step (s : Scope δ) (c : Call δ) :
    (s.step c).2.decls = c.change?.elim s.decls (·.apply s.decls) := by
  cases c with
  | decl i => rw [step_decl]; rfl
  | updateDecl i f => rw [step_updateDecl]; rfl
  | _ => rfl

end Scope

end NameScope
