import NameScope.Proofs.NameTable.Equality
import NameScope.Proofs.Session.Rollback

/-
  The two name spaces of a session and the list of its declarations.  A session keeps three things
  apart: the declarations of the unit, the table of global names, and the tags.
  `namespaces_determined`: after every history the list of declarations alone says what the other
  two hold.  The global names are the names of the declarations with a type, each once, in the
  order in which they first occur, and the first declaration of a name gives it its type; a tag
  stands for the first record or enumeration of that name.  While a function is open the table
  holds its name besides, at the end, iff the name was free.

  The invariant is `Determined`.  A call that declares a value, and a function that is closed, do
  one and the same thing to it (`Determined.addValue`), although the function binds its name long
  before it is added to the unit; a function that is abandoned does nothing (`extends_abandon`).
-/

namespace NameScope

namespace Decl

/-! ## What declarations say about names -/

/-- The name and the type that a declaration gives to the global names: the declarations that
have a type and a name give one. -/
def valueEntry? (d : Decl) : Option (String × TypeUse) :=
  match d.value? with
  | some v => if v.name = "" then none else some (v.name, v.type)
  | none => none

/-- The name and the kind that a declaration gives to the tags. -/
def tagEntry? : Decl → Option (String × Kind)
  | record r => if r.name = "" then none else some (r.name, .record)
  | enumeration e => if e.name = "" then none else some (e.name, .enumeration)
  | _ => none

def valueEntries (decls : List Decl) : List (String × TypeUse) := decls.filterMap valueEntry?

def tagEntries (decls : List Decl) : List (String × Kind) := decls.filterMap tagEntry?

theorem valueEntries_append (decls : List Decl) (d : Decl) :
    valueEntries (decls ++ [d]) = valueEntries decls ++ d.valueEntry?.toList := by
  unfold valueEntries
  rw [List.filterMap_append]
  cases h : d.valueEntry? <;> simp [h]

theorem tagEntries_append (decls : List Decl) (d : Decl) :
    tagEntries (decls ++ [d]) = tagEntries decls ++ d.tagEntry?.toList := by
  unfold tagEntries
  rw [List.filterMap_append]
  cases h : d.tagEntry? <;> simp [h]

end Decl

namespace NameTable

variable {α β : Type}

/-! ## Tables in which the first entry wins -/

/-- The table binds the names of `entries`, in the order in which they first occur, and gives each
what its first entry gives it. -/
structure FirstWins (t : NameTable α) (view : α → β) (entries : List (String × β)) : Prop where
  names : t.names = (entries.map Prod.fst).eraseDups
  get? : ∀ name, (t.get? name).map view = entries.lookup name

theorem eraseDups_concat (names : List String) (name : String) :
    (names ++ [name]).eraseDups =
      if name ∈ names then names.eraseDups else names.eraseDups ++ [name] := by
  rw [List.eraseDups_append]
  by_cases h : name ∈ names
  · simp [List.removeAll, h]
  · simp [List.removeAll, h, List.eraseDups_cons]

theorem lookup_concat (entries : List (String × β)) (name m : String) (b : β) :
    (entries ++ [(name, b)]).lookup m =
      (entries.lookup m).or (if m = name then some b else none) := by
  rw [List.lookup_append]
  by_cases h : m = name
  · simp [h]
  · have hb : (m == name) = false := by simpa using h
    simp [List.lookup_cons, hb, h]

theorem FirstWins.mem_names_iff {t : NameTable α} {view : α → β} {entries : List (String × β)}
    (h : t.FirstWins view entries) (name : String) :
    name ∈ t.names ↔ name ∈ entries.map Prod.fst := by
  rw [h.names, List.mem_eraseDups]

/-- The entry of a new name is bound. -/
theorem FirstWins.insert {t : NameTable α} {view : α → β} {entries : List (String × β)}
    (h : t.FirstWins view entries) {name : String} (hn : name ∉ t.names) (a : α) :
    (t.insert name a).FirstWins view (entries ++ [(name, view a)]) := by
  have hnew : name ∉ entries.map Prod.fst := fun hm => hn ((h.mem_names_iff name).2 hm)
  refine ⟨?_, fun m => ?_⟩
  · rw [names_insert, if_neg hn, h.names, List.map_append, List.map_singleton, eraseDups_concat,
      if_neg hnew]
  · rw [get?_insert, lookup_concat, ← h.get?]
    by_cases hm : m = name
    · have hnone : t.get? m = none := (t.get?_eq_none_iff m).2 (hm ▸ hn)
      rw [if_pos hm, if_pos hm, hnone]
      rfl
    · rw [if_neg hm, if_neg hm, Option.or_none]

/-- The entry of a name that is bound already changes nothing. -/
theorem FirstWins.keep {t : NameTable α} {view : α → β} {entries : List (String × β)}
    (h : t.FirstWins view entries) {name : String} (hn : name ∈ t.names) (b : β) :
    t.FirstWins view (entries ++ [(name, b)]) := by
  refine ⟨?_, fun m => ?_⟩
  · rw [List.map_append, List.map_singleton, eraseDups_concat, if_pos ((h.mem_names_iff name).1 hn),
      h.names]
  · rw [lookup_concat, ← h.get?]
    by_cases hm : m = name
    · obtain ⟨a, ha⟩ := exists_get?_of_mem_names (hm ▸ hn : m ∈ t.names)
      rw [ha]
      rfl
    · rw [if_neg hm, Option.or_none]

/-- One table at most has these entries. -/
theorem FirstWins.unique {t u : NameTable α} {entries : List (String × α)}
    (ht : t.FirstWins id entries) (hu : u.FirstWins id entries) : t = u := by
  refine ext_get? (ht.names.trans hu.names.symm) fun name => ?_
  have hget := (ht.get? name).trans (hu.get? name).symm
  rwa [Option.map_id, id, id] at hget

end NameTable

namespace Session

open NameTable (FirstWins)

/-! ## The invariant -/

/-- The declarations of the unit say what the global names and the tags are. -/
structure Determined (s : Session) : Prop where
  values : s.unit.table.FirstWins Binding.type (Decl.valueEntries s.unit.decls)
  tags : s.tags.FirstWins Tag.kind (Decl.tagEntries s.unit.decls)

theorem determined_start (options : Options) : Determined (start options) :=
  ⟨⟨rfl, fun _ => rfl⟩, ⟨rfl, fun _ => rfl⟩⟩

theorem firstWins_bindGlobal {s : Session} {entries : List (String × TypeUse)}
    (h : s.unit.table.FirstWins Binding.type entries) {name : String} (hname : name ≠ "")
    (b : Binding) :
    (s.bindGlobal name b).unit.table.FirstWins Binding.type (entries ++ [(name, b.type)]) := by
  by_cases hfree : s.IsFree name
  · rw [bindGlobal_of_free hfree]
    exact h.insert hfree.2 b
  · have hold : name ∈ s.unit.table.names :=
      Decidable.byContradiction fun hn => hfree ⟨hname, hn⟩
    rw [(bindGlobal_of_not_free hfree b).unit_eq]
    exact h.keep hold b.type

theorem firstWins_bindTag {s : Session} {entries : List (String × Decl.Kind)}
    (h : s.tags.FirstWins Tag.kind entries) {name : String} (hname : name ≠ "") (tag : Tag) :
    (s.bindTag name tag).tags.FirstWins Tag.kind (entries ++ [(name, tag.kind)]) := by
  unfold bindTag
  rw [if_neg hname]
  cases hg : s.tags.get? name with
  | none => exact h.insert ((s.tags.get?_eq_none_iff name).1 hg) tag
  | some old => exact h.keep (NameTable.mem_names_of_get? hg) tag.kind

/-- A declaration with a type joins the unit, and its name is bound if it is free. -/
theorem Determined.addValue {s t : Session} (h : s.Determined) {d : Decl} {v : Valued}
    (hd : d.value? = some v) (pos : Option Position)
    (htable : t.unit.table = (s.bindGlobal v.name ⟨v.type, pos⟩).unit.table)
    (hdecls : t.unit.decls = s.unit.decls ++ [d]) (htags : t.tags = s.tags) :
    t.Determined := by
  have htag : d.tagEntry? = none := by
    cases d <;> first | rfl | cases hd
  constructor
  · rw [htable, hdecls, Decl.valueEntries_append]
    by_cases hname : v.name = ""
    · have hentry : d.valueEntry? = none := by simp [Decl.valueEntry?, hd, hname]
      have hsame : s.bindGlobal v.name ⟨v.type, pos⟩ = s := if_pos hname
      rw [hentry, hsame, Option.toList_none, List.append_nil]
      exact h.values
    · have hentry : d.valueEntry? = some (v.name, v.type) := by
        simp [Decl.valueEntry?, hd, hname]
      rw [hentry, Option.toList_some]
      exact firstWins_bindGlobal h.values hname ⟨v.type, pos⟩
  · rw [htags, hdecls, Decl.tagEntries_append, htag, Option.toList_none, List.append_nil]
    exact h.tags

/-- A record or an enumeration joins the unit, and its tag is bound if it is free. -/
theorem Determined.addTag {s : Session} (h : s.Determined) (d : Decl) (name : String)
    (hvalue : d.valueEntry? = none)
    (htag : d.tagEntry? = if name = "" then none else some (name, d.kind))
    (pos : Option Position) : ((s.bindTag name ⟨d.kind, pos⟩).addDecl d).Determined := by
  have hunit : (s.bindTag name ⟨d.kind, pos⟩).unit = s.unit := by
    unfold bindTag
    split
    · rfl
    · split <;> rfl
  constructor
  · show (s.bindTag name ⟨d.kind, pos⟩).unit.table.FirstWins Binding.type
      (Decl.valueEntries ((s.bindTag name ⟨d.kind, pos⟩).unit.decls ++ [d]))
    rw [hunit, Decl.valueEntries_append, hvalue, Option.toList_none, List.append_nil]
    exact h.values
  · show (s.bindTag name ⟨d.kind, pos⟩).tags.FirstWins Tag.kind
      (Decl.tagEntries ((s.bindTag name ⟨d.kind, pos⟩).unit.decls ++ [d]))
    rw [hunit, Decl.tagEntries_append, htag]
    by_cases hname : name = ""
    · have hsame : s.bindTag name ⟨d.kind, pos⟩ = s := if_pos hname
      rw [if_pos hname, hsame, Option.toList_none, List.append_nil]
      exact h.tags
    · rw [if_neg hname, Option.toList_some]
      exact firstWins_bindTag h.tags hname ⟨d.kind, pos⟩

/-- A declaration that is neither joins the unit and binds nothing. -/
theorem Determined.addOther {s : Session} (h : s.Determined) {d : Decl}
    (hvalue : d.valueEntry? = none) (htag : d.tagEntry? = none) : (s.addDecl d).Determined := by
  constructor
  · show s.unit.table.FirstWins Binding.type (Decl.valueEntries (s.unit.decls ++ [d]))
    rw [Decl.valueEntries_append, hvalue, Option.toList_none, List.append_nil]
    exact h.values
  · show s.tags.FirstWins Tag.kind (Decl.tagEntries (s.unit.decls ++ [d]))
    rw [Decl.tagEntries_append, htag, Option.toList_none, List.append_nil]
    exact h.tags

/-! ## One call -/

theorem Determined.declareValue {s : Session} (h : s.Determined) {d : Decl} {v : Valued}
    (hd : d.value? = some v) (pos : Option Position) :
    ((s.bindGlobal v.name ⟨v.type, pos⟩).addDecl d).Determined := by
  refine h.addValue hd pos rfl ?_ ?_
  · show (s.bindGlobal v.name ⟨v.type, pos⟩).unit.decls ++ [d] = s.unit.decls ++ [d]
    rw [decls_bindGlobal]
  · exact tags_bindGlobal s v.name _

theorem Determined.declare {s : Session} (h : s.Determined) (d : Decl) (pos : Option Position) :
    (s.declare d pos).Determined := by
  cases d with
  | unit g => exact h.addOther rfl rfl
  | named n => exact h.addOther rfl rfl
  | typeName n => exact h.addOther rfl rfl
  | record r => exact h.addTag (.record r) r.name rfl rfl _
  | enumeration e => exact h.addTag (.enumeration e) e.name rfl rfl _
  | value v => exact h.declareValue rfl _
  | declarator v => exact h.declareValue rfl _
  | func f => exact h.declareValue rfl _
  | var v => exact h.declareValue rfl _
  | param v => exact h.declareValue rfl _

theorem Determined.close {s : Session} (h : s.Determined) (func : Func Decl)
    (pos : Option Position) (body : List OpenFunction.Call) :
    (s.runBody func pos body).2.close.2.Determined := by
  have hk := runBody_keeps s func pos body
  generalize (s.runBody func pos body).2 = f at hk ⊢
  obtain ⟨hsession, ⟨scope, hfunc⟩, -⟩ := hk
  have hvalue : (Decl.func (f.setBlocks f.blocks.closeAll).func).value? = some func.toValued := by
    show some f.func.toValued = some func.toValued
    rw [hfunc]
  refine h.addValue hvalue (pos <|> func.pos) ?_ ?_ ?_
  · show f.session.unit.table = _
    rw [hsession.unit_eq]
  · show f.session.unit.decls ++ _ = s.unit.decls ++ _
    rw [hsession.unit_eq, decls_bindGlobal]
  · exact hsession.tags_eq.trans (tags_bindGlobal s _ _)

theorem Determined.extends {s t : Session} (h : s.Determined) (ht : s.Extends t) :
    t.Determined := by
  obtain ⟨reports, rfl⟩ := ht
  exact ⟨h.values, h.tags⟩

theorem Determined.step {s : Session} (h : s.Determined) (c : Call) : (s.step c).2.Determined := by
  cases c with
  | declare d pos => exact h.declare d pos
  | function func pos body ending =>
    cases ending with
    | close => exact h.close func pos body
    | abandon => exact h.extends (OpenFunction.extends_abandon s func pos body)
  | tagKind name => exact h
  | globalType name => exact h

/-! ## Every history -/

theorem determined_run (options : Options) (calls : List Call) :
    ((start options).run calls).2.Determined :=
  History.run_keeps Determined (fun _ c h => h.step c) (determined_start options) calls

/-- The global names while a function is open: those before, and its own at the end if it was
free. -/
theorem entries_runBody (s : Session) (func : Func Decl) (pos : Option Position)
    (body : List OpenFunction.Call) :
    (s.runBody func pos body).2.session.unit.table.entries =
      s.unit.table.entries ++
        if s.IsFree func.name then [(func.name, ⟨func.type, pos <|> func.pos⟩)] else [] := by
  by_cases h : s.IsFree func.name
  · rw [if_pos h, (runBody_of_free h pos body).2.unit_eq]
    exact NameTable.entries_insert_of_get?_eq_none (lookup?_eq_none_of_free h) _
  · rw [if_neg h, List.append_nil, (runBody_of_not_free h pos body).2.unit_eq]

/-- **The declarations determine both name spaces.** After every history of calls on a new session:
the global names are the names of the declarations with a type, in the order in which they first
occur; a global name has the type of the first of them; a tag has the kind of the first record or
enumeration with that name. And whatever function is then opened, and whatever is called on it, the
global table is the same but for the name of the function, which stands at the end if it was
free. -/
theorem namespaces_determined (options : Options) (calls : List Call) :
    let s := ((start options).run calls).2
    s.unit.table.names = ((Decl.valueEntries s.unit.decls).map Prod.fst).eraseDups ∧
      (∀ name, s.globalType? name = (Decl.valueEntries s.unit.decls).lookup name) ∧
      (∀ name, s.tagKind? name = (Decl.tagEntries s.unit.decls).lookup name) ∧
      ∀ (func : Func Decl) (pos : Option Position) (body : List OpenFunction.Call),
        let f := (s.runBody func pos body).2
        f.session.unit.table.entries =
            s.unit.table.entries ++
              (if func.name ≠ "" ∧ func.name ∉ s.unit.table.names then
                [(func.name, ⟨func.type, pos <|> func.pos⟩)] else []) ∧
          f.session.unit.decls = s.unit.decls ∧ f.session.tags = s.tags := by
  intro s
  have h : s.Determined := determined_run options calls
  refine ⟨h.values.names, h.values.get?, h.tags.get?, fun func pos body => ?_⟩
  have hk := (runBody_keeps s func pos body).session
  refine ⟨entries_runBody s func pos body, ?_, ?_⟩
  · rw [hk.unit_eq]
    exact decls_bindGlobal s _ _
  · rw [hk.tags_eq]
    exact tags_bindGlobal s _ _

end Session

end NameScope
