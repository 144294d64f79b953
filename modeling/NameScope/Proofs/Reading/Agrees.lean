import NameScope.Proofs.Reading.Settled
import NameScope.Proofs.Session.Frame

/-
  Open functions seen through the law of scoping.  `Agrees` ties an open function to a path of its
  body: the open tables hold, block by block, the accepted locals of the blocks that enclose the
  path, and by `Settled` that is enough to know what a look-up and a redeclaration find.  Each
  operation on an open function keeps `Agrees` and adds the reports that the law makes; what is
  declared in a nested block lies in none of the blocks around it, so the block ends without a
  trace in them.
-/

namespace NameScope

variable {types : BuiltinTypes}

open Local

/-! ## Tables and accepted locals -/

namespace NameTable

/-- The names of a table with the places of their declarations. -/
def places (t : NameTable Binding) : List Named := t.entries.map fun e => ⟨e.1, e.2.pos⟩

theorem names_eq_places (t : NameTable Binding) : t.names = t.places.map (·.name) := by
  simp [names, places]

theorem find?_places (t : NameTable Binding) (name : String) :
    t.places.find? (·.name = name) = (t.get? name).map fun old => ⟨name, old.pos⟩ := by
  unfold places get?
  induction t.entries with
  | nil => rfl
  | cons e es ih =>
    obtain ⟨k, old⟩ := e
    rw [List.map_cons, List.find?_cons, List.lookup_cons, ih]
    by_cases h : k = name
    · subst h
      simp
    · have hb : (name == k) = false := by simpa using fun e => h e.symm
      simp [h, hb]

theorem places_insert {t : NameTable Binding} {name : String} (h : t.get? name = none)
    (new : Binding) : (t.insert name new).places = t.places ++ [⟨name, new.pos⟩] := by
  unfold places
  rw [entries_insert_of_get?_eq_none h, List.map_append]
  rfl

end NameTable

theorem Blocks.find?_places (blocks : Blocks) (name : String) :
    (blocks.tables.flatMap (·.places)).find? (·.name = name) =
      (blocks.lookup? name).map fun old => ⟨name, old.pos⟩ := by
  rw [lookup?_eq_findSome?]
  induction blocks.tables with
  | nil => rfl
  | cons table outer ih =>
    rw [List.flatMap_cons, List.find?_append, ih, NameTable.find?_places, List.findSome?_cons]
    cases table.get? name <;> rfl

theorem Tree.toNamed_of_declaredVariable {t : Tree} {v : Variable}
    (h : t.declaredVariable types = .ok v) : v.toNamed = t.declared :=
  (declaredValue_ok (declaredVariable_ok h).1).1

/-! ## Open functions and paths -/

namespace LexicalBody

variable {b : LexicalBody}

/-- The open blocks of `f` are those around `path`, and each holds its accepted locals. -/
structure Agrees (b : LexicalBody) (path : List Nat) (locals : List Local) (f : OpenFunction) :
    Prop where
  rule : f.blocks.rule = b.rule
  tables : f.blocks.tables.map (·.places) = (b.enclosing path).map (acceptedIn locals)
  globals : f.session.unit.table.names = b.globals
  limit : f.session.options.maxSuggestions = b.limit
  settled : Settled b.rule (b.enclosing path) locals

namespace Agrees

variable {path : List Nat} {locals : List Local} {f g : OpenFunction}

/-- Only the blocks and some parts of the session count. -/
theorem congr (h : b.Agrees path locals f) (hblocks : g.blocks = f.blocks)
    (hsession : f.session.Extends g.session) : b.Agrees path locals g where
  rule := by rw [hblocks, h.rule]
  tables := by rw [hblocks, h.tables]
  globals := by rw [hsession.unit_eq, h.globals]
  limit := by rw [hsession.options_eq, h.limit]
  settled := h.settled

theorem report (h : b.Agrees path locals f) (d : Diagnostic) :
    b.Agrees path locals (f.report d) := h.congr rfl (Session.Extends.report _ d)

/-- Inside a node that is no block the same blocks are open. -/
theorem move {q : List Nat} (h : b.Agrees path locals f) (hq : b.enclosing q = b.enclosing path) :
    b.Agrees q locals f where
  rule := h.rule
  tables := by rw [h.tables, hq]
  globals := h.globals
  limit := h.limit
  settled := hq ▸ h.settled

theorem flatMap_places (h : b.Agrees path locals f) :
    f.blocks.tables.flatMap (·.places) = (b.enclosing path).flatMap (acceptedIn locals) := by
  rw [List.flatMap_def, List.flatMap_def, h.tables]

/-- The innermost table is that of the holder. -/
theorem tables_eq_cons (h : b.Agrees path locals f) :
    ∃ table outer, f.blocks.tables = table :: outer ∧
      table.places = acceptedIn locals (b.holder path) := by
  obtain ⟨blocks, hb⟩ := b.enclosing_eq_cons path
  have ht := h.tables
  rw [hb] at ht
  cases hf : f.blocks.tables with
  | nil => rw [hf] at ht; cases ht
  | cons table outer =>
    rw [hf] at ht
    exact ⟨table, outer, rfl, (List.cons.inj ht).1⟩

/-- What stands in the way of a name in the open tables is what does so by the law. -/
theorem obstacle? (h : b.Agrees path locals f) (name : String) :
    (f.blocks.obstacle? name).map (fun old => (⟨name, old.pos⟩ : Named)) =
      (b.obstacle? locals path name).map (·.toNamed) := by
  have hsettled := h.settled (b.holder path) (b.holder_mem path)
  unfold Blocks.obstacle? LexicalBody.obstacle?
  rw [h.rule, ← hsettled.find?_acceptedIn name]
  cases hr : b.rule with
  | visible =>
    simp only [RedeclarationRule.reach]
    rw [← h.flatMap_places, Blocks.find?_places]
  | sameBlock =>
    obtain ⟨table, outer, ht, hp⟩ := h.tables_eq_cons
    simp only [RedeclarationRule.reach, List.flatMap_cons, List.flatMap_nil, List.append_nil,
      Blocks.innermost?, ht, List.head?_cons, Option.bind_some]
    rw [← hp, NameTable.find?_places]

theorem isSome_lookup? (h : b.Agrees path locals f) (name : String) :
    (f.blocks.lookup? name).isSome = (first? locals name (b.enclosing path)).isSome := by
  rw [← h.settled.isSome_find?_acceptedIn name, ← h.flatMap_places, Blocks.find?_places,
    Option.isSome_map]

theorem visibleNames (h : b.Agrees path locals f) :
    f.visibleNames = b.visibleNames locals path := by
  have hnames : f.blocks.visibleNames = (f.blocks.tables.flatMap (·.places)).map (·.name) := by
    rw [List.map_flatMap]
    exact congrArg f.blocks.tables.flatMap (funext NameTable.names_eq_places)
  unfold OpenFunction.visibleNames LexicalBody.visibleNames
  rw [hnames, h.flatMap_places, h.globals, List.map_flatMap]

/-! ## Declaring and resolving -/

/-- A local that is refused is in no table. -/
theorem refuse (h : b.Agrees path locals f) {e : Local} (he : e.accepted = false)
    (hsettled : Settled b.rule (b.enclosing path) (locals ++ [e])) :
    b.Agrees path (locals ++ [e]) f where
  rule := h.rule
  tables := by
    rw [h.tables]
    refine List.map_congr_left ?_
    intro block _
    rw [acceptedIn_concat, if_neg (by simp [he])]
  globals := h.globals
  limit := h.limit
  settled := hsettled

/-- A local that is accepted gets an entry in the innermost table, and in no other. -/
theorem accept (h : b.Agrees path locals f) {e : Local} (he : e.accepted = true)
    (hholder : e.block = b.holder path)
    (hsettled : Settled b.rule (b.enclosing path) (locals ++ [e]))
    {table : NameTable Binding} {outer : List (NameTable Binding)}
    (ht : f.blocks.tables = table :: outer) (hfree : table.get? e.name = none) (type : TypeUse) :
    b.Agrees path (locals ++ [e])
      (f.setBlocks { f.blocks with tables := table.insert e.name ⟨type, e.pos⟩ :: outer }) where
  rule := h.rule
  tables := by
    obtain ⟨blocks, hb⟩ := b.enclosing_eq_cons path
    have hnodup := b.nodup_enclosing path
    have htables := h.tables
    rw [hb] at hnodup
    rw [ht, hb, List.map_cons, List.map_cons] at htables
    obtain ⟨hhead, htail⟩ := List.cons.inj htables
    show (table.insert e.name ⟨type, e.pos⟩).places :: outer.map (·.places) = _
    rw [hb, List.map_cons, NameTable.places_insert hfree, hhead, htail, acceptedIn_concat,
      if_pos ⟨he, hholder⟩]
    congr 1
    refine List.map_congr_left ?_
    intro block hblock
    have hne : ¬ e.block = block := by
      rintro rfl
      exact (List.nodup_cons.1 hnodup).1 (hholder ▸ hblock)
    rw [acceptedIn_concat, if_neg fun hp => hne hp.2]
  globals := h.globals
  limit := h.limit
  settled := hsettled

/-- Binding a name notes it, or reports what stands in its way. -/
theorem bindLocal (h : b.Agrees path locals f) (d : Named) (type : TypeUse) :
    b.Agrees path (b.note locals path d) (f.bindLocal d.name ⟨type, d.pos⟩) ∧
      (f.bindLocal d.name ⟨type, d.pos⟩).session.diagnostics =
        f.session.diagnostics ++ b.redeclared locals path d := by
  have hsettled := h.settled.note d
  unfold OpenFunction.bindLocal
  unfold note redeclared at *
  by_cases hname : d.name = ""
  · simp only [if_pos hname, List.append_nil]
    exact ⟨h, trivial⟩
  · simp only [if_neg hname] at hsettled ⊢
    have ho := h.obstacle? d.name
    obtain ⟨table, outer, ht, -⟩ := h.tables_eq_cons
    cases hl : b.obstacle? locals path d.name with
    | some first =>
      obtain ⟨old, hf, hold⟩ : ∃ old, f.blocks.obstacle? d.name = some old ∧
          (⟨d.name, old.pos⟩ : Named) = first.toNamed := by
        rw [hl] at ho
        simpa using ho
      have hpos : old.pos = first.pos := congrArg Named.pos hold
      rw [hl] at hsettled
      simp only [Blocks.declare, hf, hpos]
      exact ⟨(h.refuse rfl hsettled).report _, rfl⟩
    | none =>
      have hf : f.blocks.obstacle? d.name = none := by
        rw [hl] at ho
        simpa using ho
      have hfree : table.get? d.name = none := Blocks.get?_innermost_of_obstacle?_none ht hf
      rw [hl] at hsettled
      simp only [Blocks.declare, hf, ht]
      exact ⟨h.accept rfl rfl hsettled ht hfree type, (List.append_nil _).symm⟩

theorem declare (h : b.Agrees path locals f) {t : Tree} {v : Variable}
    (hv : t.declaredVariable types = .ok v) :
    b.Agrees path (b.note locals path t.declared) (f.declare v) ∧
      (f.declare v).session.diagnostics =
        f.session.diagnostics ++ b.redeclared locals path t.declared := by
  obtain ⟨ha, hd⟩ := h.bindLocal t.declared v.type
  have hn : v.toNamed = t.declared := Tree.toNamed_of_declaredVariable hv
  have hbind : f.bindLocal v.name ⟨v.type, none <|> v.pos⟩ =
      f.bindLocal t.declared.name ⟨v.type, t.declared.pos⟩ := by
    rw [← hn]
    rfl
  unfold OpenFunction.declare
  rw [hbind]
  exact ⟨ha.congr rfl (Session.Extends.refl _), hd⟩

theorem resolve (h : b.Agrees path locals f) {name : String} (hname : name ≠ "")
    (pos : Option Position) :
    b.Agrees path locals (f.resolve name pos).2 ∧
      (f.resolve name pos).2.session.diagnostics =
        f.session.diagnostics ++ b.undefined locals path name pos := by
  have hglobal : (f.session.globalType? name).isSome = true ↔ name ∈ b.globals := by
    rw [← h.globals, ← NameTable.contains_iff]
    simp [Session.globalType?, Globals.lookup?, NameTable.contains]
  have hfound : (f.lookup? name).isSome = true ↔
      (first? locals name (b.enclosing path)).isSome = true ∨ name ∈ b.globals := by
    rw [← h.isSome_lookup? name, ← hglobal]
    simp [OpenFunction.lookup?]
  unfold OpenFunction.resolve undefined
  cases hl : f.lookup? name with
  | some type =>
    rw [hl] at hfound
    have hin := hfound.1 rfl
    rw [if_pos (Or.inr hin), List.append_nil]
    exact ⟨h, rfl⟩
  | none =>
    rw [hl] at hfound
    have hout : ¬ (name = "" ∨ (first? locals name (b.enclosing path)).isSome = true ∨
        name ∈ b.globals) := by
      rintro (he | hin)
      · exact hname he
      · cases hfound.2 hin
    rw [if_neg hout, ← h.visibleNames, ← h.limit]
    exact ⟨h.report _, rfl⟩

/-! ## Blocks -/

theorem enter (h : b.Agrees path locals f) {i : Nat} (hblock : b.isBlock (path ++ [i]) = true)
    (hfresh : Fresh locals (path ++ [i])) : b.Agrees (path ++ [i]) locals f.enter where
  rule := h.rule
  tables := by
    have hempty : acceptedIn locals (path ++ [i]) = [] := by
      refine List.map_eq_nil_iff.2 (List.filter_eq_nil_iff.2 ?_)
      intro e he hp
      have heq : e.block = path ++ [i] := by simpa using (Bool.and_eq_true_iff.1 hp).2
      exact hfresh e he (heq ▸ List.prefix_refl _)
    rw [b.enclosing_concat, if_pos hblock, List.map_cons, hempty, ← h.tables]
    rfl
  globals := h.globals
  limit := h.limit
  settled := by
    rw [b.enclosing_concat, if_pos hblock]
    refine h.settled.enter (List.ne_nil_of_mem (b.holder_mem path)) ?_
    intro e he heq
    exact hfresh e he (heq ▸ List.prefix_refl _)

/-- At the end of a block the blocks around it are open again, with what they held. -/
theorem exit {i : Nat} (h : b.Agrees (path ++ [i]) locals f)
    (hblock : b.isBlock (path ++ [i]) = true)
    (hsettled : Settled b.rule (b.enclosing path) locals) :
    ∃ table g, f.exit = .ok (table, g) ∧ b.Agrees path locals g ∧ g.session = f.session := by
  have ht := h.tables
  rw [b.enclosing_concat, if_pos hblock] at ht
  cases hf : f.blocks.tables with
  | nil => rw [hf] at ht; cases ht
  | cons table outer =>
    rw [hf] at ht
    refine ⟨table, f.setBlocks { f.blocks with tables := outer }, ?_, ?_, rfl⟩
    · unfold OpenFunction.exit Blocks.exit
      rw [hf]
      rfl
    · exact ⟨h.rule, (List.cons.inj ht).2, h.globals, h.limit, hsettled⟩

end Agrees

end LexicalBody

end NameScope
