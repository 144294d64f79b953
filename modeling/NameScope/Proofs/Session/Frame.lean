import NameScope.NameTable.Lemmas
import NameScope.Proofs.Session.History

/-
  What an open function does to its session.  Whatever is called on an open function, its session
  only gets more reports (`keeps_run`).  So all that a function does to the session before it ends,
  besides reporting, is to bind its name, and it does so iff the name is free (`runBody_of_free`,
  `runBody_of_not_free`).  And whatever is called on a session, its reports stay (`later_run`).
-/

namespace NameScope

namespace Session

/-! ## More reports -/

/-- `t` is `s` with more reports at the end. -/
def Extends (s t : Session) : Prop :=
  ∃ reports, t = { s with diagnostics := s.diagnostics ++ reports }

theorem Extends.refl (s : Session) : s.Extends s := ⟨[], by rw [List.append_nil]⟩

theorem Extends.trans {s t u : Session} (h : s.Extends t) (h' : t.Extends u) : s.Extends u := by
  obtain ⟨reports, rfl⟩ := h
  obtain ⟨reports', rfl⟩ := h'
  exact ⟨reports ++ reports', by rw [List.append_assoc]⟩

theorem Extends.report (s : Session) (d : Diagnostic) : s.Extends (s.report d) := ⟨[d], rfl⟩

theorem Extends.unit_eq {s t : Session} (h : s.Extends t) : t.unit = s.unit := by
  obtain ⟨reports, rfl⟩ := h
  rfl

theorem Extends.tags_eq {s t : Session} (h : s.Extends t) : t.tags = s.tags := by
  obtain ⟨reports, rfl⟩ := h
  rfl

theorem Extends.options_eq {s t : Session} (h : s.Extends t) : t.options = s.options := by
  obtain ⟨reports, rfl⟩ := h
  rfl

/-! ## Binding a global name -/

/-- A name that can be bound: it is not empty, and no global has it. -/
def IsFree (s : Session) (name : String) : Prop := name ≠ "" ∧ name ∉ s.unit.table.names

instance (s : Session) (name : String) : Decidable (s.IsFree name) :=
  inferInstanceAs (Decidable (_ ∧ _))

/-- The session with one more global. -/
def withGlobal (s : Session) (name : String) (b : Binding) : Session :=
  { s with unit := { s.unit with table := s.unit.table.insert name b } }

theorem lookup?_eq_none_of_free {s : Session} {name : String} (h : s.IsFree name) :
    s.unit.lookup? name = none := (s.unit.table.get?_eq_none_iff name).2 h.2

theorem bindGlobal_of_free {s : Session} {name : String} (h : s.IsFree name) (b : Binding) :
    s.bindGlobal name b = s.withGlobal name b := by
  have hnone := lookup?_eq_none_of_free h
  unfold bindGlobal
  rw [if_neg h.1]
  simp only [Globals.declare, hnone]
  rfl

theorem bindGlobal_of_not_free {s : Session} {name : String} (h : ¬ s.IsFree name) (b : Binding) :
    s.Extends (s.bindGlobal name b) := by
  unfold bindGlobal
  by_cases hname : name = ""
  · rw [if_pos hname]
    exact Extends.refl s
  · rw [if_neg hname]
    have hmem : name ∈ s.unit.table.names :=
      Decidable.byContradiction fun hn => h ⟨hname, hn⟩
    obtain ⟨old, hold⟩ : ∃ old, s.unit.lookup? name = some old :=
      NameTable.exists_get?_of_mem_names hmem
    simp only [Globals.declare, hold]
    exact Extends.report s _

theorem decls_bindGlobal (s : Session) (name : String) (b : Binding) :
    (s.bindGlobal name b).unit.decls = s.unit.decls := by
  by_cases hfree : s.IsFree name
  · rw [bindGlobal_of_free hfree]
    rfl
  · rw [(bindGlobal_of_not_free hfree b).unit_eq]

theorem tags_bindGlobal (s : Session) (name : String) (b : Binding) :
    (s.bindGlobal name b).tags = s.tags := by
  by_cases hfree : s.IsFree name
  · rw [bindGlobal_of_free hfree]
    rfl
  · rw [(bindGlobal_of_not_free hfree b).tags_eq]

end Session

namespace OpenFunction

/-! ## Calls on an open function -/

/-- `g` is a later state of `f`: its session has got reports only, and only the scope of the
function has changed. -/
structure Keeps (f g : OpenFunction) : Prop where
  session : f.session.Extends g.session
  func : ∃ scope, g.func = { f.func with scope := scope }
  bound : g.bound = f.bound

theorem Keeps.refl (f : OpenFunction) : f.Keeps f := ⟨Session.Extends.refl _, ⟨_, rfl⟩, rfl⟩

theorem Keeps.trans {f g h : OpenFunction} (hfg : f.Keeps g) (hgh : g.Keeps h) : f.Keeps h := by
  obtain ⟨scope, hg⟩ := hfg.func
  obtain ⟨scope', hh⟩ := hgh.func
  exact ⟨hfg.session.trans hgh.session, ⟨scope', by rw [hh, hg]⟩, hgh.bound.trans hfg.bound⟩

theorem keeps_setBlocks (f : OpenFunction) (b : Blocks) : f.Keeps (f.setBlocks b) :=
  ⟨Session.Extends.refl _, ⟨_, rfl⟩, rfl⟩

theorem keeps_report (f : OpenFunction) (d : Diagnostic) : f.Keeps (f.report d) :=
  ⟨Session.Extends.report _ d, ⟨_, rfl⟩, rfl⟩

theorem keeps_bindLocal (f : OpenFunction) (name : String) (b : Binding) :
    f.Keeps (f.bindLocal name b) := by
  unfold bindLocal
  split
  · exact Keeps.refl f
  · split
    · exact keeps_setBlocks f _
    · exact keeps_report f _

theorem keeps_bindParam (f : OpenFunction) (p : Variable) : f.Keeps (f.bindParam p) := by
  unfold bindParam
  dsimp only
  split
  · exact (keeps_report f _).trans (keeps_bindLocal _ _ _)
  · exact keeps_bindLocal f _ _

theorem keeps_bindParams (f : OpenFunction) (params : List Variable) :
    f.Keeps (params.foldl bindParam f) := by
  induction params generalizing f with
  | nil => exact Keeps.refl f
  | cons p params ih => exact (keeps_bindParam f p).trans (ih _)

theorem keeps_declare (f : OpenFunction) (v : Variable) (pos : Option Position) :
    f.Keeps (f.declare v pos) := by
  have h := keeps_bindLocal f v.name ⟨v.type, pos <|> v.pos⟩
  exact h.trans ⟨Session.Extends.refl _, ⟨_, rfl⟩, rfl⟩

theorem keeps_resolve (f : OpenFunction) (name : String) (pos : Option Position) :
    f.Keeps (f.resolve name pos).2 := by
  unfold resolve
  split
  · exact Keeps.refl f
  · exact keeps_report f _

theorem keeps_exit {f g : OpenFunction} {table : NameTable Binding}
    (h : f.exit = .ok (table, g)) : f.Keeps g := by
  unfold exit at h
  cases he : f.blocks.exit with
  | error fault => rw [he] at h; cases h
  | ok r =>
    rw [he] at h
    cases h
    exact keeps_setBlocks f r.2

theorem keeps_step (f : OpenFunction) (c : Call) : f.Keeps (f.step c).2 := by
  cases c with
  | enter => exact keeps_setBlocks f _
  | exit =>
    unfold step
    cases he : f.exit with
    | error fault => exact Keeps.refl f
    | ok r => exact keeps_exit he
  | declare v pos => exact keeps_declare f v pos
  | resolve name pos => exact keeps_resolve f name pos
  | depth => exact Keeps.refl f

theorem keeps_run (f : OpenFunction) (calls : List Call) : f.Keeps (f.run calls).2 :=
  History.run_keeps (f.Keeps ·) (fun g c h => h.trans (keeps_step g c)) (Keeps.refl f) calls

end OpenFunction

namespace Session

/-! ## Opening a function -/

/-- The test that opening a function makes. -/
theorem isFree_iff (s : Session) (name : String) :
    (name ≠ "" && (s.unit.lookup? name).isNone) = decide (s.IsFree name) := by
  by_cases h : s.IsFree name
  · simp [h, h.1, lookup?_eq_none_of_free h]
  · rw [decide_eq_false h]
    by_cases hname : name = ""
    · simp [hname]
    · have hsome : s.unit.lookup? name ≠ none := fun hn =>
        h ⟨hname, (s.unit.table.get?_eq_none_iff name).1 hn⟩
      obtain ⟨old, hold⟩ := Option.ne_none_iff_exists'.1 hsome
      simp [hold]

/-- Opening a function binds its name if it is free; the parameters add reports only. -/
theorem openFunction_keeps (s : Session) (func : Func Decl) (pos : Option Position) :
    OpenFunction.Keeps
      ⟨s.bindGlobal func.name ⟨func.type, pos <|> func.pos⟩, func,
        if s.IsFree func.name then some func.name else none⟩
      (s.openFunction func pos) := by
  unfold openFunction
  dsimp only
  rw [isFree_iff]
  simp only [decide_eq_true_eq]
  exact (OpenFunction.keeps_setBlocks _ _).trans (OpenFunction.keeps_bindParams _ _)

/-- The function when the calls of its body have been made. -/
theorem runBody_keeps (s : Session) (func : Func Decl) (pos : Option Position)
    (body : List OpenFunction.Call) :
    OpenFunction.Keeps
      ⟨s.bindGlobal func.name ⟨func.type, pos <|> func.pos⟩, func,
        if s.IsFree func.name then some func.name else none⟩
      (s.runBody func pos body).2 :=
  (openFunction_keeps s func pos).trans (OpenFunction.keeps_run _ body)

theorem runBody_of_free {s : Session} {func : Func Decl} (h : s.IsFree func.name)
    (pos : Option Position) (body : List OpenFunction.Call) :
    (s.runBody func pos body).2.bound = some func.name ∧
      (s.withGlobal func.name ⟨func.type, pos <|> func.pos⟩).Extends
        (s.runBody func pos body).2.session := by
  have hk := runBody_keeps s func pos body
  rw [if_pos h, bindGlobal_of_free h] at hk
  exact ⟨hk.bound, hk.session⟩

theorem runBody_of_not_free {s : Session} {func : Func Decl} (h : ¬ s.IsFree func.name)
    (pos : Option Position) (body : List OpenFunction.Call) :
    (s.runBody func pos body).2.bound = none ∧
      s.Extends (s.runBody func pos body).2.session := by
  have hk := runBody_keeps s func pos body
  rw [if_neg h] at hk
  exact ⟨hk.bound, (bindGlobal_of_not_free h _).trans hk.session⟩

/-! ## Later sessions -/

/-- `t` may come after `s`: the options are those of `s`, and its reports come first. -/
structure Later (s t : Session) : Prop where
  options : t.options = s.options
  diagnostics : s.diagnostics <+: t.diagnostics

theorem Later.refl (s : Session) : s.Later s := ⟨rfl, List.prefix_refl _⟩

theorem Later.trans {s t u : Session} (h : s.Later t) (h' : t.Later u) : s.Later u :=
  ⟨h'.options.trans h.options, h.diagnostics.trans h'.diagnostics⟩

theorem Extends.later {s t : Session} (h : s.Extends t) : s.Later t := by
  obtain ⟨reports, rfl⟩ := h
  exact ⟨rfl, List.prefix_append _ _⟩

theorem later_bindGlobal (s : Session) (name : String) (b : Binding) :
    s.Later (s.bindGlobal name b) := by
  by_cases h : s.IsFree name
  · rw [bindGlobal_of_free h]
    exact ⟨rfl, List.prefix_refl _⟩
  · exact (bindGlobal_of_not_free h b).later

theorem later_bindTag (s : Session) (name : String) (tag : Tag) : s.Later (s.bindTag name tag) := by
  unfold bindTag
  split
  · exact Later.refl s
  · split
    · exact (Extends.report s _).later
    · exact ⟨rfl, List.prefix_refl _⟩

theorem later_declare (s : Session) (d : Decl) (pos : Option Position) :
    s.Later (s.declare d pos) := by
  have hbind : s.Later (s.bindDecl d (pos <|> d.pos?)) := by
    unfold bindDecl
    split
    · exact later_bindTag s _ _
    · exact later_bindTag s _ _
    · split
      · exact later_bindGlobal s _ _
      · exact Later.refl s
  exact hbind.trans ⟨rfl, List.prefix_refl _⟩

theorem later_openFunction (s : Session) (func : Func Decl) (pos : Option Position) :
    s.Later (s.openFunction func pos).session :=
  (later_bindGlobal s _ _).trans (openFunction_keeps s func pos).session.later

theorem later_close (f : OpenFunction) : f.session.Later f.close.2 := ⟨rfl, List.prefix_refl _⟩

theorem later_abandon (f : OpenFunction) : f.session.Later f.abandon := by
  unfold OpenFunction.abandon
  split
  · exact Later.refl _
  · exact ⟨rfl, List.prefix_refl _⟩

theorem later_runBody (s : Session) (func : Func Decl) (pos : Option Position)
    (body : List OpenFunction.Call) : s.Later (s.runBody func pos body).2.session :=
  (later_openFunction s func pos).trans (OpenFunction.keeps_run _ body).session.later

theorem later_step (s : Session) (c : Call) : s.Later (s.step c).2 := by
  cases c with
  | declare d pos => exact later_declare s d pos
  | function func pos body ending =>
    have hbody := later_runBody s func pos body
    cases ending with
    | close => exact hbody.trans (later_close _)
    | abandon => exact hbody.trans (later_abandon _)
  | tagKind name => exact Later.refl s
  | globalType name => exact Later.refl s

/-- No call takes back a report. -/
theorem later_run (s : Session) (calls : List Call) : s.Later (s.run calls).2 :=
  History.run_keeps s.Later (fun t c h => h.trans (later_step t c)) (Later.refl s) calls

end Session

end NameScope
