import NameScope.Proofs.Blocks.Visibility
import NameScope.Proofs.Session.History

/-
  Relaxing the rule for redeclarations only removes reports on locals.  Two sessions with the same
  options but for the rule are driven by the same calls, one under the strict rule, by which a name
  is refused wherever it is visible, and one under the lenient rule, by which it is refused in its
  own block only.  `relaxing_removes_refusals`: both end with the same global names, tags and
  declarations, and give the same answers up to types and tables; and the reports of the lenient
  session are those of the strict one without some refusals of parameters and locals.

  While a function is open the tables of the two differ as soon as the lenient one has accepted
  what the strict one has refused.  `OpenFunction.InStep` ties them by `SameNames`: so a look-up
  finds something in both or in neither, a lenient refusal is a strict one too, and every operation
  either reports the same in both, or refuses a local in the strict session alone.
-/

namespace NameScope

/-! ## Reports that may be missing -/

/-- The report without the place of the first declaration and without suggestions. -/
def Diagnostic.bare : Diagnostic → Diagnostic
  | .scope (.redeclared name _ second) => .scope (.redeclared name none second)
  | .undefined name pos _ => .undefined name pos []
  | d => d

/-- A bare report that one of the locals is declared again. -/
def Diagnostic.Refuses (locals : List Named) (d : Diagnostic) : Prop :=
  ∃ n ∈ locals, d = .scope (.redeclared n.name none n.pos)

/-- A list without some of its entries, all of which satisfy `extra`: the shorter list stands
first. -/
inductive Thinned {α : Type} (extra : α → Prop) : List α → List α → Prop where
  | nil : Thinned extra [] []
  | keep (a : α) {short long : List α} (rest : Thinned extra short long) :
      Thinned extra (a :: short) (a :: long)
  | drop {a : α} {short long : List α} (h : extra a) (rest : Thinned extra short long) :
      Thinned extra short (a :: long)

namespace Thinned

variable {α : Type} {extra : α → Prop} {short long : List α}

theorem append {short' long' : List α} (h : Thinned extra short long)
    (h' : Thinned extra short' long') : Thinned extra (short ++ short') (long ++ long') := by
  induction h with
  | nil => exact h'
  | keep a _ ih => exact .keep a ih
  | drop ha _ ih => exact .drop ha ih

theorem concat (h : Thinned extra short long) (a : α) :
    Thinned extra (short ++ [a]) (long ++ [a]) := h.append (.keep a .nil)

theorem concat_extra (h : Thinned extra short long) {a : α} (ha : extra a) :
    Thinned extra short (long ++ [a]) := by
  have h' := h.append (.drop ha .nil)
  rwa [List.append_nil] at h'

end Thinned

/-! ## Declarations and answers up to the rule -/

/-- The function under another rule for the names of its body. -/
def Func.withRule {δ : Type} (f : Func δ) (rule : RedeclarationRule) : Func δ :=
  { f with scope := { f.scope with blocks := { f.scope.blocks with rule := rule } } }

/-- The declarations are equal, or they are one function under the two rules. -/
def Decl.SameButRule (strict lenient : Decl) : Prop :=
  strict = lenient ∨
    ∃ func : Func Decl,
      strict = .func (func.withRule .visible) ∧ lenient = .func (func.withRule .sameBlock)

/-- The answers agree on what fails, and on what is found at all. -/
inductive OpenFunction.Answer.Matches : Answer → Answer → Prop where
  | done : Matches .done .done
  | closed (table table' : NameTable Binding) : Matches (.closed table) (.closed table')
  | fault (fault : ScopeFault) : Matches (.fault fault) (.fault fault)
  | resolved {type type' : Option TypeUse} (h : type.isSome = type'.isSome) :
      Matches (.resolved type) (.resolved type')
  | depth (n : Nat) : Matches (.depth n) (.depth n)

/-- The answers are equal up to the answers in the bodies of functions. -/
inductive Session.Answer.Matches : Answer → Answer → Prop where
  | done : Matches .done .done
  | closed {body body' : List OpenFunction.Answer}
      (h : List.Forall₂ OpenFunction.Answer.Matches body body') (position : Nat) :
      Matches (.closed body position) (.closed body' position)
  | abandoned {body body' : List OpenFunction.Answer}
      (h : List.Forall₂ OpenFunction.Answer.Matches body body') :
      Matches (.abandoned body) (.abandoned body')
  | tag (kind : Option Decl.Kind) : Matches (.tag kind) (.tag kind)
  | type (found : Option TypeUse) : Matches (.type found) (.type found)

/-- The local that a call declares, at its place. -/
def OpenFunction.Call.local? : Call → Option Named
  | .declare v pos => some ⟨v.name, pos <|> v.pos⟩
  | _ => none

/-- The parameters and the locals that a call declares, each at its place. -/
def Session.Call.locals : Call → List Named
  | .function func _ body _ => func.params.map (·.toNamed) ++ body.filterMap (·.local?)
  | _ => []

/-! ## Sessions in step -/

namespace Session

/-- `s` is under the strict rule and `t` under the lenient one, and they agree on all but the
rule of their functions and reports on locals. -/
structure InStep (locals : List Named) (s t : Session) : Prop where
  table : t.unit.table = s.unit.table
  decls : List.Forall₂ Decl.SameButRule s.unit.decls t.unit.decls
  stmts : t.unit.stmts = s.unit.stmts
  tags : t.tags = s.tags
  strict : s.options.rule = .visible
  options : t.options = { s.options with rule := .sameBlock }
  diagnostics : Thinned (Diagnostic.Refuses locals) (t.diagnostics.map (·.bare))
    (s.diagnostics.map (·.bare))

namespace InStep

variable {locals : List Named} {s t : Session}

theorem start (locals : List Named) (options : Options) :
    InStep locals (start { options with rule := .visible })
      (start { options with rule := .sameBlock }) where
  table := rfl
  decls := .nil
  stmts := rfl
  tags := rfl
  strict := rfl
  options := rfl
  diagnostics := .nil

theorem report (h : InStep locals s t) {d e : Diagnostic} (hde : e.bare = d.bare) :
    InStep locals (s.report d) (t.report e) :=
  { h with
    diagnostics := by
      have hd := h.diagnostics.concat d.bare
      simpa only [Session.report, List.map_append, List.map_singleton, hde] using hd }

/-- The strict session may refuse a local alone. -/
theorem refuse (h : InStep locals s t) {d : Diagnostic} (hd : d.bare.Refuses locals) :
    InStep locals (s.report d) t :=
  { h with
    diagnostics := by
      have hd := h.diagnostics.concat_extra hd
      simpa only [Session.report, List.map_append, List.map_singleton] using hd }

theorem addDecl (h : InStep locals s t) {d e : Decl} (hde : d.SameButRule e) :
    InStep locals (s.addDecl d) (t.addDecl e) :=
  { h with decls := List.rel_append h.decls (.cons hde .nil) }

theorem lookup? (h : InStep locals s t) (name : String) :
    t.unit.lookup? name = s.unit.lookup? name := by
  rw [Globals.lookup?, Globals.lookup?, h.table]

theorem bindGlobal (h : InStep locals s t) (name : String) (b : Binding) :
    InStep locals (s.bindGlobal name b) (t.bindGlobal name b) := by
  unfold Session.bindGlobal Globals.declare
  rw [h.lookup? name]
  split
  · exact h
  · cases s.unit.lookup? name with
    | some old => exact h.report rfl
    | none => exact { h with table := by simp only [h.table] }

theorem bindTag (h : InStep locals s t) (name : String) (tag : Tag) :
    InStep locals (s.bindTag name tag) (t.bindTag name tag) := by
  unfold Session.bindTag
  rw [h.tags]
  split
  · exact h
  · cases s.tags.get? name with
    | some old => exact h.report rfl
    | none => exact { h with tags := rfl }

theorem declare (h : InStep locals s t) (d : Decl) (pos : Option Position) :
    InStep locals (s.declare d pos) (t.declare d pos) := by
  have hbind : InStep locals (s.bindDecl d (pos <|> d.pos?)) (t.bindDecl d (pos <|> d.pos?)) := by
    unfold bindDecl
    split
    · exact h.bindTag _ _
    · exact h.bindTag _ _
    · split
      · exact h.bindGlobal _ _
      · exact h
  exact hbind.addDecl (Or.inl rfl)

end InStep

end Session

/-! ## Open functions in step -/

namespace OpenFunction

open Blocks (SameNames)

/-- A function that is open in two sessions in step; its open blocks bind the same names. -/
structure InStep (locals : List Named) (f g : OpenFunction) : Prop where
  session : f.session.InStep locals g.session
  func : g.func = (f.setBlocks g.blocks).func
  bound : g.bound = f.bound
  strict : f.blocks.rule = .visible
  lenient : g.blocks.rule = .sameBlock
  names : SameNames f.blocks.tables g.blocks.tables

namespace InStep

variable {locals : List Named} {f g : OpenFunction}

theorem report (h : InStep locals f g) {d e : Diagnostic} (hde : e.bare = d.bare) :
    InStep locals (f.report d) (g.report e) :=
  { h with session := h.session.report hde }

theorem setBlocks (h : InStep locals f g) {b c : Blocks} (hb : b.rule = .visible)
    (hc : c.rule = .sameBlock) (hn : SameNames b.tables c.tables) :
    InStep locals (f.setBlocks b) (g.setBlocks c) where
  session := h.session
  func := by
    have hfunc := h.func
    unfold OpenFunction.setBlocks at hfunc ⊢
    dsimp only at hfunc ⊢
    rw [hfunc]
    rfl
  bound := h.bound
  strict := hb
  lenient := hc
  names := hn

theorem enter (h : InStep locals f g) : InStep locals f.enter g.enter :=
  h.setBlocks h.strict h.lenient (h.names.step .enter)

/-- Both blocks can be left, or neither. -/
theorem exit (h : InStep locals f g) :
    (∃ table table' f' g', f.exit = .ok (table, f') ∧ g.exit = .ok (table', g') ∧
        InStep locals f' g') ∨
      (f.exit = .error .underflow ∧ g.exit = .error .underflow) := by
  unfold OpenFunction.exit Blocks.exit
  cases hf : f.blocks.tables with
  | nil =>
    rw [h.names.eq_nil_iff.1 hf]
    exact .inr ⟨rfl, rfl⟩
  | cons table outer =>
    obtain ⟨table', outer', hg, hrest⟩ := SameNames.exists_cons (hf ▸ h.names)
    rw [hg]
    exact .inl ⟨table, table', _, _, rfl, rfl, h.setBlocks h.strict h.lenient hrest⟩

/-- Binding a local: what the lenient rule refuses is refused by the strict one too. -/
theorem bindLocal (h : InStep locals f g) {n : Named} (hn : n ∈ locals) (type : TypeUse) :
    InStep locals (f.bindLocal n.name ⟨type, n.pos⟩) (g.bindLocal n.name ⟨type, n.pos⟩) := by
  unfold OpenFunction.bindLocal
  by_cases hname : n.name = ""
  · rw [if_pos hname, if_pos hname]
    exact h
  · rw [if_neg hname, if_neg hname]
    rcases h.names.declare_cases h.strict h.lenient n.name ⟨type, n.pos⟩ with
      ⟨b, c, hf, hg, hb, hc, hnames⟩ | ⟨first, c, hf, hg, hc, hnames⟩ | ⟨first, first', hf, hg⟩ |
      ⟨hf, hg⟩
    · rw [hf, hg]
      exact h.setBlocks hb hc hnames
    · rw [hf, hg]
      have hrefuse : InStep locals (f.report (.scope (.redeclared n.name first n.pos))) g :=
        { h with session := h.session.refuse ⟨n, hn, rfl⟩ }
      exact hrefuse.setBlocks h.strict hc hnames
    · rw [hf, hg]
      exact h.report rfl
    · rw [hf, hg]
      exact h.report rfl

theorem bindParam (h : InStep locals f g) {p : Variable} (hp : p.toNamed ∈ locals) :
    InStep locals (f.bindParam p) (g.bindParam p) := by
  have hallow : g.session.options.allowParamInit = f.session.options.allowParamInit := by
    rw [h.session.options]
  unfold OpenFunction.bindParam
  dsimp only
  rw [hallow]
  split
  · exact (h.report rfl).bindLocal hp p.type
  · exact h.bindLocal hp p.type

theorem bindParams (h : InStep locals f g) {params : List Variable}
    (hparams : ∀ p ∈ params, p.toNamed ∈ locals) :
    InStep locals (params.foldl OpenFunction.bindParam f)
      (params.foldl OpenFunction.bindParam g) := by
  induction params generalizing f g with
  | nil => exact h
  | cons p params ih =>
    have hp : InStep locals (f.bindParam p) (g.bindParam p) :=
      h.bindParam (hparams p List.mem_cons_self)
    exact ih hp fun q hq => hparams q (List.mem_cons_of_mem p hq)

theorem declare (h : InStep locals f g) {v : Variable} {pos : Option Position}
    (hv : ⟨v.name, pos <|> v.pos⟩ ∈ locals) :
    InStep locals (f.declare v pos) (g.declare v pos) := by
  have hbind := h.bindLocal hv v.type
  unfold OpenFunction.declare
  dsimp only at hbind ⊢
  exact { hbind with func := by rw [hbind.func]; rfl }

/-- The same names are found, in the blocks or among the globals. -/
theorem isSome_lookup? (h : InStep locals f g) (name : String) :
    (f.lookup? name).isSome = (g.lookup? name).isSome := by
  have hblocks : (f.blocks.lookup? name).isSome = (g.blocks.lookup? name).isSome := by
    rw [Bool.eq_iff_iff, Blocks.isSome_lookup?_iff, Blocks.isSome_lookup?_iff, h.names.mem_iff]
  have hglobal : g.session.globalType? name = f.session.globalType? name := by
    rw [Session.globalType?, Session.globalType?, h.session.lookup?]
  unfold OpenFunction.lookup?
  simp [hblocks, hglobal]

theorem resolve (h : InStep locals f g) (name : String) (pos : Option Position) :
    (f.resolve name pos).1.isSome = (g.resolve name pos).1.isSome ∧
      InStep locals (f.resolve name pos).2 (g.resolve name pos).2 := by
  have hfound := h.isSome_lookup? name
  unfold OpenFunction.resolve
  cases hf : f.lookup? name with
  | some type =>
    cases hg : g.lookup? name with
    | some type' => exact ⟨rfl, h⟩
    | none => rw [hf, hg] at hfound; cases hfound
  | none =>
    cases hg : g.lookup? name with
    | some type' => rw [hf, hg] at hfound; cases hfound
    | none => exact ⟨rfl, h.report rfl⟩

/-- One call gives matching answers and keeps the functions in step. -/
theorem step (h : InStep locals f g) (c : Call) (hc : ∀ n ∈ c.local?, n ∈ locals) :
    Answer.Matches (f.step c).1 (g.step c).1 ∧ InStep locals (f.step c).2 (g.step c).2 := by
  cases c with
  | enter => exact ⟨.done, h.enter⟩
  | exit =>
    unfold OpenFunction.step
    rcases h.exit with ⟨table, table', f', g', hf, hg, hnext⟩ | ⟨hf, hg⟩
    · rw [hf, hg]
      exact ⟨.closed table table', hnext⟩
    · rw [hf, hg]
      exact ⟨.fault .underflow, h⟩
  | declare v pos => exact ⟨.done, h.declare (hc _ rfl)⟩
  | resolve name pos =>
    obtain ⟨hfound, hnext⟩ := h.resolve name pos
    exact ⟨.resolved hfound, hnext⟩
  | depth =>
    have hdepth : f.depth = g.depth := h.names.length_eq
    unfold OpenFunction.step
    rw [hdepth]
    exact ⟨.depth g.depth, h⟩

theorem close (h : InStep locals f g) :
    f.close.1 = g.close.1 ∧ f.close.2.InStep locals g.close.2 := by
  have hclosed : InStep locals (f.setBlocks f.blocks.closeAll) (g.setBlocks g.blocks.closeAll) :=
    h.setBlocks h.strict h.lenient .nil
  have hfunc : Decl.SameButRule (.func (f.setBlocks f.blocks.closeAll).func)
      (.func (g.setBlocks g.blocks.closeAll).func) := by
    refine Or.inr ⟨(f.setBlocks f.blocks.closeAll).func, ?_, ?_⟩
    · rw [Func.withRule, ← h.strict]
      rfl
    · rw [Func.withRule, ← h.lenient, hclosed.func]
      rfl
  exact ⟨h.session.decls.length_eq, h.session.addDecl hfunc⟩

theorem abandon (h : InStep locals f g) : f.abandon.InStep locals g.abandon := by
  unfold OpenFunction.abandon
  rw [h.bound]
  cases f.bound with
  | none => exact h.session
  | some name =>
    have htable : (g.session.unit.unbind name).table = (f.session.unit.unbind name).table := by
      rw [Globals.unbind, Globals.unbind, h.session.table]
    exact { h.session with table := htable }

end InStep

end OpenFunction

/-! ## Histories in step -/

namespace Session

namespace InStep

variable {locals : List Named} {s t : Session}

theorem openFunction (h : InStep locals s t) {func : Func Decl} (pos : Option Position)
    (hparams : ∀ p ∈ func.params, p.toNamed ∈ locals) :
    (s.openFunction func pos).InStep locals (t.openFunction func pos) := by
  have hbind := h.bindGlobal func.name ⟨func.type, pos <|> func.pos⟩
  unfold Session.openFunction
  dsimp only
  rw [h.lookup?, hbind.options, hbind.strict]
  refine OpenFunction.InStep.bindParams ?_ hparams
  exact
    { session := hbind
      func := rfl
      bound := rfl
      strict := rfl
      lenient := rfl
      names := Blocks.SameNames.refl _ }

theorem runBody (h : InStep locals s t) {func : Func Decl} (pos : Option Position)
    {body : List OpenFunction.Call}
    (hlocals : ∀ n ∈ func.params.map (·.toNamed) ++ body.filterMap (·.local?), n ∈ locals) :
    List.Forall₂ OpenFunction.Answer.Matches (s.runBody func pos body).1
        (t.runBody func pos body).1 ∧
      (s.runBody func pos body).2.InStep locals (t.runBody func pos body).2 := by
  have hopen : (s.openFunction func pos).InStep locals (t.openFunction func pos) := by
    refine h.openFunction pos ?_
    intro p hp
    exact hlocals _ (List.mem_append_left _ (List.mem_map_of_mem hp))
  refine History.run_rel (OpenFunction.InStep locals) OpenFunction.Answer.Matches ?_ hopen
  intro c hc f g hfg
  refine hfg.step c ?_
  intro n hn
  exact hlocals n (List.mem_append_right _ (List.mem_filterMap.2 ⟨c, hc, hn⟩))

/-- One call gives matching answers and keeps the sessions in step. -/
theorem step (h : InStep locals s t) (c : Call) (hc : ∀ n ∈ c.locals, n ∈ locals) :
    Answer.Matches (s.step c).1 (t.step c).1 ∧ InStep locals (s.step c).2 (t.step c).2 := by
  cases c with
  | declare d pos => exact ⟨.done, h.declare d pos⟩
  | function func pos body ending =>
    obtain ⟨hanswers, hbody⟩ := h.runBody pos hc
    cases ending with
    | close =>
      obtain ⟨hposition, hclose⟩ := hbody.close
      unfold Session.step
      dsimp only
      rw [hposition]
      exact ⟨.closed hanswers _, hclose⟩
    | abandon => exact ⟨.abandoned hanswers, hbody.abandon⟩
  | tagKind name =>
    have hkind : t.tagKind? name = s.tagKind? name := by rw [tagKind?, tagKind?, h.tags]
    refine ⟨?_, h⟩
    show Answer.Matches (.tag (s.tagKind? name)) (.tag (t.tagKind? name))
    rw [hkind]
    exact .tag _
  | globalType name =>
    have htype : t.globalType? name = s.globalType? name := by
      rw [globalType?, globalType?, h.lookup?]
    refine ⟨?_, h⟩
    show Answer.Matches (.type (s.globalType? name)) (.type (t.globalType? name))
    rw [htype]
    exact .type _

end InStep

/-- **Relaxing the rule only removes reports on locals.** After the same calls on two new sessions
whose options differ in the rule only, the global names with their order, places and types, the
statements and the tags are the same, and so are the declarations, but for the rule of the
functions that have been closed; the same look-ups have found something, and the same exits from
blocks have failed; and the reports under the lenient rule are those under the strict one, in
order, without some refusals of parameters and locals of the history.  Here reports are compared
without the place of the first declaration and without suggestions. -/
theorem relaxing_removes_refusals (options : Options) (calls : List Call) :
    let strict := (start { options with rule := .visible }).run calls
    let lenient := (start { options with rule := .sameBlock }).run calls
    lenient.2.unit.table = strict.2.unit.table ∧ lenient.2.tags = strict.2.tags ∧
      lenient.2.unit.stmts = strict.2.unit.stmts ∧
      List.Forall₂ Decl.SameButRule strict.2.unit.decls lenient.2.unit.decls ∧
      List.Forall₂ Answer.Matches strict.1 lenient.1 ∧
      Thinned (Diagnostic.Refuses (calls.flatMap (·.locals)))
        (lenient.2.diagnostics.map (·.bare)) (strict.2.diagnostics.map (·.bare)) := by
  intro strict lenient
  have hstep : ∀ c ∈ calls, ∀ s t, InStep (calls.flatMap (·.locals)) s t →
      Answer.Matches (s.step c).1 (t.step c).1 ∧
        InStep (calls.flatMap (·.locals)) (s.step c).2 (t.step c).2 := by
    intro c hc s t h
    refine h.step c ?_
    intro n hn
    exact List.mem_flatMap.2 ⟨c, hc, hn⟩
  obtain ⟨hanswers, h⟩ := History.run_rel _ _ hstep (InStep.start _ options)
  exact ⟨h.table, h.tags, h.stmts, h.decls, hanswers, h.diagnostics⟩

end Session

end NameScope
