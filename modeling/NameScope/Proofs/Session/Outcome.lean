import NameScope.Proofs.Blocks.Visibility
import NameScope.Proofs.Session.Frame

/-
  What becomes of a declared name.  There are four ways in which a name comes to be bound: a
  declaration with a type and a function bind it among the globals, a record or an enumeration
  among the tags, a parameter and a local in the innermost block.  All four have the same two
  outcomes.  Either the name gets one new entry, at the end of the table where it belongs, and
  nothing is reported; or it is refused by one report that names it, and every table stays.
  Without a name there is nothing to bind, and neither happens.

  `NameTable.Outcome` and `Blocks.Outcome` say this of one table and of the open blocks;
  `Session.Declares`, `Session.Opens` and `OpenFunction.Declares` say what else there is to a
  call, which is that the declaration is kept whatever becomes of its name.
-/

namespace NameScope

/-! ## Outcomes -/

/-- What becomes of a declaration of `name` in a table, and what is reported: a name that the
table does not bind gets the last entry, and one that it binds is refused. -/
inductive NameTable.Outcome {α : Type} (posOf : α → Option Position) (t : NameTable α)
    (name : String) (a : α) : NameTable α → List Diagnostic → Prop where
  | anonymous (h : name = "") : Outcome posOf t name a t []
  | bound {t' : NameTable α} (named : name ≠ "") (free : t.get? name = none)
      (entries : t'.entries = t.entries ++ [(name, a)]) : Outcome posOf t name a t' []
  | refused {old : α} (named : name ≠ "") (taken : t.get? name = some old) :
      Outcome posOf t name a t [.scope (.redeclared name (posOf old) (posOf a))]

/-- What becomes of a declaration of `name` in the innermost block, and what is reported: the
blocks around stay, and where no block is open the name is refused. -/
inductive Blocks.Outcome (b : Blocks) (name : String) (new : Binding) :
    List (NameTable Binding) → List Diagnostic → Prop where
  | anonymous (h : name = "") : Outcome b name new b.tables []
  | bound {inner inner' : NameTable Binding} {outer : List (NameTable Binding)}
      (named : name ≠ "") (tables : b.tables = inner :: outer) (free : b.obstacle? name = none)
      (entries : inner'.entries = inner.entries ++ [(name, new)]) :
      Outcome b name new (inner' :: outer) []
  | refused {old : Binding} (named : name ≠ "") (taken : b.obstacle? name = some old) :
      Outcome b name new b.tables [.scope (.redeclared name old.pos new.pos)]
  | outside (named : name ≠ "") (closed : b.tables = []) :
      Outcome b name new b.tables [.scope (.outsideBlock name)]

theorem NameTable.outcome_insert {α : Type} (posOf : α → Option Position) {t : NameTable α}
    {name : String} (named : name ≠ "") (free : t.get? name = none) (a : α) :
    t.Outcome posOf name a (t.insert name a) [] :=
  .bound named free (entries_insert_of_get?_eq_none free a)

/-! ## Top-level declarations -/

/-- The name that a declaration gives to the tags; it may be empty. -/
def Decl.tagName? : Decl → Option String
  | .record r => some r.name
  | .enumeration e => some e.name
  | _ => none

namespace Session

def reportAll (s : Session) (ds : List Diagnostic) : Session :=
  { s with diagnostics := s.diagnostics ++ ds }

def setTable (s : Session) (table : NameTable Binding) : Session :=
  { s with unit := { s.unit with table := table } }

def setTags (s : Session) (tags : NameTable Tag) : Session := { s with tags := tags }

theorem reportAll_nil (s : Session) : s.reportAll [] = s := by
  rw [reportAll, List.append_nil]

theorem reportAll_reportAll (s : Session) (ds es : List Diagnostic) :
    (s.reportAll ds).reportAll es = s.reportAll (ds ++ es) := by
  simp only [reportAll, List.append_assoc]

/-- What declaring `d` does to a session: its name is bound or refused among the globals if it has
a type, among the tags if it is a record or an enumeration; and the declaration is kept. -/
inductive Declares (s : Session) (d : Decl) (pos : Option Position) : Session → Prop where
  | value {v : Valued} {table : NameTable Binding} {reports : List Diagnostic}
      (typed : d.value? = some v)
      (outcome : s.unit.table.Outcome (·.pos) v.name ⟨v.type, pos <|> v.pos⟩ table reports) :
      Declares s d pos (((s.setTable table).reportAll reports).addDecl d)
  | tag {name : String} {tags : NameTable Tag} {reports : List Diagnostic}
      (tagged : d.tagName? = some name)
      (outcome : s.tags.Outcome (·.pos) name ⟨d.kind, pos <|> d.pos?⟩ tags reports) :
      Declares s d pos (((s.setTags tags).reportAll reports).addDecl d)
  | other (untyped : d.value? = none) (untagged : d.tagName? = none) :
      Declares s d pos (s.addDecl d)

theorem bindGlobal_outcome (s : Session) (name : String) (b : Binding) :
    ∃ table reports, s.unit.table.Outcome (·.pos) name b table reports ∧
      s.bindGlobal name b = (s.setTable table).reportAll reports := by
  unfold bindGlobal
  by_cases hname : name = ""
  · refine ⟨s.unit.table, [], .anonymous hname, ?_⟩
    rw [if_pos hname]
    exact (reportAll_nil s).symm
  · rw [if_neg hname]
    cases hg : s.unit.table.get? name with
    | none =>
      refine ⟨_, [], NameTable.outcome_insert _ hname hg b, ?_⟩
      simp only [Globals.declare, Globals.lookup?, hg, reportAll_nil, setTable]
    | some old =>
      refine ⟨_, _, .refused hname hg, ?_⟩
      simp only [Globals.declare, Globals.lookup?, hg]
      rfl

theorem bindTag_outcome (s : Session) (name : String) (tag : Tag) :
    ∃ tags reports, s.tags.Outcome (·.pos) name tag tags reports ∧
      s.bindTag name tag = (s.setTags tags).reportAll reports := by
  unfold bindTag
  by_cases hname : name = ""
  · refine ⟨s.tags, [], .anonymous hname, ?_⟩
    rw [if_pos hname]
    exact (reportAll_nil s).symm
  · rw [if_neg hname]
    cases hg : s.tags.get? name with
    | none =>
      refine ⟨_, [], NameTable.outcome_insert _ hname hg tag, ?_⟩
      simp only [reportAll_nil, setTags]
    | some old =>
      exact ⟨_, _, .refused hname hg, rfl⟩

/-- A declaration with a type is declared among the globals. -/
theorem declares_value (s : Session) {d : Decl} {v : Valued} (typed : d.value? = some v)
    (pos : Option Position) :
    s.Declares d pos ((s.bindGlobal v.name ⟨v.type, pos <|> v.pos⟩).addDecl d) := by
  obtain ⟨table, reports, outcome, hbind⟩ :=
    s.bindGlobal_outcome v.name ⟨v.type, pos <|> v.pos⟩
  rw [hbind]
  exact .value typed outcome

/-- A record or an enumeration is declared among the tags. -/
theorem declares_tag (s : Session) {d : Decl} {name : String} (tagged : d.tagName? = some name)
    (pos : Option Position) :
    s.Declares d pos ((s.bindTag name ⟨d.kind, pos <|> d.pos?⟩).addDecl d) := by
  obtain ⟨tags, reports, outcome, hbind⟩ := s.bindTag_outcome name ⟨d.kind, pos <|> d.pos?⟩
  rw [hbind]
  exact .tag tagged outcome

theorem declares_declare (s : Session) (d : Decl) (pos : Option Position) :
    s.Declares d pos (s.declare d pos) := by
  cases d with
  | unit g => exact .other rfl rfl
  | named n => exact .other rfl rfl
  | typeName n => exact .other rfl rfl
  | record r => exact s.declares_tag (d := .record r) rfl pos
  | enumeration e => exact s.declares_tag (d := .enumeration e) rfl pos
  | value v => exact s.declares_value (d := .value v) rfl pos
  | declarator v => exact s.declares_value (d := .declarator v) rfl pos
  | func f => exact s.declares_value (d := .func f) rfl pos
  | var v => exact s.declares_value (d := .var v) rfl pos
  | param v => exact s.declares_value (d := .param v) rfl pos

end Session

/-! ## Parameters and locals -/

namespace OpenFunction

def reportAll (f : OpenFunction) (ds : List Diagnostic) : OpenFunction :=
  { f with session := f.session.reportAll ds }

def setTables (f : OpenFunction) (tables : List (NameTable Binding)) : OpenFunction :=
  f.setBlocks { f.blocks with tables := tables }

def addDecl (f : OpenFunction) (d : Decl) : OpenFunction :=
  { f with func := { f.func with scope := f.func.scope.addDecl d } }

theorem reportAll_nil (f : OpenFunction) : f.reportAll [] = f := by
  rw [reportAll, Session.reportAll_nil]

theorem reportAll_reportAll (f : OpenFunction) (ds es : List Diagnostic) :
    (f.reportAll ds).reportAll es = f.reportAll (ds ++ es) := by
  simp only [reportAll, Session.reportAll_reportAll]

/-- What declaring a local does to a function: its name is bound or refused in the innermost block,
and the variable is kept. -/
def Declares (f : OpenFunction) (v : Variable) (pos : Option Position) (g : OpenFunction) : Prop :=
  ∃ tables reports, f.blocks.Outcome v.name ⟨v.type, pos <|> v.pos⟩ tables reports ∧
    g = ((f.setTables tables).reportAll reports).addDecl (.var v)

/-- What is reported of the initializer of a parameter. -/
def initReports (f : OpenFunction) (p : Variable) : List Diagnostic :=
  if p.init.isSome ∧ ¬ f.session.options.allowParamInit then [.initializedParameter p.name p.pos]
  else []

/-- What binding parameters one after the other does to a function: each name is bound or refused
in the innermost block, whatever is reported of initializers. -/
inductive BindsParams : OpenFunction → List Variable → OpenFunction → Prop where
  | nil (f : OpenFunction) : BindsParams f [] f
  | cons {f g : OpenFunction} {p : Variable} {params : List Variable}
      {tables : List (NameTable Binding)} {reports : List Diagnostic}
      (outcome : f.blocks.Outcome p.name ⟨p.type, p.pos⟩ tables reports)
      (rest : BindsParams ((f.setTables tables).reportAll (f.initReports p ++ reports)) params g) :
      BindsParams f (p :: params) g

theorem bindLocal_outcome (f : OpenFunction) (name : String) (b : Binding) :
    ∃ tables reports, f.blocks.Outcome name b tables reports ∧
      f.bindLocal name b = (f.setTables tables).reportAll reports := by
  unfold bindLocal
  by_cases hname : name = ""
  · refine ⟨f.blocks.tables, [], .anonymous hname, ?_⟩
    rw [if_pos hname]
    exact (reportAll_nil f).symm
  · rw [if_neg hname]
    cases ho : f.blocks.obstacle? name with
    | some old =>
      refine ⟨_, _, .refused hname ho, ?_⟩
      rw [Blocks.declare_of_obstacle? ho]
      rfl
    | none =>
      cases ht : f.blocks.tables with
      | nil =>
        refine ⟨_, _, .outside hname ht, ?_⟩
        rw [Blocks.declare_of_no_block ht]
        rfl
      | cons inner outer =>
        have hfree := Blocks.get?_innermost_of_obstacle?_none ht ho
        refine ⟨inner.insert name b :: outer, [], .bound hname ht ho ?_, ?_⟩
        · exact NameTable.entries_insert_of_get?_eq_none hfree b
        · rw [Blocks.declare_of_free ht ho, reportAll_nil]
          rfl

theorem bindParam_eq (f : OpenFunction) (p : Variable) :
    f.bindParam p = (f.reportAll (f.initReports p)).bindLocal p.name ⟨p.type, p.pos⟩ := by
  unfold bindParam initReports
  split
  · rfl
  · rw [reportAll_nil]

theorem bindParam_outcome (f : OpenFunction) (p : Variable) :
    ∃ tables reports, f.blocks.Outcome p.name ⟨p.type, p.pos⟩ tables reports ∧
      f.bindParam p = (f.setTables tables).reportAll (f.initReports p ++ reports) := by
  obtain ⟨tables, reports, outcome, hbind⟩ :=
    (f.reportAll (f.initReports p)).bindLocal_outcome p.name ⟨p.type, p.pos⟩
  refine ⟨tables, reports, outcome, ?_⟩
  rw [bindParam_eq, hbind, ← reportAll_reportAll]
  rfl

theorem bindsParams_foldl (f : OpenFunction) (params : List Variable) :
    f.BindsParams params (params.foldl bindParam f) := by
  induction params generalizing f with
  | nil => exact .nil f
  | cons p params ih =>
    obtain ⟨tables, reports, outcome, hbind⟩ := f.bindParam_outcome p
    rw [List.foldl_cons, hbind]
    exact .cons outcome (ih _)

theorem declares_declare (f : OpenFunction) (v : Variable) (pos : Option Position) :
    f.Declares v pos (f.declare v pos) := by
  obtain ⟨tables, reports, outcome, hbind⟩ :=
    f.bindLocal_outcome v.name ⟨v.type, pos <|> v.pos⟩
  refine ⟨tables, reports, outcome, ?_⟩
  rw [← hbind]
  rfl

end OpenFunction

/-! ## Opening and closing a function -/

namespace Session

/-- What opening a function does: its name is bound or refused among the globals, a block is opened
under the rule of the session, and the parameters are bound in it. -/
def Opens (s : Session) (func : Func Decl) (pos : Option Position) (f : OpenFunction) : Prop :=
  ∃ table reports,
    s.unit.table.Outcome (·.pos) func.name ⟨func.type, pos <|> func.pos⟩ table reports ∧
      OpenFunction.BindsParams
        (OpenFunction.setBlocks
          { session := (s.setTable table).reportAll reports
            func := func
            bound := if s.IsFree func.name then some func.name else none }
          { tables := .empty :: func.scope.blocks.tables, rule := s.options.rule })
        func.params f

theorem opens_openFunction (s : Session) (func : Func Decl) (pos : Option Position) :
    s.Opens func pos (s.openFunction func pos) := by
  obtain ⟨table, reports, outcome, hbind⟩ :=
    s.bindGlobal_outcome func.name ⟨func.type, pos <|> func.pos⟩
  refine ⟨table, reports, outcome, ?_⟩
  unfold openFunction
  dsimp only
  rw [isFree_iff, hbind]
  simp only [decide_eq_true_eq]
  exact OpenFunction.bindsParams_foldl _ func.params

end Session

end NameScope
