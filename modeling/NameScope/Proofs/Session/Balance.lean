import NameScope.Proofs.Session.Outcome
import NameScope.Proofs.Session.Rollback

/-
  The balance of declared names.  `declaration_bound_or_refused`: in every state, every declaration
  of a name binds it or is refused, never both and never neither, and is kept; no report is ever
  taken back; and so the books balance over every history.  The names that its calls declare are as
  many as the bindings that are held at its end, the refusals that have been reported, and the
  bindings that were lost on the way, with the tables of blocks that were left or with the name of
  a function that was abandoned.

  The books of a session and of an open function are `accounted`: bindings held and refusals
  reported.  Each outcome adds as many to them as there are names to declare (`Outcome.balance`),
  and this carries over to one call (`balance_step`) and to a history (`balance_run`).
-/

namespace NameScope

/-! ## Counting -/

/-- The number of names in a list that are not empty. -/
def countNamed (names : List String) : Nat := names.countP (· ≠ "")

theorem countNamed_append (names names' : List String) :
    countNamed (names ++ names') = countNamed names + countNamed names' := List.countP_append

theorem countNamed_cons (name : String) (names : List String) :
    countNamed (name :: names) = countNamed [name] + countNamed names :=
  countNamed_append [name] names

theorem countNamed_of_empty {name : String} (h : name = "") : countNamed [name] = 0 := by
  simp [countNamed, h]

theorem countNamed_of_named {name : String} (h : name ≠ "") : countNamed [name] = 1 := by
  simp [countNamed, h]

/-- Whether a report says that a name could not be bound. -/
def Diagnostic.isRefusal : Diagnostic → Bool
  | .scope _ => true
  | .undefined .. | .initializedParameter .. => false

def countRefusals (reports : List Diagnostic) : Nat := reports.countP (·.isRefusal)

theorem countRefusals_append (ds es : List Diagnostic) :
    countRefusals (ds ++ es) = countRefusals ds + countRefusals es := List.countP_append

/-- The number of bindings in the tables. -/
def countBindings (tables : List (NameTable Binding)) : Nat :=
  (tables.flatMap (·.entries)).length

theorem countBindings_cons (table : NameTable Binding) (outer : List (NameTable Binding)) :
    countBindings (table :: outer) = table.size + countBindings outer := by
  rw [countBindings, List.flatMap_cons, List.length_append]
  rfl

/-- A block that is just opened has no bindings. -/
theorem countBindings_empty_cons (outer : List (NameTable Binding)) :
    countBindings (.empty :: outer) = countBindings outer := by
  rw [countBindings_cons]
  exact Nat.zero_add _

theorem NameTable.size_of_entries {α : Type} {t t' : NameTable α} {e : String × α}
    (h : t'.entries = t.entries ++ [e]) : t'.size = t.size + 1 := by
  rw [size, h, List.length_append]
  rfl

/-- A declared name is a new binding or a new refusal. -/
theorem NameTable.Outcome.balance {α : Type} {posOf : α → Option Position} {t t' : NameTable α}
    {name : String} {a : α} {reports : List Diagnostic} (h : t.Outcome posOf name a t' reports) :
    t.size + countNamed [name] = t'.size + countRefusals reports := by
  cases h with
  | anonymous hname => rw [countNamed_of_empty hname]; rfl
  | bound hname _ entries => rw [countNamed_of_named hname, size_of_entries entries]; rfl
  | refused hname _ => rw [countNamed_of_named hname]; rfl

theorem Blocks.Outcome.balance {b : Blocks} {name : String} {new : Binding}
    {tables : List (NameTable Binding)} {reports : List Diagnostic}
    (h : b.Outcome name new tables reports) :
    countBindings b.tables + countNamed [name] = countBindings tables + countRefusals reports := by
  cases h with
  | anonymous hname => rw [countNamed_of_empty hname]; rfl
  | bound hname ht _ entries =>
    rw [countNamed_of_named hname, ht, countBindings_cons, countBindings_cons,
      NameTable.size_of_entries entries, Nat.add_right_comm]
    rfl
  | refused hname _ => rw [countNamed_of_named hname]; rfl
  | outside hname _ => rw [countNamed_of_named hname]; rfl

/-! ## The books -/

/-- The names that a declaration gives to the globals or to the tags; they may be empty. -/
def Decl.names (d : Decl) : List String :=
  (d.value?.map (·.name)).toList ++ d.tagName?.toList

/-- The names that a call declares. -/
def OpenFunction.Call.names : Call → List String
  | declare v _ => [v.name]
  | enter | exit | resolve .. | depth => []

/-- The names that a call declares, those in the body of a function included. -/
def Session.Call.names : Call → List String
  | declare d _ => d.names
  | function func _ body _ => func.name :: func.params.map (·.name) ++ body.flatMap (·.names)
  | tagKind _ | globalType _ => []

/-- The bindings of a session and the refusals that it has reported. -/
def Session.accounted (s : Session) : Nat :=
  s.unit.table.size + s.tags.size + countRefusals s.diagnostics

/-- The bindings of a function and its session, and the refusals that have been reported. -/
def OpenFunction.accounted (f : OpenFunction) : Nat :=
  f.session.accounted + countBindings f.blocks.tables

/-- The bindings that an answer gives back, those of a block that was left. -/
def OpenFunction.Answer.bindings : Answer → List (String × Binding)
  | closed table => table.entries
  | done | fault _ | resolved _ | depth _ => []

theorem Session.accounted_reportAll (s : Session) (ds : List Diagnostic) :
    (s.reportAll ds).accounted = s.accounted + countRefusals ds := by
  show s.unit.table.size + s.tags.size + countRefusals (s.diagnostics ++ ds) = _
  rw [countRefusals_append, accounted]
  omega

namespace OpenFunction

/-! ## In a function -/

theorem accounted_reportAll (f : OpenFunction) (ds : List Diagnostic) :
    (f.reportAll ds).accounted = f.accounted + countRefusals ds := by
  show (f.session.reportAll ds).accounted + countBindings f.blocks.tables = _
  rw [Session.accounted_reportAll, accounted]
  omega

theorem balance_outcome {f : OpenFunction} {name : String} {b : Binding}
    {tables : List (NameTable Binding)} {reports : List Diagnostic}
    (h : f.blocks.Outcome name b tables reports) :
    f.accounted + countNamed [name] = ((f.setTables tables).reportAll reports).accounted := by
  have hbalance := h.balance
  have htables : (f.setTables tables).accounted = f.session.accounted + countBindings tables := rfl
  rw [accounted_reportAll, htables, accounted]
  omega

theorem BindsParams.balance {f g : OpenFunction} {params : List Variable}
    (h : f.BindsParams params g) :
    f.accounted + countNamed (params.map (·.name)) = g.accounted := by
  induction h with
  | nil f => rfl
  | @cons f g p params tables reports outcome rest ih =>
    have hinit : countRefusals (f.initReports p) = 0 := by
      unfold initReports
      split <;> rfl
    have hp := balance_outcome outcome
    rw [accounted_reportAll] at ih hp
    rw [countRefusals_append, hinit] at ih
    rw [List.map_cons, countNamed_cons]
    omega

theorem Declares.balance {f g : OpenFunction} {v : Variable} {pos : Option Position}
    (h : f.Declares v pos g) : f.accounted + countNamed [v.name] = g.accounted := by
  obtain ⟨tables, reports, outcome, rfl⟩ := h
  exact balance_outcome outcome

/-- What a call declares is accounted for, and so is what it gives back. -/
theorem balance_step (f : OpenFunction) (c : Call) :
    f.accounted + countNamed c.names =
      (f.step c).2.accounted + (f.step c).1.bindings.length := by
  cases c with
  | enter =>
    show f.accounted = f.session.accounted + countBindings (.empty :: f.blocks.tables)
    rw [countBindings_empty_cons, accounted]
  | exit =>
    unfold step exit Blocks.exit
    cases ht : f.blocks.tables with
    | nil => rfl
    | cons table outer =>
      show f.accounted = f.session.accounted + countBindings outer + table.size
      rw [accounted, ht, countBindings_cons]
      omega
  | declare v pos => exact (declares_declare f v pos).balance
  | resolve name pos =>
    show f.accounted = (f.resolve name pos).2.accounted
    unfold resolve
    split
    · rfl
    · exact (accounted_reportAll f [.undefined name pos _]).symm
  | depth => rfl

theorem balance_run (f : OpenFunction) (calls : List Call) :
    f.accounted + countNamed (calls.flatMap (·.names)) =
      (f.run calls).2.accounted + ((f.run calls).1.flatMap (·.bindings)).length := by
  induction calls generalizing f with
  | nil => rfl
  | cons c calls ih =>
    have hstep := balance_step f c
    have hrest := ih (f.step c).2
    show _ = ((f.step c).2.run calls).2.accounted +
      (((f.step c).1 :: ((f.step c).2.run calls).1).flatMap (·.bindings)).length
    rw [List.flatMap_cons, List.flatMap_cons, countNamed_append, List.length_append]
    omega

end OpenFunction

namespace Session

/-! ## In a session -/

theorem balance_global {s : Session} {name : String} {b : Binding} {table : NameTable Binding}
    {reports : List Diagnostic} (h : s.unit.table.Outcome (·.pos) name b table reports) :
    s.accounted + countNamed [name] = ((s.setTable table).reportAll reports).accounted := by
  have hbalance := h.balance
  rw [accounted_reportAll, accounted, accounted, setTable]
  dsimp only
  omega

theorem balance_tag {s : Session} {name : String} {tag : Tag} {tags : NameTable Tag}
    {reports : List Diagnostic} (h : s.tags.Outcome (·.pos) name tag tags reports) :
    s.accounted + countNamed [name] = ((s.setTags tags).reportAll reports).accounted := by
  have hbalance := h.balance
  rw [accounted_reportAll, accounted, accounted, setTags]
  dsimp only
  omega

theorem Declares.balance {s t : Session} {d : Decl} {pos : Option Position}
    (h : s.Declares d pos t) : s.accounted + countNamed d.names = t.accounted := by
  cases h with
  | @value v table reports typed outcome =>
    have hnames : d.names = [v.name] := by
      cases d <;> cases typed <;> rfl
    rw [hnames]
    exact balance_global outcome
  | @tag name tags reports tagged outcome =>
    have hnames : d.names = [name] := by
      cases d <;> cases tagged <;> rfl
    rw [hnames]
    exact balance_tag outcome
  | other untyped untagged =>
    rw [Decl.names, untyped, untagged]
    rfl

/-- A function may bring blocks of its own along. -/
theorem Opens.balance {s : Session} {func : Func Decl} {pos : Option Position} {f : OpenFunction}
    (h : s.Opens func pos f) :
    s.accounted + countBindings func.scope.blocks.tables +
        countNamed (func.name :: func.params.map (·.name)) = f.accounted := by
  obtain ⟨table, reports, outcome, params⟩ := h
  have hname := balance_global outcome
  have hparams := params.balance
  have hopen : OpenFunction.accounted
      (OpenFunction.setBlocks
        { session := (s.setTable table).reportAll reports
          func := func
          bound := if s.IsFree func.name then some func.name else none }
        { tables := .empty :: func.scope.blocks.tables, rule := s.options.rule }) =
      ((s.setTable table).reportAll reports).accounted +
        countBindings (.empty :: func.scope.blocks.tables) := rfl
  rw [hopen, countBindings_empty_cons] at hparams
  rw [countNamed_cons]
  omega

/-- The bindings in blocks of its own that a function brings along when it is opened. -/
def Call.brought : Call → List (String × Binding)
  | function func .. => func.scope.blocks.tables.flatMap (·.entries)
  | declare .. | tagKind _ | globalType _ => []

/-- The bindings that are gone when the body of a function has ended: those of the blocks that
were left, and those of the blocks that are open still. -/
def lostInBody (s : Session) (func : Func Decl) (pos : Option Position)
    (body : List OpenFunction.Call) : Nat :=
  ((s.runBody func pos body).1.flatMap (·.bindings)).length +
    countBindings (s.runBody func pos body).2.blocks.tables

/-- The bindings that are gone when a call has ended; a function that is abandoned takes its name
with it if it has bound it. -/
def lost (s : Session) : Call → Nat
  | .function func pos body .close => s.lostInBody func pos body
  | .function func pos body .abandon =>
    s.lostInBody func pos body + (s.runBody func pos body).2.bound.toList.length
  | .declare .. | .tagKind _ | .globalType _ => 0

/-- The bindings that are lost in the course of a history. -/
def lostIn (s : Session) : List Call → Nat
  | [] => 0
  | c :: calls => s.lost c + (s.step c).2.lostIn calls

theorem balance_runBody (s : Session) (func : Func Decl) (pos : Option Position)
    (body : List OpenFunction.Call) :
    s.accounted + countBindings func.scope.blocks.tables +
        countNamed (func.name :: func.params.map (·.name) ++ body.flatMap (·.names)) =
      (s.runBody func pos body).2.session.accounted + s.lostInBody func pos body := by
  have hopen := (opens_openFunction s func pos).balance
  have hbody := OpenFunction.balance_run (s.openFunction func pos) body
  have hend : ((s.openFunction func pos).run body).2.accounted =
      (s.runBody func pos body).2.session.accounted +
        countBindings (s.runBody func pos body).2.blocks.tables := rfl
  rw [countNamed_append, lostInBody, runBody]
  rw [runBody] at hend
  omega

/-- An abandoned function takes its name with it if it has bound it. -/
theorem accounted_abandon (s : Session) (func : Func Decl) (pos : Option Position)
    (body : List OpenFunction.Call) :
    (s.runBody func pos body).2.session.accounted =
      (s.runBody func pos body).2.abandon.accounted +
        (s.runBody func pos body).2.bound.toList.length := by
  by_cases hfree : s.IsFree func.name
  · obtain ⟨hbound, hsession⟩ := runBody_of_free hfree pos body
    obtain ⟨reports, hreports⟩ := hsession
    have hsize := NameTable.size_of_entries
      (NameTable.entries_insert_of_get?_eq_none (lookup?_eq_none_of_free hfree)
        ⟨func.type, pos <|> func.pos⟩)
    unfold OpenFunction.abandon
    rw [hbound, hreports]
    dsimp only [accounted, withGlobal, Globals.unbind, Option.toList, List.length]
    rw [NameTable.erase_insert_of_not_mem _ _ _ hfree.2, hsize]
    omega
  · obtain ⟨hbound, -⟩ := runBody_of_not_free hfree pos body
    unfold OpenFunction.abandon
    rw [hbound]
    rfl

/-- What a call declares and brings along is accounted for, and so is what it loses. -/
theorem balance_step (s : Session) (c : Call) :
    s.accounted + c.brought.length + countNamed c.names = (s.step c).2.accounted + s.lost c := by
  cases c with
  | declare d pos => exact (declares_declare s d pos).balance
  | function func pos body ending =>
    have hbody := balance_runBody s func pos body
    cases ending with
    | close => exact hbody
    | abandon =>
      have habandon := accounted_abandon s func pos body
      show _ = (s.runBody func pos body).2.abandon.accounted +
        (s.lostInBody func pos body + (s.runBody func pos body).2.bound.toList.length)
      exact hbody.trans (by omega)
  | tagKind name => rfl
  | globalType name => rfl

theorem balance_run (s : Session) (calls : List Call) :
    s.accounted + (calls.flatMap (·.brought)).length + countNamed (calls.flatMap (·.names)) =
      (s.run calls).2.accounted + s.lostIn calls := by
  induction calls generalizing s with
  | nil => rfl
  | cons c calls ih =>
    have hstep := balance_step s c
    have hrest := ih (s.step c).2
    show _ = ((s.step c).2.run calls).2.accounted + (s.lost c + (s.step c).2.lostIn calls)
    rw [List.flatMap_cons, List.flatMap_cons, List.length_append, countNamed_append]
    omega

/-! ## Bound or refused -/

/-- A function that is closed joins the declarations, and what it has bound among the globals
stays bound. -/
theorem close_keeps (s : Session) (func : Func Decl) (pos : Option Position)
    (body : List OpenFunction.Call) :
    (s.runBody func pos body).2.session.unit.decls = s.unit.decls ∧
      ∃ scope, (s.runBody func pos body).2.close.2 =
        (s.runBody func pos body).2.session.addDecl (.func { func with scope := scope }) := by
  obtain ⟨hsession, ⟨scope, hfunc⟩, -⟩ := runBody_keeps s func pos body
  refine ⟨?_, { scope with blocks := scope.blocks.closeAll }, ?_⟩
  · rw [hsession.unit_eq]
    exact decls_bindGlobal s _ _
  · unfold OpenFunction.close OpenFunction.setBlocks OpenFunction.blocks
    dsimp only
    rw [hfunc]

/-- **Every named declaration is bound or refused, and kept.** In every state of a session `s` and
of an open function `f`, a top-level declaration, a function, its parameters and a local have each
one of the two outcomes, at the place that the call gives or else at their own, and they are kept;
a function joins the declarations when it is closed.  Reports are never taken back.  So over every
history the names that its calls declare, and the bindings that functions bring along, are as many
as the bindings and the refusals that have been added, and the bindings that were lost. -/
theorem declaration_bound_or_refused (s : Session) (f : OpenFunction) :
    (∀ d pos, s.Declares d pos (s.declare d pos)) ∧
      (∀ func pos, s.Opens func pos (s.openFunction func pos)) ∧
      (∀ v pos, f.Declares v pos (f.declare v pos)) ∧
      (∀ func pos body, (s.runBody func pos body).2.session.unit.decls = s.unit.decls ∧
        ∃ scope, (s.runBody func pos body).2.close.2 =
          (s.runBody func pos body).2.session.addDecl (.func { func with scope := scope })) ∧
      (∀ calls, s.diagnostics <+: (s.run calls).2.diagnostics) ∧
      (∀ body, f.session.diagnostics <+: (f.run body).2.session.diagnostics) ∧
      ∀ calls : List Call,
        s.accounted + (calls.flatMap (·.brought)).length + countNamed (calls.flatMap (·.names)) =
          (s.run calls).2.accounted + s.lostIn calls := by
  refine ⟨declares_declare s, opens_openFunction s, OpenFunction.declares_declare f, close_keeps s,
    ?_, ?_, balance_run s⟩
  · intro calls
    exact (later_run s calls).diagnostics
  · intro body
    exact (OpenFunction.keeps_run f body).session.later.diagnostics

end Session

end NameScope
