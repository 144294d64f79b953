import NameScope.Decl.Layers
import NameScope.Proofs.Scope.Separation

/-
  Names, declarations and statements evolve apart.  The globals of a unit are three parts, and a
  call on them works on one of the three alone; a scope is two parts, and so is a call on it.

  `names_and_declarations_apart`: sequences of calls, one for each part, may be mixed in any way.
  Every call, also one that fails, gives the answer that it gives when the sequences are made one
  after the other, and the last state is the same.  Whatever is called, declarations and statements
  are only added at the end, and keep their positions, however alike they are.
-/

namespace NameScope

namespace Globals

variable {δ : Type}

/-- The three parts of globals that calls go to. -/
inductive Part where
  | names
  | decls
  | stmts
deriving DecidableEq

/-- A call on globals. -/
inductive Call (δ : Type) where
  | declare (name : String) (type : TypeUse) (pos : Option Position)
  | lookup (name : String)
  | take (name : String)
  | unbindAll
  | entries
  | addDecl (d : δ)
  | decl (i : Nat)
  /-- Changes the declaration at position `i`. -/
  | updateDecl (i : Nat) (f : δ → δ)
  | declCount
  | addStmt (s : StmtRef)
  | stmt (i : Nat)
  | stmtCount

/-- What a call gives back; a declaration that is changed is given as it was. -/
inductive Answer (δ : Type) where
  | done
  | redeclared (fault : ScopeFault)
  | binding (found : Option Binding)
  | entries (entries : List (String × Binding))
  | decl (d : δ)
  | stmt (s : StmtRef)
  | fault (fault : IndexFault)
  | count (n : Nat)

namespace Call

/-- The part of globals that the call goes to. -/
def part : Call δ → Part
  | declare .. | lookup _ | take _ | unbindAll | entries => .names
  | addDecl _ | decl _ | updateDecl .. | declCount => .decls
  | addStmt _ | stmt _ | stmtCount => .stmts

/-- How the call changes the list of declarations, if it does. -/
def change? : Call δ → Option (Change δ)
  | addDecl d => some (.append d)
  | updateDecl i f => some (.update i f)
  | declare .. | lookup _ | take _ | unbindAll | entries | decl _ | declCount => none
  | addStmt _ | stmt _ | stmtCount => none

/-- The statement that the call adds, if it adds one. -/
def added? : Call δ → Option StmtRef
  | addStmt s => some s
  | declare .. | lookup _ | take _ | unbindAll | entries => none
  | addDecl _ | decl _ | updateDecl .. | declCount | stmt _ | stmtCount => none

end Call

def step (g : Globals δ) : Call δ → Answer δ × Globals δ
  | .declare name type pos =>
    match g.declare name ⟨type, pos⟩ with
    | .ok g => (.done, g)
    | .error fault => (.redeclared fault, g)
  | .lookup name => (.binding (g.lookup? name), g)
  | .take name => (.binding (g.take name).1, (g.take name).2)
  | .unbindAll => (.done, g.unbindAll)
  | .entries => (.entries g.table.entries, g)
  | .addDecl d => (.done, g.addDecl d)
  | .decl i =>
    match g.decl i with
    | .ok d => (.decl d, g)
    | .error fault => (.fault fault, g)
  | .updateDecl i f =>
    match g.updateDecl i fun d => (d, f d) with
    | .ok (d, g) => (.decl d, g)
    | .error fault => (.fault fault, g)
  | .declCount => (.count g.decls.length, g)
  | .addStmt s => (.done, g.addStmt s)
  | .stmt i =>
    match g.stmt i with
    | .ok s => (.stmt s, g)
    | .error fault => (.fault fault, g)
  | .stmtCount => (.count g.stmts.length, g)

/-! ## One call, one part -/

/-- The answer of a call that looks a declaration up. -/
def Answer.ofDecl : Except IndexFault δ → Answer δ
  | .ok d => decl d
  | .error e => fault e

/-- The answer of a call that looks a statement up. -/
def Answer.ofStmt : Except IndexFault StmtRef → Answer δ
  | .ok s => stmt s
  | .error e => fault e

/-- What the declaration of a name does to the table of names. -/
def declareIn (name : String) (type : TypeUse) (pos : Option Position) (table : NameTable Binding) :
    Answer δ × NameTable Binding :=
  match table.get? name with
  | some old => (.redeclared (.redeclared name old.pos pos), table)
  | none => (.done, table.insert name ⟨type, pos⟩)

theorem step_declare (g : Globals δ) (name : String) (type : TypeUse) (pos : Option Position) :
    g.step (.declare name type pos) =
      ((declareIn name type pos g.table).1,
        { g with table := (declareIn (δ := δ) name type pos g.table).2 }) := by
  simp only [step, declare, lookup?, declareIn]
  cases g.table.get? name with
  | none => rfl
  | some old => rfl

theorem step_decl (g : Globals δ) (i : Nat) : g.step (.decl i) = (.ofDecl (g.decl i), g) := by
  simp only [step]
  cases g.decl i with
  | ok d => rfl
  | error fault => rfl

theorem step_updateDecl (g : Globals δ) (i : Nat) (f : δ → δ) :
    g.step (.updateDecl i f) =
      (.ofDecl (g.decl i), { g with decls := g.decls.modify i f }) := by
  simp only [step, updateDecl, updateAt_eq, decl]
  cases h : elementAt .declaration g.decls i with
  | ok d => rfl
  | error fault => rw [modify_of_error h]; rfl

theorem step_stmt (g : Globals δ) (i : Nat) : g.step (.stmt i) = (.ofStmt (g.stmt i), g) := by
  simp only [step]
  cases g.stmt i with
  | ok s => rfl
  | error fault => rfl

/-- The table of names, the declarations and the statements of a unit. -/
def parts : History.Parts (Globals δ) Part where
  Carrier
    | .names => NameTable Binding
    | .decls => List δ
    | .stmts => List StmtRef
  get
    | .names => table
    | .decls => decls
    | .stmts => stmts
  put
    | .names, table, g => { g with table := table }
    | .decls, decls, g => { g with decls := decls }
    | .stmts, stmts, g => { g with stmts := stmts }
  get_put_of_ne {j k} hne _ _ := by
    cases j <;> cases k <;> first | exact absurd rfl hne | rfl
  put_comm {j k} hne _ _ _ := by
    cases j <;> cases k <;> first | exact absurd rfl hne | rfl

theorem confines_step : History.Confines parts (step (δ := δ)) Call.part := by
  intro c
  cases c with
  | declare name type pos =>
    exact ⟨fun table : NameTable Binding => declareIn name type pos table,
      fun g => g.step_declare name type pos⟩
  | lookup name =>
    exact ⟨fun table : NameTable Binding => (.binding (table.get? name), table), fun _ => rfl⟩
  | take name =>
    exact ⟨fun table : NameTable Binding => (.binding (table.take name).1, (table.take name).2),
      fun _ => rfl⟩
  | unbindAll => exact ⟨fun _ : NameTable Binding => (.done, .empty), fun _ => rfl⟩
  | entries =>
    exact ⟨fun table : NameTable Binding => (.entries table.entries, table), fun _ => rfl⟩
  | addDecl d => exact ⟨fun decls : List δ => (.done, decls ++ [d]), fun _ => rfl⟩
  | decl i =>
    exact ⟨fun decls : List δ => (.ofDecl (elementAt .declaration decls i), decls),
      fun g => g.step_decl i⟩
  | updateDecl i f =>
    exact ⟨fun decls : List δ => (.ofDecl (elementAt .declaration decls i), decls.modify i f),
      fun g => g.step_updateDecl i f⟩
  | declCount => exact ⟨fun decls : List δ => (.count decls.length, decls), fun _ => rfl⟩
  | addStmt s => exact ⟨fun stmts : List StmtRef => (.done, stmts ++ [s]), fun _ => rfl⟩
  | stmt i =>
    exact ⟨fun stmts : List StmtRef => (.ofStmt (elementAt .statement stmts i), stmts),
      fun g => g.step_stmt i⟩
  | stmtCount => exact ⟨fun stmts : List StmtRef => (.count stmts.length, stmts), fun _ => rfl⟩

/-! ## The lists -/

theorem decls_step (g : Globals δ) (c : Call δ) :
    (g.step c).2.decls = c.change?.elim g.decls (·.apply g.decls) := by
  cases c with
  | declare name type pos => rw [step_declare]; rfl
  | decl i => rw [step_decl]; rfl
  | updateDecl i f => rw [step_updateDecl]; rfl
  | stmt i => rw [step_stmt]; rfl
  | _ => rfl

theorem stmts_step (g : Globals δ) (c : Call δ) :
    (g.step c).2.stmts = g.stmts ++ c.added?.toList := by
  cases c with
  | declare name type pos => rw [step_declare]; exact (List.append_nil _).symm
  | decl i => rw [step_decl]; exact (List.append_nil _).symm
  | updateDecl i f => rw [step_updateDecl]; exact (List.append_nil _).symm
  | stmt i => rw [step_stmt]; exact (List.append_nil _).symm
  | addStmt s => rfl
  | _ => exact (List.append_nil _).symm

theorem stmts_run (g : Globals δ) (calls : List (Call δ)) :
    (History.run step g calls).2.stmts = g.stmts ++ calls.filterMap (·.added?) := by
  induction calls generalizing g with
  | nil => exact (List.append_nil _).symm
  | cons c calls ih =>
    show (History.run step (g.step c).2 calls).2.stmts = _
    rw [ih, stmts_step, List.append_assoc]
    cases hc : c.added? with
    | none => rw [List.filterMap_cons_none hc]; rfl
    | some s => rw [List.filterMap_cons_some hc]; rfl

end Globals

/-- **Names and declarations evolve apart.** Calls on the blocks of a scope and calls on its
declarations may be mixed in any way: every call, whether it fails or not, has the answer that it
has when the ones are made after the others, and the last state is the same.  So may calls on the
names, the declarations and the statements of a unit.  Whatever is called, a declaration keeps its
position for good and changes only where it is changed itself; new declarations and statements come
last, in order, however alike they are. -/
theorem names_and_declarations_apart {δ : Type} :
    History.Separates (@Scope.step δ) Scope.Call.part ∧
      (∀ (s : Scope δ) (calls : List (Scope.Call δ)),
        (s.run calls).2.decls = Change.grown s.decls (calls.filterMap (·.change?))) ∧
      History.Separates (@Globals.step δ) Globals.Call.part ∧
      ∀ (g : Globals δ) (calls : List (Globals.Call δ)),
        let last := (History.run Globals.step g calls).2
        last.decls = Change.grown g.decls (calls.filterMap (·.change?)) ∧
          last.stmts = g.stmts ++ calls.filterMap (·.added?) := by
  refine ⟨Scope.confines_step.separates, fun s calls => ?_, Globals.confines_step.separates,
    fun g calls => ⟨?_, Globals.stmts_run g calls⟩⟩
  · exact Change.grown_run Scope.decls_step s calls
  · exact Change.grown_run Globals.decls_step g calls

/-- A function is entered while blocks are entered and left around it: made apart, the calls give
the same answers, the two that fail included, and both functions are still there. -/
theorem names_and_declarations_apart_nested :
    let fn : Decl := .func { name := "f", type := ⟨⟨0⟩, .empty⟩ }
    let enter : Decl → Decl := Decl.mapFunc fun f =>
      { f with scope := { f.scope with blocks := f.scope.blocks.enter } }
    let onBlocks : List (Scope.Call Decl) :=
      [.blocks .enter, .blocks (.declare "x" ⟨⟨0⟩, .empty⟩ none), .blocks .closeAll, .blocks .exit]
    let onDecls : List (Scope.Call Decl) :=
      [.addDecl fn, .updateDecl 0 enter, .updateDecl 5 enter, .addDecl fn]
    let mixed : List (Scope.Call Decl) :=
      [.addDecl fn, .blocks .enter, .updateDecl 0 enter, .updateDecl 5 enter,
        .blocks (.declare "x" ⟨⟨0⟩, .empty⟩ none), .blocks .closeAll, .addDecl fn, .blocks .exit]
    let s : Scope Decl := {}
    History.SameByKind Scope.Call.part mixed (onBlocks ++ onDecls) ∧
      (s.run mixed).2 = (s.run (onBlocks ++ onDecls)).2 ∧
      (s.run mixed).2.decls = [enter fn, fn] ∧
      (History.transcript Scope.step s mixed).filter (·.1.part = .blocks) =
        onBlocks.zip [.blocks .done, .blocks .done, .blocks .done, .blocks (.fault .underflow)] ∧
      (History.transcript Scope.step s mixed).filter (·.1.part = .decls) =
        onDecls.zip [.done, .decl fn, .fault ⟨.declaration, 5, 1⟩, .done] := by
  intro fn enter onBlocks onDecls mixed s
  have hsame : History.SameByKind Scope.Call.part mixed (onBlocks ++ onDecls) := by
    intro k
    cases k <;> rfl
  obtain ⟨hstate, hanswers⟩ := names_and_declarations_apart.1 s mixed _ hsame
  exact ⟨hsame, hstate, rfl, (hanswers .blocks).trans rfl, (hanswers .decls).trans rfl⟩

end NameScope
