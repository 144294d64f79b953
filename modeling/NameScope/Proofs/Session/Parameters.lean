import NameScope.Proofs.Session.Namespaces
import NameScope.Proofs.Session.Outcome

/-
  The parameters of a function.  When a function is opened, its name is declared among the globals
  and its parameters in a block of their own, each once and in order.  `parameters_bound_once` says
  what comes of it by looking at the list of parameters only: the block binds their names, each to
  its first parameter, and a parameter is reported for an initializer that is not allowed, and for a
  name that an earlier one has.  The rule for redeclarations makes no difference here, as there is
  one block, and a parameter may have the name of its function, as that is a global.

  The invariant is that the block holds what the parameters so far say (`FirstWins`); so the
  outcome of the next one can be read off those before it (`reports_after`, `firstWins_after`).
-/

namespace NameScope

/-! ## Reports on one name -/

/-- What is reported of a name that is declared; `first?` is the place of an earlier declaration, if
there is one. -/
def Named.refusals (n : Named) (first? : Option (Option Position)) : List Diagnostic :=
  match first? with
  | some first => if n.name = "" then [] else [.scope (.redeclared n.name first n.pos)]
  | none => []

theorem Named.refusals_of_anonymous {n : Named} (h : n.name = "")
    (first? : Option (Option Position)) : n.refusals first? = [] := by
  cases first? with
  | none => rfl
  | some first => exact if_pos h

theorem Named.refusals_of_named {n : Named} (h : n.name ≠ "") (first : Option Position) :
    n.refusals (some first) = [.scope (.redeclared n.name first n.pos)] := if_neg h

theorem NameTable.Outcome.reports_eq {t t' : NameTable Binding} {n : Named} {type : TypeUse}
    {reports : List Diagnostic} (h : t.Outcome (·.pos) n.name ⟨type, n.pos⟩ t' reports) :
    reports = n.refusals ((t.get? n.name).map (·.pos)) := by
  cases h with
  | anonymous hname => exact (Named.refusals_of_anonymous hname _).symm
  | bound hname hfree hentries =>
    rw [hfree]
    rfl
  | refused hname hold => rw [hold, Option.map_some, Named.refusals_of_named hname]

theorem Blocks.Outcome.reports_eq {b : Blocks} {n : Named} {type : TypeUse}
    {tables : List (NameTable Binding)} {reports : List Diagnostic}
    (h : b.Outcome n.name ⟨type, n.pos⟩ tables reports) (hopen : b.tables ≠ []) :
    reports = n.refusals ((b.obstacle? n.name).map (·.pos)) := by
  cases h with
  | anonymous hname => exact (Named.refusals_of_anonymous hname _).symm
  | bound hname htables hfree hentries =>
    rw [hfree]
    rfl
  | refused hname hold => rw [hold, Option.map_some, Named.refusals_of_named hname]
  | outside hname hclosed => exact absurd hclosed hopen

/-- Where one block is open, a name is refused under either rule iff this block binds it. -/
theorem Blocks.obstacle?_of_single {b : Blocks} {table : NameTable Binding}
    (h : b.tables = [table]) (name : String) : b.obstacle? name = table.get? name := by
  unfold obstacle?
  cases b.rule with
  | visible =>
    show b.lookup? name = table.get? name
    rw [lookup?_eq_findSome?, h, List.findSome?_cons, List.findSome?_nil]
    cases table.get? name with
    | none => rfl
    | some a => rfl
  | sameBlock =>
    show b.innermost?.bind (·.get? name) = table.get? name
    rw [innermost?, h]
    rfl

/-! ## Reports on a list of parameters -/

/-- The place of the first among the parameters that has the name. -/
def firstPlace? (name : String) (params : List Variable) : Option (Option Position) :=
  (params.find? (·.name = name)).map (·.pos)

/-- What is reported of parameters that come after those in `earlier`: each for its initializer, if
none is allowed, and then for its name, if an earlier one has it. -/
def paramReports (allow : Bool) (earlier : List Variable) : List Variable → List Diagnostic
  | [] => []
  | p :: params =>
    (if p.init.isSome ∧ ¬ allow then [.initializedParameter p.name p.pos] else []) ++
      p.refusals (firstPlace? p.name earlier) ++ paramReports allow (earlier ++ [p]) params

/-! ## Entries of parameters -/

/-- What the name of a parameter is bound to. -/
def Variable.binding (p : Variable) : Binding := ⟨p.type, p.pos⟩

/-- The name that a parameter binds, if it has one, with what it is bound to. -/
def Variable.binds? (p : Variable) : Option (String × Binding) :=
  if p.name = "" then none else some (p.name, p.binding)

/-- What the parameters bind, in order. -/
def paramEntries (params : List Variable) : List (String × Binding) :=
  params.filterMap (·.binds?)

theorem paramEntries_cons_anonymous {p : Variable} (h : p.name = "") (params : List Variable) :
    paramEntries (p :: params) = paramEntries params :=
  List.filterMap_cons_none (if_pos h)

theorem paramEntries_cons_named {p : Variable} (h : p.name ≠ "") (params : List Variable) :
    paramEntries (p :: params) = (p.name, p.binding) :: paramEntries params :=
  List.filterMap_cons_some (if_neg h)

theorem paramEntries_append (params params' : List Variable) :
    paramEntries (params ++ params') = paramEntries params ++ paramEntries params' :=
  List.filterMap_append

theorem map_fst_paramEntries (params : List Variable) :
    (paramEntries params).map Prod.fst = (params.map (·.name)).filter (· ≠ "") := by
  induction params with
  | nil => rfl
  | cons p params ih =>
    by_cases hp : p.name = ""
    · rw [paramEntries_cons_anonymous hp, List.map_cons,
        List.filter_cons_of_neg (by simpa using hp), ih]
    · rw [paramEntries_cons_named hp, List.map_cons, List.map_cons,
        List.filter_cons_of_pos (by simpa using hp), ih]

/-- A name has the entry of the first parameter of this name. -/
theorem lookup_paramEntries {name : String} (hname : name ≠ "") (params : List Variable) :
    (paramEntries params).lookup name = (params.find? (·.name = name)).map (·.binding) := by
  induction params with
  | nil => rfl
  | cons p params ih =>
    by_cases hp : p.name = name
    · have hnamed : p.name ≠ "" := hp ▸ hname
      rw [paramEntries_cons_named hnamed, List.find?_cons_of_pos (by simpa using hp), hp,
        List.lookup_cons_self]
      rfl
    · rw [List.find?_cons_of_neg (by simpa using hp), ← ih]
      by_cases hempty : p.name = ""
      · rw [paramEntries_cons_anonymous hempty]
      · have hother : (name == p.name) = false := by simpa using Ne.symm hp
        rw [paramEntries_cons_named hempty, List.lookup_cons, hother]

/-! ## One parameter after others -/

section After

variable {b : Blocks} {p : Variable} {table : NameTable Binding} {earlier : List Variable}
  {tables : List (NameTable Binding)} {reports : List Diagnostic}

theorem get?_of_firstWins (hfirst : table.FirstWins id (paramEntries earlier)) {name : String}
    (hname : name ≠ "") :
    table.get? name = (earlier.find? (·.name = name)).map (·.binding) := by
  have hget := hfirst.get? name
  rwa [Option.map_id, lookup_paramEntries hname] at hget

/-- A parameter is reported if an earlier one has its name. -/
theorem Blocks.Outcome.reports_after (h : b.Outcome p.name p.binding tables reports)
    (ht : b.tables = [table]) (hfirst : table.FirstWins id (paramEntries earlier)) :
    reports = p.refusals (firstPlace? p.name earlier) := by
  have hopen : b.tables ≠ [] := by
    rw [ht]
    exact List.cons_ne_nil table []
  rw [h.reports_eq (n := p.toNamed) hopen, obstacle?_of_single ht]
  by_cases hname : p.name = ""
  · rw [Named.refusals_of_anonymous hname, Named.refusals_of_anonymous hname]
  · rw [get?_of_firstWins hfirst hname, firstPlace?, Option.map_map]
    rfl

/-- The block holds what the parameters so far say, with the new one among them. -/
theorem Blocks.Outcome.firstWins_after (h : b.Outcome p.name p.binding tables reports)
    (ht : b.tables = [table]) (hfirst : table.FirstWins id (paramEntries earlier)) :
    ∃ table', tables = [table'] ∧ table'.FirstWins id (paramEntries (earlier ++ [p])) := by
  rw [paramEntries_append]
  cases h with
  | anonymous hname =>
    rw [paramEntries_cons_anonymous hname]
    exact ⟨table, ht, (List.append_nil (paramEntries earlier)).symm ▸ hfirst⟩
  | @bound inner inner' outer hname hbt hfree entries =>
    obtain ⟨rfl, rfl⟩ : table = inner ∧ [] = outer := List.cons.inj (ht.symm.trans hbt)
    rw [obstacle?_of_single ht] at hfree
    have hinsert : inner' = table.insert p.name p.binding := by
      refine NameTable.ext ?_
      rw [entries, NameTable.entries_insert_of_get?_eq_none hfree]
    rw [paramEntries_cons_named hname, hinsert]
    exact ⟨_, rfl, hfirst.insert ((table.get?_eq_none_iff p.name).1 hfree) p.binding⟩
  | @refused old hname hold =>
    rw [obstacle?_of_single ht] at hold
    rw [paramEntries_cons_named hname]
    exact ⟨table, ht, hfirst.keep (NameTable.mem_names_of_get? hold) p.binding⟩
  | outside hname hclosed =>
    rw [ht] at hclosed
    cases hclosed

end After

/-! ## All parameters -/

namespace OpenFunction

/-- Parameters that are bound in one block, which holds the entries of those before them. -/
theorem BindsParams.params_after {f g : OpenFunction} {params earlier : List Variable}
    {table : NameTable Binding} (h : f.BindsParams params g) (ht : f.blocks.tables = [table])
    (hfirst : table.FirstWins id (paramEntries earlier)) :
    ∃ table', table'.FirstWins id (paramEntries (earlier ++ params)) ∧
      g = (f.setTables [table']).reportAll
        (paramReports f.session.options.allowParamInit earlier params) := by
  induction h generalizing earlier table with
  | nil f =>
    refine ⟨table, by rwa [List.append_nil], ?_⟩
    rw [paramReports, reportAll_nil, ← ht]
    rfl
  | @cons f g p params tables reports outcome rest ih =>
    obtain ⟨table', rfl, hfirst'⟩ := outcome.firstWins_after ht hfirst
    obtain rfl := outcome.reports_after ht hfirst
    obtain ⟨table'', hall, hg⟩ := ih rfl hfirst'
    refine ⟨table'', by rwa [List.append_assoc] at hall, ?_⟩
    rw [hg, paramReports]
    exact (f.setTables [table'']).reportAll_reportAll
      (f.initReports p ++ p.refusals (firstPlace? p.name earlier)) _

end OpenFunction

namespace Session

/-- What is reported of the name of a function: it is refused if it is bound among the globals. -/
def funcRefusals (s : Session) (func : Func Decl) (pos : Option Position) : List Diagnostic :=
  Named.refusals ⟨func.name, pos <|> func.pos⟩ ((s.unit.lookup? func.name).map (·.pos))

/-- The blocks and the reports of a function that has been opened. -/
theorem openFunction_params (s : Session) {func : Func Decl}
    (hclosed : func.scope.blocks.tables = []) (pos : Option Position) :
    ∃ table : NameTable Binding,
      table.FirstWins id (paramEntries func.params) ∧
        (s.openFunction func pos).blocks = { tables := [table], rule := s.options.rule } ∧
        (s.openFunction func pos).session.diagnostics =
          s.diagnostics ++ s.funcRefusals func pos ++
            paramReports s.options.allowParamInit [] func.params := by
  obtain ⟨globals, reports, hname, hparams⟩ := s.opens_openFunction func pos
  have hempty : NameTable.empty.FirstWins id (paramEntries []) :=
    ⟨rfl, fun name => rfl⟩
  rw [hclosed] at hparams
  obtain ⟨table, hfirst, hf⟩ := hparams.params_after rfl hempty
  have hreports : reports = s.funcRefusals func pos :=
    hname.reports_eq (n := ⟨func.name, pos <|> func.pos⟩)
  refine ⟨table, hfirst, ?_, ?_⟩
  · rw [hf]
    rfl
  · rw [hf, hreports]
    rfl

/-- **Parameters are bound and reported once each, in order.** Let a function have no block open,
and open it in any session, at any place. The reports are, in order: one on its name, if it has one
and a global of this name is there already; and for each parameter one on its initializer, if it has
one and none are allowed, and then one on its name, if it has one and an earlier parameter has the
same, whose place is that of the first. One block is open, and it binds the names of the parameters,
each once, in the order in which they first occur, and each to its first parameter. All this is the
same under either rule. -/
theorem parameters_bound_once (s : Session) {func : Func Decl}
    (hclosed : func.scope.blocks.tables = []) (pos : Option Position) :
    ∃ table : NameTable Binding,
      table.names = ((func.params.map (·.name)).filter (· ≠ "")).eraseDups ∧
      (∀ name, name ≠ "" →
        table.get? name = (func.params.find? (·.name = name)).map fun p => ⟨p.type, p.pos⟩) ∧
      ∀ rule,
        let f := openFunction { s with options := { s.options with rule := rule } } func pos
        f.blocks = { tables := [table], rule := rule } ∧
          f.session.diagnostics = s.diagnostics ++ s.funcRefusals func pos ++
            paramReports s.options.allowParamInit [] func.params := by
  obtain ⟨table, hfirst, -, -⟩ := s.openFunction_params hclosed pos
  refine ⟨table, ?_, fun name hname => ?_, fun rule => ?_⟩
  · rw [hfirst.names, map_fst_paramEntries]
  · exact get?_of_firstWins hfirst hname
  · obtain ⟨table', hfirst', hblocks, hreports⟩ :=
      openFunction_params { s with options := { s.options with rule := rule } } hclosed pos
    rw [hfirst'.unique hfirst] at hblocks
    exact ⟨hblocks, hreports⟩

/-- `f` is a global, and a function `f` has parameters `f`, one without a name that is initialized,
`n`, and another `n` that is initialized. -/
theorem parameters_bound_once_repeated :
    let type : TypeUse := { type := ⟨0⟩ }
    let param (name : String) (row : UInt32) (init : Option ExprRef) : Variable :=
      { name := name, pos := some ⟨row, 1⟩, type := type, init := init }
    let func : Func Decl :=
      { name := "f", pos := some ⟨2, 1⟩, type := type
        params := [param "f" 3 none, param "" 4 (some ⟨0⟩), param "n" 5 none,
          param "n" 6 (some ⟨1⟩)] }
    let s : Session := ({} : Session).bindGlobal "f" ⟨type, some ⟨1, 1⟩⟩
    let reports : List Diagnostic :=
      [.scope (.redeclared "f" (some ⟨1, 1⟩) (some ⟨7, 1⟩)),
        .initializedParameter "" (some ⟨4, 1⟩), .initializedParameter "n" (some ⟨6, 1⟩),
        .scope (.redeclared "n" (some ⟨5, 1⟩) (some ⟨6, 1⟩))]
    func.scope.blocks.tables = [] ∧
      ∃ table : NameTable Binding, table.names = ["f", "n"] ∧
        table.get? "n" = some ⟨type, some ⟨5, 1⟩⟩ ∧
        ∀ rule,
          let f := openFunction { s with options := { s.options with rule := rule } } func
            (some ⟨7, 1⟩)
          f.blocks = { tables := [table], rule := rule } ∧ f.session.diagnostics = reports := by
  intro type param func s reports
  have hclosed : func.scope.blocks.tables = [] := rfl
  obtain ⟨table, hnames, hget, hopen⟩ := parameters_bound_once s hclosed (some ⟨7, 1⟩)
  have hreports : s.diagnostics ++ s.funcRefusals func (some ⟨7, 1⟩) ++
      paramReports s.options.allowParamInit [] func.params = reports := by
    decide +kernel
  refine ⟨hclosed, table, ?_, ?_, fun rule => ⟨(hopen rule).1, (hopen rule).2.trans hreports⟩⟩
  · rw [hnames]
    decide +kernel
  · rw [hget "n" (by decide)]
    rfl

end Session

end NameScope
