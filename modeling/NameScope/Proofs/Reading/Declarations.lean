import NameScope.Proofs.Reading.Malformed
import NameScope.Proofs.Session.Commit

/-
  What a unit declares.  Which declarations a unit has is said here by looking at its tree only: one
  for each child, in order, and in a function one for each declaration of its body, in pre-order
  (`Tree.Declares`).  Names are of no account in this: a declaration is kept whether its name is
  bound or refused, and a block that is left keeps what was declared in it.

  `readUnit_declares_children`: a tree that can be read leaves exactly these declarations, in this
  order, and no statement.
-/

namespace NameScope

variable {types : BuiltinTypes}

namespace Tree

/-! ## What a node declares -/

/-- `c` is the first among the children of `t` with the given symbol. -/
def IsFirst (t : Tree) (symbol : String) (c : Tree) : Prop :=
  ∃ before after, t.children = before ++ c :: after ∧ c.symbol = symbol ∧
    ∀ b ∈ before, b.symbol ≠ symbol

/-- `n` is what the first identifier among the children calls the node, and where it stands; a node
without one has no name. -/
inductive Names (t : Tree) : Named → Prop where
  | identifier {c : Tree} (first : t.IsFirst "identifier" c) :
      Names t ⟨c.label.text, c.label.token.map (·.pos)⟩
  | anonymous (none : ∀ c ∈ t.children, c.symbol ≠ "identifier") : Names t ⟨"", .none⟩

/-- The node declares a name with a type, which its first type specifier names. -/
structure DeclaresValue (types : BuiltinTypes) (t : Tree) (v : Valued) : Prop where
  names : t.Names v.toNamed
  typed : ∃ c, t.IsFirst "type_specifier" c ∧ types.ofName? c.label.text = some v.type

/-- The node declares a variable or a parameter; nothing initializes it. -/
structure DeclaresVariable (types : BuiltinTypes) (t : Tree) (v : Variable) : Prop where
  value : t.DeclaresValue types v.toValued
  init : v.init = none

/-- The node declares a function, with the nodes in its parameter lists as parameters. When it has
been read all its blocks are closed, and the declarations of its body are its declarations. -/
structure DeclaresFunction (types : BuiltinTypes) (rule : RedeclarationRule) (t : Tree)
    (f : Func Decl) : Prop where
  value : t.DeclaresValue types f.toValued
  params : List.Forall₂ (DeclaresVariable types) t.parameterNodes f.params
  body : f.body = none
  blocks : f.scope.blocks = { tables := [], rule := rule }
  locals : ∃ vars, List.Forall₂ (DeclaresVariable types) t.bodyDeclarations vars ∧
    f.scope.decls = vars.map Decl.var

/-- `d` is what a child of the tree of a unit declares. -/
inductive Declares (types : BuiltinTypes) (rule : RedeclarationRule) (t : Tree) :
    Decl → Prop where
  | declaration {v : Variable} (symbol : t.symbol = "declaration")
      (declares : t.DeclaresVariable types v) : Declares types rule t (.var v)
  | function {f : Func Decl} (symbol : t.symbol = "function_definition")
      (declares : t.DeclaresFunction types rule f) : Declares types rule t (.func f)
  | struct {n : Named} (symbol : t.symbol = "struct_specifier") (names : t.Names n) :
      Declares types rule t (.record { n with members := [], isStruct := true })
  | union {n : Named} (symbol : t.symbol = "union_specifier") (names : t.Names n) :
      Declares types rule t (.record { n with members := [], isStruct := false })
  | enumeration {n : Named} (symbol : t.symbol = "enum_specifier") (names : t.Names n) :
      Declares types rule t
        (.enumeration
          { n with
            enumerators := (t.children.filter (·.symbol = "enumerator")).map fun c =>
              ⟨c.label.text, none⟩ })

theorem isFirst_of_child? {t c : Tree} {symbol : String} (h : t.child? symbol = some c) :
    t.IsFirst symbol c := by
  obtain ⟨hsymbol, before, after, hchildren, hbefore⟩ := List.find?_eq_some_iff_append.1 h
  refine ⟨before, after, hchildren, of_decide_eq_true hsymbol, ?_⟩
  intro b hb
  simpa using hbefore b hb

theorem names_declared (t : Tree) : t.Names t.declared := by
  unfold declared declaredName declaredPos?
  cases hc : t.child? "identifier" with
  | some c => exact .identifier (isFirst_of_child? hc)
  | none =>
    refine .anonymous ?_
    intro c hc'
    simpa using List.find?_eq_none.1 hc c hc'

theorem declaresValue_of_ok {t : Tree} {v : Valued} (h : t.declaredValue types = .ok v) :
    t.DeclaresValue types v := by
  obtain ⟨hnamed, htype⟩ := declaredValue_ok h
  refine ⟨hnamed ▸ t.names_declared, ?_⟩
  unfold specifiedType at htype
  cases hc : t.child? "type_specifier" with
  | none => rw [hc] at htype; cases htype
  | some c =>
    rw [hc] at htype
    cases hname : types.ofName? c.label.text with
    | none => simp only [hname] at htype; cases htype
    | some type =>
      simp only [hname] at htype
      cases htype
      exact ⟨c, isFirst_of_child? hc, hname⟩

theorem declaresVariable_of_ok {t : Tree} {v : Variable} (h : t.declaredVariable types = .ok v) :
    t.DeclaresVariable types v :=
  ⟨declaresValue_of_ok (declaredVariable_ok h).1, (declaredVariable_ok h).2⟩

end Tree

/-! ## The body of a function -/

namespace OpenFunction

/-- `g` comes from `f` by declaring what the nodes declare, in order. -/
def Collects (f : OpenFunction) (types : BuiltinTypes) (nodes : List Tree) (g : OpenFunction) :
    Prop :=
  ∃ vars, List.Forall₂ (Tree.DeclaresVariable types) nodes vars ∧
    f.func.scope.Grows vars g.func.scope

theorem Collects.refl (f : OpenFunction) : f.Collects types [] f := ⟨[], .nil, .refl _⟩

theorem Collects.trans {f g h : OpenFunction} {ns ms : List Tree} (hfg : f.Collects types ns g)
    (hgh : g.Collects types ms h) : f.Collects types (ns ++ ms) h := by
  obtain ⟨vars, hvars, hgrows⟩ := hfg
  obtain ⟨vars', hvars', hgrows'⟩ := hgh
  exact ⟨vars ++ vars', List.rel_append hvars hvars', hgrows.trans hgrows'⟩

theorem collects_setTables (f : OpenFunction) (tables : List (NameTable Binding)) :
    f.Collects types [] (f.setTables tables) := ⟨[], .nil, .setTables _ tables⟩

theorem collects_declare (f : OpenFunction) {t : Tree} {v : Variable}
    (h : t.DeclaresVariable types v) (pos : Option Position) : f.Collects types [t] (f.declare v pos) :=
  ⟨[v], .cons h .nil, f.grows_step (.declare v pos)⟩

theorem collects_exit {f g : OpenFunction} {table : NameTable Binding}
    (h : f.exit = .ok (table, g)) : f.Collects types [] g := by
  have hstep := f.grows_step .exit
  simp only [step, h] at hstep
  exact ⟨[], .nil, hstep⟩

mutual

/-- A statement that can be read adds the declarations met in it. -/
theorem collects_readStatement : ∀ (t : Tree) (path : List Nat) (f : OpenFunction),
    (f.readStatement types t).2 = .ok () →
      f.Collects types (Tree.declarationsAmong (t.met path)) (f.readStatement types t).1
  | .node l cs, path, f, hok => by
    by_cases hd : l.symbol = "declaration"
    · have hself : Tree.declarationsAmong [(path, Tree.node l cs)] = [Tree.node l cs] := by
        simp [Tree.declarationsAmong, hd]
      rw [readStatement_declaration hd] at hok ⊢
      rw [Tree.met, if_pos (Or.inl hd), hself]
      cases hv : (Tree.node l cs).declaredVariable types with
      | error fault => rw [hv] at hok; cases hok
      | ok v => exact f.collects_declare (Tree.declaresVariable_of_ok hv) none
    · have hself : (Tree.node l cs).symbol ≠ "declaration" := hd
      rw [Tree.met, Tree.declarationsAmong_cons hself]
      by_cases hi : l.symbol = "identifier"
      · rw [readStatement_identifier hi, if_pos (Or.inr hi)]
        split
        · exact .refl f
        · refine ⟨[], .nil, ?_⟩
          rw [func_resolve]
          exact .refl _
      · rw [if_neg (not_or.2 ⟨hd, hi⟩)]
        by_cases hc : l.symbol = "compound_statement"
        · rw [readStatement_block hc] at hok ⊢
          cases hr : f.enter.readStatements types cs with
          | mk g result =>
            rw [hr] at hok
            cases result with
            | error fault => cases hok
            | ok _ =>
              have hcs := collects_readStatements cs path 0 f.enter (by rw [hr])
              obtain ⟨table, h, hexit, -⟩ := exit_readStatements types f cs (by rw [hr])
              rw [hr] at hcs hexit
              -- Leaving the block takes its table only: what was declared in it stays.
              have hall := ((f.collects_setTables _).trans hcs).trans (collects_exit hexit)
              rw [List.nil_append, List.append_nil] at hall
              simp only [hexit]
              exact hall
        · rw [readStatement_wrapper hd hc hi] at hok ⊢
          exact collects_readStatements cs path 0 f hok

theorem collects_readStatements : ∀ (ts : List Tree) (path : List Nat) (i : Nat) (f : OpenFunction),
    (f.readStatements types ts).2 = .ok () →
      f.Collects types (Tree.declarationsAmong (Tree.metAll path i ts))
        (f.readStatements types ts).1
  | [], _, _, f, _ => .refl f
  | t :: ts, path, i, f, hok => by
    rw [Tree.metAll, Tree.declarationsAmong_append]
    unfold readStatements at hok ⊢
    cases hr : f.readStatement types t with
    | mk g result =>
      rw [hr] at hok
      cases result with
      | error fault => cases hok
      | ok _ =>
        have ht := collects_readStatement t (path ++ [i]) f (by rw [hr])
        rw [hr] at ht
        exact ht.trans (collects_readStatements ts path (i + 1) g hok)

end

theorem collects_readBody {f : OpenFunction} {t : Tree} (hok : (f.readBody types t).2 = .ok ()) :
    f.Collects types t.bodyDeclarations (f.readBody types t).1 := by
  rw [Tree.bodyDeclarations_eq]
  exact collects_readStatements _ [] 0 f hok

end OpenFunction

/-! ## Children of a unit -/

namespace Session

/-- `s'` comes from `s` by declaring what the trees declare, in order. -/
structure Collects (s : Session) (types : BuiltinTypes) (ts : List Tree) (s' : Session) : Prop where
  decls : ∃ ds, s'.unit.decls = s.unit.decls ++ ds ∧
    List.Forall₂ (Tree.Declares types s.options.rule) ts ds
  stmts : s'.unit.stmts = s.unit.stmts
  options : s'.options = s.options

theorem Collects.refl (s : Session) : s.Collects types [] s :=
  ⟨⟨[], (List.append_nil _).symm, .nil⟩, rfl, rfl⟩

theorem Collects.trans {s s' s'' : Session} {ts us : List Tree} (h : s.Collects types ts s')
    (h' : s'.Collects types us s'') : s.Collects types (ts ++ us) s'' := by
  obtain ⟨ds, hds, hall⟩ := h.decls
  obtain ⟨ds', hds', hall'⟩ := h'.decls
  rw [h.options] at hall'
  refine ⟨⟨ds ++ ds', ?_, List.rel_append hall hall'⟩, h'.stmts.trans h.stmts,
    h'.options.trans h.options⟩
  rw [hds', hds, List.append_assoc]

/-- A declaration is kept, whether its name is bound or refused. -/
theorem collects_declare (s : Session) {t : Tree} {d : Decl} (h : t.Declares types s.options.rule d)
    (pos : Option Position) : s.Collects types [t] (s.declare d pos) := by
  have hall : List.Forall₂ (Tree.Declares types s.options.rule) [t] [d] := .cons h .nil
  have hdeclares := s.declares_declare d pos
  generalize s.declare d pos = s' at hdeclares ⊢
  cases hdeclares with
  | value _ _ => exact ⟨⟨[d], rfl, hall⟩, rfl, rfl⟩
  | tag _ _ => exact ⟨⟨[d], rfl, hall⟩, rfl, rfl⟩
  | other _ _ => exact ⟨⟨[d], rfl, hall⟩, rfl, rfl⟩

/-- A function whose body can be read is declared as it was opened, with the declarations of its
body and with all blocks closed. -/
theorem declaresFunction_of_ok (s : Session) {t : Tree} {func : Func Decl}
    (hfunc : t.declaredFunc types = .ok func)
    (hok : ((s.openFunction func).readBody types t).2 = .ok ()) :
    let f := ((s.openFunction func).readBody types t).1
    t.DeclaresFunction types s.options.rule (f.setBlocks f.blocks.closeAll).func := by
  intro f
  obtain ⟨hvalue, hparams, hbody, hscope⟩ := Tree.declaredFunc_ok hfunc
  obtain ⟨-, ⟨scope, hkept⟩, -⟩ :=
    (s.openFunction_keeps func none).trans (OpenFunction.keeps_readBody types _ t)
  obtain ⟨vars, hvars, hbodyGrows⟩ := OpenFunction.collects_readBody hok
  obtain ⟨tables, hgrown⟩ := (s.grows_runBody func none []).trans hbodyGrows
  have hclosed : (f.setBlocks f.blocks.closeAll).func =
      { func with
        scope :=
          { blocks := { tables := [], rule := s.options.rule }
            decls := vars.map Decl.var } } := by
    unfold OpenFunction.setBlocks OpenFunction.blocks Blocks.closeAll
    rw [hgrown, hkept, hscope]
    rfl
  rw [hclosed]
  exact
    { value := Tree.declaresValue_of_ok hvalue
      params := (forall₂_of_mapM hparams).imp fun _ _ => Tree.declaresVariable_of_ok
      body := hbody
      blocks := rfl
      locals := ⟨vars, hvars, rfl⟩ }

theorem collects_readFunction {s : Session} {t : Tree} (ht : t.symbol = "function_definition")
    (hok : (s.readFunction types t).2 = .ok ()) :
    s.Collects types [t] (s.readFunction types t).1 := by
  have hoptions := (s.later_readFunction types t).options
  unfold readFunction at hok hoptions ⊢
  cases hfunc : t.declaredFunc types with
  | error fault => rw [hfunc] at hok; cases hok
  | ok func =>
    have hkept := ((s.openFunction_keeps func none).trans
      (OpenFunction.keeps_readBody types _ t)).session
    have hdeclares := s.declaresFunction_of_ok hfunc
    cases hr : (s.openFunction func).readBody types t with
    | mk f result =>
      simp only [hfunc, hr] at hok hoptions hkept hdeclares ⊢
      cases result with
      | error fault => cases hok
      | ok _ =>
        refine ⟨⟨_, ?_, .cons (.function ht (hdeclares rfl)) .nil⟩, ?_, hoptions⟩
        · show f.session.unit.decls ++ [_] = _
          rw [hkept.unit_eq, decls_bindGlobal]
        · show f.session.unit.stmts = s.unit.stmts
          rw [hkept.unit_eq, stmts_bindGlobal]

theorem collects_readChild {s : Session} {t : Tree} (hok : (s.readChild types t).2 = .ok ()) :
    s.Collects types [t] (s.readChild types t).1 := by
  unfold readChild at hok ⊢
  split at hok
  · next hd =>
    cases hv : t.declaredVariable types with
    | error fault => rw [hv] at hok; cases hok
    | ok v => exact s.collects_declare (.declaration hd (Tree.declaresVariable_of_ok hv)) none
  · next hf =>
    have hfunction := @collects_readFunction types s t hf
    cases hr : s.readFunction types t with
    | mk s' result =>
      rw [hr] at hok hfunction
      cases result with
      | error fault => cases hok
      | ok _ => exact hfunction rfl
  · next hs =>
    exact s.collects_declare (.struct hs t.names_declared) none
  · next hu =>
    exact s.collects_declare (.union hu t.names_declared) none
  · next he =>
    exact s.collects_declare (.enumeration he t.names_declared) none
  · cases hok

theorem collects_readChildren {s : Session} {ts : List Tree}
    (hok : (s.readChildren types ts).2 = .ok ()) :
    s.Collects types ts (s.readChildren types ts).1 := by
  induction ts generalizing s with
  | nil => exact .refl s
  | cons t ts ih =>
    have ht := @collects_readChild types s t
    unfold readChildren at hok ⊢
    cases hr : s.readChild types t with
    | mk s' result =>
      rw [hr] at hok ht
      cases result with
      | error fault => cases hok
      | ok _ => exact (ht rfl).trans (ih hok)

/-- **Declarations are kept in source order.** A tree that can be read, with any types and options,
leaves a unit without statements and with one declaration for each child, in the order of the
children: each is what its child declares by itself (`Tree.Declares`), with its kind, name, place
and type.  A function has its parameters in order and no block open, and its declarations are those
of its body in pre-order, however deep they are nested and whether or not their names could be
bound. -/
theorem readUnit_declares_children (types : BuiltinTypes) (options : Options) {t : Tree}
    (h : ((start options).readUnit types t).2 = .ok ()) :
    let unit := ((start options).readUnit types t).1.unit
    unit.stmts = [] ∧ List.Forall₂ (Tree.Declares types options.rule) t.children unit.decls := by
  unfold readUnit at h ⊢
  split at h
  · next ht =>
    rw [if_pos ht]
    obtain ⟨⟨ds, hds, hall⟩, hstmts, -⟩ := collects_readChildren h
    refine ⟨hstmts, ?_⟩
    rw [hds]
    exact hall
  · cases h

/-- The loop declares `i` once more, and so is the name of the function declared once more by the
last child: both are refused, and both declarations are there. -/
theorem readUnit_declares_children_refused :
    let inner : Tree := .block [.declaration "int" "i" ⟨4, 1⟩, .declaration "int" "j" ⟨5, 1⟩]
    let fn : Tree := .function "int" "main" ⟨2, 1⟩ [.declaration "int" "n" ⟨2, 1⟩]
      [.declaration "int" "i" ⟨3, 1⟩, .reduce "loop" [inner], .declaration "int" "k" ⟨6, 1⟩]
    let enumeration : Tree := .reduce "enum_specifier"
      [.token "enumerator" "red" ⟨7, 12⟩, .token "enumerator" "blue" ⟨7, 17⟩]
    let t : Tree := .unit
      [.reduce "union_specifier" [.token "identifier" "cell" ⟨1, 7⟩], fn, enumeration,
        .declaration "int" "main" ⟨8, 1⟩]
    let types : BuiltinTypes := .numbered
    let options : Options := {}
    let unit := ((start options).readUnit types t).1.unit
    let names (ds : List Decl) : List (Option Named) := ds.map (·.named?)
    let locals (d : Decl) : List Decl := (d.func?.map (·.scope.decls)).getD []
    ((start options).readUnit types t).2 = .ok () ∧
      ((start options).readUnit types t).1.diagnostics =
        [.scope (.redeclared "i" (some ⟨3, 5⟩) (some ⟨4, 5⟩)),
          .scope (.redeclared "main" (some ⟨2, 5⟩) (some ⟨8, 5⟩))] ∧
      unit.decls.map (·.kind) = [.record, .func, .enumeration, .var] ∧
      names unit.decls =
        [some ⟨"cell", some ⟨1, 7⟩⟩, some ⟨"main", some ⟨2, 5⟩⟩, some ⟨"", none⟩,
          some ⟨"main", some ⟨8, 5⟩⟩] ∧
      names (unit.decls.flatMap locals) =
        [some ⟨"i", some ⟨3, 5⟩⟩, some ⟨"i", some ⟨4, 5⟩⟩, some ⟨"j", some ⟨5, 5⟩⟩,
          some ⟨"k", some ⟨6, 5⟩⟩] ∧
      unit.stmts = [] ∧
      List.Forall₂ (Tree.Declares types options.rule) t.children unit.decls := by
  intro inner fn enumeration t types options unit names locals
  have hok : ((start options).readUnit types t).2 = .ok () :=
    ok_of_unitFault? types (Option.isNone_iff_eq_none.1 (by decide +kernel)) _
  have hreports : ((start options).readUnit types t).1.diagnostics =
      [.scope (.redeclared "i" (some ⟨3, 5⟩) (some ⟨4, 5⟩)),
        .scope (.redeclared "main" (some ⟨2, 5⟩) (some ⟨8, 5⟩))] := by
    decide +kernel
  have hkinds : unit.decls.map (·.kind) = [.record, .func, .enumeration, .var] := by
    decide +kernel
  have hnames : names unit.decls =
      [some ⟨"cell", some ⟨1, 7⟩⟩, some ⟨"main", some ⟨2, 5⟩⟩, some ⟨"", none⟩,
        some ⟨"main", some ⟨8, 5⟩⟩] := by
    decide +kernel
  have hlocals : names (unit.decls.flatMap locals) =
      [some ⟨"i", some ⟨3, 5⟩⟩, some ⟨"i", some ⟨4, 5⟩⟩, some ⟨"j", some ⟨5, 5⟩⟩,
        some ⟨"k", some ⟨6, 5⟩⟩] := by
    decide +kernel
  obtain ⟨hstmts, hall⟩ := readUnit_declares_children types options hok
  exact ⟨hok, hreports, hkinds, hnames, hlocals, hstmts, hall⟩

end Session

end NameScope
