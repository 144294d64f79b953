import NameScope.Proofs.Reading.Agrees
import NameScope.Proofs.Reading.Frame

/-
  Reading a function reports what the law of scoping reports.  Each statement keeps `Agrees` and
  adds the reports of the law on the nodes that are met in it (`readStatement_follows`), by
  induction on the tree; a nested block is opened and closed around its statements.  Parameters
  are bound in the outermost block before the body is read, and so a whole function, and each
  function of a unit, reports what the law says (`readUnit_reports_lexically`).
-/

namespace NameScope

variable {types : BuiltinTypes}

open Local

namespace LexicalBody

variable {b : LexicalBody}

/-! ## Statements -/

/-- `g` is what reading some nodes of the body makes of `f`. -/
structure Follows (b : LexicalBody) (path : List Nat) (earlier : List Local)
    (nodes : List (List Nat × Tree)) (f g : OpenFunction) : Prop where
  agrees : b.Agrees path (b.locals earlier nodes) g
  diagnostics : g.session.diagnostics = f.session.diagnostics ++ b.reports earlier nodes

namespace Follows

variable {path : List Nat} {earlier : List Local} {ns ms : List (List Nat × Tree)}
  {f g h : OpenFunction}

theorem nil (hf : b.Agrees path earlier f) : b.Follows path earlier [] f f :=
  ⟨hf, (List.append_nil _).symm⟩

theorem append (hfg : b.Follows path earlier ns f g)
    (hgh : b.Follows path (b.locals earlier ns) ms g h) :
    b.Follows path earlier (ns ++ ms) f h where
  agrees := by
    rw [locals_append]
    exact hgh.agrees
  diagnostics := by rw [hgh.diagnostics, hfg.diagnostics, reports_append, List.append_assoc]

/-- A node that is not a declaration or an identifier counts for what is in it. -/
theorem inside {t : Tree} {q : List Nat} (hd : t.symbol ≠ "declaration")
    (hi : t.symbol ≠ "identifier") (hfg : b.Follows path earlier ns f g) :
    b.Follows path earlier ((q, t) :: ns) f g where
  agrees := by
    rw [locals, noteNode, if_neg hd]
    exact hfg.agrees
  diagnostics := by
    rw [reports, noteNode, report, if_neg hd, if_neg hd, if_neg hi]
    exact hfg.diagnostics

theorem move {q : List Nat} (hfg : b.Follows path earlier ns f g)
    (hq : b.enclosing q = b.enclosing path) : b.Follows q earlier ns f g :=
  ⟨hfg.agrees.move hq, hfg.diagnostics⟩

theorem declaration {t : Tree} {q : List Nat} {v : Variable} (hf : b.Agrees path earlier f)
    (hq : b.enclosing q = b.enclosing path) (ht : t.symbol = "declaration")
    (hv : t.declaredVariable types = .ok v) : b.Follows path earlier [(q, t)] f (f.declare v) := by
  obtain ⟨ha, hd⟩ := (hf.move hq).declare hv
  refine ⟨?_, ?_⟩
  · rw [locals, locals, noteNode, if_pos ht]
    exact ha.move hq.symm
  · rw [reports, reports, List.append_nil, report, if_pos ht]
    exact hd

theorem identifier {l : Label} {cs : List Tree} {q : List Nat} (hf : b.Agrees path earlier f)
    (hq : b.enclosing q = b.enclosing path) (hi : l.symbol = "identifier") :
    b.Follows path earlier [(q, .node l cs)] f (f.readStatement types (.node l cs)).1 := by
  have hd : (Tree.node l cs).symbol ≠ "declaration" := by
    rw [Tree.symbol_node, hi]
    decide
  have hreports : b.reports earlier [(q, .node l cs)] = b.undefined earlier q l.text l.pos? := by
    rw [reports, reports, List.append_nil, report, if_neg hd, Tree.symbol_node, if_pos hi]
    rfl
  have hlocals : b.locals earlier [(q, .node l cs)] = earlier := by
    rw [locals, locals, noteNode, if_neg hd]
  rw [OpenFunction.readStatement_identifier hi]
  by_cases htext : l.text = ""
  · have hnone : b.undefined earlier q l.text l.pos? = [] := if_pos (Or.inl htext)
    rw [if_pos htext]
    refine ⟨?_, ?_⟩
    · rw [hlocals]
      exact hf
    · rw [hreports, hnone, List.append_nil]
  · obtain ⟨ha, hdiag⟩ := (hf.move hq).resolve htext l.pos?
    rw [if_neg htext]
    refine ⟨?_, ?_⟩
    · rw [hlocals]
      exact ha.move hq.symm
    · rw [hreports]
      exact hdiag

/-- What is declared in a nested block stays in its own blocks, and so it does not matter when the
block ends. -/
theorem leave {i : Nat} {cs : List Tree} (hf : b.Agrees path earlier f)
    (hblock : b.isBlock (path ++ [i]) = true)
    (hg : b.Follows (path ++ [i]) earlier (Tree.metAll (path ++ [i]) 0 cs) f.enter g) :
    ∃ table h, g.exit = .ok (table, h) ∧
      b.Follows path earlier (Tree.metAll (path ++ [i]) 0 cs) f h := by
  have hsettled : Settled b.rule (b.enclosing path)
      (b.locals earlier (Tree.metAll (path ++ [i]) 0 cs)) :=
    hf.settled.adds (locals_metAll_adds hblock earlier cs)
  obtain ⟨table, h, hexit, ha, hsession⟩ := hg.agrees.exit hblock hsettled
  refine ⟨table, h, hexit, ha, ?_⟩
  rw [hsession, hg.diagnostics]
  rfl

end Follows

mutual

/-- Reading a statement reports what the law reports on the nodes that are met in it. -/
theorem readStatement_follows (b : LexicalBody) : ∀ (t : Tree) {path : List Nat} {i : Nat}
    {earlier : List Local} {f : OpenFunction}, b.block.at? (path ++ [i]) = some t →
    b.Agrees path earlier f → Fresh earlier (path ++ [i]) → (f.readStatement types t).2 = .ok () →
    b.Follows path earlier (t.met (path ++ [i])) f (f.readStatement types t).1
  | .node l cs, path, i, earlier, f, hat, hf, hfresh, hok => by
    -- The children of the node, in case reading goes on with them.
    have hchildren : ∀ j t, cs[j]? = some t →
        b.block.at? ((path ++ [i]) ++ [0 + j]) = some t := by
      intro j t hj
      rw [Tree.at?_concat, hat, Nat.zero_add]
      exact hj
    have hinner : ∀ j, 0 ≤ j → Fresh earlier ((path ++ [i]) ++ [j]) := by
      intro j _
      exact hfresh.concat j
    by_cases hd : l.symbol = "declaration"
    · rw [OpenFunction.readStatement_declaration hd] at hok ⊢
      rw [Tree.met, if_pos (Or.inl hd)]
      cases hv : (Tree.node l cs).declaredVariable types with
      | error fault => rw [hv] at hok; cases hok
      | ok v =>
        have hq : b.enclosing (path ++ [i]) = b.enclosing path :=
          enclosing_of_not_block hat (by rw [Tree.symbol_node, hd]; decide)
        exact Follows.declaration hf hq hd hv
    · by_cases hi : l.symbol = "identifier"
      · have hq : b.enclosing (path ++ [i]) = b.enclosing path :=
          enclosing_of_not_block hat (by rw [Tree.symbol_node, hi]; decide)
        rw [Tree.met, if_pos (Or.inr hi)]
        exact Follows.identifier hf hq hi
      · rw [Tree.met, if_neg (not_or.2 ⟨hd, hi⟩)]
        refine Follows.inside hd hi ?_
        -- A block opens a table for its statements; any other node is transparent.
        by_cases hc : l.symbol = "compound_statement"
        · rw [OpenFunction.readStatement_block hc] at hok ⊢
          have hblock : b.isBlock (path ++ [i]) = true := (isBlock_iff hat).2 hc
          cases hr : f.enter.readStatements types cs with
          | mk g result =>
            rw [hr] at hok
            cases result with
            | error fault => cases hok
            | ok _ =>
              have hg := readStatements_follows b cs hchildren (hf.enter hblock hfresh) hinner
                (by rw [hr])
              rw [hr] at hg
              obtain ⟨table, h, hexit, hh⟩ := Follows.leave hf hblock hg
              simp only [hexit]
              exact hh
        · rw [OpenFunction.readStatement_wrapper hd hc hi] at hok ⊢
          have hq : b.enclosing (path ++ [i]) = b.enclosing path := enclosing_of_not_block hat hc
          exact (readStatements_follows b cs hchildren (hf.move hq) hinner hok).move hq.symm

theorem readStatements_follows (b : LexicalBody) : ∀ (ts : List Tree) {path : List Nat} {i : Nat}
    {earlier : List Local} {f : OpenFunction},
    (∀ j t, ts[j]? = some t → b.block.at? (path ++ [i + j]) = some t) →
    b.Agrees path earlier f → (∀ j, i ≤ j → Fresh earlier (path ++ [j])) →
    (f.readStatements types ts).2 = .ok () →
    b.Follows path earlier (Tree.metAll path i ts) f (f.readStatements types ts).1
  | [], path, i, earlier, f, _, hf, _, _ => by
    unfold OpenFunction.readStatements
    exact Follows.nil hf
  | t :: ts, path, i, earlier, f, hat, hf, hfresh, hok => by
    have hhead : b.block.at? (path ++ [i]) = some t := hat 0 t rfl
    have htail : ∀ j t, ts[j]? = some t → b.block.at? (path ++ [(i + 1) + j]) = some t := by
      intro j u hj
      rw [Nat.add_right_comm i 1 j]
      exact hat (j + 1) u hj
    unfold OpenFunction.readStatements at hok ⊢
    rw [Tree.metAll]
    cases hr : f.readStatement types t with
    | mk g result =>
      rw [hr] at hok
      cases result with
      | error fault => cases hok
      | ok _ =>
        have hg := readStatement_follows b t hhead hf (hfresh i (Nat.le_refl i)) (by rw [hr])
        rw [hr] at hg
        have hlater : ∀ j, i + 1 ≤ j →
            Fresh (b.locals earlier (t.met (path ++ [i]))) (path ++ [j]) := by
          intro j hj
          have hj' : i ≤ j := by omega
          exact (hfresh j hj').met (by omega) t
        exact hg.append (readStatements_follows b ts htail hg.agrees hlater hok)

end

/-! ## Bodies -/

theorem Agrees.bindParams {path : List Nat} {locals : List Local} {f : OpenFunction}
    (h : b.Agrees path locals f) (params : List Variable) :
    b.Agrees path (b.noteAll path locals (params.map (·.toNamed)))
      (params.foldl OpenFunction.bindParam f) := by
  induction params generalizing locals f with
  | nil => exact h
  | cons p params ih =>
    have hp : b.Agrees path (b.note locals path p.toNamed) (f.bindParam p) := by
      unfold OpenFunction.bindParam
      dsimp only
      split
      · exact ((h.report _).bindLocal p.toNamed p.type).1
      · exact (h.bindLocal p.toNamed p.type).1
    exact ih hp

/-- Reading a body reports what the law reports. -/
theorem diagnostics_readBody {t : Tree} {options : Options} {globals : List String}
    {f : OpenFunction}
    (hf : (t.lexicalBody options globals).Agrees [] (t.lexicalBody options globals).paramLocals f)
    (hok : (f.readBody types t).2 = .ok ()) :
    (f.readBody types t).1.session.diagnostics =
      f.session.diagnostics ++ (t.lexicalBody options globals).diagnostics := by
  have hat : ∀ j u, t.outermostBlock.children[j]? = some u →
      (t.lexicalBody options globals).block.at? ([] ++ [0 + j]) = some u := by
    intro j u hj
    rw [Tree.at?_concat, Nat.zero_add]
    exact hj
  have hfresh : ∀ j, 0 ≤ j → Fresh (t.lexicalBody options globals).paramLocals ([] ++ [j]) := by
    intro j _
    exact fresh_paramLocals _ j
  have hitems := readStatements_follows _ t.outermostBlock.children hat hf hfresh hok
  have hroot : t.outermostBlock.symbol = "compound_statement" := rfl
  have hbody : (t.lexicalBody options globals).Follows [] _ _ f (f.readBody types t).1 :=
    hitems.inside (t := t.outermostBlock) (q := []) (by rw [hroot]; decide) (by rw [hroot]; decide)
  exact hbody.diagnostics

end LexicalBody

namespace Tree

theorem toNamed_of_mapM_declaredVariable {ts : List Tree} {params : List Variable}
    (h : ts.mapM (·.declaredVariable types) = .ok params) :
    params.map (·.toNamed) = ts.map (·.declared) := by
  have hall := forall₂_of_mapM h
  clear h
  induction hall with
  | nil => rfl
  | cons ht _ ih => rw [List.map_cons, List.map_cons, toNamed_of_declaredVariable ht, ih]

/-- The parts of a function that its node declares. -/
theorem declaredFunc_parts {t : Tree} {func : Func Decl} (h : t.declaredFunc types = .ok func) :
    func.name = t.declaredName ∧ func.params.map (·.toNamed) = t.parameters ∧
      func.scope.blocks = {} := by
  obtain ⟨hvalue, hparams, -, hscope⟩ := declaredFunc_ok h
  have hname : func.name = t.declaredName := congrArg Named.name (declaredValue_ok hvalue).1
  exact ⟨hname, toNamed_of_mapM_declaredVariable hparams, congrArg Scope.blocks hscope⟩

end Tree

/-! ## Functions and units -/

namespace Session

/-- The global names in the body of a function: those of the session, and then the function's own
name if no other global has it. -/
def globalsIn (s : Session) (name : String) : List String :=
  s.unit.table.names ++ if s.IsFree name then [name] else []

theorem names_bindGlobal (s : Session) (name : String) (b : Binding) :
    (s.bindGlobal name b).unit.table.names = s.globalsIn name := by
  unfold globalsIn
  by_cases h : s.IsFree name
  · rw [bindGlobal_of_free h, if_pos h]
    exact (NameTable.names_insert _ _ _).trans (if_neg h.2)
  · rw [(bindGlobal_of_not_free h b).unit_eq, if_neg h, List.append_nil]

/-- An open function with its parameters agrees with the law where the body begins. -/
theorem openFunction_agrees (s : Session) {t : Tree} {func : Func Decl}
    (h : t.declaredFunc types = .ok func) :
    (t.lexicalBody s.options (s.globalsIn t.declaredName)).Agrees []
      (t.lexicalBody s.options (s.globalsIn t.declaredName)).paramLocals (s.openFunction func) := by
  obtain ⟨hname, hparams, hblocks⟩ := Tree.declaredFunc_parts h
  have hoptions := (later_bindGlobal s func.name ⟨func.type, none <|> func.pos⟩).options
  have hglobals := names_bindGlobal s func.name ⟨func.type, none <|> func.pos⟩
  have hstart : (t.lexicalBody s.options (s.globalsIn t.declaredName)).Agrees [] []
      ((OpenFunction.mk (s.bindGlobal func.name ⟨func.type, none <|> func.pos⟩) func
        (if s.IsFree func.name then some func.name else none)).setBlocks
          { tables := [.empty], rule := s.options.rule }) :=
    { rule := rfl
      tables := by rw [LexicalBody.enclosing_nil]; rfl
      globals := by rw [← hname]; exact hglobals
      limit := congrArg Options.maxSuggestions hoptions
      settled := Settled.nil _ _ }
  have hall := hstart.bindParams func.params
  rw [hparams] at hall
  unfold openFunction
  dsimp only
  rw [hblocks, isFree_iff, hoptions]
  simp only [decide_eq_true_eq]
  exact hall

/-- Reading a function reports first on its name and its parameters, and then what the law of
scoping reports on its body. -/
theorem diagnostics_readFunction {s : Session} {t : Tree}
    (hok : (s.readFunction types t).2 = .ok ()) :
    ∃ func, t.declaredFunc types = .ok func ∧
      (s.readFunction types t).1.diagnostics = (s.openFunction func).session.diagnostics ++
        (t.lexicalBody s.options (s.globalsIn t.declaredName)).diagnostics := by
  unfold readFunction at hok ⊢
  cases hfunc : t.declaredFunc types with
  | error fault => rw [hfunc] at hok; cases hok
  | ok func =>
    simp only [hfunc] at hok ⊢
    refine ⟨func, rfl, ?_⟩
    cases hbody : (s.openFunction func).readBody types t with
    | mk f result =>
      rw [hbody] at hok
      cases result with
      | error fault => cases hok
      | ok _ =>
        have hdiag := LexicalBody.diagnostics_readBody (s.openFunction_agrees hfunc) (by rw [hbody])
        rw [hbody] at hdiag
        exact hdiag

/-- **Scoping is lexical.** Where a unit can be read, the reports on each function are those on its
name and its parameters, and then exactly those that the law of scoping makes on its body, in
pre-order; and they stay.  The session, its options, the types and the tree are any. -/
theorem readUnit_reports_lexically {s : Session} {t fn : Tree} {i : Nat}
    (hok : (s.readUnit types t).2 = .ok ()) (hfn : t.children[i]? = some fn)
    (hsymbol : fn.symbol = "function_definition") :
    let before := (s.readChildren types (t.children.take i)).1
    let after := (s.readChildren types (t.children.take (i + 1))).1
    ∃ func, fn.declaredFunc types = .ok func ∧
      after.diagnostics = (before.openFunction func).session.diagnostics ++
        (fn.lexicalBody s.options (before.globalsIn fn.declaredName)).diagnostics ∧
      after.diagnostics <+: (s.readUnit types t).1.diagnostics := by
  intro before after
  have hunit : s.readUnit types t = s.readChildren types t.children := by
    unfold readUnit at hok ⊢
    split at hok
    · rw [if_pos ‹_›]
    · cases hok
  rw [hunit] at hok ⊢
  obtain ⟨hafter, hstep, hrest⟩ := readChildren_split hok hfn
  obtain ⟨hread, heq⟩ := readChildren_function hsymbol (hstep ▸ hafter)
  obtain ⟨func, hfunc, hdiag⟩ := diagnostics_readFunction hread
  refine ⟨func, hfunc, ?_, ?_⟩
  · have hoptions : before.options = s.options := (later_readChildren types s _).options
    show (s.readChildren types (t.children.take (i + 1))).1.diagnostics = _
    rw [hstep, heq, hdiag, hoptions]
  · rw [hrest]
    exact (later_readChildren types after (t.children.drop (i + 1))).diagnostics

/-- A nested block may not declare the parameter again, and what it declares ends with it. -/
theorem readUnit_reports_lexically_nested :
    let inner : Tree := .block [.declaration "int" "n" ⟨3, 5⟩, .declaration "int" "total" ⟨4, 5⟩]
    let fn : Tree := .function "int" "main" ⟨1, 1⟩ [.declaration "int" "n" ⟨2, 5⟩]
      [.reduce "loop" [inner], .token "identifier" "total" ⟨6, 5⟩]
    let t : Tree := .unit [fn]
    let types : BuiltinTypes := .numbered
    let s : Session := {}
    let before := (s.readChildren types (t.children.take 0)).1
    let after := (s.readChildren types (t.children.take 1)).1
    let law := fn.lexicalBody s.options (before.globalsIn fn.declaredName)
    (s.readUnit types t).2 = .ok () ∧ t.children[0]? = some fn ∧ fn.symbol = "function_definition" ∧
      law.diagnostics =
        [.scope (.redeclared "n" (some ⟨2, 9⟩) (some ⟨3, 9⟩)),
          .undefined "total" (some ⟨6, 5⟩) []] ∧
      ∃ func, fn.declaredFunc types = .ok func ∧
        after.diagnostics = (before.openFunction func).session.diagnostics ++ law.diagnostics ∧
        after.diagnostics <+: (s.readUnit types t).1.diagnostics := by
  intro inner fn t types s before after law
  have hok : (s.readUnit types t).2 = .ok () := rfl
  have hfn : t.children[0]? = some fn := rfl
  have hlaw : law.diagnostics =
      [.scope (.redeclared "n" (some ⟨2, 9⟩) (some ⟨3, 9⟩)),
        .undefined "total" (some ⟨6, 5⟩) []] := by
    decide +kernel
  have hsymbol : fn.symbol = "function_definition" := rfl
  exact ⟨hok, hfn, hsymbol, hlaw, readUnit_reports_lexically hok hfn hsymbol⟩

end Session

end NameScope
