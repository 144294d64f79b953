import NameScope.Proofs.Tree.Relabel
import NameScope.Session.Reading

/-
  What reading looks at.  Of a label it looks at the symbol, the text and the place of the token,
  and at nothing else: not at the class of the symbol, the rank, the action, or the text and symbol
  that the token itself has.  `readUnit_sees_essence`: trees of one shape that agree in these three
  parts at every node are read in the same way from every session.

  A change of labels that keeps the three parts does not change what a node declares
  (`declaredFunc_relabel`) or how it is read (`readUnit_relabel`).  Trees that agree in them become
  the same tree when everything else is wiped from their labels.
-/

namespace NameScope

/-- The parts of a label that reading looks at. -/
structure Essence where
  symbol : String
  text : String
  pos : Option Position
deriving DecidableEq

namespace Label

def essence (l : Label) : Essence := ⟨l.symbol, l.text, l.pos?⟩

/-- The label with everything wiped out that reading does not look at. -/
def wiped (l : Label) : Label where
  symbolClass := .terminal
  text := l.text
  symbol := l.symbol
  token := l.token.map fun k => ⟨"", "", k.pos⟩

theorem essence_wiped (l : Label) : l.wiped.essence = l.essence := by
  simp only [essence, wiped, pos?, Option.map_map, Function.comp_def]

theorem wiped_eq {l m : Label} (h : l.essence = m.essence) : l.wiped = m.wiped := by
  simp only [essence, Essence.mk.injEq, pos?] at h
  obtain ⟨hsymbol, htext, hpos⟩ := h
  have htoken := congrArg (Option.map fun pos => (⟨"", "", pos⟩ : Token)) hpos
  rw [Option.map_map, Option.map_map] at htoken
  simp only [wiped, hsymbol, htext, mk.injEq, true_and]
  exact htoken

end Label

/-! ## What a node declares -/

section Relabel

variable {f : Label → Label} (types : BuiltinTypes) (hf : ∀ l, (f l).essence = l.essence)

namespace Tree

theorem children_relabel (f : Label → Label) (t : Tree) :
    (t.relabel f).children = t.children.map (relabel f) := by
  obtain ⟨l, cs⟩ := t
  rw [relabel, relabelAll_eq_map]
  rfl

include hf

theorem symbol_relabel (t : Tree) : (t.relabel f).symbol = t.symbol := by
  rw [symbol, label_relabel]
  exact congrArg Essence.symbol (hf t.label)

theorem text_relabel (t : Tree) : (t.relabel f).label.text = t.label.text := by
  rw [label_relabel]
  exact congrArg Essence.text (hf t.label)

theorem pos?_relabel (t : Tree) : (t.relabel f).label.pos? = t.label.pos? := by
  rw [label_relabel]
  exact congrArg Essence.pos (hf t.label)

theorem child?_relabel (symbol : String) (t : Tree) :
    (t.relabel f).child? symbol = (t.child? symbol).map (relabel f) := by
  rw [child?, child?, children_relabel, List.find?_map]
  simp only [Function.comp_def, symbol_relabel hf]

theorem filter_children_relabel (symbol : String) (t : Tree) :
    (t.relabel f).children.filter (·.symbol = symbol) =
      (t.children.filter (·.symbol = symbol)).map (relabel f) := by
  rw [children_relabel, List.filter_map]
  simp only [Function.comp_def, symbol_relabel hf]

theorem inside_relabel (symbol : String) (t : Tree) :
    ((t.relabel f).children.filter (·.symbol = symbol)).flatMap (·.children) =
      ((t.children.filter (·.symbol = symbol)).flatMap (·.children)).map (relabel f) := by
  rw [filter_children_relabel hf, List.flatMap_map, List.map_flatMap]
  simp only [children_relabel]

theorem declaredName_relabel (t : Tree) : (t.relabel f).declaredName = t.declaredName := by
  rw [declaredName, declaredName, child?_relabel hf, Option.map_map]
  simp only [Function.comp_def, text_relabel hf]

theorem declared_relabel (t : Tree) : (t.relabel f).declared = t.declared := by
  have hpos : (t.relabel f).declaredPos? = t.declaredPos? := by
    rw [declaredPos?, declaredPos?, child?_relabel hf, Option.bind_map]
    simp only [Function.comp_def, pos?_relabel hf]
  rw [declared, declared, declaredName_relabel hf, hpos]

theorem specifiedType_relabel (t : Tree) :
    (t.relabel f).specifiedType types = t.specifiedType types := by
  rw [specifiedType, specifiedType, child?_relabel hf, symbol_relabel hf]
  cases t.child? "type_specifier" with
  | none => rfl
  | some specifier =>
    rw [Option.map_some]
    dsimp only
    rw [text_relabel hf]

theorem declaredValue_relabel (t : Tree) :
    (t.relabel f).declaredValue types = t.declaredValue types := by
  rw [declaredValue, declaredValue, declared_relabel hf, specifiedType_relabel types hf]

theorem declaredVariable_relabel (t : Tree) :
    (t.relabel f).declaredVariable types = t.declaredVariable types := by
  rw [declaredVariable, declaredVariable, declaredValue_relabel types hf]

theorem declaredRecord_relabel (isStruct : Bool) (t : Tree) :
    (t.relabel f).declaredRecord isStruct = t.declaredRecord isStruct := by
  rw [declaredRecord, declaredRecord, declared_relabel hf]

theorem declaredEnumeration_relabel (t : Tree) :
    (t.relabel f).declaredEnumeration = t.declaredEnumeration := by
  rw [declaredEnumeration, declaredEnumeration, declared_relabel hf, filter_children_relabel hf,
    List.map_map]
  simp only [Function.comp_def, text_relabel hf]

theorem declaredFunc_relabel (t : Tree) :
    (t.relabel f).declaredFunc types = t.declaredFunc types := by
  rw [declaredFunc, declaredFunc, declaredValue_relabel types hf]
  simp only [inside_relabel hf, List.mapM_map, Function.comp_def, declaredVariable_relabel types hf]

end Tree

/-! ## Reading -/

namespace OpenFunction

mutual

theorem readStatement_relabel (hf : ∀ l, (f l).essence = l.essence) :
    ∀ (t : Tree) (g : OpenFunction), g.readStatement types (t.relabel f) = g.readStatement types t
  | .node l cs, g => by
    have hvariable := Tree.declaredVariable_relabel types hf (.node l cs)
    have hinside := readStatements_relabel hf cs
    have hessence := hf l
    simp only [Label.essence, Essence.mk.injEq] at hessence
    obtain ⟨hsymbol, htext, hpos⟩ := hessence
    rw [Tree.relabel] at hvariable ⊢
    rw [readStatement, readStatement, hsymbol, htext, hpos, hvariable, hinside, hinside]

theorem readStatements_relabel (hf : ∀ l, (f l).essence = l.essence) :
    ∀ (ts : List Tree) (g : OpenFunction),
      g.readStatements types (Tree.relabelAll f ts) = g.readStatements types ts
  | [], g => rfl
  | t :: ts, g => by
    rw [Tree.relabelAll, readStatements, readStatements, readStatement_relabel hf t g]
    cases g.readStatement types t with
    | mk g' result =>
      cases result with
      | error fault => rfl
      | ok _ => exact readStatements_relabel hf ts g'

end

include hf in
theorem readBody_relabel (g : OpenFunction) (t : Tree) :
    g.readBody types (t.relabel f) = g.readBody types t := by
  rw [readBody, readBody, Tree.inside_relabel hf, ← Tree.relabelAll_eq_map,
    readStatements_relabel types hf]

end OpenFunction

namespace Session

include hf

theorem readFunction_relabel (s : Session) (t : Tree) :
    s.readFunction types (t.relabel f) = s.readFunction types t := by
  rw [readFunction, readFunction, Tree.declaredFunc_relabel types hf]
  simp only [OpenFunction.readBody_relabel types hf]

theorem readChild_relabel (s : Session) (t : Tree) :
    s.readChild types (t.relabel f) = s.readChild types t := by
  simp only [readChild, Tree.symbol_relabel hf, Tree.declaredVariable_relabel types hf,
    readFunction_relabel types hf, Tree.declaredName_relabel hf, Tree.declaredRecord_relabel hf,
    Tree.declaredEnumeration_relabel hf]

theorem readChildren_relabel (s : Session) (ts : List Tree) :
    s.readChildren types (ts.map (Tree.relabel f)) = s.readChildren types ts := by
  induction ts generalizing s with
  | nil => rfl
  | cons t ts ih =>
    rw [List.map_cons, readChildren, readChildren, readChild_relabel types hf]
    simp only [ih]

theorem readUnit_relabel (s : Session) (t : Tree) :
    s.readUnit types (t.relabel f) = s.readUnit types t := by
  rw [readUnit, readUnit, Tree.symbol_relabel hf, Tree.children_relabel,
    readChildren_relabel types hf]

end Session

end Relabel

/-! ## Trees that agree -/

namespace Tree

/-- The tree has the same paths as the other one, and at the end of each a label of the same
essence. -/
def SameEssence (t u : Tree) : Prop :=
  ∀ path, (t.at? path).map (·.label.essence) = (u.at? path).map (·.label.essence)

theorem sameEssence_relabel {f : Label → Label} (hf : ∀ l, (f l).essence = l.essence) (t : Tree) :
    t.SameEssence (t.relabel f) := by
  intro path
  rw [at?_relabel, Option.map_map]
  simp only [Function.comp_def, label_relabel, hf]

theorem SameEssence.wiped_eq {t u : Tree} (h : t.SameEssence u) :
    t.relabel Label.wiped = u.relabel Label.wiped := by
  refine eq_of_at? fun path => ?_
  have hpath := h path
  rw [at?_relabel, at?_relabel, Option.map_map, Option.map_map]
  simp only [Function.comp_def, label_relabel]
  cases ht : t.at? path with
  | none =>
    rw [ht, Option.map_none, eq_comm, Option.map_eq_none_iff] at hpath
    rw [hpath]
  | some n =>
    rw [ht, Option.map_some, eq_comm, Option.map_eq_some_iff] at hpath
    obtain ⟨m, hm, hessence⟩ := hpath
    rw [hm, Option.map_some, Option.map_some, Label.wiped_eq hessence]

end Tree

namespace Session

/-- **Reading sees nothing but symbols, texts and places.** Two trees with the same paths, and at
the end of each path labels with the same symbol, the same text and the same place of the token, are
read in the same way from every session, with any types: either both to the end or both up to the
same fault, and with the same unit, tags and reports. -/
theorem readUnit_sees_essence (types : BuiltinTypes) (s : Session) {t u : Tree}
    (h : t.SameEssence u) : s.readUnit types t = s.readUnit types u := by
  calc s.readUnit types t = s.readUnit types (t.relabel Label.wiped) :=
        (readUnit_relabel types Label.essence_wiped s t).symm
    _ = s.readUnit types (u.relabel Label.wiped) := by rw [h.wiped_eq]
    _ = s.readUnit types u := readUnit_relabel types Label.essence_wiped s u

/-- A parser that numbers no siblings, attaches an action to every node, calls every node a terminal
and spells its tokens in another way leaves a tree that is read with the same report. -/
theorem readUnit_sees_essence_renamed :
    let t : Tree := .unit
      [.function "int" "main" ⟨1, 1⟩ [] [.token "identifier" "total" ⟨2, 3⟩]]
    let u := t.relabel fun l =>
      { l with
        symbolClass := .terminal, rank := 0, action := .named "reduce"
        token := l.token.map fun k => ⟨k.text ++ " ", "token", k.pos⟩ }
    let types : BuiltinTypes := .numbered
    let s : Session := {}
    t.SameEssence u ∧ t ≠ u ∧ s.readUnit types t = s.readUnit types u ∧
      (s.readUnit types u).1.diagnostics = [.undefined "total" (some ⟨2, 3⟩) []] := by
  intro t u types s
  have hsame : t.SameEssence u := Tree.sameEssence_relabel (fun l => by
    simp only [Label.essence, Label.pos?, Option.map_map, Function.comp_def]) t
  have hne : t ≠ u := fun h => absurd (congrArg (·.label.symbolClass) h) (by decide)
  have hread := s.readUnit_sees_essence types hsame
  refine ⟨hsame, hne, hread, ?_⟩
  rw [← hread]
  decide +kernel

end Session

end NameScope
