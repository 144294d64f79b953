import NameScope.Proofs.Reading.Nesting
import NameScope.Proofs.Reading.Scoping

/-
  Which trees cannot be read.  Reading fails on malformed trees and on nothing else.  What makes a
  tree malformed is said here without any session: a node that must have a type has none, or one
  that is not known (`Tree.typeFault?`); a child of the unit has a symbol that units do not have
  (`Tree.childFault?`); or the tree is no unit at all (`Tree.unitFault?`).  Nodes are looked at in
  the order in which they are read, so the fault of a tree is that of its first malformed node.

  `readUnit_fails_on_malformed`: reading gives exactly this fault, whatever the session is.  No
  redeclaration, no unknown name and no option can stop it, and no block is left that is not open:
  a statement that can be read leaves as many blocks open as it has found.
-/

namespace NameScope

/-! ## Types of nodes -/

/-- The names that stand for a type. -/
def BuiltinTypes.names : List String := ["int", "float", "char", "void"]

theorem BuiltinTypes.ofName?_eq_none_iff (types : BuiltinTypes) (name : String) :
    types.ofName? name = none ↔ name ∉ names := by
  unfold ofName? names
  split
  · simp
  · simp
  · simp
  · simp
  · simp_all

/-- The fault with which a reading ends. -/
def TreeFault.of? {α : Type} : Except TreeFault α → Option TreeFault
  | .ok _ => none
  | .error fault => some fault

/-- Whether the fault is one of names in blocks, at its innermost cause. -/
def TreeFault.isScope : TreeFault → Bool
  | scope _ => true
  | inFunction _ cause => cause.isScope
  | _ => false

namespace Tree

/-- The first type specifier of the node names a type. -/
def IsTyped (t : Tree) : Prop :=
  ∃ specifier, t.child? "type_specifier" = some specifier ∧
    specifier.label.text ∈ BuiltinTypes.names

/-- What is wrong with the type of the node. -/
def typeFault? (t : Tree) : Option TreeFault :=
  match t.child? "type_specifier" with
  | none => some (.untyped t.symbol)
  | some specifier =>
    if specifier.label.text ∈ BuiltinTypes.names then none
    else some (.unknownType specifier.label.text)

theorem typeFault?_eq_none_iff (t : Tree) : t.typeFault? = none ↔ t.IsTyped := by
  unfold typeFault? IsTyped
  cases t.child? "type_specifier" with
  | none => simp
  | some specifier => simp

/-! ## Nodes that must have a type -/

/-- The nodes in the parameter lists of a function. -/
def parameterNodes (t : Tree) : List Tree :=
  (t.children.filter (·.symbol = "parameter_list")).flatMap (·.children)

/-- The declarations among some nodes. -/
def declarationsAmong (ns : List (List Nat × Tree)) : List Tree :=
  (ns.map Prod.snd).filter (·.symbol = "declaration")

theorem declarationsAmong_append (ns ms : List (List Nat × Tree)) :
    declarationsAmong (ns ++ ms) = declarationsAmong ns ++ declarationsAmong ms := by
  rw [declarationsAmong, List.map_append, List.filter_append, declarationsAmong, declarationsAmong]

theorem declarationsAmong_cons {t : Tree} (h : t.symbol ≠ "declaration") (path : List Nat)
    (ns : List (List Nat × Tree)) : declarationsAmong ((path, t) :: ns) = declarationsAmong ns := by
  unfold declarationsAmong
  rw [List.map_cons, List.filter_cons_of_neg (by simpa using h)]

/-- The declarations in the body of a function, in pre-order. -/
def bodyDeclarations (t : Tree) : List Tree := declarationsAmong (t.outermostBlock.met [])

/-- The outermost block is no declaration itself. -/
theorem bodyDeclarations_eq (t : Tree) :
    t.bodyDeclarations = declarationsAmong (metAll [] 0 t.outermostBlock.children) := by
  have hroot : t.outermostBlock.symbol ≠ "declaration" := by
    show "compound_statement" ≠ "declaration"
    decide
  have hmet : t.outermostBlock.met [] =
      ([], t.outermostBlock) :: metAll [] 0 t.outermostBlock.children := by
    rw [outermostBlock, met, if_neg (by decide)]
    rfl
  rw [bodyDeclarations, hmet, declarationsAmong_cons hroot]

/-- The nodes of a function that must have a type: its own, its parameters, and the declarations
in its body. -/
def typedNodes (t : Tree) : List Tree := t :: (t.parameterNodes ++ t.bodyDeclarations)

/-! ## Malformed nodes -/

/-- What is wrong with a child of the tree of a unit, at its first malformed node. -/
def childFault? (t : Tree) : Option TreeFault :=
  if t.symbol ∈ ["struct_specifier", "union_specifier", "enum_specifier"] then none
  else if t.symbol = "declaration" then t.typeFault?
  else if t.symbol = "function_definition" then
    (t.typedNodes.findSome? typeFault?).map (.inFunction t.declaredName)
  else some (.unexpectedChild t.symbol)

/-- What is wrong with the tree of a unit, at its first malformed node. -/
def unitFault? (t : Tree) : Option TreeFault :=
  if t.symbol = "translation_unit" then t.children.findSome? childFault?
  else some (.notUnit t.symbol)

/-- A child that the tree of a unit may have. -/
def IsUnitChild (t : Tree) : Prop :=
  t.symbol ∈ ["struct_specifier", "union_specifier", "enum_specifier"] ∨
    (t.symbol = "declaration" ∧ t.IsTyped) ∨
    (t.symbol = "function_definition" ∧ t.IsTyped ∧ (∀ p ∈ t.parameterNodes, p.IsTyped) ∧
      ∀ d ∈ t.bodyDeclarations, d.IsTyped)

/-- A tree that can be read as a unit. -/
def IsUnit (t : Tree) : Prop :=
  t.symbol = "translation_unit" ∧ ∀ c ∈ t.children, c.IsUnitChild

/-! ## No fault, and nothing malformed -/

theorem typedNodes_eq_none_iff (t : Tree) :
    t.typedNodes.findSome? typeFault? = none ↔
      t.IsTyped ∧ (∀ p ∈ t.parameterNodes, p.IsTyped) ∧ ∀ d ∈ t.bodyDeclarations, d.IsTyped := by
  simp only [typedNodes, List.findSome?_eq_none_iff, List.forall_mem_cons, List.forall_mem_append,
    typeFault?_eq_none_iff]

theorem childFault?_eq_none_iff (t : Tree) : t.childFault? = none ↔ t.IsUnitChild := by
  unfold childFault? IsUnitChild
  by_cases hr : t.symbol ∈ ["struct_specifier", "union_specifier", "enum_specifier"]
  · rw [if_pos hr]
    simp only [hr, true_or]
  · rw [if_neg hr]
    by_cases hd : t.symbol = "declaration"
    · rw [if_pos hd, typeFault?_eq_none_iff]
      simp [hd]
    · rw [if_neg hd]
      by_cases hf : t.symbol = "function_definition"
      · rw [if_pos hf, Option.map_eq_none_iff, typedNodes_eq_none_iff]
        simp [hf]
      · simp [hr, hd, hf]

theorem unitFault?_eq_none_iff (t : Tree) : t.unitFault? = none ↔ t.IsUnit := by
  unfold unitFault? IsUnit
  by_cases hu : t.symbol = "translation_unit"
  · rw [if_pos hu, List.findSome?_eq_none_iff]
    simp only [hu, true_and, childFault?_eq_none_iff]
  · simp [hu]

/-! ## Faults of blocks -/

theorem any_findSome? {fault? : Tree → Option TreeFault} {p : TreeFault → Bool}
    (h : ∀ t, (fault? t).any p = false) (ts : List Tree) :
    (ts.findSome? fault?).any p = false := by
  induction ts with
  | nil => rfl
  | cons t ts ih =>
    have ht := h t
    rw [List.findSome?_cons]
    cases hf : fault? t with
    | none => exact ih
    | some fault => rwa [hf] at ht

theorem isScope_typeFault? (t : Tree) : t.typeFault?.any TreeFault.isScope = false := by
  unfold typeFault?
  split
  · rfl
  · split
    · rfl
    · rfl

theorem isScope_childFault? (t : Tree) : t.childFault?.any TreeFault.isScope = false := by
  have hnodes : (t.typedNodes.findSome? typeFault?).any TreeFault.isScope = false :=
    any_findSome? isScope_typeFault? _
  unfold childFault?
  split
  · rfl
  · split
    · exact t.isScope_typeFault?
    · split
      · rw [Option.any_map]
        exact hnodes
      · rfl

theorem isScope_unitFault? (t : Tree) : t.unitFault?.any TreeFault.isScope = false := by
  unfold unitFault?
  split
  · exact any_findSome? isScope_childFault? _
  · rfl

/-! ## What a node declares -/

open TreeFault (of?)

variable (types : BuiltinTypes)

theorem of?_specifiedType (t : Tree) : of? (t.specifiedType types) = t.typeFault? := by
  unfold specifiedType typeFault?
  cases t.child? "type_specifier" with
  | none => rfl
  | some specifier =>
    have hnone := types.ofName?_eq_none_iff specifier.label.text
    cases htype : types.ofName? specifier.label.text with
    | none =>
      simp only [htype]
      rw [if_neg (hnone.1 htype)]
      rfl
    | some type =>
      have hmem : specifier.label.text ∈ BuiltinTypes.names :=
        Decidable.byContradiction fun hn => by rw [hnone.2 hn] at htype; cases htype
      simp only [htype]
      rw [if_pos hmem]
      rfl

theorem of?_declaredVariable (t : Tree) : of? (t.declaredVariable types) = t.typeFault? := by
  rw [← of?_specifiedType types]
  unfold declaredVariable declaredValue
  cases t.specifiedType types with
  | error fault => rfl
  | ok type => rfl

theorem of?_mapM_declaredVariable (ts : List Tree) :
    of? (ts.mapM (·.declaredVariable types)) = ts.findSome? typeFault? := by
  induction ts with
  | nil => rfl
  | cons t ts ih =>
    rw [List.mapM_cons, List.findSome?_cons, ← ih, ← of?_declaredVariable types]
    cases t.declaredVariable types with
    | error fault => rfl
    | ok v =>
      cases ts.mapM (·.declaredVariable types) with
      | error fault => rfl
      | ok vs => rfl

theorem of?_declaredFunc (t : Tree) :
    of? (t.declaredFunc types) = (t :: t.parameterNodes).findSome? typeFault? := by
  have hparams := of?_mapM_declaredVariable types t.parameterNodes
  rw [List.findSome?_cons, ← of?_specifiedType types, ← hparams]
  unfold declaredFunc declaredValue parameterNodes
  cases t.specifiedType types with
  | error fault => rfl
  | ok type =>
    simp only []
    cases ((t.children.filter (·.symbol = "parameter_list")).flatMap (·.children)).mapM
        (·.declaredVariable types) with
    | error fault => rfl
    | ok params => rfl

end Tree

/-! ## Statements -/

open TreeFault (of?)

variable (types : BuiltinTypes)

namespace OpenFunction

mutual

/-- Reading a statement fails at the first declaration met in it that is not typed. -/
theorem of?_readStatement : ∀ (t : Tree) (path : List Nat) (f : OpenFunction),
    of? (f.readStatement types t).2 =
      (Tree.declarationsAmong (t.met path)).findSome? Tree.typeFault?
  | .node l cs, path, f => by
    by_cases hd : l.symbol = "declaration"
    · rw [readStatement_declaration hd, Tree.met, if_pos (Or.inl hd)]
      have hself : Tree.declarationsAmong [(path, Tree.node l cs)] = [Tree.node l cs] := by
        simp [Tree.declarationsAmong, hd]
      rw [hself, List.findSome?_cons, ← Tree.of?_declaredVariable types]
      cases (Tree.node l cs).declaredVariable types with
      | error fault => rfl
      | ok v => rfl
    · have hself : (Tree.node l cs).symbol ≠ "declaration" := hd
      rw [Tree.met, Tree.declarationsAmong_cons hself]
      by_cases hi : l.symbol = "identifier"
      · rw [readStatement_identifier hi, if_pos (Or.inr hi)]
        split
        · rfl
        · rfl
      · rw [if_neg (not_or.2 ⟨hd, hi⟩)]
        by_cases hc : l.symbol = "compound_statement"
        · rw [readStatement_block hc, ← of?_readStatements cs path 0 f.enter]
          cases hr : f.enter.readStatements types cs with
          | mk g result =>
            cases result with
            | error fault => rfl
            | ok _ =>
              -- The block that has been opened is still open, and so it can be left.
              obtain ⟨table, h, hexit, -⟩ := exit_readStatements types f cs (by rw [hr])
              rw [hr] at hexit
              simp only [hexit]
        · rw [readStatement_wrapper hd hc hi]
          exact of?_readStatements cs path 0 f

theorem of?_readStatements : ∀ (ts : List Tree) (path : List Nat) (i : Nat) (f : OpenFunction),
    of? (f.readStatements types ts).2 =
      (Tree.declarationsAmong (Tree.metAll path i ts)).findSome? Tree.typeFault?
  | [], _, _, _ => rfl
  | t :: ts, path, i, f => by
    rw [Tree.metAll, Tree.declarationsAmong_append, List.findSome?_append,
      ← of?_readStatement t (path ++ [i]) f]
    unfold readStatements
    cases f.readStatement types t with
    | mk g result =>
      cases result with
      | error fault => rfl
      | ok _ => exact of?_readStatements ts path (i + 1) g

end

theorem of?_readBody (f : OpenFunction) (t : Tree) :
    of? (f.readBody types t).2 = t.bodyDeclarations.findSome? Tree.typeFault? := by
  rw [Tree.bodyDeclarations_eq]
  exact of?_readStatements types t.outermostBlock.children [] 0 f

end OpenFunction

/-! ## Functions and units -/

namespace Session

theorem of?_readFunction (s : Session) (t : Tree) :
    of? (s.readFunction types t).2 = t.typedNodes.findSome? Tree.typeFault? := by
  rw [Tree.typedNodes, ← List.cons_append, List.findSome?_append, ← t.of?_declaredFunc types]
  unfold readFunction
  cases t.declaredFunc types with
  | error fault => rfl
  | ok func =>
    have hbody := (s.openFunction func).of?_readBody types t
    simp only [of?, Option.none_or]
    rw [← hbody]
    cases (s.openFunction func).readBody types t with
    | mk f result =>
      cases result with
      | error fault => rfl
      | ok _ => rfl

theorem of?_readChild (s : Session) (t : Tree) : of? (s.readChild types t).2 = t.childFault? := by
  unfold readChild Tree.childFault?
  split
  · next hd =>
    rw [if_neg (by rw [hd]; decide), if_pos hd, ← t.of?_declaredVariable types]
    cases t.declaredVariable types with
    | error fault => rfl
    | ok v => rfl
  · next hf =>
    rw [if_neg (by rw [hf]; decide), if_neg (by rw [hf]; decide), if_pos hf,
      ← s.of?_readFunction types]
    cases s.readFunction types t with
    | mk s' result =>
      cases result with
      | error fault => rfl
      | ok _ => rfl
  · next h =>
    rw [if_pos (by rw [h]; decide)]
    rfl
  · next h =>
    rw [if_pos (by rw [h]; decide)]
    rfl
  · next h =>
    rw [if_pos (by rw [h]; decide)]
    rfl
  · next hd hf hs hu he =>
    have hr : t.symbol ∉ ["struct_specifier", "union_specifier", "enum_specifier"] := by
      simp only [List.mem_cons, List.not_mem_nil, or_false, not_or]
      exact ⟨hs, hu, he⟩
    rw [if_neg hr, if_neg hd, if_neg hf]
    rfl

theorem of?_readChildren (s : Session) (ts : List Tree) :
    of? (s.readChildren types ts).2 = ts.findSome? Tree.childFault? := by
  induction ts generalizing s with
  | nil => rfl
  | cons t ts ih =>
    rw [List.findSome?_cons, ← s.of?_readChild types]
    unfold readChildren
    cases s.readChild types t with
    | mk s' result =>
      cases result with
      | error fault => rfl
      | ok _ => exact ih s'

theorem of?_readUnit (s : Session) (t : Tree) : of? (s.readUnit types t).2 = t.unitFault? := by
  unfold readUnit Tree.unitFault?
  split
  · exact s.of?_readChildren types t.children
  · rfl

/-- A tree without a malformed node can be read. -/
theorem ok_of_unitFault? {t : Tree} (h : t.unitFault? = none) (s : Session) :
    (s.readUnit types t).2 = .ok () := by
  have hof := s.of?_readUnit types t
  rw [h] at hof
  cases hr : (s.readUnit types t).2 with
  | error fault => rw [hr] at hof; cases hof
  | ok _ => rfl

/-- **Reading fails on malformed trees only.** Whatever the session is and whatever the names of
types stand for, a tree can be read iff it is that of a unit: each child is a record or an
enumeration, or a declaration that is typed, or a function that is typed itself, in its parameters
and in the declarations of its body.  Otherwise the fault is that of the first malformed node,
wrapped in the function that it lies in: so it is the same for every session and all types, and it
is never that a block is left that is not open. -/
theorem readUnit_fails_on_malformed (s : Session) (t : Tree) :
    ((s.readUnit types t).2 = .ok () ↔ t.IsUnit) ∧
      (s.readUnit types t).2 = t.unitFault?.elim (.ok ()) .error ∧
      (∀ (types' : BuiltinTypes) (s' : Session),
        (s'.readUnit types' t).2 = (s.readUnit types t).2) ∧
      t.unitFault?.any TreeFault.isScope = false := by
  have hresult : ∀ (types : BuiltinTypes) (s : Session),
      (s.readUnit types t).2 = t.unitFault?.elim (.ok ()) .error := by
    intro types s
    rw [← s.of?_readUnit types]
    cases (s.readUnit types t).2 with
    | error fault => rfl
    | ok _ => rfl
  refine ⟨?_, hresult types s, fun types' s' => ?_, t.isScope_unitFault?⟩
  · rw [← t.unitFault?_eq_none_iff, hresult]
    cases t.unitFault? with
    | none => simp
    | some fault => simp
  · rw [hresult, hresult]

end Session

end NameScope
