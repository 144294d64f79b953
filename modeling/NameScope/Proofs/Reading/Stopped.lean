import NameScope.Proofs.Reading.Malformed
import NameScope.Proofs.Session.Rollback

/-
  What is left of a reading that stops.  Where a child of a unit cannot be read, the session is the
  one in which reading it has begun, with reports at most (`readChild_fails`): a malformed
  declaration leaves no trace, and a function whose body is malformed is abandoned, however deep in
  its blocks the fault lies, so that only its reports stay.  Hence reading a unit keeps exactly what
  was read before the malformed child, and reading splits at any child.
-/

namespace NameScope

variable {types : BuiltinTypes}

/-- The tree with its first `k` children only. -/
def Tree.firstChildren (t : Tree) (k : Nat) : Tree := node t.label (t.children.take k)

namespace Session

/-! ## One child -/

/-- A function that cannot be read leaves the session as it was, or its body has been reached, and
the session has got reports only. -/
theorem readFunction_fails {s : Session} {t : Tree} {fault : TreeFault}
    (h : (s.readFunction types t).2 = .error fault) :
    (s.readFunction types t).1 = s ∨
      (t.IsTyped ∧ ∀ p ∈ t.parameterNodes, p.IsTyped) ∧ s.Extends (s.readFunction types t).1 := by
  have hfunc := t.of?_declaredFunc types
  unfold readFunction at h ⊢
  cases hd : t.declaredFunc types with
  | error fault => exact Or.inl rfl
  | ok func =>
    rw [hd] at hfunc
    have hnone : (t :: t.parameterNodes).findSome? Tree.typeFault? = none := hfunc.symm
    have htyped : t.IsTyped ∧ ∀ p ∈ t.parameterNodes, p.IsTyped := by
      simpa only [List.findSome?_eq_none_iff, List.forall_mem_cons, Tree.typeFault?_eq_none_iff]
        using hnone
    have hkeeps := OpenFunction.keeps_readBody types (s.openFunction func) t
    simp only [hd] at h
    cases hb : (s.openFunction func).readBody types t with
    | mk f result =>
      rw [hb] at h hkeeps
      cases result with
      | ok _ => cases h
      | error fault =>
        simp only [hb]
        exact Or.inr ⟨htyped, OpenFunction.extends_abandon_of_keeps hkeeps⟩

/-- A child that cannot be read leaves the session as it was, or it is a function whose body has
been reached, and the session has got reports only. -/
theorem readChild_fails {s : Session} {t : Tree} {fault : TreeFault}
    (h : (s.readChild types t).2 = .error fault) :
    (s.readChild types t).1 = s ∨
      (t.symbol = "function_definition" ∧ t.IsTyped ∧ ∀ p ∈ t.parameterNodes, p.IsTyped) ∧
        s.Extends (s.readChild types t).1 := by
  unfold readChild at h ⊢
  split at h
  · cases hv : t.declaredVariable types with
    | ok v => rw [hv] at h; cases h
    | error fault => exact Or.inl rfl
  · next hf =>
    cases hr : s.readFunction types t with
    | mk s' result =>
      rw [hr] at h
      cases result with
      | ok _ => cases h
      | error fault =>
        have hfails := readFunction_fails (s := s) (t := t) (by rw [hr])
        rw [hr] at hfails
        exact hfails.imp_right fun hbody => ⟨⟨hf, hbody.1⟩, hbody.2⟩
  · cases h
  · cases h
  · cases h
  · exact Or.inl rfl

/-- The reports of a child that cannot be read. -/
theorem reports_of_readChild_fails {s : Session} {t : Tree} {fault : TreeFault}
    (h : (s.readChild types t).2 = .error fault) :
    ∃ reports, (s.readChild types t).1 = { s with diagnostics := s.diagnostics ++ reports } ∧
      (reports ≠ [] → t.symbol = "function_definition" ∧ t.IsTyped ∧
        ∀ p ∈ t.parameterNodes, p.IsTyped) := by
  rcases readChild_fails h with hsame | ⟨hbody, reports, hreports⟩
  · refine ⟨[], ?_, fun hne => absurd rfl hne⟩
    rw [hsame, List.append_nil]
  · exact ⟨reports, hreports, fun _ => hbody⟩

/-! ## Children one after another -/

/-- Where reading stops, it stops at some child, in the session that those before it leave. -/
theorem readChildren_fails {s : Session} {ts : List Tree} {fault : TreeFault}
    (h : (s.readChildren types ts).2 = .error fault) :
    ∃ k child, ts[k]? = some child ∧ (s.readChildren types (ts.take k)).2 = .ok () ∧
      (s.readChildren types (ts.take k)).1.readChild types child =
        ((s.readChildren types ts).1, .error fault) := by
  induction ts generalizing s with
  | nil => cases h
  | cons t ts ih =>
    unfold readChildren at h
    cases ht : s.readChild types t with
    | mk s' result =>
      rw [ht] at h
      cases result with
      | error fault' =>
        cases h
        refine ⟨0, t, rfl, rfl, ?_⟩
        rw [readChildren, ht]
        exact ht
      | ok _ =>
        obtain ⟨k, child, hchild, hok, hfails⟩ := ih h
        refine ⟨k + 1, child, hchild, ?_, ?_⟩
        · rw [List.take_succ_cons, readChildren, ht]
          exact hok
        · rw [List.take_succ_cons, readChildren, readChildren, ht]
          exact hfails

/-! ## Units -/

theorem readUnit_of_symbol {t : Tree} (ht : t.symbol = "translation_unit") (s : Session) :
    s.readUnit types t = s.readChildren types t.children := if_pos ht

/-- Reading the unit stops with `fault` at child `k`.  The session is the one that the first `k`
children leave, with more reports; and there are none unless the child is a function that is typed
itself and in its parameters, so that the fault is in its body. -/
structure Stops (s : Session) (types : BuiltinTypes) (t : Tree) (fault : TreeFault) (k : Nat)
    (child : Tree) (reports : List Diagnostic) : Prop where
  met : t.children[k]? = some child
  before : (s.readUnit types (t.firstChildren k)).2 = .ok ()
  fails : (s.readUnit types (t.firstChildren (k + 1))).2 = .error fault
  session : (s.readUnit types t).1 =
    { (s.readUnit types (t.firstChildren k)).1 with
      diagnostics := (s.readUnit types (t.firstChildren k)).1.diagnostics ++ reports }
  body : reports ≠ [] →
    child.symbol = "function_definition" ∧ child.IsTyped ∧ ∀ p ∈ child.parameterNodes, p.IsTyped

/-- **A reading that stops keeps what was read before.** Whatever the session and the types are,
reading the tree of a unit fails at a child `k`, and leaves the declarations, statements, global
names and tags that the first `k` children leave, and their reports, followed by those on the body
of child `k` if it is a function.  A reading that does not fail splits at any child: it is reading a
unit of the children before, and then one of those after. -/
theorem readUnit_keeps_earlier_children (types : BuiltinTypes) (s : Session) {t : Tree}
    (ht : t.symbol = "translation_unit") :
    (∀ fault, (s.readUnit types t).2 = .error fault → ∃ k child reports,
      s.Stops types t fault k child reports) ∧
    ∀ before after, t.children = before ++ after → (s.readUnit types t).2 = .ok () →
      (s.readUnit types (.node t.label before)).2 = .ok () ∧
        s.readUnit types t =
          (s.readUnit types (.node t.label before)).1.readUnit types (.node t.label after) := by
  have hunit : ∀ (s : Session) (ts : List Tree),
      s.readUnit types (.node t.label ts) = s.readChildren types ts :=
    fun s ts => readUnit_of_symbol (t := .node t.label ts) ht s
  rw [readUnit_of_symbol ht]
  refine ⟨fun fault hfault => ?_, fun before after hsplit hok => ?_⟩
  · obtain ⟨k, child, hchild, hbefore, hread⟩ := readChildren_fails hfault
    have hnext : t.children.take (k + 1) = t.children.take k ++ [child] := by
      rw [List.take_add_one, hchild]
      rfl
    have hfails : (s.readChildren types (t.children.take (k + 1))).2 = .error fault := by
      rw [hnext, readChildren_append hbefore, readChildren, hread]
    obtain ⟨reports, hreports, hbody⟩ := reports_of_readChild_fails (congrArg Prod.snd hread)
    rw [hread] at hreports
    refine ⟨k, child, reports, hchild, ?_, ?_, ?_, hbody⟩
    · rw [Tree.firstChildren, hunit, hbefore]
    · rw [Tree.firstChildren, hunit, hfails]
    · rw [Tree.firstChildren, hunit, readUnit_of_symbol ht]
      exact hreports
  · rw [hunit, hunit, hsplit]
    rw [hsplit] at hok
    have hbefore := ok_of_readChildren_append hok
    exact ⟨hbefore, readChildren_append hbefore after⟩

/-- The fault lies in a block of the function, behind an unknown name: the function leaves no
declaration and no name, but the report on the unknown name.  Without the function the unit can be
read, and reading it splits. -/
theorem readUnit_keeps_earlier_children_body :
    let inner : Tree := .block [.token "identifier" "total" ⟨4, 5⟩,
      .reduce "declaration" [.token "identifier" "n" ⟨5, 9⟩]]
    let fn : Tree := .function "int" "main" ⟨2, 1⟩ [.declaration "int" "n" ⟨2, 5⟩] [inner]
    let t : Tree := .unit [.declaration "int" "a" ⟨1, 5⟩, fn, .declaration "int" "b" ⟨7, 5⟩]
    let u : Tree := .unit [.declaration "int" "a" ⟨1, 5⟩, .declaration "int" "b" ⟨7, 5⟩]
    let types : BuiltinTypes := .numbered
    let s : Session := {}
    let fault : TreeFault := .inFunction "main" (.untyped "declaration")
    t.symbol = "translation_unit" ∧ (s.readUnit types t).2 = .error fault ∧
      (s.readUnit types t).1.unit.table.names = ["a"] ∧
      (s.readUnit types t).1.diagnostics = [.undefined "total" (some ⟨4, 5⟩) []] ∧
      (∃ k child reports, s.Stops types t fault k child reports) ∧
      u.symbol = "translation_unit" ∧ (s.readUnit types u).2 = .ok () ∧
      s.readUnit types u =
        (s.readUnit types (.node u.label (u.children.take 1))).1.readUnit types
          (.node u.label (u.children.drop 1)) := by
  intro inner fn t u types s fault
  have ht : t.symbol = "translation_unit" := rfl
  have hfault : (s.readUnit types t).2 = .error fault := rfl
  have hnames : (s.readUnit types t).1.unit.table.names = ["a"] := by decide +kernel
  have hreports : (s.readUnit types t).1.diagnostics = [.undefined "total" (some ⟨4, 5⟩) []] := by
    decide +kernel
  have hu : u.symbol = "translation_unit" := rfl
  have hok : (s.readUnit types u).2 = .ok () := rfl
  have hsplit : u.children = u.children.take 1 ++ u.children.drop 1 := rfl
  have hstops := (readUnit_keeps_earlier_children types s ht).1 fault hfault
  have hafter := ((readUnit_keeps_earlier_children types s hu).2 _ _ hsplit hok).2
  exact ⟨ht, hfault, hnames, hreports, hstops, hu, hok, hafter⟩

end Session

end NameScope
