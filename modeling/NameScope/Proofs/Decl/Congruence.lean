import NameScope.Proofs.Blocks.Visibility
import NameScope.Proofs.Decl.Equality
import NameScope.Proofs.Decl.Requests

/-
  Equal declarations cannot be told apart.  `equality_respected`: equality of declarations, scopes
  and globals is an equivalence, and equal ones give replies that agree to every request and are
  equal again afterwards, however their tables are ordered.

  Replies agree when they are the same up to the equality of what they hold (`Reply.Agrees`).  The
  proof is by recursion on the request: a request that is passed on reaches declarations, scopes or
  globals that are equal, and any other depends on what equality does not hide.
-/

namespace NameScope

/-! ## Blocks -/

namespace Blocks

/-- The answers are the same, but for the order of the entries of a table. -/
inductive Answer.Agrees : Answer → Answer → Prop where
  | refl (a : Answer) : Agrees a a
  | closed {t u : NameTable Binding} (h : (t == u) = true) :
    Agrees (.closed t.entries) (.closed u.entries)

variable {ts us : List (NameTable Binding)}

theorem SameBindings.lookup? (h : SameBindings ts us) (rule : RedeclarationRule)
    (name : String) : lookup? ⟨ts, rule⟩ name = lookup? ⟨us, rule⟩ name := by
  rw [lookup?_eq_findSome?, lookup?_eq_findSome?]
  induction h with
  | nil => rfl
  | cons htable _ ih =>
    rw [List.findSome?_cons, List.findSome?_cons, htable name]
    cases NameTable.get? _ name with
    | none => exact ih
    | some b => rfl

theorem SameBindings.obstacle? (h : SameBindings ts us) (rule : RedeclarationRule)
    (name : String) : obstacle? ⟨ts, rule⟩ name = obstacle? ⟨us, rule⟩ name := by
  cases rule with
  | visible => exact h.lookup? .visible name
  | sameBlock =>
    cases h with
    | nil => rfl
    | cons htable _ => exact htable name

/-- Blocks with the same bindings agree on every call and have the same bindings afterwards. -/
theorem step_congr {a b : Blocks} (h : (a == b) = true) (c : Call) :
    (a.step c).1.Agrees (b.step c).1 ∧ ((a.step c).2 == (b.step c).2) = true := by
  obtain ⟨ts, rule⟩ := a
  obtain ⟨us, rule'⟩ := b
  obtain ⟨htables, hrule⟩ := (beq_iff _ _).1 h
  obtain rfl : rule = rule' := hrule
  cases c with
  | enter =>
    have hinside : SameBindings (.empty :: ts) (.empty :: us) := .cons (fun _ => rfl) htables
    exact ⟨.refl _, (beq_iff _ _).2 ⟨hinside, rfl⟩⟩
  | exit =>
    cases htables with
    | nil => exact ⟨.refl _, h⟩
    | cons htable houter =>
      exact ⟨.closed ((NameTable.beq_iff_get? _ _).2 htable), (beq_iff _ _).2 ⟨houter, rfl⟩⟩
  | closeAll => exact ⟨.refl _, (beq_iff _ _).2 ⟨.nil, rfl⟩⟩
  | setRule rule => exact ⟨.refl _, (beq_iff _ _).2 ⟨htables, rfl⟩⟩
  | declare name type pos =>
    have hsame := htables.obstacle? rule name
    cases ho : obstacle? ⟨us, rule⟩ name with
    | some old =>
      rw [ho] at hsame
      simp only [step, declare_of_obstacle? hsame, declare_of_obstacle? ho]
      exact ⟨.refl _, h⟩
    | none =>
      rw [ho] at hsame
      cases htables with
      | nil =>
        have hout : declare ⟨[], rule⟩ name ⟨type, pos⟩ = .error (.outsideBlock name) :=
          declare_of_no_block rfl name _
        simp only [step, hout]
        exact ⟨.refl _, h⟩
      | cons htable houter =>
        simp only [step, declare_of_free rfl hsame, declare_of_free rfl ho]
        refine ⟨.refl _, (beq_iff _ _).2 ⟨.cons (fun m => ?_) houter, rfl⟩⟩
        rw [NameTable.get?_insert, NameTable.get?_insert, htable m]
  | lookup name =>
    simp only [step, htables.lookup? rule name]
    exact ⟨.refl _, h⟩
  | lookupType name =>
    simp only [step, htables.lookup? rule name]
    exact ⟨.refl _, h⟩

end Blocks

/-! ## Positions -/

section

variable {α β : Type} {R : α → α → Prop} {l m : List α}

/-- Related lists have related elements at every position, or fail in the same way. -/
theorem elementAt_rel (h : List.Forall₂ R l m) (list : ListName) (i : Nat) :
    (∃ a b, elementAt list l i = .ok a ∧ elementAt list m i = .ok b ∧ R a b) ∨
      ∃ fault, elementAt list l i = .error fault ∧ elementAt list m i = .error fault := by
  unfold elementAt
  by_cases hl : i < l.length
  · have hm : i < m.length := h.length_eq ▸ hl
    refine .inl ⟨l[i], m[i], ?_, ?_, h.get hl hm⟩
    · rw [List.getElem?_eq_getElem hl]
    · rw [List.getElem?_eq_getElem hm]
  · have hm : ¬ i < m.length := h.length_eq ▸ hl
    refine .inr ⟨⟨list, i, l.length⟩, ?_, ?_⟩
    · rw [List.getElem?_eq_none (Nat.le_of_not_lt hl)]
    · rw [List.getElem?_eq_none (Nat.le_of_not_lt hm), h.length_eq]

theorem forall₂_set (h : List.Forall₂ R l m) {a b : α} (hab : R a b) (i : Nat) :
    List.Forall₂ R (l.set i a) (m.set i b) := by
  induction h generalizing i with
  | nil => exact .nil
  | cons hfirst hrest ih =>
    cases i with
    | zero => exact .cons hab hrest
    | succ i => exact .cons hfirst (ih i)

/-- A change that respects the relation gives related results at every position, or fails. -/
theorem updateAt_rel (h : List.Forall₂ R l m) {A : β → β → Prop} {f : α → β × α}
    (hf : ∀ a b, R a b → A (f a).1 (f b).1 ∧ R (f a).2 (f b).2) (list : ListName) (i : Nat) :
    (∃ x y l' m', updateAt list l i f = .ok (x, l') ∧ updateAt list m i f = .ok (y, m') ∧
        A x y ∧ List.Forall₂ R l' m') ∨
      ∃ fault, updateAt list l i f = .error fault ∧ updateAt list m i f = .error fault := by
  unfold updateAt
  obtain ⟨a, b, ha, hb, hab⟩ | ⟨fault, hl, hm⟩ := elementAt_rel h list i
  · obtain ⟨hreply, hnew⟩ := hf a b hab
    rw [ha, hb]
    exact .inl ⟨_, _, _, _, rfl, rfl, hreply, forall₂_set h hnew i⟩
  · rw [hl, hm]
    exact .inr ⟨fault, rfl, rfl⟩

end

/-! ## Requests -/

/-- The replies are the same, but for the order of names in what they hold. -/
inductive Reply.Agrees : Reply → Reply → Prop where
  | refl (r : Reply) : Agrees r r
  | blocks {a b : Blocks.Answer} (h : a.Agrees b) : Agrees (.blocks a) (.blocks b)
  | decl {d e : Decl} (h : (d == e) = true) : Agrees (.decl d) (.decl e)
  | inside {r s : Reply} (h : r.Agrees s) : Agrees (.inside r) (.inside s)

theorem Scope.addDecl_congr {s t : Scope Decl} (h : (s == t) = true) {d e : Decl}
    (hd : (d == e) = true) : (s.addDecl d == t.addDecl e) = true := by
  rw [beq_iff] at h ⊢
  exact ⟨h.1, List.rel_append h.2 (.cons hd .nil)⟩

theorem Globals.addDecl_congr {g h : Globals Decl} (hg : (g == h) = true) {d e : Decl}
    (hd : (d == e) = true) : (g.addDecl d == h.addDecl e) = true := by
  rw [beq_iff] at hg ⊢
  obtain ⟨hnames, hdecls, hstmts⟩ := hg
  exact ⟨hnames, List.rel_append hdecls (.cons hd .nil), hstmts⟩

namespace Decl

/-- Whether the request is passed on to what the declaration owns. -/
def Request.passesOn : Request → Bool
  | inScope _ | inGlobals _ => true
  | _ => false

/-- A request that a function does not pass on does not depend on the scope, and leaves it alone. -/
theorem perform_func {r : Request} (h : r.passesOn = false) (value : Valued)
    (params : List Variable) (body : Option StmtRef) :
    ∃ reply value' params' body', ∀ s : Scope Decl,
      (func ⟨value, params, body, s⟩).perform r = (reply, func ⟨value', params', body', s⟩) := by
  cases r with
  | inScope r => cases h
  | inGlobals r => cases h
  | setName name => exact ⟨.done, { value with name := name }, params, body, fun _ => rfl⟩
  | setPos pos => exact ⟨.done, { value with pos := some pos }, params, body, fun _ => rfl⟩
  | setType type => exact ⟨.done, { value with type := type }, params, body, fun _ => rfl⟩
  | addParam param => exact ⟨.done, value, params ++ [param], body, fun _ => rfl⟩
  | _ => exact ⟨_, _, _, _, fun _ => rfl⟩

/-- A unit has no parts of its own to change. -/
theorem perform_unit {r : Request} (h : r.passesOn = false) (g : Globals Decl) :
    (unit g).perform r = (.absent, unit g) := by
  cases r with
  | inScope r => cases h
  | inGlobals r => cases h
  | _ => rfl

/-- A request that is not passed on cannot tell equal declarations apart. -/
theorem perform_congr_of_own {r : Request} (hr : r.passesOn = false) {d e : Decl}
    (h : (d == e) = true) :
    (d.perform r).1.Agrees (e.perform r).1 ∧ ((d.perform r).2 == (e.perform r).2) = true := by
  cases alike_of_beq h with
  | plain hd => exact ⟨.refl _, BEq.rfl⟩
  | unit hg =>
    rw [perform_unit hr, perform_unit hr]
    exact ⟨.refl _, h⟩
  | func f hs =>
    obtain ⟨reply, value, params, body, hperform⟩ := perform_func hr f.toValued f.params f.body
    have hf : (func f).perform r = (reply, func ⟨value, params, body, f.scope⟩) :=
      hperform f.scope
    rw [hf, hperform]
    exact ⟨.refl _, (beq_iff_alike _ _).2 (.func ⟨value, params, body, f.scope⟩ hs)⟩

end Decl

mutual

/-- Equal declarations agree on every request and are equal afterwards. -/
theorem Decl.perform_congr (r : Decl.Request) {d e : Decl} (h : (d == e) = true) :
    (d.perform r).1.Agrees (e.perform r).1 ∧ ((d.perform r).2 == (e.perform r).2) = true := by
  cases r with
  | inScope r =>
    cases Decl.alike_of_beq h with
    | plain hd => exact ⟨.refl _, BEq.rfl⟩
    | unit hg => exact ⟨.refl _, h⟩
    | func f hs =>
      obtain ⟨hreply, hscope⟩ := Scope.perform_congr r hs
      exact ⟨.inside hreply, (Decl.beq_iff_alike _ _).2 (.func { f with scope := _ } hscope)⟩
  | inGlobals r =>
    cases Decl.alike_of_beq h with
    | plain hd => exact ⟨.refl _, BEq.rfl⟩
    | unit hg =>
      obtain ⟨hreply, hglobals⟩ := Globals.perform_congr r hg
      exact ⟨.inside hreply, (Decl.beq_iff_alike _ _).2 (.unit hglobals)⟩
    | func f hs => exact ⟨.refl _, h⟩
  | _ => exact Decl.perform_congr_of_own rfl h

/-- Equal scopes agree on every request and are equal afterwards. -/
theorem Scope.perform_congr (r : Scope.Request) {s t : Scope Decl} (h : (s == t) = true) :
    (s.perform r).1.Agrees (t.perform r).1 ∧ ((s.perform r).2 == (t.perform r).2) = true := by
  obtain ⟨hblocks, hdecls⟩ := (Scope.beq_iff s t).1 h
  cases r with
  | blocks c =>
    obtain ⟨hanswer, hafter⟩ := Blocks.step_congr hblocks c
    exact ⟨.blocks hanswer, (Scope.beq_iff _ _).2 ⟨hafter, hdecls⟩⟩
  | addDecl d => exact ⟨.refl _, Scope.addDecl_congr h BEq.rfl⟩
  | decl i =>
    simp only [Scope.perform, Scope.decl]
    obtain ⟨d, e, hd, he, heq⟩ | ⟨fault, hs, ht⟩ := elementAt_rel hdecls .declaration i
    · rw [hd, he]
      exact ⟨.decl heq, h⟩
    · rw [hs, ht]
      exact ⟨.refl _, h⟩
  | updateDecl i r =>
    have hrequest := fun d e (hd : (d == e) = true) => Decl.perform_congr r hd
    simp only [Scope.perform, Scope.updateDecl]
    obtain ⟨x, y, ds, es, hs, ht, hreply, hnew⟩ | ⟨fault, hs, ht⟩ :=
      updateAt_rel hdecls hrequest .declaration i
    · rw [hs, ht]
      exact ⟨.inside hreply, (Scope.beq_iff _ _).2 ⟨hblocks, hnew⟩⟩
    · rw [hs, ht]
      exact ⟨.refl _, h⟩

/-- Equal globals agree on every request and are equal afterwards. -/
theorem Globals.perform_congr (r : Globals.Request) {g h : Globals Decl} (hg : (g == h) = true) :
    (g.perform r).1.Agrees (h.perform r).1 ∧ ((g.perform r).2 == (h.perform r).2) = true := by
  obtain ⟨hnames, hdecls, hstmts⟩ := (Globals.beq_iff g h).1 hg
  cases r with
  | declare name type pos =>
    cases hl : h.lookup? name with
    | some old =>
      rw [Globals.perform_declare_of_bound ((hnames name).trans hl),
        Globals.perform_declare_of_bound hl]
      exact ⟨.refl _, hg⟩
    | none =>
      rw [Globals.perform_declare_of_free ((hnames name).trans hl),
        Globals.perform_declare_of_free hl]
      refine ⟨.refl _, (Globals.beq_iff _ _).2 ⟨fun m => ?_, hdecls, hstmts⟩⟩
      have hm : g.table.get? m = h.table.get? m := hnames m
      exact (NameTable.get?_insert _ _ _ m).trans
        ((if_congr Iff.rfl rfl hm).trans (NameTable.get?_insert _ _ _ m).symm)
  | take name =>
    rw [Globals.perform_take, Globals.perform_take, hnames name]
    refine ⟨.refl _, (Globals.beq_iff _ _).2 ⟨fun m => ?_, hdecls, hstmts⟩⟩
    have hm : g.table.get? m = h.table.get? m := hnames m
    exact (NameTable.get?_erase _ _ m).trans
      ((if_congr Iff.rfl rfl hm).trans (NameTable.get?_erase _ _ m).symm)
  | unbindAll => exact ⟨.refl _, (Globals.beq_iff _ _).2 ⟨fun _ => rfl, hdecls, hstmts⟩⟩
  | lookup name =>
    simp only [Globals.perform, hnames name]
    exact ⟨.refl _, hg⟩
  | addDecl d => exact ⟨.refl _, Globals.addDecl_congr hg BEq.rfl⟩
  | decl i =>
    simp only [Globals.perform, Globals.decl]
    obtain ⟨d, e, hd, he, heq⟩ | ⟨fault, hs, ht⟩ := elementAt_rel hdecls .declaration i
    · rw [hd, he]
      exact ⟨.decl heq, hg⟩
    · rw [hs, ht]
      exact ⟨.refl _, hg⟩
  | updateDecl i r =>
    have hrequest := fun d e (hd : (d == e) = true) => Decl.perform_congr r hd
    simp only [Globals.perform, Globals.updateDecl]
    obtain ⟨x, y, ds, es, hs, ht, hreply, hnew⟩ | ⟨fault, hs, ht⟩ :=
      updateAt_rel hdecls hrequest .declaration i
    · rw [hs, ht]
      exact ⟨.inside hreply, (Globals.beq_iff _ _).2 ⟨hnames, hnew, hstmts⟩⟩
    · rw [hs, ht]
      exact ⟨.refl _, hg⟩
  | addStmt s =>
    exact ⟨.refl _, (Globals.beq_iff _ _).2 ⟨hnames, hdecls, congrArg (· ++ [s]) hstmts⟩⟩
  | stmt i =>
    have hstmt : g.stmt i = h.stmt i := by rw [Globals.stmt, Globals.stmt, hstmts]
    simp only [Globals.perform, hstmt]
    cases h.stmt i with
    | ok s => exact ⟨.refl _, hg⟩
    | error fault => exact ⟨.refl _, hg⟩

end

/-- **Equality is an equivalence that every request respects.** For declarations of any nesting, for
scopes and for globals, equality is reflexive, symmetric and transitive.  Two scopes are equal iff
their blocks bind the same names to the same values, in whatever order, under the same rule, and
their declarations are equal in pairs; two globals iff they bind the same names to the same values
and have declarations that are equal in pairs and the same statements; and two declarations iff they
are of one kind and alike.  Equal scopes give replies to every request that agree, faults with all
that they say included, and are equal afterwards, also where equal declarations are added to them;
and so do equal globals and equal declarations. -/
theorem equality_respected :
    (EquivBEq Decl ∧ EquivBEq (Scope Decl) ∧ EquivBEq (Globals Decl)) ∧
      (∀ d e : Decl, (d == e) = true ↔ d.Alike e) ∧
      (∀ s t : Scope Decl, (s == t) = true ↔
        Blocks.SameBindings s.blocks.tables t.blocks.tables ∧ s.blocks.rule = t.blocks.rule ∧
          List.Forall₂ (fun d e => (d == e) = true) s.decls t.decls) ∧
      (∀ g h : Globals Decl, (g == h) = true ↔
        (∀ name, g.lookup? name = h.lookup? name) ∧
          List.Forall₂ (fun d e => (d == e) = true) g.decls h.decls ∧ g.stmts = h.stmts) ∧
      (∀ d e : Decl, (d == e) = true → ∀ r : Decl.Request,
        (d.perform r).1.Agrees (e.perform r).1 ∧ ((d.perform r).2 == (e.perform r).2) = true) ∧
      (∀ s t : Scope Decl, (s == t) = true →
        (∀ r : Scope.Request,
          (s.perform r).1.Agrees (t.perform r).1 ∧ ((s.perform r).2 == (t.perform r).2) = true) ∧
        ∀ d e : Decl, (d == e) = true → (s.addDecl d == t.addDecl e) = true) ∧
      (∀ g h : Globals Decl, (g == h) = true →
        (∀ r : Globals.Request,
          (g.perform r).1.Agrees (h.perform r).1 ∧ ((g.perform r).2 == (h.perform r).2) = true) ∧
        ∀ d e : Decl, (d == e) = true → (g.addDecl d == h.addDecl e) = true) := by
  refine ⟨⟨inferInstance, inferInstance, inferInstance⟩, Decl.beq_iff_alike, fun s t => ?_,
    Globals.beq_iff, fun d e h r => Decl.perform_congr r h, fun s t h => ⟨fun r => ?_, ?_⟩,
    fun g h hg => ⟨fun r => ?_, ?_⟩⟩
  · rw [Scope.beq_iff, Blocks.beq_iff, and_assoc]
  · exact Scope.perform_congr r h
  · exact fun d e hd => Scope.addDecl_congr h hd
  · exact Globals.perform_congr r hg
  · exact fun d e hd => Globals.addDecl_congr hg hd

/-- Two names are declared in one order and in the other: the tables list them differently, and yet
the globals are equal, refuse one of the names in the same words, and give the binding of the other
in the same way from inside a unit. -/
theorem equality_respected_reordered :
    let declare (name : String) (row : UInt32) : Globals.Request :=
      .declare name ⟨⟨1⟩, .empty⟩ (some ⟨row, 0⟩)
    let g := (Globals.run {} [declare "a" 1, declare "b" 2]).2
    let h := (Globals.run {} [declare "b" 2, declare "a" 1]).2
    g.table.names ≠ h.table.names ∧ (g == h) = true ∧
      (g.perform (declare "a" 3)).1.Agrees (h.perform (declare "a" 3)).1 ∧
      ((Decl.unit g).perform (.inGlobals (.take "b"))).1.Agrees
        ((Decl.unit h).perform (.inGlobals (.take "b"))).1 := by
  intro declare g h
  have hg : (g == h) = true := by decide
  obtain ⟨-, halike, -, -, hdecl, -, hglobals⟩ := equality_respected
  have hunit : (Decl.unit g == Decl.unit h) = true := (halike _ _).2 (.unit hg)
  exact ⟨by decide, hg, ((hglobals g h hg).1 _).1, (hdecl _ _ hunit _).1⟩

end NameScope
