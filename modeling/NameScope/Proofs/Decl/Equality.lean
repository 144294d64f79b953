import Mathlib.Data.List.Forall2
import NameScope.Decl.Equality
import NameScope.Decl.Layers
import NameScope.Proofs.NameTable.Equality

/-
  Equality of declarations is an equivalence.  Declarations own scopes and globals, which own
  declarations; so the argument goes from the declarations that one owns to the one itself
  (`inner_induction`).  `EquivAt` is what it carries: equality is reflexive, symmetric and
  transitive at one value, and it is so at a list, a scope or globals if it is so at every
  declaration in it.

  `Decl.Alike` says when two declarations are equal, by kind: what owns no names is equal to itself
  only, and of functions and of units the scopes and the globals need be equal only.
-/

namespace NameScope

/-- Equality is reflexive, symmetric and transitive from `a` on. -/
structure EquivAt {α : Type} [BEq α] (a : α) : Prop where
  refl : (a == a) = true
  symm : ∀ b, (a == b) = true → (b == a) = true
  trans : ∀ b c, (a == b) = true → (b == c) = true → (a == c) = true

namespace EquivAt

theorem of_eq {α : Type} [BEq α] {a : α} (h : ∀ b, (a == b) = true ↔ a = b) : EquivAt a where
  refl := (h a).2 rfl
  symm := by
    intro b hb
    obtain rfl := (h b).1 hb
    exact hb
  trans := by
    intro b c hb hc
    obtain rfl := (h b).1 hb
    exact hc

theorem list {α : Type} [BEq α] {l : List α} (h : ∀ a ∈ l, EquivAt a) : EquivAt l := by
  induction l with
  | nil =>
    refine of_eq fun m => ?_
    cases m with
    | nil => exact iff_of_true rfl rfl
    | cons b m => exact iff_of_false Bool.false_ne_true (List.cons_ne_nil b m).symm
  | cons a l ih =>
    obtain ⟨ha, hl⟩ := List.forall_mem_cons.1 h
    have hl := ih hl
    refine ⟨?_, fun m hm => ?_, fun m n hm hn => ?_⟩
    · rw [List.cons_beq_cons, ha.refl, hl.refl, Bool.and_self]
    · cases m with
      | nil => cases hm
      | cons b m =>
        rw [List.cons_beq_cons, Bool.and_eq_true] at hm ⊢
        exact ⟨ha.symm b hm.1, hl.symm m hm.2⟩
    · cases m with
      | nil => cases hm
      | cons b m =>
        cases n with
        | nil => cases hn
        | cons c n =>
          rw [List.cons_beq_cons, Bool.and_eq_true] at hm hn ⊢
          exact ⟨ha.trans b c hm.1 hn.1, hl.trans m n hm.2 hn.2⟩

/-- Equality by two parts is an equivalence where it is one for both. -/
theorem of_parts {α β γ : Type} [BEq α] [BEq β] [BEq γ] (f : α → β) (g : α → γ)
    (h : ∀ a b : α, (a == b) = (f a == f b && g a == g b)) {a : α} (hf : EquivAt (f a))
    (hg : EquivAt (g a)) : EquivAt a := by
  refine ⟨?_, fun b hb => ?_, fun b c hb hc => ?_⟩
  · rw [h, hf.refl, hg.refl, Bool.and_self]
  · rw [h, Bool.and_eq_true] at hb ⊢
    exact ⟨hf.symm _ hb.1, hg.symm _ hb.2⟩
  · rw [h, Bool.and_eq_true] at hb hc ⊢
    exact ⟨hf.trans _ _ hb.1 hc.1, hg.trans _ _ hb.2 hc.2⟩

theorem table {α : Type} [BEq α] [LawfulBEq α] (t : NameTable α) : EquivAt t := by
  refine ⟨?_, fun u h => ?_, fun u v h h' => ?_⟩
  · rw [NameTable.beq_iff_get?]
    exact fun _ => rfl
  · rw [NameTable.beq_iff_get?] at h ⊢
    exact fun name => (h name).symm
  · rw [NameTable.beq_iff_get?] at h h' ⊢
    exact fun name => (h name).trans (h' name)

theorem blocks (b : Blocks) : EquivAt b :=
  of_parts Blocks.tables Blocks.rule (fun _ _ => rfl) (list fun t _ => table t)
    (of_eq fun _ => beq_iff_eq)

variable {δ : Type} [BEq δ]

theorem scope {s : Scope δ} (h : ∀ d ∈ s.decls, EquivAt d) : EquivAt s :=
  of_parts Scope.blocks Scope.decls (fun _ _ => rfl) (blocks s.blocks) (list h)

theorem globals {g : Globals δ} (h : ∀ d ∈ g.decls, EquivAt d) : EquivAt g := by
  have hnames : EquivAt (g.table, g.decls) :=
    of_parts Prod.fst Prod.snd (fun _ _ => rfl) (table g.table) (list h)
  exact of_parts (fun g => (g.table, g.decls)) Globals.stmts (fun _ _ => rfl) hnames
    (of_eq fun _ => beq_iff_eq)

end EquivAt

/-- Two lists are equal iff they are equal element by element. -/
theorem beq_iff_forall₂ {α : Type} [BEq α] (l m : List α) :
    (l == m) = true ↔ List.Forall₂ (fun a b => (a == b) = true) l m := by
  induction l generalizing m with
  | nil =>
    cases m with
    | nil => exact iff_of_true rfl .nil
    | cons b m => exact iff_of_false Bool.false_ne_true nofun
  | cons a l ih =>
    cases m with
    | nil => exact iff_of_false Bool.false_ne_true nofun
    | cons b m => rw [List.cons_beq_cons, Bool.and_eq_true, ih, List.forall₂_cons]

/-! ## Blocks -/

namespace Blocks

/-- The tables bind the same names to the same values, block by block. -/
def SameBindings (ts us : List (NameTable Binding)) : Prop :=
  List.Forall₂ (fun t u => ∀ name, t.get? name = u.get? name) ts us

theorem beq_iff (a b : Blocks) :
    (a == b) = true ↔ SameBindings a.tables b.tables ∧ a.rule = b.rule := by
  have htables : (a.tables == b.tables) = true ↔ SameBindings a.tables b.tables := by
    rw [beq_iff_forall₂]
    simp only [NameTable.beq_iff_get?, SameBindings]
  show (a.tables == b.tables && a.rule == b.rule) = true ↔ _
  rw [Bool.and_eq_true, htables, beq_iff_eq]

end Blocks

/-! ## Scopes and globals -/

section

variable {δ : Type} [BEq δ]

theorem Scope.beq_iff (s t : Scope δ) :
    (s == t) = true ↔ (s.blocks == t.blocks) = true ∧
      List.Forall₂ (fun d e => (d == e) = true) s.decls t.decls := by
  show (s.blocks == t.blocks && s.decls == t.decls) = true ↔ _
  rw [Bool.and_eq_true, beq_iff_forall₂ s.decls]

theorem Globals.beq_iff (g h : Globals δ) :
    (g == h) = true ↔ (∀ name, g.lookup? name = h.lookup? name) ∧
      List.Forall₂ (fun d e => (d == e) = true) g.decls h.decls ∧ g.stmts = h.stmts := by
  show (g.table == h.table && g.decls == h.decls && g.stmts == h.stmts) = true ↔ _
  rw [Bool.and_eq_true, Bool.and_eq_true, NameTable.beq_iff_get?, beq_iff_forall₂ g.decls,
    beq_iff_eq, and_assoc]
  rfl

end

/-! ## Declarations -/

namespace Decl

/-- The declarations are of one kind and equal in all parts; in what a function or a unit owns, the
order of names does not count. -/
inductive Alike : Decl → Decl → Prop where
  | plain {d : Decl} (h : d.isScope = false) : Alike d d
  | unit {g h : Globals Decl} (globals : (g == h) = true) : Alike (unit g) (unit h)
  | func (f : Func Decl) {s : Scope Decl} (scope : (f.scope == s) = true) :
    Alike (func f) (func { f with scope := s })

theorem sameAll_eq_beq (ds es : List Decl) : sameAll ds es = (ds == es) := by
  induction ds generalizing es with
  | nil => cases es <;> rfl
  | cons d ds ih =>
    cases es with
    | nil => rfl
    | cons e es => rw [sameAll, ih, List.cons_beq_cons]; rfl

theorem unit_beq_unit (g h : Globals Decl) : (unit g == unit h) = (g == h) := by
  show (sameAll g.decls h.decls && g.table == h.table && g.stmts == h.stmts) =
    (g.table == h.table && g.decls == h.decls && g.stmts == h.stmts)
  rw [sameAll_eq_beq, Bool.and_comm (g.decls == h.decls)]

theorem func_beq_func (f g : Func Decl) :
    (func f == func g) =
      (f.toValued == g.toValued && f.params == g.params && f.body == g.body &&
        f.scope == g.scope) := by
  show (f.toValued == g.toValued && f.params == g.params && f.body == g.body &&
      f.scope.blocks == g.scope.blocks && sameAll f.scope.decls g.scope.decls) = _
  rw [sameAll_eq_beq, Bool.and_assoc]
  rfl

theorem alike_of_beq {d e : Decl} (h : (d == e) = true) : Alike d e := by
  change same d e = true at h
  unfold same at h
  split at h
  case h_1 => exact .unit ((unit_beq_unit _ _).symm.trans h)
  case h_8 =>
    simp only [Bool.and_eq_true, beq_iff_eq, sameAll_eq_beq] at h
    obtain ⟨⟨⟨⟨rfl, rfl⟩, rfl⟩, hblocks⟩, hdecls⟩ := h
    exact .func _ (Bool.and_eq_true_iff.2 ⟨hblocks, hdecls⟩)
  case h_11 => cases h
  -- What is left are the kinds that own no names, both declarations being of one kind.
  all_goals
    obtain rfl := eq_of_beq h
    exact .plain rfl

/-- A declaration that owns no names is equal to itself. -/
theorem beq_self_of_plain {d : Decl} (h : d.isScope = false) : (d == d) = true := by
  cases d with
  | unit g => cases h
  | func f => cases h
  | named a | typeName a | record a | enumeration a | value a | declarator a | var a | param a =>
    exact beq_self_eq_true a

theorem beq_iff_alike (d e : Decl) : (d == e) = true ↔ d.Alike e := by
  refine ⟨alike_of_beq, fun h => ?_⟩
  cases h with
  | plain h => exact beq_self_of_plain h
  | unit hg => rw [unit_beq_unit, hg]
  | func f hs =>
    rw [func_beq_func, hs, beq_self_eq_true f.toValued, beq_self_eq_true f.params,
      beq_self_eq_true f.body]
    rfl

/-- The declarations in the scope or the globals that the declaration owns. -/
def inner : Decl → List Decl
  | unit g => g.decls
  | func f => f.scope.decls
  | _ => []

mutual

/-- What holds of a declaration if it holds of those that it owns holds of all. -/
theorem inner_induction {P : Decl → Prop} (step : ∀ d : Decl, (∀ c ∈ d.inner, P c) → P d) :
    ∀ d : Decl, P d
  | unit ⟨_, decls, _⟩ => step _ (inner_inductionAll step decls)
  | func ⟨_, _, _, ⟨_, decls⟩⟩ => step _ (inner_inductionAll step decls)
  | named n => step (named n) nofun
  | typeName n => step (typeName n) nofun
  | record r => step (record r) nofun
  | enumeration e => step (enumeration e) nofun
  | value v => step (value v) nofun
  | declarator v => step (declarator v) nofun
  | var v => step (var v) nofun
  | param v => step (param v) nofun

theorem inner_inductionAll {P : Decl → Prop} (step : ∀ d : Decl, (∀ c ∈ d.inner, P c) → P d) :
    ∀ ds : List Decl, ∀ c ∈ ds, P c
  | [] => nofun
  | d :: ds => List.forall_mem_cons.2 ⟨inner_induction step d, inner_inductionAll step ds⟩

end

theorem equivAt_unit {g : Globals Decl} (h : EquivAt g) : EquivAt (unit g) := by
  refine ⟨(beq_iff_alike _ _).2 (.unit h.refl), fun d hd => ?_, fun d e hd he => ?_⟩
  · cases alike_of_beq hd with
    | plain hp => cases hp
    | unit hg => exact (beq_iff_alike _ _).2 (.unit (h.symm _ hg))
  · cases alike_of_beq hd with
    | plain hp => cases hp
    | unit hg =>
      cases alike_of_beq he with
      | plain hp => cases hp
      | unit hh => exact (beq_iff_alike _ _).2 (.unit (h.trans _ _ hg hh))

theorem equivAt_func {f : Func Decl} (h : EquivAt f.scope) : EquivAt (func f) := by
  refine ⟨(beq_iff_alike _ _).2 (.func f h.refl), fun d hd => ?_, fun d e hd he => ?_⟩
  · cases alike_of_beq hd with
    | plain hp => cases hp
    | func f hs => exact (beq_iff_alike _ _).2 (.func { f with scope := _ } (h.symm _ hs))
  · cases alike_of_beq hd with
    | plain hp => cases hp
    | func f hs =>
      cases alike_of_beq he with
      | plain hp => cases hp
      | func _ ht => exact (beq_iff_alike _ _).2 (.func f (h.trans _ _ hs ht))

theorem equivAt (d : Decl) : EquivAt d := by
  refine inner_induction (fun d ih => ?_) d
  cases d with
  | unit g => exact equivAt_unit (.globals ih)
  | func f => exact equivAt_func (.scope ih)
  | _ =>
    refine .of_eq fun e => ⟨fun h => ?_, fun h => h ▸ beq_self_of_plain rfl⟩
    cases alike_of_beq h
    rfl

instance : EquivBEq Decl where
  rfl {d} := d.equivAt.refl
  symm {d e} := d.equivAt.symm e
  trans {d e f} := d.equivAt.trans e f

end Decl

theorem Scope.equivAt (s : Scope Decl) : EquivAt s := .scope fun d _ => d.equivAt

theorem Globals.equivAt (g : Globals Decl) : EquivAt g := .globals fun d _ => d.equivAt

instance : EquivBEq (Scope Decl) where
  rfl {s} := s.equivAt.refl
  symm {s t} := s.equivAt.symm t
  trans {s t u} := s.equivAt.trans t u

instance : EquivBEq (Globals Decl) where
  rfl {g} := g.equivAt.refl
  symm {g h} := g.equivAt.symm h
  trans {g h i} := g.equivAt.trans h i

end NameScope
