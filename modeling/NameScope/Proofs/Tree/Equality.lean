import Mathlib.Data.List.Forall2
import NameScope.Proofs.Tree.Copy

/-
  Equality of trees is structural.  Two trees are compared by two walks in step.  `beq_structural`:
  the comparison holds exactly when the labels of the roots are equal and the children are as many
  and are equal in pairs, at every level, so exactly when the two are one tree; and among trees with
  the same labels in pre-order it is decided by the depths alone.

  A walk that is under way is a list of trees that wait.  Two walks agree from here on exactly when
  the two lists are equal (`walksAgree_iff`): the numbers of children say where, in the two lists,
  the children of the nodes just visited end.
-/

namespace NameScope.Tree

/-! ## Walks in step -/

/-- Children at one depth in front of the rest can be told from the rest when their number is
known. -/
theorem enqueue_inj {d : Nat} {cs₁ cs₂ : List Tree} (h : cs₁.length = cs₂.length)
    {rest₁ rest₂ : List (Nat × Tree)} :
    enqueue d cs₁ rest₁ = enqueue d cs₂ rest₂ ↔ cs₁ = cs₂ ∧ rest₁ = rest₂ := by
  constructor
  · intro heq
    obtain ⟨hchildren, hrest⟩ := List.append_inj heq (by simp only [List.length_map, h])
    exact ⟨(List.map_inj_right fun s t e => (Prod.mk.inj e).2).1 hchildren, hrest⟩
  · rintro ⟨rfl, rfl⟩
    rfl

/-- Two walks agree from here on iff the same trees wait at the same depths in both. -/
theorem walksAgree_iff (pending₁ pending₂ : List (Nat × Tree)) :
    walksAgree pending₁ pending₂ = true ↔ pending₁ = pending₂ := by
  fun_induction walksAgree pending₁ pending₂ with
  | case1 => simp
  | case2 d₁ l₁ cs₁ rest₁ d₂ l₂ cs₂ rest₂ h ih =>
    obtain ⟨hdepth, hlabel, hlength⟩ := h
    rw [ih, hdepth, hlabel, enqueue_inj hlength]
    simp
  | case3 d₁ l₁ cs₁ rest₁ d₂ l₂ cs₂ rest₂ h =>
    simp only [Bool.false_eq_true, false_iff]
    intro heq
    obtain ⟨hfirst, -⟩ := List.cons.inj heq
    obtain ⟨hdepth, htree⟩ := Prod.mk.inj hfirst
    obtain ⟨hlabel, hchildren⟩ := node.inj htree
    exact h ⟨hdepth, hlabel, by rw [hchildren]⟩
  | case4 pending₁ pending₂ hnil hcons =>
    simp only [Bool.false_eq_true, false_iff]
    rintro rfl
    cases pending₁ with
    | nil => exact hnil rfl rfl
    | cons p rest =>
      obtain ⟨d, l, cs⟩ := p
      exact hcons d l cs rest d l cs rest rfl rfl

instance : LawfulBEq Tree where
  eq_of_beq := by
    intro s t h
    have hpending := (walksAgree_iff [(0, s)] [(0, t)]).1 h
    exact (Prod.mk.inj (List.cons.inj hpending).1).2
  rfl := by
    intro t
    exact (walksAgree_iff [(0, t)] [(0, t)]).2 rfl

/-! ## Level by level -/

/-- Siblings are equal in pairs iff the two lists are equal. -/
theorem forall₂_beq_iff (ss ts : List Tree) :
    List.Forall₂ (fun s t => (s == t) = true) ss ts ↔ ss = ts := by
  simp only [beq_iff_eq, List.forall₂_eq_eq_eq]

/-- Trees with the same labels in pre-order are equal iff their depths are the same, too. -/
theorem eq_iff_depths {s t : Tree} (h : s.outline.map Prod.snd = t.outline.map Prod.snd) :
    s = t ↔ s.outline.map Prod.fst = t.outline.map Prod.fst := by
  constructor
  · rintro rfl
    rfl
  · intro hdepths
    apply outline_injective
    calc s.outline = (s.outline.map Prod.fst).zip (s.outline.map Prod.snd) :=
          List.zip_of_prod rfl rfl
      _ = (t.outline.map Prod.fst).zip (t.outline.map Prod.snd) := by rw [hdepths, h]
      _ = t.outline := (List.zip_of_prod rfl rfl).symm

/-- **Equality of trees is structural.** The comparison by two walks says that `s` and `t` are equal
iff their roots have the same label and their children are as many and are equal in pairs, hence iff
they are the same tree.  So it is reflexive, symmetric and transitive; and trees with the same
labels in pre-order are equal only if they are nested alike, so that each label has the same depth
in both. -/
theorem beq_structural (s t u : Tree) :
    ((s == t) = true ↔
        s.label = t.label ∧ List.Forall₂ (fun c d => (c == d) = true) s.children t.children) ∧
      ((s == t) = true ↔ s = t) ∧
      (s == s) = true ∧ (s == t) = (t == s) ∧
      ((s == t) = true → (t == u) = true → (s == u) = true) ∧
      (s.outline.map Prod.snd = t.outline.map Prod.snd →
        ((s == t) = true ↔ s.outline.map Prod.fst = t.outline.map Prod.fst)) := by
  refine ⟨?_, beq_iff_eq, beq_self_eq_true s, Bool.beq_comm, ?_, ?_⟩
  · obtain ⟨l, cs⟩ := s
    obtain ⟨m, ds⟩ := t
    rw [beq_iff_eq, forall₂_beq_iff, node.injEq]
    rfl
  · intro hst htu
    rw [beq_iff_eq] at hst htu ⊢
    exact hst.trans htu
  · intro hlabels
    rw [beq_iff_eq]
    exact eq_iff_depths hlabels

/-- Below one root, `inner` stands below `right` or beside it: the labels are the same in pre-order,
and the trees are unequal. -/
theorem beq_structural_nested :
    let l (symbol : String) : Label := { symbolClass := .nonterminal, symbol := symbol }
    let nested := node (l "root") [leaf (l "left"), node (l "right") [leaf (l "inner")]]
    let flat := node (l "root") [leaf (l "left"), leaf (l "right"), leaf (l "inner")]
    nested.outline.map Prod.snd = flat.outline.map Prod.snd ∧ (nested == flat) = false ∧
      (nested == nested) = true := by
  intro l nested flat
  have hlabels : nested.outline.map Prod.snd = flat.outline.map Prod.snd := by
    rw [outline_eq_lines, outline_eq_lines]
    rfl
  obtain ⟨-, -, hrefl, -, -, hdepths⟩ := beq_structural nested flat nested
  refine ⟨hlabels, ?_, hrefl⟩
  rw [Bool.eq_false_iff, Ne, hdepths hlabels, outline_eq_lines, outline_eq_lines]
  decide

end NameScope.Tree
