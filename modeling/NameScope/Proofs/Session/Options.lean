import NameScope.Proofs.Session.Revision
import NameScope.Proofs.Spelling.Ranking

/-
  What the options for reports change.  Of the options of a session only the rule for redeclarations
  has a say in what is bound.  How many names are suggested, and whether parameters may have
  initializers, shows in the reports and nowhere else, and there in one way: with a smaller number
  of suggestions each report keeps the first of its suggestions (`limiting`), and where initializers
  are allowed the reports on them are missing (`permitting`).

  Both are revisions of a session, so two histories of the same calls are tied to each other by
  them from the start to the end.  `options_affect_reports_only` puts this together.
-/

namespace NameScope

/-! ## Reports under other options -/

/-- The report with the first `m` of its suggestions. -/
def Diagnostic.limited (m : Nat) : Diagnostic → Diagnostic
  | .undefined name pos names => .undefined name pos (names.take m)
  | d => d

/-- Whether the report is on the initializer of a parameter. -/
def Diagnostic.onInitializer : Diagnostic → Bool
  | .initializedParameter .. => true
  | .scope _ | .undefined .. => false

/-- With a smaller limit the suggestions are the first of those with a greater one. -/
theorem Spelling.nearest_min (target : String) (candidates : List String) (m n : Nat) :
    nearest target candidates (min m n) = (nearest target candidates n).take m := by
  rw [nearest_eq_take, nearest_eq_take, List.take_take]

namespace Session

/-- At most `m` suggestions. -/
def limiting (m : Nat) : Revision where
  decls := id
  reports := List.map (Diagnostic.limited m)
  options o := { o with maxSuggestions := min m o.maxSuggestions }
  rule _ := rfl
  add _ _ := rfl
  scope _ _ := List.map_append
  undefined o rs name pos candidates := by
    rw [List.map_append, Spelling.nearest_min]
    rfl
  initialized o rs p := by
    rw [List.map_append]
    split
    · rfl
    · rfl

/-- Initializers of parameters are allowed. -/
def permitting : Revision where
  decls := id
  reports := List.filter (!·.onInitializer)
  options o := { o with allowParamInit := true }
  rule _ := rfl
  add _ _ := rfl
  scope _ _ := List.filter_append _ _
  undefined _ _ _ _ _ := List.filter_append _ _
  initialized o rs p := by
    have hallowed : ¬ (p.init.isSome = true ∧ ¬ true = true) := fun h => h.2 rfl
    rw [List.filter_append, if_neg hallowed]
    split
    · rfl
    · rfl

/-! ## Histories under other options -/

theorem run_limiting (rule : RedeclarationRule) {m n : Nat} (h : m ≤ n) (allow : Bool)
    (calls : List Call) :
    (start ⟨rule, m, allow⟩).run calls =
      (((start ⟨rule, n, allow⟩).run calls).1,
        ((start ⟨rule, n, allow⟩).run calls).2.revise (limiting m)) := by
  have hstart : (start ⟨rule, n, allow⟩).revise (limiting m) = start ⟨rule, m, allow⟩ := by
    simp only [revise, start, limiting, Nat.min_eq_left h]
    rfl
  rw [← hstart]
  exact run_revise (fun _ => rfl) _ calls

theorem run_permitting (rule : RedeclarationRule) (n : Nat) (allow : Bool) (calls : List Call) :
    (start ⟨rule, n, true⟩).run calls =
      (((start ⟨rule, n, allow⟩).run calls).1,
        ((start ⟨rule, n, allow⟩).run calls).2.revise permitting) :=
  run_revise (r := permitting) (fun _ => rfl) (start ⟨rule, n, allow⟩) calls

/-- A history without suggestions and with all initializers allowed binds and answers what the
history does under any options with the same rule. -/
theorem run_plain (rule : RedeclarationRule) (n : Nat) (allow : Bool) (calls : List Call) :
    ((start ⟨rule, n, allow⟩).run calls).1 = ((start ⟨rule, 0, true⟩).run calls).1 ∧
      ((start ⟨rule, n, allow⟩).run calls).2.unit = ((start ⟨rule, 0, true⟩).run calls).2.unit ∧
      ((start ⟨rule, n, allow⟩).run calls).2.tags =
        ((start ⟨rule, 0, true⟩).run calls).2.tags := by
  rw [run_permitting rule 0 allow, run_limiting rule (Nat.zero_le n) allow]
  exact ⟨rfl, rfl, rfl⟩

/-- **The options for reports affect reports only.** Let two new sessions under one rule be driven
by the same calls. Whatever their other options are, every call has the same answer in both, and
both end with the same declarations, statements, global names with their order, and tags. With the
smaller of two numbers of suggestions the reports are the same, one for one, but that each has the
first suggestions only, and so the advice that is made of these; and where initializers of
parameters are allowed, the reports are the same without those on initializers. -/
theorem options_affect_reports_only (rule : RedeclarationRule) (calls : List Call) :
    (∀ m n allow allow',
      ((start ⟨rule, m, allow⟩).run calls).1 = ((start ⟨rule, n, allow'⟩).run calls).1 ∧
        ((start ⟨rule, m, allow⟩).run calls).2.unit =
          ((start ⟨rule, n, allow'⟩).run calls).2.unit ∧
        ((start ⟨rule, m, allow⟩).run calls).2.tags =
          ((start ⟨rule, n, allow'⟩).run calls).2.tags) ∧
      (∀ m n allow, m ≤ n →
        ((start ⟨rule, m, allow⟩).run calls).2.diagnostics =
          ((start ⟨rule, n, allow⟩).run calls).2.diagnostics.map (·.limited m)) ∧
      ∀ n, ((start ⟨rule, n, true⟩).run calls).2.diagnostics =
        ((start ⟨rule, n, false⟩).run calls).2.diagnostics.filter (!·.onInitializer) := by
  refine ⟨fun m n allow allow' => ?_, fun m n allow hmn => ?_, fun n => ?_⟩
  · obtain ⟨hanswers, hunit, htags⟩ := run_plain rule m allow calls
    obtain ⟨hanswers', hunit', htags'⟩ := run_plain rule n allow' calls
    exact ⟨hanswers.trans hanswers'.symm, hunit.trans hunit'.symm, htags.trans htags'.symm⟩
  · rw [run_limiting rule hmn]
    rfl
  · rw [run_permitting rule n false]
    rfl

end Session

end NameScope
