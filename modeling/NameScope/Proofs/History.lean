import Mathlib.Data.List.Forall2

/-
  Histories.  A component is given by a step function, which takes a state and a call and gives an
  answer and the next state; a history is a list of calls.  `run` makes the calls in order and
  keeps every answer.

  The last call of a history is a step from where the calls before it lead (`run_concat`).  What one
  step does carries over to a whole history in three ways: a map between states that every step
  respects is respected by `run` (`run_map`), what every step keeps is kept by `run` (`run_keeps`),
  and what relates two components after every step relates them after two runs with the same calls
  (`run_rel`).

  Calls of different kinds may have nothing to do with each other.  If any two of them commute, then
  only the order within each kind matters, and not how the kinds are mixed (`separates_of_commute`);
  and they commute if every call works on the part of the state that belongs to its kind
  (`Confines.separates`).
-/

namespace NameScope.History

variable {σ τ ι α β : Type}

/-- Makes the calls in order, from `s`; the answers stand in the order of the calls. -/
def run (step : σ → ι → α × σ) (s : σ) : List ι → List α × σ
  | [] => ([], s)
  | c :: cs =>
    ((step s c).1 :: (run step (step s c).2 cs).1, (run step (step s c).2 cs).2)

/-- One more call is a step from where the calls before it lead. -/
theorem run_concat (step : σ → ι → α × σ) (s : σ) (cs : List ι) (c : ι) :
    run step s (cs ++ [c]) =
      ((run step s cs).1 ++ [(step (run step s cs).2 c).1], (step (run step s cs).2 c).2) := by
  induction cs generalizing s with
  | nil => rfl
  | cons d cs ih => simp only [List.cons_append, run, ih]

/-- If `f` takes every step to a step with the same answer, it takes a run to a run with the same
answers. -/
theorem run_map {step : σ → ι → α × σ} {step' : τ → ι → α × τ} (f : σ → τ)
    (h : ∀ s c, step' (f s) c = ((step s c).1, f (step s c).2)) (s : σ) (cs : List ι) :
    run step' (f s) cs = ((run step s cs).1, f (run step s cs).2) := by
  induction cs generalizing s with
  | nil => rfl
  | cons c cs ih =>
    have hc := h s c
    simp only [run, hc, ih]

/-- What every step keeps is kept by every run. -/
theorem run_keeps {step : σ → ι → α × σ} (P : σ → Prop) (h : ∀ s c, P s → P (step s c).2)
    {s : σ} (hs : P s) (cs : List ι) : P (run step s cs).2 := by
  induction cs generalizing s with
  | nil => exact hs
  | cons c cs ih => exact ih (h s c hs)

/-- If related states take each call of a history to related answers and related states, then so
does the history. -/
theorem run_rel {step : σ → ι → α × σ} {step' : τ → ι → β × τ} (R : σ → τ → Prop) (A : α → β → Prop)
    {cs : List ι}
    (h : ∀ c ∈ cs, ∀ s t, R s t → A (step s c).1 (step' t c).1 ∧ R (step s c).2 (step' t c).2)
    {s : σ} {t : τ} (hst : R s t) :
    List.Forall₂ A (run step s cs).1 (run step' t cs).1 ∧
      R (run step s cs).2 (run step' t cs).2 := by
  induction cs generalizing s t with
  | nil => exact ⟨.nil, hst⟩
  | cons c cs ih =>
    obtain ⟨hanswer, hnext⟩ := h c List.mem_cons_self s t hst
    have hrest : ∀ c ∈ cs, ∀ s t, R s t →
        A (step s c).1 (step' t c).1 ∧ R (step s c).2 (step' t c).2 := by
      intro d hd
      exact h d (List.mem_cons_of_mem c hd)
    obtain ⟨hanswers, hlast⟩ := ih hrest hnext
    exact ⟨.cons hanswer hanswers, hlast⟩

/-! ## Calls of different kinds -/

section Kinds

variable {κ : Type} [DecidableEq κ]

/-- The calls of a history, each with its answer. -/
def transcript (step : σ → ι → α × σ) (s : σ) (cs : List ι) : List (ι × α) :=
  cs.zip (run step s cs).1

/-- The two histories make the same calls of each kind in the same order: both mix the same
sequences of calls, one for each kind. -/
def SameByKind (kind : ι → κ) (cs ds : List ι) : Prop :=
  ∀ k, cs.filter (kind · = k) = ds.filter (kind · = k)

/-- Calls of one kind do not notice those of the other kinds: however the kinds are mixed, every
call has the same answer, and the last state is the same. -/
def Separates (step : σ → ι → α × σ) (kind : ι → κ) : Prop :=
  ∀ (s : σ) (cs ds : List ι), SameByKind kind cs ds →
    (run step s cs).2 = (run step s ds).2 ∧
      ∀ k, (transcript step s cs).filter (kind ·.1 = k) =
        (transcript step s ds).filter (kind ·.1 = k)

/-- The two calls can be made in either order: the answers are the same, and so is the state that
they lead to. -/
def Commute (step : σ → ι → α × σ) (c d : ι) : Prop :=
  ∀ s, (step (step s c).2 d).1 = (step s d).1 ∧ (step (step s d).2 c).1 = (step s c).1 ∧
    (step (step s c).2 d).2 = (step (step s d).2 c).2

variable {step : σ → ι → α × σ}

theorem Commute.symm {c d : ι} (h : Commute step c d) : Commute step d c := fun s =>
  ⟨(h s).2.1, (h s).1, (h s).2.2.symm⟩

theorem transcript_cons (s : σ) (c : ι) (cs : List ι) :
    transcript step s (c :: cs) = (c, (step s c).1) :: transcript step (step s c).2 cs := rfl

/-- A call that commutes with all calls before it may as well be made first. -/
theorem run_move {c : ι} {before : List ι} (h : ∀ d ∈ before, Commute step c d) (after : List ι)
    (s : σ) :
    (run step s (before ++ c :: after)).2 = (run step s (c :: (before ++ after))).2 ∧
      ∃ first rest, first.map Prod.fst = before ∧
        transcript step s (before ++ c :: after) = first ++ (c, (step s c).1) :: rest ∧
        transcript step s (c :: (before ++ after)) = (c, (step s c).1) :: (first ++ rest) := by
  induction before generalizing s with
  | nil => exact ⟨rfl, [], _, rfl, rfl, rfl⟩
  | cons d before ih =>
    obtain ⟨hd, hbefore⟩ := List.forall_mem_cons.1 h
    obtain ⟨hanswer, hanswer', hstate⟩ := hd s
    obtain ⟨hlast, first, rest, hfirst, hmoved, hfront⟩ := ih hbefore (step s d).2
    rw [transcript_cons, ← hstate, List.cons.injEq] at hfront
    refine ⟨?_, (d, (step s d).1) :: first, rest, congrArg (d :: ·) hfirst, ?_, ?_⟩
    · show (run step (step s d).2 (before ++ c :: after)).2 =
        (run step (step (step s c).2 d).2 (before ++ after)).2
      rw [hlast, hstate]
      rfl
    · rw [List.cons_append, transcript_cons, hmoved, hanswer']
      rfl
    · rw [List.cons_append, transcript_cons, transcript_cons, hfront.2, hanswer]
      rfl

/-- The first call of a history is the first of its kind in every history with the same calls of
each kind. -/
theorem SameByKind.exists_split {kind : ι → κ} {c : ι} {cs ds : List ι}
    (h : SameByKind kind (c :: cs) ds) :
    ∃ before after, ds = before ++ c :: after ∧ (∀ d ∈ before, kind d ≠ kind c) ∧
      SameByKind kind cs (before ++ after) := by
  have hkind := h (kind c)
  rw [List.filter_cons_of_pos (by simp), eq_comm, List.filter_eq_cons_iff] at hkind
  obtain ⟨before, after, rfl, hbefore, -, hafter⟩ := hkind
  have hne : ∀ d ∈ before, kind d ≠ kind c := fun d hd => by simpa using hbefore d hd
  refine ⟨before, after, rfl, hne, fun k => ?_⟩
  have hk := h k
  by_cases hc : kind c = k
  · subst hc
    rw [List.filter_append, List.filter_eq_nil_iff.2 hbefore, List.nil_append, hafter]
  · rw [List.filter_cons_of_neg (by simpa using hc), List.filter_append,
      List.filter_cons_of_neg (by simpa using hc)] at hk
    rw [hk, List.filter_append]

/-- Where calls of different kinds commute, kinds do not notice each other. -/
theorem separates_of_commute {kind : ι → κ} (h : ∀ c d, kind c ≠ kind d → Commute step c d) :
    Separates step kind := by
  intro s cs
  induction cs generalizing s with
  | nil =>
    intro ds hsame
    have hds : ds = [] := by
      rw [List.eq_nil_iff_forall_not_mem]
      intro d hd
      have hmem : d ∈ ds.filter (kind · = kind d) := List.mem_filter.2 ⟨hd, by simp⟩
      rw [← hsame (kind d)] at hmem
      cases hmem
    rw [hds]
    exact ⟨rfl, fun _ => rfl⟩
  | cons c cs ih =>
    intro ds hsame
    obtain ⟨before, after, rfl, hne, hrest⟩ := hsame.exists_split
    obtain ⟨hstate, hanswers⟩ := ih (step s c).2 _ hrest
    have hcommute : ∀ d ∈ before, Commute step c d := fun d hd => h c d (hne d hd).symm
    obtain ⟨hlast, first, rest, hfirst, hmoved, hfront⟩ := run_move hcommute after s
    refine ⟨hstate.trans hlast.symm, fun k => ?_⟩
    rw [transcript_cons, List.cons.injEq] at hfront
    rw [transcript_cons, hmoved, List.filter_append]
    by_cases hk : kind c = k
    · subst hk
      have hnone : first.filter (kind ·.1 = kind c) = [] := by
        rw [List.filter_eq_nil_iff]
        intro e he
        have hmem : e.1 ∈ before := hfirst ▸ List.mem_map_of_mem he
        simpa using hne e.1 hmem
      have htail := hanswers (kind c)
      rw [hfront.2, List.filter_append, hnone, List.nil_append] at htail
      rw [List.filter_cons_of_pos (by simp), List.filter_cons_of_pos (by simp), hnone,
        List.nil_append, htail]
    · rw [List.filter_cons_of_neg (by simpa using hk), List.filter_cons_of_neg (by simpa using hk),
        hanswers k, hfront.2, List.filter_append]

/-- Parts of a state, one for each kind of call; each can be replaced without the others. -/
structure Parts (σ κ : Type) where
  Carrier : κ → Type
  get : (k : κ) → σ → Carrier k
  put : (k : κ) → Carrier k → σ → σ
  get_put_of_ne : ∀ {j k : κ}, j ≠ k → ∀ b s, get j (put k b s) = get j s
  put_comm : ∀ {j k : κ}, j ≠ k → ∀ a b s, put j a (put k b s) = put k b (put j a s)

/-- Every call looks at nothing but the part for its kind, and changes nothing else. -/
def Confines (parts : Parts σ κ) (step : σ → ι → α × σ) (kind : ι → κ) : Prop :=
  ∀ c, ∃ f : parts.Carrier (kind c) → α × parts.Carrier (kind c), ∀ s,
    step s c = ((f (parts.get (kind c) s)).1, parts.put (kind c) (f (parts.get (kind c) s)).2 s)

theorem Confines.separates {parts : Parts σ κ} {kind : ι → κ} (h : Confines parts step kind) :
    Separates step kind := by
  refine separates_of_commute fun c d hne s => ?_
  obtain ⟨f, hf⟩ := h c
  obtain ⟨f', hf'⟩ := h d
  simp only [hf, hf', parts.get_put_of_ne hne, parts.get_put_of_ne hne.symm]
  exact ⟨trivial, trivial, parts.put_comm hne.symm _ _ s⟩

end Kinds

end NameScope.History
