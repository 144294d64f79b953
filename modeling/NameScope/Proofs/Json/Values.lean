import NameScope.Proofs.Json.Lexemes

/-
  Values of JSON as syntax trees that keep how they are written.  A value is skipped whatever is
  nested in it, if the bound is the length of its text at least (`skipValue?_text`).
-/

namespace NameScope.Json

variable {bound : Nat} {s rest : List Char}

/-! ## Values -/

/-- The values that are written as words. -/
inductive Constant where
  | true
  | false
  | null

def Constant.text : Constant → List Char
  | true => ['t', 'r', 'u', 'e']
  | false => ['f', 'a', 'l', 's', 'e']
  | null => ['n', 'u', 'l', 'l']

/-- A member of an object up to its value. -/
structure Key where
  before : Gap := .none
  name : Quoted
  after : Gap := .none
  beforeValue : Gap := .none

def Key.text (k : Key) : List Char :=
  k.before.chars ++ (k.name.text ++ (k.after.chars ++ ':' :: k.beforeValue.chars))

mutual

inductive Value where
  | constant (c : Constant)
  | number (n : Number)
  | string (q : Quoted)
  | emptyArray (gap : Gap)
  | array (items : Items)
  | emptyObject (gap : Gap)
  | object (members : Members)

/-- The values of an array. -/
inductive Items where
  | last (before : Gap) (v : Value) (after : Gap)
  | more (before : Gap) (v : Value) (after : Gap) (rest : Items)

/-- The members of an object. -/
inductive Members where
  | last (key : Key) (v : Value) (after : Gap)
  | more (key : Key) (v : Value) (after : Gap) (rest : Members)

end

mutual

def Value.text : Value → List Char
  | .constant c => c.text
  | .number n => n.text
  | .string q => q.text
  | .emptyArray gap => '[' :: (gap.chars ++ [']'])
  | .array items => '[' :: (items.text ++ [']'])
  | .emptyObject gap => '{' :: (gap.chars ++ ['}'])
  | .object members => '{' :: (members.text ++ ['}'])

def Items.text : Items → List Char
  | .last before v after => before.chars ++ (v.text ++ after.chars)
  | .more before v after rest => before.chars ++ (v.text ++ (after.chars ++ ',' :: rest.text))

def Members.text : Members → List Char
  | .last key v after => key.text ++ (v.text ++ after.chars)
  | .more key v after rest => key.text ++ (v.text ++ (after.chars ++ ',' :: rest.text))

end

theorem Number.exists_cons (n : Number) :
    ∃ c cs, n.text = c :: cs ∧ (c = '-' ∨ c.isDigit = true) := by
  obtain ⟨c, cs, h, hc⟩ := n.whole.exists_cons
  rw [Number.text]
  cases n.negative with
  | true => exact ⟨_, _, rfl, .inl rfl⟩
  | false =>
    rw [h]
    exact ⟨c, _, rfl, .inr hc⟩

/-- A value starts with nothing that could be skipped or that closes an array or an object. -/
theorem Value.exists_cons (v : Value) :
    ∃ c cs, v.text = c :: cs ∧ isBlank c = false ∧ c ≠ ']' ∧ c ≠ '}' := by
  cases v with
  | constant c => cases c <;> exact ⟨_, _, rfl, by decide⟩
  | number n =>
    obtain ⟨c, cs, h, hc⟩ := n.exists_cons
    refine ⟨c, cs, h, ?_⟩
    obtain rfl | hc := hc
    · decide
    · have hne : ∀ d : Char, d.isDigit = false → c ≠ d := fun _ hd => Text.ne_of_kind hc hd
      simp [isBlank, hne ' ' rfl, hne '\t' rfl, hne '\n' rfl, hne '\r' rfl, hne ']' rfl,
        hne '}' rfl]
  | string q => exact ⟨_, _, rfl, by decide⟩
  | emptyArray gap => exact ⟨_, _, rfl, by decide⟩
  | array items => exact ⟨_, _, rfl, by decide⟩
  | emptyObject gap => exact ⟨_, _, rfl, by decide⟩
  | object members => exact ⟨_, _, rfl, by decide⟩

theorem skipBlanks_value (v : Value) (s : List Char) : skipBlanks (v.text ++ s) = v.text ++ s := by
  obtain ⟨c, cs, h, hc, -⟩ := v.exists_cons
  rw [h]
  exact skipBlanks_cons hc

theorem skipBlanks_key (k : Key) (s : List Char) :
    skipBlanks (k.text ++ s) =
      k.name.text ++ (k.after.chars ++ ':' :: (k.beforeValue.chars ++ s)) := by
  rw [Key.text, List.append_assoc, List.append_assoc, List.append_assoc, skipBlanks_gap,
    List.cons_append]
  exact skipBlanks_cons rfl

theorem ends_gap (g : Gap) {c : Char} (hc : c ∈ valueEnds) (s : List Char) :
    Ends (g.chars ++ c :: s) := by
  obtain ⟨chars, hblank⟩ := g
  cases chars with
  | nil =>
    rintro _ ⟨⟩
    exact hc
  | cons d chars =>
    have hd : isBlank d = true := hblank d List.mem_cons_self
    simp only [isBlank, Bool.or_eq_true, decide_eq_true_eq] at hd
    rintro _ ⟨⟩
    obtain ((rfl | rfl) | rfl) | rfl := hd <;> decide

/-! ## Skipping -/

theorem skipValue?_number {c : Char} (hc : c = '-' ∨ c.isDigit = true) :
    skipValue? (bound + 1) (c :: s) = skipNumber? (c :: s) := by
  have hne : ∀ d ∈ ['t', 'f', 'n', '[', '{', '"'], ∀ t u, c :: t ≠ d :: u := by
    rintro d hd t u h
    obtain rfl := (List.cons.inj h).1
    have hother : ∀ d ∈ ['t', 'f', 'n', '[', '{', '"'], ¬(d = '-' ∨ d.isDigit = true) := by simp
    exact hother c hd hc
  rw [skipValue?]
  all_goals exact fun _ => hne _ (by decide) _ _

theorem skipItems?_skipBlanks (bound : Nat) (s : List Char) :
    skipItems? bound (skipBlanks s) = skipItems? bound s := by
  cases bound with
  | zero => rfl
  | succ bound => rw [skipItems?, skipItems?, skipBlanks_skipBlanks]

theorem skipMembers?_skipBlanks (bound : Nat) (s : List Char) :
    skipMembers? bound (skipBlanks s) = skipMembers? bound s := by
  cases bound with
  | zero => rfl
  | succ bound => rw [skipMembers?, skipMembers?, skipBlanks_skipBlanks]

theorem skipValue?_items (items : Items) (s : List Char) :
    skipValue? (bound + 1) ('[' :: (items.text ++ s)) = skipItems? bound (items.text ++ s) := by
  have hne : ∀ t, skipBlanks (items.text ++ s) ≠ ']' :: t := by
    have hitem : ∀ (before : Gap) (v : Value) (s t : List Char),
        skipBlanks (before.chars ++ (v.text ++ s)) ≠ ']' :: t := by
      intro before v s t h
      obtain ⟨c, cs, hv, -, hc, -⟩ := v.exists_cons
      rw [skipBlanks_gap, skipBlanks_value, hv] at h
      exact hc (List.cons.inj h).1
    cases items with
    | last before v after => simpa only [Items.text, List.append_assoc] using hitem before v _
    | more before v after rest => simpa only [Items.text, List.append_assoc] using hitem before v _
  rw [← skipItems?_skipBlanks, skipValue?]
  split
  · next heq => exact absurd heq (hne _)
  · rfl

theorem skipValue?_members (members : Members) (s : List Char) :
    skipValue? (bound + 1) ('{' :: (members.text ++ s)) =
      skipMembers? bound (members.text ++ s) := by
  have hne : ∀ t, skipBlanks (members.text ++ s) ≠ '}' :: t := by
    have hmember : ∀ (key : Key) (s t : List Char), skipBlanks (key.text ++ s) ≠ '}' :: t := by
      intro key s t h
      rw [skipBlanks_key] at h
      cases h
    cases members with
    | last key v after => simpa only [Members.text, List.append_assoc] using hmember key _
    | more key v after rest => simpa only [Members.text, List.append_assoc] using hmember key _
  rw [← skipMembers?_skipBlanks, skipValue?]
  split
  · next heq => exact absurd heq (hne _)
  · rfl

section Step

variable {v : Value} {tail : List Char} (hv : skipValue? bound (v.text ++ tail) = some tail)
include hv

/-- A value of an array is skipped together with the character after it. -/
theorem skipItems?_step (before : Gap) :
    skipItems? (bound + 1) (before.chars ++ (v.text ++ tail)) =
      match skipBlanks tail with
      | ',' :: rest => skipItems? bound rest
      | ']' :: rest => some rest
      | _ => none := by
  rw [skipItems?, skipBlanks_gap, skipBlanks_value, hv]
  rfl

/-- A member of an object is skipped together with the character after it. -/
theorem skipMembers?_step (key : Key) :
    skipMembers? (bound + 1) (key.text ++ (v.text ++ tail)) =
      match skipBlanks tail with
      | ',' :: rest => skipMembers? bound rest
      | '}' :: rest => some rest
      | _ => none := by
  have hcolon : skipBlanks (key.after.chars ++ ':' :: (key.beforeValue.chars ++ (v.text ++ tail))) =
      ':' :: (key.beforeValue.chars ++ (v.text ++ tail)) := by
    rw [skipBlanks_gap]
    exact skipBlanks_cons rfl
  rw [skipMembers?, skipBlanks_key, skipString?_text]
  simp only [Option.bind_eq_bind, Option.bind_some, hcolon, skipBlanks_gap, skipBlanks_value, hv]
  rfl

end Step

theorem skipBlanks_gap_cons (g : Gap) {c : Char} (hc : isBlank c = false) (s : List Char) :
    skipBlanks (g.chars ++ c :: s) = c :: s := by
  rw [skipBlanks_gap, skipBlanks_cons hc]

mutual

/-- A value is skipped whatever is nested in it. -/
theorem skipValue?_text : ∀ (v : Value) {bound : Nat} {rest : List Char},
    v.text.length ≤ bound → Ends rest → skipValue? bound (v.text ++ rest) = some rest
  | v, 0, rest, hbound, _ => by
    obtain ⟨c, cs, h, -⟩ := v.exists_cons
    rw [h] at hbound
    cases hbound
  | .constant .true, bound + 1, rest, _, _ => rfl
  | .constant .false, bound + 1, rest, _, _ => rfl
  | .constant .null, bound + 1, rest, _, _ => rfl
  | .number n, bound + 1, rest, _, hrest => by
    have hread := skipNumber?_text n hrest
    obtain ⟨c, cs, h, hc⟩ := n.exists_cons
    rw [h, List.cons_append] at hread
    rw [Value.text, h, List.cons_append, skipValue?_number hc]
    exact hread
  | .string q, bound + 1, rest, _, _ => by
    have hread := skipString?_text q rest
    rw [Quoted.text, List.cons_append] at hread
    rw [Value.text, Quoted.text, List.cons_append, skipValue?]
    exact hread
  | .emptyArray gap, bound + 1, rest, _, _ => by
    rw [Value.text, List.cons_append, List.append_assoc, List.singleton_append, skipValue?,
      skipBlanks_gap_cons gap rfl]
    rfl
  | .array items, bound + 1, rest, hbound, _ => by
    rw [Value.text, List.length_cons, List.length_append] at hbound
    rw [Value.text, List.cons_append, List.append_assoc, List.singleton_append, skipValue?_items]
    exact skipItems?_text items (Nat.le_of_succ_le_succ hbound)
  | .emptyObject gap, bound + 1, rest, _, _ => by
    rw [Value.text, List.cons_append, List.append_assoc, List.singleton_append, skipValue?,
      skipBlanks_gap_cons gap rfl]
    rfl
  | .object members, bound + 1, rest, hbound, _ => by
    rw [Value.text, List.length_cons, List.length_append] at hbound
    rw [Value.text, List.cons_append, List.append_assoc, List.singleton_append,
      skipValue?_members]
    exact skipMembers?_text members (Nat.le_of_succ_le_succ hbound)

theorem skipItems?_text : ∀ (items : Items) {bound : Nat} {rest : List Char},
    items.text.length < bound → skipItems? bound (items.text ++ ']' :: rest) = some rest
  | .last before v after, bound + 1, rest, hbound => by
    rw [Items.text, List.length_append, List.length_append] at hbound
    have hv : skipValue? bound _ = some _ := skipValue?_text v (by omega)
      (ends_gap after (c := ']') (by decide) rest)
    rw [Items.text, List.append_assoc, List.append_assoc, skipItems?_step hv,
      skipBlanks_gap_cons after rfl]
    rfl
  | .more before v after items, bound + 1, rest, hbound => by
    rw [Items.text, List.length_append, List.length_append, List.length_append,
      List.length_cons] at hbound
    have hv : skipValue? bound _ = some _ := skipValue?_text v (by omega)
      (ends_gap after (c := ',') (by decide) (items.text ++ ']' :: rest))
    rw [Items.text, List.append_assoc, List.append_assoc, List.append_assoc, List.cons_append,
      skipItems?_step hv, skipBlanks_gap_cons after rfl]
    exact skipItems?_text items (by omega)

theorem skipMembers?_text : ∀ (members : Members) {bound : Nat} {rest : List Char},
    members.text.length < bound → skipMembers? bound (members.text ++ '}' :: rest) = some rest
  | .last key v after, bound + 1, rest, hbound => by
    rw [Members.text, List.length_append, List.length_append] at hbound
    have hv : skipValue? bound _ = some _ := skipValue?_text v (by omega)
      (ends_gap after (c := '}') (by decide) rest)
    rw [Members.text, List.append_assoc, List.append_assoc, skipMembers?_step hv,
      skipBlanks_gap_cons after rfl]
    rfl
  | .more key v after members, bound + 1, rest, hbound => by
    rw [Members.text, List.length_append, List.length_append, List.length_append,
      List.length_cons] at hbound
    have hv : skipValue? bound _ = some _ := skipValue?_text v (by omega)
      (ends_gap after (c := ',') (by decide) (members.text ++ '}' :: rest))
    rw [Members.text, List.append_assoc, List.append_assoc, List.append_assoc, List.cons_append,
      skipMembers?_step hv, skipBlanks_gap_cons after rfl]
    exact skipMembers?_text members (by omega)

end

end NameScope.Json
