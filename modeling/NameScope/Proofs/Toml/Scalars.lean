import NameScope.Proofs.Text.Delimiting
import NameScope.Toml.Document

/-
  The written forms of values without parts: strings on one line, with escapes or without, flags and
  decimal numbers.  `Written` is the grammar of these forms and says what each stands for.

  A written value ends where something comes that may follow a value on its line, and is read as
  what it stands for, unless it is a number that is no 64-bit word with a sign (`value?_written`).
-/

namespace NameScope.Toml

variable {bound : Nat} {rest : List Char}

/-! ## Strings -/

/-- A character that stands for itself between double quotes. -/
def isVerbatim (c : Char) : Bool := isPlain c && c ≠ '"' && c ≠ '\\'

/-- The letters that may come after a backslash, each with the character that it stands for. -/
def letters : List (Char × Char) :=
  [('b', '\x08'), ('t', '\t'), ('n', '\n'), ('f', '\x0c'), ('r', '\r'), ('"', '"'), ('\\', '\\')]

/-- The text `w` between double quotes stands for the characters `t`. -/
inductive Spells : List Char → List Char → Prop where
  | nil : Spells [] []
  | verbatim {c : Char} {w t : List Char} (hc : isVerbatim c = true) (h : Spells w t) :
      Spells (c :: w) (c :: t)
  | letter {k c : Char} {w t : List Char} (hk : (k, c) ∈ letters) (h : Spells w t) :
      Spells ('\\' :: k :: w) (c :: t)
  | code {k c : Char} {digits w t : List Char} {values : List Nat}
      (hk : k = 'u' ∧ digits.length = 4 ∨ k = 'U' ∧ digits.length = 8)
      (hdigits : List.Forall₂ Text.DigitOf digits values) (hc : Text.ofHexDigits values = c.toNat)
      (h : Spells w t) : Spells ('\\' :: k :: (digits ++ w)) (c :: t)

theorem spells_verbatim {text : List Char} (h : ∀ c ∈ text, isVerbatim c = true) :
    Spells text text := by
  induction text with
  | nil => exact .nil
  | cons c text ih =>
    obtain ⟨hc, htext⟩ := List.forall_mem_cons.1 h
    exact .verbatim hc (ih htext)

theorem escaped?_of_mem {k c : Char} (h : (k, c) ∈ letters) :
    escaped? k = some c ∧ k ≠ 'u' ∧ k ≠ 'U' := by
  have hall : ∀ p ∈ letters, escaped? p.1 = some p.2 ∧ p.1 ≠ 'u' ∧ p.1 ≠ 'U' := by decide
  exact hall (k, c) h

theorem digit?_of_digitOf {c : Char} {d : Nat} (h : Text.DigitOf c d) : digit? 16 c = some d := by
  have hall : ∀ d < 16, digit? 16 (Nat.digitChar d) = some d ∧
      digit? 16 (Nat.digitChar d).toUpper = some d := by decide
  obtain ⟨hd, rfl | rfl⟩ := h
  · exact (hall d hd).1
  · exact (hall d hd).2

theorem charOf?_toNat (c : Char) : charOf? c.toNat = some c := by
  have hvalid : c.toNat.isValidChar := c.valid
  rw [charOf?, if_pos hvalid, Char.ofNat_toNat]

theorem basic?_code {digits : List Char} {values : List Nat}
    (h : List.Forall₂ Text.DigitOf digits values) (left n : Nat)
    (hleft : digits.length = left + 1) :
    basic? (.code (left + 1) n) (digits ++ rest) =
      (charOf? (values.foldl (fun n d => n * 16 + d) n)).bind (prepend · (basic? .plain rest)) := by
  induction h generalizing left n with
  | nil => cases hleft
  | @cons c d digits values hc hdigits ih =>
    rw [List.cons_append, basic?.eq_7, digit?_of_digitOf hc]
    dsimp only [Option.bind_eq_bind, Option.bind_some]
    cases left with
    | zero =>
      obtain rfl : digits = [] := List.length_eq_zero_iff.1 (Nat.succ.inj hleft)
      cases hdigits
      rfl
    | succ left =>
      rw [if_neg (Nat.succ_ne_zero left)]
      exact ih left (n * 16 + d) (Nat.succ.inj hleft)

theorem basic?_spells {w t : List Char} (h : Spells w t) :
    basic? .plain (w ++ '"' :: rest) = some (t, rest) := by
  induction h with
  | nil => rfl
  | @verbatim c w t hc _ ih =>
    simp only [isVerbatim, Bool.and_eq_true, decide_eq_true_eq] at hc
    obtain ⟨⟨hplain, hquote⟩, hbackslash⟩ := hc
    rw [List.cons_append, basic?.eq_3 _ _ hquote hbackslash, if_pos hplain, ih]
    rfl
  | @letter k c w t hk _ ih =>
    obtain ⟨hescaped, hu, hU⟩ := escaped?_of_mem hk
    rw [List.cons_append, List.cons_append, basic?, basic?.eq_6 _ _ hu hU, hescaped, ih]
    rfl
  | @code k c digits w t values hk hdigits hc _ ih =>
    have hread : ∀ left, digits.length = left + 1 →
        basic? (.code (left + 1) 0) (digits ++ (w ++ '"' :: rest)) = some (c :: t, rest) := by
      intro left hleft
      have hvalue : values.foldl (fun n d => n * 16 + d) 0 = c.toNat := hc
      rw [basic?_code hdigits left 0 hleft, hvalue, charOf?_toNat, ih]
      rfl
    rw [List.cons_append, List.cons_append, List.append_assoc, basic?]
    obtain ⟨rfl, hlength⟩ | ⟨rfl, hlength⟩ := hk
    · exact hread 3 hlength
    · exact hread 7 hlength

theorem literal?_plain {t : List Char} (h : ∀ c ∈ t, isPlain c = true ∧ c ≠ '\'') :
    literal? (t ++ '\'' :: rest) = some (t, rest) := by
  induction t with
  | nil => rfl
  | cons c t ih =>
    obtain ⟨⟨hplain, hquote⟩, ht⟩ := List.forall_mem_cons.1 h
    rw [List.cons_append, literal?.eq_2 _ _ hquote, if_pos hplain, ih ht]
    rfl

/-! ## Numbers -/

/-- Digits of which any two neighbours may be parted by one underscore. -/
inductive Grouped : List Char → Prop where
  | single {c : Char} (hc : c.isDigit = true) : Grouped [c]
  | cons {c : Char} {w : List Char} (hc : c.isDigit = true) (h : Grouped w) : Grouped (c :: w)
  | parted {c : Char} {w : List Char} (hc : c.isDigit = true) (h : Grouped w) :
      Grouped (c :: '_' :: w)

/-- The text is a decimal numeral for `n`: a zero stands first only if it stands alone. -/
structure Numeral (w : List Char) (n : Nat) : Prop where
  grouped : Grouped w
  unpadded : w.head? = some '0' → w = ['0']
  value : Nat.ofDigitChars 10 (w.filter (· ≠ '_')) 0 = n

theorem Grouped.of_digits {c : Char} {w : List Char} (hc : c.isDigit = true)
    (hw : ∀ d ∈ w, d.isDigit = true) : Grouped (c :: w) := by
  induction w generalizing c with
  | nil => exact .single hc
  | cons d w ih =>
    obtain ⟨hd, hw⟩ := List.forall_mem_cons.1 hw
    exact .cons hc (ih hd hw)

theorem Grouped.exists_cons {w : List Char} (h : Grouped w) :
    ∃ c cs, w = c :: cs ∧ c.isDigit = true := by
  cases h with
  | single hc => exact ⟨_, _, rfl, hc⟩
  | cons hc _ => exact ⟨_, _, rfl, hc⟩
  | parted hc _ => exact ⟨_, _, rfl, hc⟩

theorem Grouped.mem {w : List Char} (h : Grouped w) : ∀ c ∈ w, c = '_' ∨ c.isDigit = true := by
  induction h with
  | single hc => exact List.forall_mem_singleton.2 (.inr hc)
  | cons hc _ ih => exact List.forall_mem_cons.2 ⟨.inr hc, ih⟩
  | parted hc _ ih => exact List.forall_mem_cons.2 ⟨.inr hc, List.forall_mem_cons.2 ⟨.inl rfl, ih⟩⟩

theorem digit?_isDigit {c : Char} (h : c.isDigit = true) :
    digit? 10 c = some (c.toNat - '0'.toNat) := by
  obtain ⟨hlow, hhigh⟩ := Char.isDigit_iff_toNat.1 h
  have hle : '0' ≤ c ∧ c ≤ '9' := ⟨hlow, hhigh⟩
  rw [digit?, if_pos hle, if_pos (Text.digit_lt h)]

theorem digitsValue?_digit {c : Char} (hc : c.isDigit = true) (afterDigit : Bool) (n : Nat)
    (w : List Char) :
    digitsValue? 10 afterDigit n (c :: w) =
      digitsValue? 10 true (10 * n + (c.toNat - '0'.toNat)) w := by
  have hne : c ≠ '_' := Text.ne_of_kind hc rfl
  rw [digitsValue?.eq_3 _ _ _ _ _ hne, digit?_isDigit hc, Nat.mul_comm 10 n]
  rfl

theorem digitsValue?_grouped {w : List Char} (h : Grouped w) (afterDigit : Bool) (n : Nat) :
    digitsValue? 10 afterDigit n w = some (Nat.ofDigitChars 10 (w.filter (· ≠ '_')) n) := by
  have hkeep : ∀ {c : Char}, c.isDigit = true → ∀ w,
      (c :: w).filter (· ≠ '_') = c :: w.filter (· ≠ '_') := by
    intro c hc w
    have hne : c ≠ '_' := Text.ne_of_kind hc rfl
    exact List.filter_cons_of_pos (by simp [hne])
  induction h generalizing afterDigit n with
  | single hc =>
    rw [digitsValue?_digit hc, hkeep hc, Nat.ofDigitChars_cons]
    rfl
  | cons hc _ ih => rw [digitsValue?_digit hc, hkeep hc, Nat.ofDigitChars_cons, ih]
  | @parted c w hc _ ih =>
    have hunderscore : ('_' :: w).filter (· ≠ '_') = w.filter (· ≠ '_') :=
      List.filter_cons_of_neg (by simp)
    rw [digitsValue?_digit hc, hkeep hc, hunderscore, Nat.ofDigitChars_cons, digitsValue?, ih]
    rfl

/-- The characters that may come right after the value of a line. -/
def valueEnds : List Char := [' ', '\t', '#', '\n', '\r']

def EndsValue (rest : List Char) : Prop := ∀ c ∈ rest.head?, c ∈ valueEnds

theorem decimal?_numeral {w : List Char} {n : Nat} (h : Numeral w n) (hrest : EndsValue rest) :
    decimal? (w ++ rest) = some (n, rest) := by
  have hrun : digitRun 10 (w ++ rest) = (w, rest) := by
    refine Text.span_run (fun c hc => ?_) fun c hc => ?_
    · obtain rfl | hdigit := h.grouped.mem c hc
      · rfl
      · rw [digit?_isDigit hdigit, Option.isSome_some, Bool.or_true]
    · have hends : ∀ c ∈ valueEnds, (c = '_' || (digit? 10 c).isSome) = false := by
        simp [valueEnds, digit?]
      exact hends c (hrest c hc)
  have hzero : ¬(w.head? = some '0' ∧ w ≠ ['0']) := fun hw => hw.2 (h.unpadded hw.1)
  have hvalue : digitsValue? 10 false 0 w = some n := by
    rw [digitsValue?_grouped h.grouped, h.value]
  simp only [decimal?, hrun, if_neg hzero, hvalue, Option.map_some]

theorem numeral_toDigits (n : Nat) : Numeral (Nat.toDigits 10 n) n := by
  have hdigit := Text.isDigit_toDigits n
  have hall : (Nat.toDigits 10 n).filter (· ≠ '_') = Nat.toDigits 10 n := by
    refine List.filter_eq_self.2 fun c hc => ?_
    have hne : c ≠ '_' := Text.ne_of_kind (hdigit c hc) rfl
    simp [hne]
  refine ⟨?_, fun hzero => ?_, by rw [hall, Nat.ofDigitChars_ten_toDigits]⟩
  · obtain ⟨c, digits, h⟩ := List.exists_cons_of_ne_nil (Nat.toDigits_ne_nil (b := 10) (n := n))
    rw [h] at hdigit ⊢
    obtain ⟨hc, hdigits⟩ := List.forall_mem_cons.1 hdigit
    exact .of_digits hc hdigits
  · rw [Text.toDigits_head hzero]
    rfl

/-- A number is kept if it fits.  What fits is a variable, so that no step of the proof counts up to
the bounds of `inRange`. -/
theorem keep_eq_some_iff {fits : Int → Bool} {read : Option (Int × List Char)} {n : Int} :
    (do
      let (n, rest) ← read
      if fits n then return (n, rest) else none) = some (n, rest) ↔
    read = some (n, rest) ∧ fits n = true := by
  constructor
  · intro h
    obtain ⟨⟨m, s⟩, hread, h⟩ := Option.bind_eq_some_iff.1 h
    obtain ⟨hfits, heq⟩ := Option.ite_none_right_eq_some.1 h
    cases heq
    exact ⟨hread, hfits⟩
  · rintro ⟨rfl, hfits⟩
    exact if_pos hfits

theorem integer?_inRange {s : List Char} {n : Int} (h : integer? s = some (n, rest)) :
    inRange n = true := by
  unfold integer? at h
  split at h
  all_goals exact (keep_eq_some_iff.1 h).2

theorem keep_some (fits : Int → Bool) (n : Int) (rest : List Char) :
    (do
      let (n, rest) ← some (n, rest)
      if fits n then return (n, rest) else none) = if fits n then some (n, rest) else none := rfl

theorem integer?_sign {s : List Char} {n : Nat} (h : decimal? s = some (n, rest)) :
    integer? ('+' :: s) = (if inRange n then some ((n : Int), rest) else none) ∧
      integer? ('-' :: s) = if inRange (-n) then some (-(n : Int), rest) else none := by
  simp only [integer?, h, Option.map_some]
  exact ⟨keep_some inRange _ _, keep_some inRange _ _⟩

/-- A number that starts with a digit has no sign, and without a letter after that digit it does
not name its base. -/
theorem integer?_of_decimal {c : Char} {s : List Char} (hc : c.isDigit = true)
    (hs : ∀ d ∈ s.head?, d ∉ ['x', 'o', 'b']) {n : Nat} (h : decimal? (c :: s) = some (n, rest)) :
    integer? (c :: s) = if inRange n then some ((n : Int), rest) else none := by
  unfold integer?
  split
  case h_1 heq => cases heq; exact absurd (by decide) (hs 'x' rfl)
  case h_2 heq => cases heq; exact absurd (by decide) (hs 'o' rfl)
  case h_3 heq => cases heq; exact absurd (by decide) (hs 'b' rfl)
  case h_4 heq => cases heq; cases hc
  case h_5 heq => cases heq; cases hc
  case h_6 =>
    rw [h, Option.map_some]
    exact keep_some inRange _ _

theorem integer?_numeral {w : List Char} {n : Nat} (h : Numeral w n) (hrest : EndsValue rest) :
    integer? (w ++ rest) = if inRange n then some ((n : Int), rest) else none := by
  have hread := decimal?_numeral h hrest
  have hmem := h.grouped.mem
  obtain ⟨c, cs, rfl, hc⟩ := h.grouped.exists_cons
  refine integer?_of_decimal hc (fun d hd => ?_) hread
  cases cs with
  | nil =>
    have hends : ∀ d ∈ valueEnds, d ∉ ['x', 'o', 'b'] := by simp [valueEnds]
    exact hends d (hrest d hd)
  | cons e cs =>
    cases hd
    have hletter : ∀ d ∈ ['x', 'o', 'b'], d ≠ '_' ∧ d.isDigit = false := by simp
    intro hd
    obtain ⟨hne, hno⟩ := hletter d hd
    obtain h | h := hmem d (List.mem_cons_of_mem c List.mem_cons_self)
    · exact hne h
    · exact Bool.noConfusion (h.symm.trans hno)

/-! ## Values -/

/-- The text stands for the value, and for no value with parts. -/
inductive Written : List Char → Value → Prop where
  | basic {w t : List Char} (h : Spells w t) :
      Written ('"' :: (w ++ ['"'])) (.text (String.ofList t))
  | literal {t : List Char} (h : ∀ c ∈ t, isPlain c = true ∧ c ≠ '\'') :
      Written ('\'' :: (t ++ ['\''])) (.text (String.ofList t))
  | boolean (b : Bool) : Written (toString b).toList (.boolean b)
  | natural {w : List Char} {n : Nat} (h : Numeral w n) : Written w (.integer n)
  | positive {w : List Char} {n : Nat} (h : Numeral w n) : Written ('+' :: w) (.integer n)
  | negative {w : List Char} {n : Nat} (h : Numeral w n) : Written ('-' :: w) (.integer (-n))

/-- A value that is a number is a 64-bit word with a sign. -/
def Value.Fits : Value → Prop
  | .integer n => inRange n = true
  | _ => True

instance (v : Value) : Decidable v.Fits :=
  match v with
  | .integer n => inferInstanceAs (Decidable (inRange n = true))
  | .text _ | .boolean _ | .array _ | .table _ _ => .isTrue trivial

/-- A value that is no flag, array or table is a string or a number. -/
theorem value?_lexeme {c : Char} {s : List Char} (hc : c ∉ ['t', 'f', '[', '{']) :
    value? (bound + 1) (c :: s) =
      if c = '"' ∨ c = '\'' then
        (string? (c :: s)).map fun (text, rest) => (.text (String.ofList text), rest)
      else (integer? (c :: s)).map fun (n, rest) => (.integer n, rest) := by
  have hne : ∀ d ∈ ['t', 'f', '[', '{'], ∀ t u, c :: t ≠ d :: u := by
    rintro d hd t u h
    exact hc ((List.cons.inj h).1 ▸ hd)
  rw [value?]
  · simp only [List.head?_cons, Option.some.injEq]
  all_goals exact fun _ => hne _ (by decide) _ _

/-- A single quotation mark may follow the opening one only where the string is empty, and then
none comes after it. -/
theorem ne_triple {q : Char} {w : List Char} (hw : ∀ c ∈ w.head?, c ≠ q) (hq : q ∉ valueEnds)
    (hrest : EndsValue rest) (s : List Char) : w ++ q :: rest ≠ q :: q :: s := by
  intro h
  cases w with
  | nil =>
    obtain rfl := (List.cons.inj h).2
    exact hq (hrest q rfl)
  | cons c w => exact hw c rfl (List.cons.inj h).1

theorem Spells.head_ne {w t : List Char} (h : Spells w t) : ∀ c ∈ w.head?, c ≠ '"' := by
  cases h with
  | nil => rintro _ ⟨⟩
  | verbatim hc _ =>
    rintro _ ⟨⟩ rfl
    exact absurd hc (by decide)
  | letter _ _ => rintro _ ⟨⟩; decide
  | code _ _ _ _ => rintro _ ⟨⟩; decide

theorem string?_spells {w t : List Char} (h : Spells w t) (hrest : EndsValue rest) :
    string? ('"' :: (w ++ '"' :: rest)) = some (t, rest) := by
  rw [string?.eq_2 _ (ne_triple h.head_ne (by decide) hrest), basic?_spells h]

theorem string?_literal {t : List Char} (h : ∀ c ∈ t, isPlain c = true ∧ c ≠ '\'')
    (hrest : EndsValue rest) : string? ('\'' :: (t ++ '\'' :: rest)) = some (t, rest) := by
  have hhead : ∀ c ∈ t.head?, c ≠ '\'' := fun c hc => (h c (List.mem_of_mem_head? hc)).2
  rw [string?.eq_4 _ (ne_triple hhead (by decide) hrest), literal?_plain h]

/-- A number that does not fit its word is no value. -/
theorem value?_integer {c : Char} {s : List Char} {n : Int} (hc : c.isDigit = true ∨ c ∈ ['+', '-'])
    (h : integer? (c :: s) = if inRange n then some (n, rest) else none) :
    value? (bound + 1) (c :: s) =
      if (Value.integer n).Fits then some (.integer n, rest) else none := by
  have hother : c ∉ ['t', 'f', '[', '{'] ∧ ¬(c = '"' ∨ c = '\'') := by
    obtain hc | hc := hc
    · have hne : ∀ d : Char, d.isDigit = false → c ≠ d := fun _ hd => Text.ne_of_kind hc hd
      simp [hne 't' rfl, hne 'f' rfl, hne '[' rfl, hne '{' rfl, hne '"' rfl, hne '\'' rfl]
    · have hall : ∀ c ∈ ['+', '-'], c ∉ ['t', 'f', '[', '{'] ∧ ¬(c = '"' ∨ c = '\'') := by simp
      exact hall c hc
  rw [value?_lexeme hother.1, if_neg hother.2, h]
  by_cases hn : inRange n
  · have hfits : (Value.integer n).Fits := hn
    rw [if_pos hn, if_pos hfits, Option.map_some]
  · have hfits : ¬(Value.integer n).Fits := hn
    rw [if_neg hn, if_neg hfits, Option.map_none]

theorem value?_written {w : List Char} {v : Value} (h : Written w v) (bound : Nat)
    (hrest : EndsValue rest) :
    value? (bound + 1) (w ++ rest) = if v.Fits then some (v, rest) else none := by
  cases h with
  | basic h =>
    rw [List.cons_append, List.append_assoc, List.singleton_append, value?_lexeme (by decide),
      if_pos (.inl rfl), string?_spells h hrest]
    rfl
  | literal h =>
    rw [List.cons_append, List.append_assoc, List.singleton_append, value?_lexeme (by decide),
      if_pos (.inr rfl), string?_literal h hrest]
    rfl
  | boolean b =>
    cases b with
    | true =>
      have hlist : (toString true).toList = ['t', 'r', 'u', 'e'] := by decide
      rw [hlist]
      exact value?.eq_2 bound rest
    | false =>
      have hlist : (toString false).toList = ['f', 'a', 'l', 's', 'e'] := by decide
      rw [hlist]
      exact value?.eq_3 bound rest
  | natural h =>
    have hread := integer?_numeral h hrest
    obtain ⟨c, cs, rfl, hc⟩ := h.grouped.exists_cons
    exact value?_integer (.inl hc) hread
  | positive h =>
    exact value?_integer (.inr (by decide)) (integer?_sign (decimal?_numeral h hrest)).1
  | negative h =>
    exact value?_integer (.inr (by decide)) (integer?_sign (decimal?_numeral h hrest)).2

theorem Written.without_parts {w : List Char} {v : Value} (h : Written w v) {origin : Origin}
    {t : Entries} : v ≠ .table origin t := by
  rintro rfl
  generalize hv : Value.table origin t = v at h
  cases h <;> cases hv

theorem Written.exists_cons {w : List Char} {v : Value} (h : Written w v) :
    ∃ c cs, w = c :: cs ∧ isBlank c = false := by
  cases h with
  | basic _ => exact ⟨_, _, rfl, rfl⟩
  | literal _ => exact ⟨_, _, rfl, rfl⟩
  | boolean b => cases b <;> exact ⟨_, _, rfl, rfl⟩
  | natural h =>
    obtain ⟨c, cs, rfl, hc⟩ := h.grouped.exists_cons
    have hne : ∀ d : Char, d.isDigit = false → c ≠ d := fun _ hd => Text.ne_of_kind hc hd
    exact ⟨c, cs, rfl, by simp [isBlank, hne ' ' rfl, hne '\t' rfl]⟩
  | positive _ => exact ⟨_, _, rfl, rfl⟩
  | negative _ => exact ⟨_, _, rfl, rfl⟩

end NameScope.Toml
