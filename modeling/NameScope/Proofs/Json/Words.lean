import NameScope.Json.Position
import NameScope.Proofs.Json.Values

/-
  Words of 32 bits as JSON.  A word is read from the decimal of it.  From any other value nothing is
  read, or a part of it; what is then left does not go on as an object or an array has to
  (`word?_value`).
-/

namespace NameScope.Position

open NameScope.Json

variable {rest tail : List Char}

def decimal (n : UInt32) : List Char := (toString n.toNat).toList

theorem decimal_eq (n : UInt32) : decimal n = Nat.toDigits 10 n.toNat := by
  rw [decimal, Nat.toString_eq_ofList_toDigits, String.toList_ofList]

theorem decimal_inj {m n : UInt32} (h : decimal m = decimal n) : m = n := by
  rw [decimal_eq, decimal_eq] at h
  exact UInt32.toNat_inj.1 (Text.toDigits_inj (by decide) (by decide) h)

theorem decimal_ne_nil (n : UInt32) : decimal n ≠ [] := by
  rw [decimal_eq]
  exact Nat.toDigits_ne_nil

theorem isDigit_decimal (n : UInt32) : ∀ c ∈ decimal n, c.isDigit = true := by
  rw [decimal_eq]
  exact Text.isDigit_toDigits n.toNat

theorem decimal_unpadded (n : UInt32) (h : (decimal n).head? = some '0') : decimal n = ['0'] := by
  rw [decimal_eq] at h ⊢
  rw [Text.toDigits_head h]
  rfl

theorem ne_decimal {w : List Char} {c : Char} (hw : c ∈ w) (hc : c.isDigit = false) (n : UInt32) :
    w ≠ decimal n := by
  rintro rfl
  exact Bool.noConfusion (hc.symm.trans (isDigit_decimal n c hw))

theorem word?_whole (n : Number) (hrest : ∀ c ∈ rest.head?, c.isDigit = false) :
    word? (n.whole.chars ++ rest) =
      if Nat.ofDigitChars 10 n.whole.chars 0 < UInt32.size then
        some (UInt32.ofNat (Nat.ofDigitChars 10 n.whole.chars 0), rest)
      else none := by
  have htake : (n.whole.chars ++ rest).take ((n.whole.chars ++ rest).length - rest.length) =
      n.whole.chars := by
    rw [List.length_append, Nat.add_sub_cancel, List.take_left]
  have hfold : n.whole.chars.foldl (fun n c => n * 10 + (c.toNat - '0'.toNat)) 0 =
      Nat.ofDigitChars 10 n.whole.chars 0 := by
    simp only [Nat.ofDigitChars, Nat.mul_comm]
  rw [word?, skipWhole?_text n hrest]
  simp only [Option.bind_eq_bind, Option.bind_some, htake, hfold, Option.pure_def]

theorem word?_of_not_digit {c : Char} (hc : c.isDigit = false) (s : List Char) :
    word? (c :: s) = none := by
  have hskip : skipWhole? (c :: s) = none := by
    rw [skipWhole?.eq_2]
    · exact if_neg (by simp [hc])
    · rintro _ h
      cases h
      cases hc
  rw [word?, hskip]
  rfl

/-- The text that is left after a word does not go on with what may come after a value. -/
def Stuck (rest : List Char) : Prop := ∀ c ∈ (skipBlanks rest).head?, c ∉ [',', ']', '}']

/-- What comes in a number after its whole part, if anything does, starts with no digit. -/
theorem afterWhole_cases (n : Number) :
    n.fractionText ++ n.exponentText = [] ∨
      ∃ c cs, n.fractionText ++ n.exponentText = c :: cs ∧ c ∈ ['.', 'e', 'E'] := by
  rw [Number.fractionText, Number.exponentText]
  cases n.fraction with
  | some d => exact .inr ⟨_, _, rfl, by decide⟩
  | none =>
    cases n.exponent with
    | none => exact .inl rfl
    | some e => exact .inr ⟨_, _, rfl, List.mem_cons_of_mem _ e.mark_mem⟩

theorem word?_number (n : Number) (hsign : n.negative = false) (htail : Ends tail) :
    (∃ k, n.text = decimal k ∧ word? (n.text ++ tail) = some (k, tail)) ∨
      (∀ k, n.text ≠ decimal k) ∧
        ∀ k rest, word? (n.text ++ tail) = some (k, rest) → Stuck rest := by
  have htext : n.text = n.whole.chars ++ (n.fractionText ++ n.exponentText) := by
    rw [Number.text, hsign]
    rfl
  have hread : word? (n.text ++ tail) =
      if Nat.ofDigitChars 10 n.whole.chars 0 < UInt32.size then
        some (UInt32.ofNat (Nat.ofDigitChars 10 n.whole.chars 0),
          n.fractionText ++ (n.exponentText ++ tail))
      else none := by
    rw [htext, List.append_assoc, List.append_assoc, word?_whole n (head_fractionText n htail)]
  rw [← List.append_assoc] at hread
  obtain hafter | ⟨c, cs, hafter, hc⟩ := afterWhole_cases n
  · rw [hafter, List.nil_append] at hread
    rw [hafter, List.append_nil] at htext
    have hvalue := Text.toDigits_ofDigitChars n.whole.ne_nil n.whole.digit n.unpadded
    by_cases hsize : Nat.ofDigitChars 10 n.whole.chars 0 < UInt32.size
    · refine .inl ⟨_, ?_, hread.trans (if_pos hsize)⟩
      rw [decimal_eq, UInt32.toNat_ofNat_of_lt' hsize, hvalue, htext]
    · refine .inr ⟨fun k hk => hsize ?_, fun k rest h => ?_⟩
      · rw [← htext, hk, decimal_eq, Nat.ofDigitChars_ten_toDigits]
        exact k.toNat_lt
      · rw [hread, if_neg hsize] at h
        cases h
  · have hall : ∀ c ∈ ['.', 'e', 'E'], c.isDigit = false ∧ isBlank c = false ∧
        c ∉ [',', ']', '}'] := by simp [isBlank]
    obtain ⟨hdigit, hblank, hstuck⟩ := hall c hc
    have hmem : c ∈ n.text := by simp [htext, hafter]
    refine .inr ⟨ne_decimal hmem hdigit, fun k rest h => ?_⟩
    rw [hread, hafter] at h
    obtain ⟨-, h⟩ := Option.ite_none_right_eq_some.1 h
    cases h
    rw [Stuck, List.cons_append, skipBlanks_cons hblank]
    rintro _ ⟨⟩
    exact hstuck

/-- A value is read as a word if it is the decimal of one; otherwise nothing is read, or a part
after which no object or array goes on. -/
theorem word?_value (v : Value) (htail : Ends tail) :
    (∃ n, v.text = decimal n ∧ word? (v.text ++ tail) = some (n, tail)) ∨
      (∀ n, v.text ≠ decimal n) ∧
        ∀ n rest, word? (v.text ++ tail) = some (n, rest) → Stuck rest := by
  have hother : ∀ {c cs}, v.text = c :: cs → c.isDigit = false →
      (∀ n, v.text ≠ decimal n) ∧
        ∀ n rest, word? (v.text ++ tail) = some (n, rest) → Stuck rest := by
    intro c cs h hc
    refine ⟨ne_decimal (h ▸ List.mem_cons_self) hc, fun n rest hread => ?_⟩
    rw [h, List.cons_append, word?_of_not_digit hc] at hread
    cases hread
  cases v with
  | constant c => cases c <;> exact .inr (hother rfl rfl)
  | string q => exact .inr (hother rfl rfl)
  | emptyArray gap => exact .inr (hother rfl rfl)
  | array items => exact .inr (hother rfl rfl)
  | emptyObject gap => exact .inr (hother rfl rfl)
  | object members => exact .inr (hother rfl rfl)
  | number n =>
    cases hsign : n.negative with
    | true => exact .inr (hother (by rw [Value.text, Number.text, hsign]; rfl) rfl)
    | false => exact word?_number n hsign htail

end NameScope.Position
