import Mathlib.Data.List.DropRight
import NameScope.Json.Lexeme
import NameScope.Proofs.Text.Delimiting

/-
  White space, strings and numbers of JSON, each with how it is written: the spelling of a string
  and the codes that it stands for, the parts of a number.  Every reader takes such a text, whatever
  comes after it, and leaves what comes after; a number needs that this cannot be part of it
  (`Ends`).
-/

namespace NameScope.Json

variable {bound : Nat} {s rest : List Char}

/-! ## White space -/

structure Gap where
  chars : List Char
  blank : ∀ c ∈ chars, isBlank c = true

def Gap.none : Gap := ⟨[], by simp⟩

theorem skipBlanks_gap (g : Gap) (s : List Char) : skipBlanks (g.chars ++ s) = skipBlanks s :=
  List.dropWhile_append_of_pos g.blank

theorem skipBlanks_cons {c : Char} (hc : isBlank c = false) : skipBlanks (c :: s) = c :: s :=
  List.dropWhile_cons_of_neg (by simp [hc])

theorem skipBlanks_skipBlanks (s : List Char) : skipBlanks (skipBlanks s) = skipBlanks s :=
  List.dropWhile_idempotent isBlank s

/-! ## Strings -/

/-- The letters that may come after a backslash, each with the code that it stands for. -/
def letters : List (Char × Nat) :=
  [('"', 0x22), ('\\', 0x5C), ('/', 0x2F), ('b', 0x08), ('f', 0x0C), ('n', 0x0A), ('r', 0x0D),
    ('t', 0x09)]

/-- The text `w` between double quotes stands for the codes. -/
inductive Spells : List Char → List Nat → Prop where
  | nil : Spells [] []
  | verbatim {c : Char} {w : List Char} {codes : List Nat}
      (hc : 0x20 ≤ c.toNat ∧ c ≠ '"' ∧ c ≠ '\\') (h : Spells w codes) :
      Spells (c :: w) (c.toNat :: codes)
  | letter {k : Char} {code : Nat} {w : List Char} {codes : List Nat} (hk : (k, code) ∈ letters)
      (h : Spells w codes) : Spells ('\\' :: k :: w) (code :: codes)
  | code {digits w : List Char} {values codes : List Nat} (hlength : digits.length = 4)
      (hdigits : List.Forall₂ Text.DigitOf digits values) (h : Spells w codes) :
      Spells ('\\' :: 'u' :: (digits ++ w)) (Text.ofHexDigits values :: codes)

/-- The codes stand for the characters: each character is given by its code or by a pair of
surrogates, none of which stands alone. -/
inductive Encodes : List Nat → List Char → Prop where
  | nil : Encodes [] []
  | single {c : Char} {codes : List Nat} {t : List Char} (h : Encodes codes t) :
      Encodes (c.toNat :: codes) (c :: t)
  | pair {hi lo : Nat} {c : Char} {codes : List Nat} {t : List Char}
      (hhi : 0xD800 ≤ hi ∧ hi < 0xDC00) (hlo : 0xDC00 ≤ lo ∧ lo < 0xE000)
      (hc : c.toNat = 0x10000 + (hi - 0xD800) * 0x400 + (lo - 0xDC00)) (h : Encodes codes t) :
      Encodes (hi :: lo :: codes) (c :: t)

/-- A string with its quotes. -/
structure Quoted where
  inner : List Char
  codes : List Nat
  spells : Spells inner codes

def Quoted.text (q : Quoted) : List Char := '"' :: (q.inner ++ ['"'])

theorem escaped?_of_mem {k : Char} {code : Nat} (h : (k, code) ∈ letters) :
    escaped? k = some code ∧ k ≠ 'u' := by
  have hall : ∀ p ∈ letters, escaped? p.1 = some p.2 ∧ p.1 ≠ 'u' := by decide
  exact hall (k, code) h

theorem hexDigit?_of_digitOf {c : Char} {d : Nat} (h : Text.DigitOf c d) :
    hexDigit? c = some d := by
  have hall : ∀ d < 16, hexDigit? (Nat.digitChar d) = some d ∧
      hexDigit? (Nat.digitChar d).toUpper = some d := by decide
  obtain ⟨hd, rfl | rfl⟩ := h
  · exact (hall d hd).1
  · exact (hall d hd).2

theorem codes?_code {digits : List Char} {values : List Nat}
    (h : List.Forall₂ Text.DigitOf digits values) (left n : Nat)
    (hleft : digits.length = left + 1) :
    codes? (.code (left + 1) n) (digits ++ rest) =
      (codes? .plain rest).map fun (cs, rest) =>
        (values.foldl (fun n d => n * 16 + d) n :: cs, rest) := by
  induction h generalizing left n with
  | nil => cases hleft
  | @cons c d digits values hc hdigits ih =>
    rw [List.cons_append, codes?.eq_6, hexDigit?_of_digitOf hc]
    dsimp only [Option.bind_eq_bind, Option.bind_some]
    cases left with
    | zero =>
      obtain rfl : digits = [] := List.length_eq_zero_iff.1 (Nat.succ.inj hleft)
      cases hdigits
      rfl
    | succ left =>
      rw [if_neg (Nat.succ_ne_zero left)]
      exact ih left (n * 16 + d) (Nat.succ.inj hleft)

theorem codes?_spells {w : List Char} {codes : List Nat} (h : Spells w codes) :
    codes? .plain (w ++ '"' :: rest) = some (codes, rest) := by
  induction h with
  | nil => rfl
  | @verbatim c w codes hc _ ih =>
    obtain ⟨hplain, hquote, hbackslash⟩ := hc
    rw [List.cons_append, codes?.eq_3 _ _ hquote hbackslash, if_pos hplain, ih]
    rfl
  | @letter k code w codes hk _ ih =>
    obtain ⟨hescaped, hu⟩ := escaped?_of_mem hk
    rw [List.cons_append, List.cons_append, codes?, codes?.eq_5 _ _ hu, hescaped, ih]
    rfl
  | @code digits w values codes hlength hdigits _ ih =>
    rw [List.cons_append, List.cons_append, List.append_assoc, codes?, codes?,
      codes?_code hdigits 3 0 hlength, ih]
    rfl

theorem chars?_encodes {codes : List Nat} {t : List Char} (h : Encodes codes t) :
    chars? codes = some t := by
  induction h with
  | nil => rfl
  | @single c codes t _ ih =>
    have hhi : ¬(0xD800 ≤ c.toNat ∧ c.toNat < 0xDC00) ∧ ¬(0xDC00 ≤ c.toNat ∧ c.toNat < 0xE000) := by
      have hvalid : c.toNat < 0xD800 ∨ 0xDFFF < c.toNat ∧ c.toNat < 0x110000 := c.valid
      omega
    rw [chars?.eq_def]
    dsimp only
    rw [if_neg hhi.1, if_neg hhi.2, ih, Char.ofNat_toNat]
    rfl
  | @pair hi lo c codes t hhi hlo hc _ ih =>
    rw [chars?]
    rw [if_pos hhi, if_pos hlo, ih, ← hc, Char.ofNat_toNat]
    rfl

theorem skipString?_text (q : Quoted) (rest : List Char) :
    skipString? (q.text ++ rest) = some rest := by
  rw [Quoted.text, List.cons_append, List.append_assoc, List.singleton_append, skipString?,
    codes?_spells q.spells]
  rfl

theorem string?_text (q : Quoted) {name : String} (h : Encodes q.codes name.toList)
    (rest : List Char) : string? (q.text ++ rest) = some (name, rest) := by
  rw [Quoted.text, List.cons_append, List.append_assoc, List.singleton_append, string?,
    codes?_spells q.spells]
  simp only [Option.bind_eq_bind, Option.bind_some, chars?_encodes h, String.ofList_toList,
    Option.pure_def]

/-! ## Numbers -/

/-- At least one digit. -/
structure Digits where
  chars : List Char
  ne_nil : chars ≠ []
  digit : ∀ c ∈ chars, c.isDigit = true

structure Exponent where
  mark : Char
  sign : Option Char := none
  digits : Digits
  mark_mem : mark ∈ ['e', 'E'] := by decide
  sign_mem : ∀ c ∈ sign, c ∈ ['+', '-'] := by simp

def Exponent.text (e : Exponent) : List Char := e.mark :: (e.sign.toList ++ e.digits.chars)

/-- A number: a zero stands first in the whole part only if it stands alone there. -/
structure Number where
  negative : Bool := false
  whole : Digits
  fraction : Option Digits := none
  exponent : Option Exponent := none
  unpadded : whole.chars.head? = some '0' → whole.chars = ['0']

namespace Number

def fractionText (n : Number) : List Char := n.fraction.elim [] ('.' :: ·.chars)

def exponentText (n : Number) : List Char := n.exponent.elim [] Exponent.text

def text (n : Number) : List Char :=
  (if n.negative then ['-'] else []) ++
    (n.whole.chars ++ (n.fractionText ++ n.exponentText))

end Number

/-- What may come right after a value. -/
def valueEnds : List Char := [' ', '\t', '\n', '\r', ',', ']', '}']

def Ends (rest : List Char) : Prop := ∀ c ∈ rest.head?, c ∈ valueEnds

theorem Digits.exists_cons (d : Digits) : ∃ c cs, d.chars = c :: cs ∧ c.isDigit = true := by
  obtain ⟨c, cs, h⟩ := List.exists_cons_of_ne_nil d.ne_nil
  exact ⟨c, cs, h, d.digit c (h ▸ List.mem_cons_self)⟩

theorem skipDigits?_text (d : Digits) (hrest : ∀ c ∈ rest.head?, c.isDigit = false) :
    skipDigits? (d.chars ++ rest) = some rest := by
  rw [skipDigits?, Text.dropWhile_run d.digit hrest]
  obtain ⟨c, cs, h, hc⟩ := d.exists_cons
  exact if_pos (by rw [h]; exact hc)

theorem skipWhole?_text (n : Number) (hrest : ∀ c ∈ rest.head?, c.isDigit = false) :
    skipWhole? (n.whole.chars ++ rest) = some rest := by
  by_cases hzero : n.whole.chars.head? = some '0'
  · rw [n.unpadded hzero, List.singleton_append, skipWhole?]
    refine if_neg ?_
    cases rest with
    | nil => simp
    | cons c rest => simp [hrest c rfl]
  · have hread := skipDigits?_text n.whole hrest
    obtain ⟨c, cs, h, -⟩ := n.whole.exists_cons
    rw [h] at hzero hread ⊢
    rw [List.cons_append, skipWhole?]
    · exact hread
    · rintro _ hcons
      exact hzero (congrArg some (List.cons.inj hcons).1)

theorem skipExponent?_text (n : Number) (hrest : Ends rest) :
    skipExponent? (n.exponentText ++ rest) = some rest := by
  have hdigit : ∀ c ∈ rest.head?, c.isDigit = false := fun c hc => by
    have hall : ∀ c ∈ valueEnds, c.isDigit = false := by simp [valueEnds]
    exact hall c (hrest c hc)
  rw [Number.exponentText]
  cases n.exponent with
  | none =>
    cases rest with
    | nil => rfl
    | cons c rest =>
      have hall : ∀ c ∈ valueEnds, ¬(c = 'e' ∨ c = 'E') := by simp [valueEnds]
      exact if_neg (hall c (hrest c rfl))
  | some e =>
    have hmark : e.mark = 'e' ∨ e.mark = 'E' := by simpa using e.mark_mem
    have hread := skipDigits?_text e.digits hdigit
    rw [Option.elim_some, Exponent.text, List.cons_append, List.append_assoc]
    cases hsign : e.sign with
    | none =>
      obtain ⟨c, cs, h, hc⟩ := e.digits.exists_cons
      have hne : ∀ d : Char, d.isDigit = false → c ≠ d := fun _ hd => Text.ne_of_kind hc hd
      rw [h, List.cons_append] at hread
      rw [Option.toList_none, List.nil_append, h, List.cons_append, skipExponent?, if_pos hmark]
      · exact hread
      · exact fun _ heq => hne '+' rfl (List.cons.inj heq).1
      · exact fun _ heq => hne '-' rfl (List.cons.inj heq).1
    | some c =>
      have hc : c = '+' ∨ c = '-' := by simpa using e.sign_mem c hsign
      rw [Option.toList_some, List.singleton_append]
      obtain rfl | rfl := hc
      · rwa [skipExponent?, if_pos hmark]
      · rwa [skipExponent?, if_pos hmark]

theorem head_exponentText (n : Number) (hrest : Ends rest) :
    ∀ c ∈ (n.exponentText ++ rest).head?, c.isDigit = false ∧ c ≠ '.' := by
  rw [Number.exponentText]
  cases n.exponent with
  | none =>
    have hall : ∀ c ∈ valueEnds, c.isDigit = false ∧ c ≠ '.' := by simp [valueEnds]
    exact fun c hc => hall c (hrest c hc)
  | some e =>
    have hall : ∀ c ∈ ['e', 'E'], c.isDigit = false ∧ c ≠ '.' := by simp
    rintro _ ⟨⟩
    exact hall e.mark e.mark_mem

theorem head_fractionText (n : Number) (hrest : Ends rest) :
    ∀ c ∈ (n.fractionText ++ (n.exponentText ++ rest)).head?, c.isDigit = false := by
  rw [Number.fractionText]
  cases n.fraction with
  | none => exact fun c hc => (head_exponentText n hrest c hc).1
  | some d => rintro _ ⟨⟩; rfl

theorem skipFraction?_text (n : Number) (hrest : Ends rest) :
    skipFraction? (n.fractionText ++ (n.exponentText ++ rest)) = some (n.exponentText ++ rest) := by
  have hhead := head_exponentText n hrest
  rw [Number.fractionText]
  cases n.fraction with
  | none =>
    refine skipFraction?.eq_2 _ fun _ h => ?_
    exact (hhead '.' (by rw [Option.elim_none, List.nil_append] at h; rw [h]; rfl)).2 rfl
  | some d => exact skipDigits?_text d fun c hc => (hhead c hc).1

theorem skipNumber?_text (n : Number) (hrest : Ends rest) :
    skipNumber? (n.text ++ rest) = some rest := by
  have hwhole := skipWhole?_text n (head_fractionText n hrest)
  have hread : (skipWhole? (n.whole.chars ++ (n.fractionText ++ (n.exponentText ++ rest))) >>=
      skipFraction? >>= skipExponent?) = some rest := by
    rw [hwhole, Option.bind_eq_bind, Option.bind_some, skipFraction?_text n hrest]
    exact skipExponent?_text n hrest
  rw [Number.text, List.append_assoc, List.append_assoc, List.append_assoc]
  cases n.negative with
  | true => exact hread
  | false =>
    obtain ⟨c, cs, h, hc⟩ := n.whole.exists_cons
    rw [h, List.cons_append] at hread ⊢
    unfold skipNumber?
    split
    · next heq => exact absurd (List.cons.inj heq).1 (Text.ne_of_kind hc rfl)
    · exact hread

end NameScope.Json
