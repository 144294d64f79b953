import Mathlib.Data.List.Induction
import Mathlib.Data.List.TakeDrop
import NameScope.Text.Quoted

/-
  Texts that show where they end.  When values are written one after another, a reader has to find
  the end of each.  A way of writing that shows it, whatever follows, is said to delimit.  Text
  between double quotes does (`delimits_quoted`), since every character inside is written in a way
  that tells it from the others and from the closing quote.  A numeral does not, but it ends where
  anything else than a digit comes (`numeral_inj`).
-/

namespace NameScope.Text

/-- Written values can be told from each other and from whatever follows them. -/
def Delimits {α : Type} (write : α → String) : Prop :=
  ∀ ⦃a b : α⦄ ⦃r s : String⦄, write a ++ r = write b ++ s → a = b ∧ r = s

/-! ## Runs of characters -/

theorem ne_of_kind {p : Char → Bool} {c d : Char} (hc : p c = true) (hd : p d = false) : c ≠ d := by
  rintro rfl
  exact Bool.noConfusion (hd.symm.trans hc)

/-- A run of characters of one kind ends where a character of another kind comes. -/
theorem dropWhile_run {p : Char → Bool} {l r : List Char} (hl : ∀ x ∈ l, p x = true)
    (hr : ∀ x ∈ r.head?, p x = false) : (l ++ r).dropWhile p = r := by
  rw [List.dropWhile_append_of_pos hl]
  cases r with
  | nil => rfl
  | cons c r => exact List.dropWhile_cons_of_neg (by simp [hr c rfl])

theorem span_run {p : Char → Bool} {l r : List Char} (hl : ∀ x ∈ l, p x = true)
    (hr : ∀ x ∈ r.head?, p x = false) : (l ++ r).span p = (l, r) := by
  rw [List.span_eq_takeWhile_dropWhile, List.takeWhile_append_of_pos hl, dropWhile_run hl hr]
  cases r with
  | nil => simp
  | cons c r => rw [List.takeWhile_cons_of_neg (by simp [hr c rfl]), List.append_nil]

theorem run_inj {p : Char → Bool} {l m r s : List Char} {c d : Char} (hl : ∀ x ∈ l, p x = true)
    (hm : ∀ x ∈ m, p x = true) (hc : p c = false) (hd : p d = false)
    (h : l ++ c :: r = m ++ d :: s) : l = m ∧ c :: r = d :: s := by
  have hleft : (l ++ c :: r).span p = (l, c :: r) := span_run hl (by rintro _ ⟨⟩; exact hc)
  have hright : (m ++ d :: s).span p = (m, d :: s) := span_run hm (by rintro _ ⟨⟩; exact hd)
  rw [h] at hleft
  exact Prod.mk.inj (hleft.symm.trans hright)

/-! ## Numerals -/

theorem exists_digitChar_of_mem {b n : Nat} (hb : 1 < b) {c : Char}
    (h : c ∈ Nat.toDigits b n) : ∃ k, c = Nat.digitChar k := by
  induction n using Nat.base_induction b hb with
  | single m hm =>
    rw [Nat.toDigits_of_lt_base hm, List.mem_singleton] at h
    exact ⟨m, h⟩
  | digit m k hk hm ih =>
    rw [← Nat.toDigits_append_toDigits hb hm hk, List.mem_append, Nat.toDigits_of_lt_base hk,
      List.mem_singleton] at h
    cases h with
    | inl h => exact ih h
    | inr h => exact ⟨k, h⟩

theorem digitChar_inj {m n : Nat} (hm : m < 16) (hn : n < 16)
    (h : Nat.digitChar m = Nat.digitChar n) : m = n := by
  have hall : ∀ m < 16, ∀ n < 16, Nat.digitChar m = Nat.digitChar n → m = n := by decide
  exact hall m hm n hn h

/-- Numbers with the same digits are the same. -/
theorem toDigits_inj {b : Nat} (hb : 1 < b) (hb' : b ≤ 16) {m n : Nat}
    (h : Nat.toDigits b m = Nat.toDigits b n) : m = n := by
  induction m using Nat.strongRecOn generalizing n with
  | ind m ih =>
    have hsingle : m < b ↔ n < b := by
      rw [← Nat.pow_one b, ← Nat.length_toDigits_le_iff hb Nat.one_pos, h,
        Nat.length_toDigits_le_iff hb Nat.one_pos]
    by_cases hm : m < b
    · have hn := hsingle.1 hm
      rw [Nat.toDigits_of_lt_base hm, Nat.toDigits_of_lt_base hn] at h
      exact digitChar_inj (by omega) (by omega) (List.cons.inj h).1
    · have hn := mt hsingle.2 hm
      rw [Nat.toDigits_of_base_le (n := m) hb (by omega),
        Nat.toDigits_of_base_le (n := n) hb (by omega)] at h
      obtain ⟨hfirst, hlast⟩ := List.append_inj' h rfl
      have hlt : ∀ k, k % b < 16 := fun k => Nat.lt_of_lt_of_le (Nat.mod_lt k (by omega)) hb'
      exact Nat.ext_div_mod (ih (m / b) (Nat.div_lt_self (by omega) hb) hfirst)
        (digitChar_inj (hlt m) (hlt n) (List.cons.inj hlast).1)

theorem isDigit_toDigits (n : Nat) : ∀ x ∈ Nat.toDigits 10 n, x.isDigit = true :=
  fun _ hx => Nat.isDigit_of_mem_toDigits (by decide) (by decide) hx

theorem digit_lt {c : Char} (hc : c.isDigit = true) : c.toNat - '0'.toNat < 10 := by
  obtain ⟨-, hhigh⟩ := Char.isDigit_iff_toNat.1 hc
  have : '9'.toNat = '0'.toNat + 9 := rfl
  omega

theorem toDigits_digit {c : Char} (hc : c.isDigit = true) :
    Nat.toDigits 10 (c.toNat - '0'.toNat) = [c] := by
  obtain ⟨hlow, -⟩ := Char.isDigit_iff_toNat.1 hc
  have hall : ∀ d < 10, Nat.toDigits 10 d = [Char.ofNat (d + '0'.toNat)] := by decide
  rw [hall _ (digit_lt hc), Nat.sub_add_cancel hlow, Char.ofNat_toNat]

/-- Digits without a zero in front are the decimal of their value. -/
theorem toDigits_ofDigitChars {w : List Char} (hne : w ≠ []) (hw : ∀ c ∈ w, c.isDigit = true)
    (hzero : w.head? = some '0' → w = ['0']) : Nat.toDigits 10 (Nat.ofDigitChars 10 w 0) = w := by
  induction w using List.reverseRecOn with
  | nil => exact absurd rfl hne
  | append_singleton w c ih =>
    obtain ⟨hinit, hc⟩ := List.forall_mem_append.1 hw
    have hc := hc c List.mem_cons_self
    by_cases hnil : w = []
    · rw [hnil, List.nil_append, Nat.ofDigitChars_cons, Nat.ofDigitChars_nil, Nat.mul_zero,
        Nat.zero_add, toDigits_digit hc]
    · have hhead : w.head? ≠ some '0' := fun h => by
        have heq := congrArg List.length (hzero (by rw [List.head?_append, h]; rfl))
        rw [List.length_append] at heq
        exact hnil (List.length_eq_zero_iff.1 (Nat.succ.inj heq))
      have hw := ih hnil hinit fun h => absurd h hhead
      have hpos : 0 < Nat.ofDigitChars 10 w 0 :=
        Nat.pos_of_ne_zero fun h => hhead (by rw [← hw, h]; rfl)
      rw [Nat.ofDigitChars_append, Nat.ofDigitChars_cons, Nat.ofDigitChars_nil,
        ← Nat.toDigits_append_toDigits (by decide) hpos (digit_lt hc), hw, toDigits_digit hc]

/-- Only the numeral of zero starts with a zero. -/
theorem toDigits_head {n : Nat} (h : (Nat.toDigits 10 n).head? = some '0') : n = 0 := by
  induction n using Nat.base_induction 10 (by decide) with
  | single m hm =>
    rw [Nat.toDigits_of_lt_base hm, List.head?_cons, Option.some.injEq] at h
    have hall : ∀ m < 10, Nat.digitChar m = '0' → m = 0 := by decide
    exact hall m hm h
  | digit m k hk hm ih =>
    rw [← Nat.toDigits_append_toDigits (by decide) hm hk, List.head?_append,
      Option.or_of_isSome (List.isSome_head?.2 Nat.toDigits_ne_nil)] at h
    exact absurd (ih h) (Nat.ne_of_gt hm)

/-- A numeral ends where a text comes that does not start with a digit. -/
theorem numeral_inj (gap : String) (hgap : gap.toList.head?.any (!·.isDigit) = true) {m n : Nat}
    {r s : String} (h : toString m ++ (gap ++ r) = toString n ++ (gap ++ s)) : m = n ∧ r = s := by
  have hlist := congrArg String.toList h
  cases hchars : gap.toList with
  | nil => simp [hchars] at hgap
  | cons c l =>
    have hc : c.isDigit = false := by simpa [hchars] using hgap
    simp only [String.toList_append, Nat.toString_eq_ofList_toDigits, String.toList_ofList, hchars,
      List.cons_append] at hlist
    obtain ⟨hrun, hrest⟩ := run_inj (isDigit_toDigits m) (isDigit_toDigits n) hc hc hlist
    refine ⟨toDigits_inj (by decide) (by decide) hrun, ?_⟩
    exact String.toList_inj.1 (List.append_cancel_left (List.cons.inj hrest).2)

/-- The character is the digit for `d` in base sixteen, where letters are small or capital. -/
def DigitOf (c : Char) (d : Nat) : Prop :=
  d < 16 ∧ (c = Nat.digitChar d ∨ c = (Nat.digitChar d).toUpper)

/-- The number with the given digits in base sixteen, the first of which stands for most. -/
def ofHexDigits (digits : List Nat) : Nat := digits.foldl (fun n d => n * 16 + d) 0

/-! ## Text between double quotes -/

/-- The letter that stands for a character after a backslash, if it has one. -/
def letter? : Char → Option Char
  | '"' => some '"'
  | '\\' => some '\\'
  | '\x00' => some '0'
  | '\t' => some 't'
  | '\r' => some 'r'
  | '\n' => some 'n'
  | _ => none

theorem letter?_inj {c d k : Char} (hc : letter? c = some k) (hd : letter? d = some k) : c = d := by
  unfold letter? at hc hd
  split at hc <;> cases hc <;> split at hd <;> first | rfl | cases hd

/-- The three ways to write a character: a backslash and a letter, its number, or itself. -/
theorem escape_cases (c : Char) :
    (∃ k, letter? c = some k ∧ k ≠ 'u' ∧ escape c = ['\\', k]) ∨
      escape c = '\\' :: 'u' :: '{' :: (Nat.toDigits 16 c.toNat ++ ['}']) ∨
      escape c = [c] ∧ c ≠ '\\' ∧ c ≠ '"' := by
  unfold escape
  split
  case h_7 hquote hbackslash _ _ _ _ =>
    by_cases h : isInvisible c
    · rw [if_pos h]
      exact .inr (.inl rfl)
    · rw [if_neg h]
      exact .inr (.inr ⟨rfl, hbackslash, hquote⟩)
  all_goals exact .inl ⟨_, rfl, by decide, rfl⟩

/-- What is written for a character does not start like a closing quote. -/
theorem escape_append_ne_quote (c : Char) (r s : List Char) : escape c ++ r ≠ '"' :: s := by
  rcases escape_cases c with ⟨k, -, -, h⟩ | h | ⟨h, -, hquote⟩
  · simp [h]
  · simp [h]
  · simp [h, hquote]

theorem escape_inj {c d : Char} {r s : List Char} (h : escape c ++ r = escape d ++ s) :
    c = d ∧ r = s := by
  rcases escape_cases c with ⟨k, hk, hku, hc⟩ | hc | ⟨hc, hcb, -⟩
  · rcases escape_cases d with ⟨j, hj, -, hd⟩ | hd | ⟨hd, hdb, -⟩
    · obtain ⟨hkj, hrest⟩ : k = j ∧ r = s := by simpa [hc, hd] using h
      subst hkj
      exact ⟨letter?_inj hk hj, hrest⟩
    · simp [hc, hd, hku] at h
    · simp [hc, hd, hdb.symm] at h
  · rcases escape_cases d with ⟨j, -, hju, hd⟩ | hd | ⟨hd, hdb, -⟩
    · simp [hc, hd, hju.symm] at h
    · have hdigits : ∀ n, ∀ x ∈ Nat.toDigits 16 n, (x != '}') = true := by
        intro n x hx
        obtain ⟨k, rfl⟩ := exists_digitChar_of_mem (by decide) hx
        exact bne_iff_ne.2 (Nat.digitChar_ne '}' (by decide))
      have hnumber : Nat.toDigits 16 c.toNat ++ '}' :: r = Nat.toDigits 16 d.toNat ++ '}' :: s := by
        simpa [hc, hd] using h
      obtain ⟨hrun, hrest⟩ := run_inj (hdigits _) (hdigits _) rfl rfl hnumber
      exact ⟨Char.toNat_inj.1 (toDigits_inj (by decide) (by decide) hrun), (List.cons.inj hrest).2⟩
    · simp [hc, hd, hdb.symm] at h
  · rcases escape_cases d with ⟨j, -, -, hd⟩ | hd | ⟨hd, -, -⟩
    · simp [hc, hd, hcb] at h
    · simp [hc, hd, hcb] at h
    · simpa [hc, hd] using h

/-- What stands between double quotes ends at the closing quote. -/
theorem flatMap_escape_inj {l m : List Char} {r s : List Char}
    (h : l.flatMap escape ++ '"' :: r = m.flatMap escape ++ '"' :: s) : l = m ∧ r = s := by
  induction l generalizing m with
  | nil =>
    cases m with
    | nil => exact ⟨rfl, (List.cons.inj h).2⟩
    | cons d m =>
      rw [List.flatMap_cons, List.append_assoc] at h
      exact absurd h.symm (escape_append_ne_quote d _ _)
  | cons c l ih =>
    cases m with
    | nil =>
      rw [List.flatMap_cons, List.append_assoc] at h
      exact absurd h (escape_append_ne_quote c _ _)
    | cons d m =>
      rw [List.flatMap_cons, List.flatMap_cons, List.append_assoc, List.append_assoc] at h
      obtain ⟨rfl, hrest⟩ := escape_inj h
      obtain ⟨rfl, hafter⟩ := ih hrest
      exact ⟨rfl, hafter⟩

theorem delimits_quoted : Delimits quoted := by
  intro a b r s h
  have hlist := congrArg String.toList h
  simp only [quoted, String.toList_append, String.toList_ofList, List.cons_append,
    List.append_assoc, List.nil_append] at hlist
  obtain ⟨htext, hrest⟩ := flatMap_escape_inj (List.cons.inj hlist).2
  exact ⟨String.toList_inj.1 htext, String.toList_inj.1 hrest⟩

end NameScope.Text
