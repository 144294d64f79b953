import NameScope.Fault
import NameScope.Proofs.Text.Delimiting
import NameScope.TypeUse

/-
  Rendered types and positions.  Both are read by people only, in messages, and nothing in the
  library reads them back; still no two types and no two positions are written alike.  Qualifiers
  end where the `#` of the number comes, a row ends at the colon, and what is left is a numeral.  A
  position starts with a digit, which the text for an unknown one does not.

  In the message about a name that is declared again the position stands last, behind the last
  space, so it can be told from the name, whatever the name is (`message_redeclared_inj`).
-/

namespace NameScope

namespace Text

theorem toString_inj {m n : Nat} (h : toString m = toString n) : m = n :=
  (numeral_inj ":" (by decide) (r := "") (s := "") (congrArg (· ++ (":" ++ "")) h)).1

/-- A last run of characters of one kind starts behind a text that ends in another kind. -/
theorem last_run_inj {p : Char → Bool} {l m r s : List Char} (hr : ∀ x ∈ r, p x = true)
    (hs : ∀ x ∈ s, p x = true) {gap : List Char} (hgap : gap.getLast?.any (!p ·) = true)
    (h : l ++ (gap ++ r) = m ++ (gap ++ s)) : l = m ∧ r = s := by
  cases gap using List.reverseRecOn with
  | nil => simp at hgap
  | append_singleton gap c =>
    have hc : p c = false := by simpa using hgap
    have hsplit : (l ++ gap) ++ c :: r = (m ++ gap) ++ c :: s := by simpa using h
    have hreverse := congrArg List.reverse hsplit
    simp only [List.reverse_append, List.reverse_cons, List.append_assoc, List.singleton_append]
      at hreverse
    obtain ⟨hrun, hrest⟩ := run_inj (fun x hx => hr x (List.mem_reverse.1 hx))
      (fun x hx => hs x (List.mem_reverse.1 hx)) hc hc hreverse
    refine ⟨?_, List.reverse_inj.1 hrun⟩
    exact List.reverse_inj.1 (List.append_cancel_left (List.cons.inj hrest).2)

end Text

/-! ## Types -/

namespace QualifierSet

theorem ne_number_of_mem_text (q : QualifierSet) : ∀ c ∈ q.text.toList, (c != '#') = true := by
  obtain ⟨const, volatile, restrict⟩ := q
  cases const <;> cases volatile <;> cases restrict <;> exact List.all_eq_true.1 rfl

/-- Every qualifier has a letter that the others do not have. -/
theorem eq_ofLetters (q : QualifierSet) :
    q = ⟨'n' ∈ q.text.toList, 'v' ∈ q.text.toList, 'r' ∈ q.text.toList⟩ := by
  obtain ⟨const, volatile, restrict⟩ := q
  cases const <;> cases volatile <;> cases restrict <;> decide

theorem text_inj {p q : QualifierSet} (h : p.text = q.text) : p = q := by
  rw [p.eq_ofLetters, h]
  exact q.eq_ofLetters.symm

end QualifierSet

theorem TypeUse.text_inj {t u : TypeUse} (h : t.text = u.text) : t = u := by
  obtain ⟨⟨i⟩, p⟩ := t
  obtain ⟨⟨j⟩, q⟩ := u
  have hlist := congrArg String.toList h
  simp only [text, String.append_assoc, String.toList_append] at hlist
  obtain ⟨hqualifiers, hnumber⟩ := Text.run_inj p.ne_number_of_mem_text q.ne_number_of_mem_text
    (by decide) (by decide) hlist
  have hindex : toString i.toNat = toString j.toNat := String.toList_inj.1 (List.cons.inj hnumber).2
  rw [QualifierSet.text_inj (String.toList_inj.1 hqualifiers),
    UInt32.toNat_inj.1 (Text.toString_inj hindex)]

/-! ## Positions -/

namespace Position

theorem text_inj {p q : Position} (h : p.text = q.text) : p = q := by
  obtain ⟨row, col⟩ := p
  obtain ⟨row', col'⟩ := q
  simp only [text, String.append_assoc] at h
  obtain ⟨hrow, hcol⟩ := Text.numeral_inj ":" (by decide) h
  rw [UInt32.toNat_inj.1 hrow, UInt32.toNat_inj.1 (Text.toString_inj hcol)]

theorem isDigit_or_colon_of_mem_text {p : Position} {c : Char} (h : c ∈ p.text.toList) :
    c.isDigit = true ∨ c = ':' := by
  have hchars : p.text.toList =
      Nat.toDigits 10 p.row.toNat ++ ':' :: Nat.toDigits 10 p.col.toNat := by
    simp only [text, String.toList_append, Nat.toString_eq_ofList_toDigits, String.toList_ofList,
      List.append_assoc]
    rfl
  rw [hchars, List.mem_append, List.mem_cons] at h
  rcases h with hrow | hcolon | hcol
  · exact .inl (Text.isDigit_toDigits _ c hrow)
  · exact .inr hcolon
  · exact .inl (Text.isDigit_toDigits _ c hcol)

theorem text_ne_unknown (p : Position) : p.text ≠ textOrUnknown none := by
  intro h
  have hmem : '<' ∈ p.text.toList := by
    rw [h]
    decide
  rcases isDigit_or_colon_of_mem_text hmem with hdigit | hcolon
  · exact absurd hdigit (by decide)
  · exact absurd hcolon (by decide)

theorem textOrUnknown_inj {p q : Option Position} (h : textOrUnknown p = textOrUnknown q) :
    p = q := by
  cases p with
  | none =>
    cases q with
    | none => rfl
    | some q => exact absurd h.symm q.text_ne_unknown
  | some p =>
    cases q with
    | none => exact absurd h p.text_ne_unknown
    | some q => exact congrArg some (text_inj h)

theorem ne_space_of_mem_textOrUnknown (p : Option Position) :
    ∀ c ∈ (textOrUnknown p).toList, (c != ' ') = true := by
  cases p with
  | none => exact List.all_eq_true.1 rfl
  | some p =>
    intro c hc
    rw [bne_iff_ne]
    rintro rfl
    rcases isDigit_or_colon_of_mem_text hc with hdigit | hcolon
    · exact absurd hdigit (by decide)
    · exact absurd hcolon (by decide)

end Position

/-! ## Messages -/

/-- The message about a name that is declared again tells the name and the first place apart. -/
theorem ScopeFault.message_redeclared_inj {m n : String} {p q r s : Option Position}
    (h : (redeclared m p r).message = (redeclared n q s).message) : m = n ∧ p = q := by
  have hgap : ("` is already declared (first declared at ".toList.getLast?.any
      fun x => !(x != ' ')) = true := by decide
  unfold message at h
  generalize "` is already declared (first declared at " = gap at hgap h
  have hlist := congrArg String.toList (String.append_left_inj _ |>.1 h)
  simp only [String.toList_append, List.append_assoc] at hlist
  obtain ⟨hname, hpos⟩ := Text.last_run_inj (Position.ne_space_of_mem_textOrUnknown p)
    (Position.ne_space_of_mem_textOrUnknown q) hgap (List.append_cancel_left hlist)
  exact ⟨String.toList_inj.1 hname, Position.textOrUnknown_inj (String.toList_inj.1 hpos)⟩

/-- **Rendered types and positions are unambiguous.** Two types, whatever their numbers and their
qualifiers, are written alike iff they are the same, and so are two places, known or not; no
position is written as the unknown one. Hence the messages about two names that are declared again
are the same only if both the names and the first places are. -/
theorem rendering_unambiguous :
    (∀ t u : TypeUse, t.text = u.text ↔ t = u) ∧
      (∀ p q : Option Position, Position.textOrUnknown p = Position.textOrUnknown q ↔ p = q) ∧
      (∀ p : Position, p.text ≠ Position.textOrUnknown none) ∧
      ∀ (m n : String) (p q r s : Option Position),
        (ScopeFault.redeclared m p r).message = (ScopeFault.redeclared n q s).message ↔
          m = n ∧ p = q := by
  refine ⟨fun t u => ⟨TypeUse.text_inj, ?_⟩, fun p q => ⟨Position.textOrUnknown_inj, ?_⟩,
    Position.text_ne_unknown, fun m n p q r s => ⟨ScopeFault.message_redeclared_inj, ?_⟩⟩
  · exact congrArg TypeUse.text
  · exact congrArg Position.textOrUnknown
  · rintro ⟨rfl, rfl⟩
    rfl

end NameScope
