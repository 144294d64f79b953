import NameScope.Proofs.Json.Words

/-
  The texts that a position is read from.  Whatever white space, other members and values an object
  has, it gives a position exactly if each of the keys `row` and `col` comes once and has the
  decimal of a word as its value (`members?_inside_iff`).
-/

namespace NameScope.Position

open NameScope.Json

variable {bound : Nat} {row col : Option UInt32} {rest tail : List Char}

/-! ## Members -/

/-- A member of an object, with the name that its key spells. -/
structure Member where
  key : Key
  name : String
  encodes : Encodes key.name.codes name.toList
  value : Value
  after : Gap := .none

def Member.text (m : Member) : List Char := m.key.text ++ (m.value.text ++ m.after.chars)

/-- What stands between the braces of an object; `gap` is all of it if there are no members. -/
def inside (gap : Gap) : List Member → List Char
  | [] => gap.chars
  | [m] => m.text
  | m :: members => m.text ++ ',' :: inside gap members

/-- The values under a name, in order. -/
def under (name : String) (members : List Member) : List (List Char) :=
  (members.filter (·.name = name)).map (·.value.text)

theorem under_cons (name : String) (m : Member) (members : List Member) :
    under name (m :: members) = under name [m] ++ under name members := by
  rw [under, under, under, ← List.map_append, ← List.filter_append, List.singleton_append]

/-- The value that has been met under a name. -/
def held (slot : Option UInt32) : List (List Char) := slot.toList.map decimal

/-- A word that is read under a name for the first time. -/
def slot? (slot : Option UInt32) (s : List Char) : Option (Option UInt32 × List Char) :=
  if slot.isSome then none else (word? s).map fun (n, rest) => (some n, rest)

/-- What the value of one member adds to the row and the column that have been met. -/
def field? (bound : Nat) (row col : Option UInt32) (name : String) (s : List Char) :
    Option (Option UInt32 × Option UInt32 × List Char) :=
  if name = "row" then (slot? row s).map fun (row, rest) => (row, col, rest)
  else if name = "col" then (slot? col s).map fun (col, rest) => (row, col, rest)
  else (skipValue? bound s).map fun rest => (row, col, rest)

/-- What comes after a member: more of them, or the closing brace. -/
def after? (bound : Nat) (row col : Option UInt32) (s : List Char) :
    Option (Position × List Char) :=
  match skipBlanks s with
  | ',' :: rest => members? bound row col rest
  | '}' :: rest => do return (⟨← row, ← col⟩, rest)
  | _ => none

theorem members?_member (m : Member) (s : List Char) :
    members? (bound + 1) row col (m.key.text ++ (m.value.text ++ s)) =
      (field? bound row col m.name (m.value.text ++ s)).bind fun (row, col, rest) =>
        after? bound row col rest := by
  have hcolon : skipBlanks (m.key.after.chars ++ ':' :: (m.key.beforeValue.chars ++
      (m.value.text ++ s))) = ':' :: (m.key.beforeValue.chars ++ (m.value.text ++ s)) :=
    skipBlanks_gap_cons _ rfl _
  rw [members?, skipBlanks_key, string?_text m.key.name m.encodes]
  simp only [Option.bind_eq_bind, Option.bind_some, hcolon, skipBlanks_gap, skipBlanks_value]
  unfold field?
  by_cases hrow : m.name = "row"
  · simp only [if_pos hrow]
    cases row with
    | some _ => rfl
    | none =>
      simp only [slot?, Option.isSome_none, Bool.false_eq_true, if_false, Option.map_map]
      rfl
  · by_cases hcol : m.name = "col"
    · simp only [if_neg hrow, if_pos hcol]
      cases col with
      | some _ => rfl
      | none =>
        simp only [slot?, Option.isSome_none, Bool.false_eq_true, if_false, Option.map_map]
        rfl
    · simp only [if_neg hrow, if_neg hcol]
      rfl

theorem after?_gap (bound : Nat) (row col : Option UInt32) (g : Gap) (s : List Char) :
    after? bound row col (g.chars ++ s) = after? bound row col s := by
  unfold after?
  rw [skipBlanks_gap]

theorem after?_of_stuck (h : Stuck rest) : after? bound row col rest = none := by
  unfold after?
  split
  · next heq => exact absurd (by decide) (h ',' (by rw [heq]; rfl))
  · next heq => exact absurd (by decide) (h '}' (by rw [heq]; rfl))
  · rfl

theorem under_singleton (name : String) (m : Member) :
    under name [m] = if m.name = name then [m.value.text] else [] := by
  by_cases h : m.name = name
  · simp [under, h]
  · simp [under, h]

theorem held_eq_singleton {slot : Option UInt32} {n : UInt32} :
    held slot = [decimal n] ↔ slot = some n := by
  cases slot with
  | none => exact ⟨(nomatch ·), (nomatch ·)⟩
  | some k =>
    refine ⟨fun h => ?_, fun h => ?_⟩
    · rw [decimal_inj (List.cons.inj h).1]
    · rw [h]
      rfl

/-- Values that cannot all be the decimal of one word. -/
def Refused (values : List (List Char)) : Prop := ∀ n more, values ++ more ≠ [decimal n]

/-- A word is read under a name once, and from the decimal of a word. -/
theorem slot?_cases (slot : Option UInt32) (v : Value) (htail : Ends tail) :
    (∃ slot', slot? slot (v.text ++ tail) = some (slot', tail) ∧
        held slot' = held slot ++ [v.text]) ∨
      Refused (held slot ++ [v.text]) ∧
        ∀ slot' rest, slot? slot (v.text ++ tail) = some (slot', rest) → Stuck rest := by
  cases slot with
  | some k =>
    refine .inr ⟨fun n more h => ?_, fun _ _ h => nomatch h⟩
    cases (List.cons.inj h).2
  | none =>
    have hread : slot? none (v.text ++ tail) =
        (word? (v.text ++ tail)).map fun (n, rest) => (some n, rest) := rfl
    obtain ⟨n, hv, hword⟩ | ⟨hv, hstuck⟩ := word?_value v htail
    · refine .inl ⟨some n, ?_, ?_⟩
      · rw [hread, hword]
        rfl
      · rw [hv]
        rfl
    · refine .inr ⟨fun n more h => hv n (List.cons.inj h).1, fun slot' rest h => ?_⟩
      rw [hread] at h
      obtain ⟨⟨n, rest'⟩, hword, h⟩ := Option.map_eq_some_iff.1 h
      cases h
      exact hstuck n _ hword

/-- A member with one of the two names gives the first word there, or is refused; any other member
is skipped. -/
theorem field?_cases (row col : Option UInt32) (m : Member) (htail : Ends tail)
    (hbound : m.value.text.length ≤ bound) :
    (∃ row' col', field? bound row col m.name (m.value.text ++ tail) = some (row', col', tail) ∧
        held row' = held row ++ under "row" [m] ∧ held col' = held col ++ under "col" [m]) ∨
      (Refused (held row ++ under "row" [m]) ∨ Refused (held col ++ under "col" [m])) ∧
        ∀ row' col' rest,
          field? bound row col m.name (m.value.text ++ tail) = some (row', col', rest) →
            Stuck rest := by
  rw [under_singleton, under_singleton, field?]
  by_cases hrow : m.name = "row"
  · have hcol : m.name ≠ "col" := by rw [hrow]; decide
    rw [if_pos hrow, if_pos hrow, if_neg hcol, List.append_nil]
    obtain ⟨row', hread, hheld⟩ | ⟨hrefused, hstuck⟩ := slot?_cases row m.value htail
    · exact .inl ⟨row', col, by rw [hread]; rfl, hheld, rfl⟩
    · refine .inr ⟨.inl hrefused, fun row' col' rest h => ?_⟩
      obtain ⟨⟨slot', rest'⟩, hread, h⟩ := Option.map_eq_some_iff.1 h
      cases h
      exact hstuck _ _ hread
  · rw [if_neg hrow, if_neg hrow, List.append_nil]
    by_cases hcol : m.name = "col"
    · rw [if_pos hcol, if_pos hcol]
      obtain ⟨col', hread, hheld⟩ | ⟨hrefused, hstuck⟩ := slot?_cases col m.value htail
      · exact .inl ⟨row, col', by rw [hread]; rfl, rfl, hheld⟩
      · refine .inr ⟨.inr hrefused, fun row' col' rest h => ?_⟩
        obtain ⟨⟨slot', rest'⟩, hread, h⟩ := Option.map_eq_some_iff.1 h
        cases h
        exact hstuck _ _ hread
    · rw [if_neg hcol, if_neg hcol, skipValue?_text m.value hbound htail, List.append_nil]
      exact .inl ⟨row, col, rfl, rfl, rfl⟩

/-- One member is read up to the character after it, or refused. -/
theorem members?_step (bound : Nat) (m : Member) {c : Char} (hc : c ∈ [',', '}']) (s : List Char)
    (hbound : m.text.length ≤ bound) :
    (∃ row' col',
        members? (bound + 1) row col (m.text ++ c :: s) = after? bound row' col' (c :: s) ∧
          held row' = held row ++ under "row" [m] ∧ held col' = held col ++ under "col" [m]) ∨
      (Refused (held row ++ under "row" [m]) ∨ Refused (held col ++ under "col" [m])) ∧
        members? (bound + 1) row col (m.text ++ c :: s) = none := by
  have hends : Ends (m.after.chars ++ c :: s) := by
    have hall : ∀ c ∈ [',', '}'], c ∈ valueEnds := by simp [valueEnds]
    exact ends_gap m.after (hall c hc) s
  have hlength : m.value.text.length ≤ bound := by
    rw [Member.text, List.length_append, List.length_append] at hbound
    omega
  rw [Member.text, List.append_assoc, List.append_assoc, members?_member]
  obtain ⟨row', col', hread, hheld⟩ | ⟨hrefused, hstuck⟩ :=
    field?_cases row col m hends hlength
  · refine .inl ⟨row', col', ?_, hheld⟩
    rw [hread, Option.bind_some]
    exact after?_gap bound row' col' m.after (c :: s)
  · refine .inr ⟨hrefused, ?_⟩
    cases h : field? bound row col m.name (m.value.text ++ (m.after.chars ++ c :: s)) with
    | none => rfl
    | some read =>
      obtain ⟨row', col', rest⟩ := read
      exact after?_of_stuck (hstuck row' col' rest h)

theorem after?_brace {p : Position} {rest' : List Char} :
    after? bound row col ('}' :: rest) = some (p, rest') ↔
      rest' = rest ∧ row = some p.row ∧ col = some p.col := by
  have hclose : after? bound row col ('}' :: rest) =
      row.bind fun row => col.bind fun col => some (⟨row, col⟩, rest) := rfl
  rw [hclose]
  cases row with
  | none => simp
  | some row =>
    cases col with
    | none => simp
    | some col =>
      obtain ⟨r, c⟩ := p
      simp only [Option.bind_some, Option.some.injEq, Prod.mk.injEq, Position.mk.injEq]
      exact ⟨fun h => ⟨h.2.symm, h.1⟩, fun h => ⟨h.2, h.1.symm⟩⟩

theorem not_singletons_of_refused {p : Position} {m : Member} {members : List Member}
    (h : Refused (held row ++ under "row" [m]) ∨ Refused (held col ++ under "col" [m])) :
    ¬(held row ++ under "row" (m :: members) = [decimal p.row] ∧
      held col ++ under "col" (m :: members) = [decimal p.col]) := by
  rintro ⟨hrow, hcol⟩
  rw [under_cons, ← List.append_assoc] at hrow hcol
  obtain h | h := h
  · exact h _ _ hrow
  · exact h _ _ hcol

/-- The members of an object give a position exactly if each of its two names comes once, with the
decimal of a word. -/
theorem members?_inside_iff (gap : Gap) {members : List Member} :
    ∀ {m : Member} {bound : Nat} {row col : Option UInt32} {p : Position} {rest' : List Char},
      (inside gap (m :: members)).length < bound →
        (members? bound row col (inside gap (m :: members) ++ '}' :: rest) = some (p, rest') ↔
          rest' = rest ∧ held row ++ under "row" (m :: members) = [decimal p.row] ∧
            held col ++ under "col" (m :: members) = [decimal p.col]) := by
  induction members with
  | nil =>
    rintro m (_ | bound) row col p rest' hbound
    · cases hbound
    · rw [inside]
      obtain ⟨row', col', hread, hrow, hcol⟩ | ⟨hrefused, hread⟩ :=
        members?_step bound m (c := '}') (by decide) rest (Nat.le_of_lt_succ hbound)
      · rw [hread, ← hrow, ← hcol, held_eq_singleton, held_eq_singleton]
        exact after?_brace
      · rw [hread]
        exact ⟨(nomatch ·), fun h => absurd h.2 (not_singletons_of_refused hrefused)⟩
  | cons next members ih =>
    rintro m (_ | bound) row col p rest' hbound
    · cases hbound
    · have htext : inside gap (m :: next :: members) =
          m.text ++ ',' :: inside gap (next :: members) := rfl
      rw [htext, List.length_append, List.length_cons] at hbound
      rw [htext, List.append_assoc, List.cons_append]
      obtain ⟨row', col', hread, hrow, hcol⟩ | ⟨hrefused, hread⟩ :=
        members?_step bound m (c := ',') (by decide) (inside gap (next :: members) ++ '}' :: rest)
          (by omega)
      · rw [hread, under_cons "row", under_cons "col", ← List.append_assoc, ← List.append_assoc,
          ← hrow, ← hcol]
        exact ih (by omega)
      · rw [hread]
        exact ⟨(nomatch ·), fun h => absurd h.2 (not_singletons_of_refused hrefused)⟩

/-! ## Texts -/

def objectText (gap : Gap) (members : List Member) : List Char :=
  '{' :: (inside gap members ++ ['}'])

/-- An array of two values, with white space before and after each. -/
def arrayText (a b c d : Gap) (first second : Value) : List Char :=
  '[' :: (a.chars ++ (first.text ++ (b.chars ++
    ',' :: (c.chars ++ (second.text ++ (d.chars ++ [']']))))))

theorem members?_iff (gap : Gap) (members : List Member) (rest : List Char)
    (hbound : (inside gap members).length < bound) (p : Position) (rest' : List Char) :
    members? bound none none (inside gap members ++ '}' :: rest) = some (p, rest') ↔
      rest' = rest ∧ under "row" members = [decimal p.row] ∧
        under "col" members = [decimal p.col] := by
  cases members with
  | cons m members => exact members?_inside_iff gap hbound
  | nil =>
    obtain ⟨bound, rfl⟩ := Nat.exists_eq_add_of_lt hbound
    rw [inside, members?, skipBlanks_gap_cons gap rfl]
    exact ⟨(nomatch ·), fun h => nomatch h.2.1⟩

/-- What comes after the first value of an array. -/
def second? (row : UInt32) (s : List Char) : Option (Position × List Char) :=
  match skipBlanks s with
  | ',' :: rest => do
    let (col, rest) ← word? (skipBlanks rest)
    match skipBlanks rest with
    | ']' :: rest => return (⟨row, col⟩, rest)
    | _ => none
  | _ => none

theorem items?_value (a : Gap) (first : Value) (s : List Char) :
    items? (a.chars ++ (first.text ++ s)) =
      (word? (first.text ++ s)).bind fun (row, rest) => second? row rest := by
  rw [items?, skipBlanks_gap, skipBlanks_value]
  rfl

theorem second?_of_stuck {row : UInt32} (h : Stuck rest) : second? row rest = none := by
  unfold second?
  split
  · next heq => exact absurd (by decide) (h ',' (by rw [heq]; rfl))
  · rfl

theorem second?_iff (row : UInt32) (b c d : Gap) (second : Value) (rest : List Char) (p : Position)
    (rest' : List Char) :
    second? row (b.chars ++ ',' :: (c.chars ++ (second.text ++ (d.chars ++ ']' :: rest)))) =
        some (p, rest') ↔
      rest' = rest ∧ row = p.row ∧ second.text = decimal p.col := by
  have hread : second? row (b.chars ++ ',' :: (c.chars ++ (second.text ++
      (d.chars ++ ']' :: rest)))) =
      (word? (second.text ++ (d.chars ++ ']' :: rest))).bind fun (col, rest) =>
        match skipBlanks rest with
        | ']' :: rest => some (⟨row, col⟩, rest)
        | _ => none := by
    rw [second?, skipBlanks_gap_cons b rfl]
    simp only [skipBlanks_gap, skipBlanks_value]
    rfl
  rw [hread]
  obtain ⟨col, hcol, hword⟩ | ⟨hcol, hstuck⟩ :=
    word?_value second (ends_gap d (c := ']') (by decide) rest)
  · obtain ⟨prow, pcol⟩ := p
    have hinj : decimal col = decimal pcol ↔ col = pcol := ⟨decimal_inj, congrArg decimal⟩
    rw [hword, hcol, hinj]
    simp only [Option.bind_some, skipBlanks_gap_cons d (c := ']') rfl, Option.some.injEq,
      Prod.mk.injEq, Position.mk.injEq]
    exact ⟨fun h => ⟨h.2.symm, h.1⟩, fun h => ⟨h.2, h.1.symm⟩⟩
  · refine ⟨fun h => ?_, fun h => absurd h.2.2 (hcol p.col)⟩
    obtain ⟨⟨col, left⟩, hword, h⟩ := Option.bind_eq_some_iff.1 h
    dsimp only at h
    split at h
    · next heq => exact absurd (by decide) (hstuck col left hword ']' (by rw [heq]; rfl))
    · cases h

theorem items?_iff (a b c d : Gap) (first second : Value) (rest : List Char) (p : Position)
    (rest' : List Char) :
    items? (a.chars ++ (first.text ++ (b.chars ++ ',' :: (c.chars ++ (second.text ++
        (d.chars ++ ']' :: rest)))))) = some (p, rest') ↔
      rest' = rest ∧ first.text = decimal p.row ∧ second.text = decimal p.col := by
  have hends := ends_gap b (c := ',') (by decide)
    (c.chars ++ (second.text ++ (d.chars ++ ']' :: rest)))
  rw [items?_value]
  obtain ⟨row, hrow, hword⟩ | ⟨hrow, hstuck⟩ := word?_value first hends
  · have hinj : decimal row = decimal p.row ↔ row = p.row := ⟨decimal_inj, congrArg decimal⟩
    rw [hword, Option.bind_some, hrow, hinj]
    exact second?_iff row b c d second rest p rest'
  · refine ⟨fun h => ?_, fun h => absurd h.2.1 (hrow p.row)⟩
    obtain ⟨⟨row, left⟩, hword, h⟩ := Option.bind_eq_some_iff.1 h
    exact nomatch (second?_of_stuck (hstuck row left hword)).symm.trans h

/-- A text is read if nothing but white space is left of it. -/
theorem whole_eq_some_iff {read : Option (Position × List Char)} {after : Gap}
    {P : Position → Prop} (h : ∀ p rest, read = some (p, rest) ↔ rest = after.chars ∧ P p)
    {p : Position} :
    (do
      let (p, rest) ← read
      if (skipBlanks rest).isEmpty then return p else none) = some p ↔ P p := by
  have hafter : skipBlanks after.chars = [] := by
    have h := skipBlanks_gap after []
    rwa [List.append_nil] at h
  constructor
  · intro hread
    obtain ⟨⟨q, rest⟩, hq, hread⟩ := Option.bind_eq_some_iff.1 hread
    obtain ⟨-, hread⟩ := Option.ite_none_right_eq_some.1 hread
    cases hread
    exact ((h p rest).1 hq).2
  · intro hp
    rw [(h p after.chars).2 ⟨rfl, hp⟩]
    simp only [Option.bind_eq_bind, Option.bind_some, hafter, List.isEmpty_nil, if_true,
      Option.pure_def]

theorem ofJson?_object_iff (before after gap : Gap) (members : List Member) (p : Position) :
    ofJson? (String.ofList (before.chars ++ (objectText gap members ++ after.chars))) = some p ↔
      under "row" members = [decimal p.row] ∧ under "col" members = [decimal p.col] := by
  rw [ofJson?, String.toList_ofList, objectText, List.cons_append, skipBlanks_gap_cons before rfl,
    List.append_assoc, List.singleton_append]
  refine whole_eq_some_iff (members?_iff gap members after.chars ?_)
  rw [List.length_cons, List.length_append]
  omega

theorem ofJson?_array_iff (before after a b c d : Gap) (first second : Value) (p : Position) :
    ofJson? (String.ofList (before.chars ++ (arrayText a b c d first second ++ after.chars))) =
        some p ↔
      first.text = decimal p.row ∧ second.text = decimal p.col := by
  rw [ofJson?, String.toList_ofList, arrayText, List.cons_append, skipBlanks_gap_cons before rfl]
  simp only [List.append_assoc, List.cons_append, List.nil_append]
  exact whole_eq_some_iff (items?_iff a b c d first second after.chars)

/-! ## What is written -/

/-- Characters that stand for themselves are their own codes. -/
theorem spells_self {t : List Char} (h : ∀ c ∈ t, 0x20 ≤ c.toNat ∧ c ≠ '"' ∧ c ≠ '\\') :
    Spells t (t.map Char.toNat) := by
  induction t with
  | nil => exact .nil
  | cons c t ih =>
    obtain ⟨hc, ht⟩ := List.forall_mem_cons.1 h
    exact .verbatim hc (ih ht)

theorem encodes_self (t : List Char) : Encodes (t.map Char.toNat) t := by
  induction t with
  | nil => exact .nil
  | cons c t ih => exact .single ih

/-- A member with a word as its value, without white space. -/
def wordMember (name : String) (h : ∀ c ∈ name.toList, 0x20 ≤ c.toNat ∧ c ≠ '"' ∧ c ≠ '\\')
    (n : UInt32) : Member where
  key := { name := ⟨name.toList, name.toList.map Char.toNat, spells_self h⟩ }
  name := name
  encodes := encodes_self name.toList
  value := .number
    { whole := ⟨decimal n, decimal_ne_nil n, isDigit_decimal n⟩
      unpadded := decimal_unpadded n }

def writtenMembers (p : Position) : List Member :=
  [wordMember "row" (by simp) p.row, wordMember "col" (by simp) p.col]

theorem toJson_eq (p : Position) :
    p.toJson = String.ofList (objectText .none (writtenMembers p)) := by
  rw [← String.toList_inj]
  simp [toJson, objectText, writtenMembers, inside, Member.text, wordMember, Key.text, Quoted.text,
    Gap.none, Value.text, Number.text, Number.fractionText, Number.exponentText, decimal]

theorem under_writtenMembers (p : Position) :
    under "row" (writtenMembers p) = [decimal p.row] ∧
      under "col" (writtenMembers p) = [decimal p.col] := by
  simp [under, writtenMembers, wordMember, Value.text, Number.text, Number.fractionText,
    Number.exponentText]

/-- **Positions survive JSON, in every form that they are read from.** What is written for a
position is read back. An object gives a position exactly if there is one value under each of the
names `row` and `col`, and it is written as the decimal of a word; the members stand in any order,
among any others, with names that may be spelled with escapes and values of any nesting. So an
object is refused if one of the names is missing, comes again or has another value, wherever that
stands. An array of two values gives a position exactly if both are such decimals. White space may
stand anywhere between the parts of the text, and around it. -/
theorem json_forms (before after : Gap) :
    (∀ p : Position, ofJson? p.toJson = some p) ∧
      (∀ (gap : Gap) (members : List Member) (p : Position),
        ofJson? (String.ofList (before.chars ++ (objectText gap members ++ after.chars))) = some p ↔
          under "row" members = [decimal p.row] ∧ under "col" members = [decimal p.col]) ∧
      ∀ (a b c d : Gap) (first second : Value) (p : Position),
        ofJson? (String.ofList
            (before.chars ++ (arrayText a b c d first second ++ after.chars))) = some p ↔
          first.text = decimal p.row ∧ second.text = decimal p.col := by
  refine ⟨fun p => ?_, ofJson?_object_iff before after, ofJson?_array_iff before after⟩
  have hread := (ofJson?_object_iff .none .none .none (writtenMembers p) p).2 (under_writtenMembers p)
  have hnone : Gap.none.chars = [] := rfl
  rw [hnone, List.nil_append, List.append_nil, ← toJson_eq] at hread
  exact hread

example : ofJson? " \x7b \"x\": [[], \x7b\x7d, -1.5e+3], \"c\\u006fl\": 7,\n\"row\":0\x7d" =
    some ⟨0, 7⟩ := by
  decide +kernel

end NameScope.Position
