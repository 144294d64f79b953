import NameScope.NameTable
import NameScope.Proofs.Toml.Scalars

/-
  Documents of lines.  Each line of such a document is vacant, but for blanks and a comment, or
  gives a bare key a value without parts.  However the lines are laid out, the document is read line
  by line, and describes the table of what the lines say (`read?_document_iff`); it describes none
  if a number does not fit its word or a key comes twice.
-/

namespace NameScope.Toml

/-! ## The parts of a line -/

structure Blanks where
  chars : List Char
  blank : ∀ c ∈ chars, isBlank c = true

def Blanks.none : Blanks := ⟨[], by simp⟩

def Blanks.space : Blanks := ⟨[' '], by simp [isBlank]⟩

/-- What may come after everything else on a line: blanks, and perhaps a comment. -/
structure Ending where
  blanks : Blanks
  comment : Option (List Char)
  plain : ∀ text ∈ comment, ∀ c ∈ text, isPlain c = true

def Ending.none : Ending := ⟨.none, .none, by simp⟩

def Ending.text (e : Ending) : List Char := e.blanks.chars ++ e.comment.elim [] ('#' :: ·)

/-- A bare key and a value without parts, with blanks around the equals sign. -/
structure Setting where
  indent : Blanks := .none
  key : String
  before : Blanks := .space
  after : Blanks := .space
  written : List Char
  value : Value
  key_ne : key ≠ "" := by decide
  bare : ∀ c ∈ key.toList, isBareKeyChar c = true := by exact List.all_eq_true.1 (by decide)
  form : Written written value

namespace Setting

/-- The setting from its equals sign on. -/
def textAfter (s : Setting) : List Char := s.before.chars ++ '=' :: (s.after.chars ++ s.written)

/-- The setting without the blanks in front. -/
def body (s : Setting) : List Char := s.key.toList ++ s.textAfter

def entry (s : Setting) : String × Value := (s.key, s.value)

end Setting

inductive Line where
  | vacant (ending : Ending)
  | setting (setting : Setting) (ending : Ending)

/-- The line with nothing but the setting. -/
def Setting.line (s : Setting) : Line := .setting s .none

namespace Line

def empty : Line := .vacant .none

def text : Line → List Char
  | vacant ending => ending.text
  | setting s ending => s.indent.chars ++ (s.body ++ ending.text)

/-- What the line says. -/
def entry? : Line → Option (String × Value)
  | vacant _ => none
  | setting s _ => some s.entry

end Line

inductive Newline where
  | lf
  | crlf

def Newline.text : Newline → List Char
  | lf => ['\n']
  | crlf => ['\r', '\n']

/-- The characters of a document with the given lines. -/
def joined (newline : Newline) (lines : List Line) : List Char :=
  newline.text.intercalate (lines.map Line.text)

def document (newline : Newline) (lines : List Line) : String :=
  String.ofList (joined newline lines)

/-- What follows a line, and what of it is left for the lines to come. -/
inductive Follows : List Char → List Char → Prop where
  | last : Follows [] []
  | newline (n : Newline) (rest : List Char) : Follows (n.text ++ rest) rest

/-! ## Blanks and endings -/

variable {bound : Nat} {tail rest : List Char}

theorem skipBlanks_append (b : Blanks) (s : List Char) :
    skipBlanks (b.chars ++ s) = skipBlanks s :=
  List.dropWhile_append_of_pos b.blank

theorem skipBlanks_of_head {s : List Char} (h : ∀ c ∈ s.head?, isBlank c = false) :
    skipBlanks s = s :=
  Text.dropWhile_run (fun _ hc => absurd hc List.not_mem_nil) h

/-- What holds of blanks and of the character after them holds of the first character. -/
theorem Blanks.head {P : Char → Prop} (b : Blanks) (hb : ∀ c, isBlank c = true → P c)
    {s : List Char} (hs : ∀ c ∈ s.head?, P c) : ∀ c ∈ (b.chars ++ s).head?, P c := by
  obtain ⟨blanks, hblank⟩ := b
  cases blanks with
  | nil => exact hs
  | cons c blanks =>
    rintro _ ⟨⟩
    exact hb c (hblank c List.mem_cons_self)

theorem Follows.head {tail : List Char} (h : Follows tail rest) :
    ∀ c ∈ tail.head?, c ∈ ['\n', '\r'] := by
  cases h with
  | last => rintro _ ⟨⟩
  | newline n rest => cases n <;> (rintro _ ⟨⟩; decide)

theorem Follows.newline? (h : Follows tail rest) :
    (if tail.isEmpty then some [] else newline? tail) = some rest := by
  cases h with
  | last => rfl
  | newline n rest => cases n <;> rfl

theorem lineEnd?_ending (e : Ending) (h : Follows tail rest) :
    lineEnd? (e.text ++ tail) = some rest := by
  have hhead : ∀ c ∈ tail.head?, isBlank c = false ∧ isPlain c = false := fun c hc => by
    have hall : ∀ c ∈ ['\n', '\r'], isBlank c = false ∧ isPlain c = false := by
      simp [isBlank, isPlain]
    exact hall c (h.head c hc)
  rw [lineEnd?, Ending.text, List.append_assoc, skipBlanks_append]
  cases hcomment : e.comment with
  | none =>
    rw [Option.elim_none, List.nil_append, skipBlanks_of_head fun c hc => (hhead c hc).1]
    cases h with
    | last => rfl
    | newline n rest => cases n <;> rfl
  | some comment =>
    have hcomment := e.plain comment hcomment
    have hdrop := Text.dropWhile_run hcomment fun c hc => (hhead c hc).2
    rw [Option.elim_some, List.cons_append, skipBlanks_of_head (by rintro _ ⟨⟩; rfl)]
    simp only [hdrop]
    exact h.newline?

theorem endsValue_ending (e : Ending) (h : Follows tail rest) : EndsValue (e.text ++ tail) := by
  have htail : EndsValue tail := fun c hc => by
    have hall : ∀ c ∈ ['\n', '\r'], c ∈ valueEnds := by simp [valueEnds]
    exact hall c (h.head c hc)
  rw [Ending.text, List.append_assoc]
  refine e.blanks.head (fun c hc => ?_) ?_
  · simp only [isBlank, Bool.or_eq_true, decide_eq_true_eq] at hc
    obtain rfl | rfl := hc <;> decide
  · cases e.comment with
    | none => exact htail
    | some comment => rintro _ ⟨⟩; decide

/-! ## Settings -/

namespace Setting

variable (s : Setting)

/-- A bare key starts with none of the characters that mean something else at the start of a line
or of a key. -/
theorem key_cons : ∃ c cs, s.key.toList = c :: cs ∧ ∀ d, isBareKeyChar d = false → c ≠ d := by
  have hne : s.key.toList ≠ [] := by simpa using s.key_ne
  obtain ⟨c, cs, hkey⟩ := List.exists_cons_of_ne_nil hne
  have hc : isBareKeyChar c = true := s.bare c (hkey ▸ List.mem_cons_self)
  exact ⟨c, cs, hkey, fun _ hd => Text.ne_of_kind hc hd⟩

theorem keyPart?_bare {rest : List Char} (hrest : ∀ c ∈ rest.head?, isBareKeyChar c = false) :
    keyPart? (s.key.toList ++ rest) = some (s.key, rest) := by
  have hspan := Text.span_run s.bare hrest
  obtain ⟨c, cs, hkey, hc⟩ := s.key_cons
  have hof : String.ofList (c :: cs) = s.key := by rw [← hkey, String.ofList_toList]
  rw [hkey] at hspan ⊢
  rw [keyPart?, hspan]
  · rw [← hof]
    rfl
  · exact fun _ h => hc '"' rfl (List.cons.inj h).1
  · exact fun _ h => hc '\'' rfl (List.cons.inj h).1

theorem skipBlanks_body (rest : List Char) : skipBlanks (s.body ++ rest) = s.body ++ rest := by
  obtain ⟨c, cs, hkey, hc⟩ := s.key_cons
  refine skipBlanks_of_head fun d hd => ?_
  rw [body, hkey] at hd
  cases hd
  simp [isBlank, hc ' ' rfl, hc '\t' rfl]

theorem key?_body (bound : Nat) (rest : List Char) :
    key? (bound + 1) (s.body ++ rest) =
      some (⟨[], s.key⟩, '=' :: (s.after.chars ++ (s.written ++ rest))) := by
  have hafter : ∀ c ∈ (s.textAfter ++ rest).head?, isBareKeyChar c = false := by
    rw [textAfter, List.append_assoc]
    refine s.before.head (fun c hc => ?_) (by rintro _ ⟨⟩; rfl)
    simp only [isBlank, Bool.or_eq_true, decide_eq_true_eq] at hc
    obtain rfl | rfl := hc <;> rfl
  have hequals : skipBlanks (s.textAfter ++ rest) =
      '=' :: (s.after.chars ++ (s.written ++ rest)) := by
    rw [textAfter, List.append_assoc, skipBlanks_append, List.cons_append, List.append_assoc]
    exact skipBlanks_of_head (by rintro _ ⟨⟩; rfl)
  rw [key?, skipBlanks_body, body, List.append_assoc, s.keyPart?_bare hafter]
  simp only [Option.bind_eq_bind, Option.bind_some, hequals]
  rfl

variable {rest : List Char} (hrest : EndsValue rest)
include hrest

theorem setting?_body (bound : Nat) :
    setting? (bound + 2) (s.body ++ rest) =
      if s.value.Fits then some (⟨[], s.key⟩, s.value, rest) else none := by
  have hblank : skipBlanks (s.after.chars ++ (s.written ++ rest)) = s.written ++ rest := by
    obtain ⟨c, cs, hwritten, hc⟩ := s.form.exists_cons
    rw [skipBlanks_append, hwritten]
    exact skipBlanks_of_head (by rintro _ ⟨⟩; exact hc)
  simp only [setting?, key?_body, Option.bind_eq_bind, Option.bind_some, hblank,
    value?_written s.form bound hrest]
  by_cases hv : s.value.Fits
  · simp only [if_pos hv, Option.bind_some, Option.pure_def]
  · simp only [if_neg hv, Option.bind_none]

theorem statement?_body :
    statement? (s.body ++ rest) =
      if s.value.Fits then some (.setting ⟨[], s.key⟩ s.value, rest) else none := by
  obtain ⟨c, cs, hkey, hc⟩ := s.key_cons
  have hne : ∀ t, s.body ++ rest ≠ '[' :: t := by
    intro t h
    rw [body, hkey] at h
    exact hc '[' rfl (List.cons.inj h).1
  rw [statement?.eq_2 _ hne, s.setting?_body hrest]
  by_cases hv : s.value.Fits
  · simp only [if_pos hv, Option.map_some]
  · simp only [if_neg hv, Option.map_none]

end Setting

/-! ## Lines -/

/-- The statement that a line makes, unless it gives a number that does not fit its word. -/
def statementOf? : String × Value → Option Statement
  | (key, v) => if v.Fits then some (.setting ⟨[], key⟩ v) else none

theorem statements?_setting (s : Setting) (e : Ending) (h : Follows tail rest) :
    statements? (bound + 1) ((Line.setting s e).text ++ tail) =
      (statementOf? s.entry).bind fun first => (statements? bound rest).map (first :: ·) := by
  have hvalue := endsValue_ending e h
  have hstatement := s.statement?_body hvalue
  have hbody := s.skipBlanks_body (e.text ++ tail)
  obtain ⟨c, cs, hcons, hc⟩ : ∃ c cs, s.body ++ (e.text ++ tail) = c :: cs ∧
      ¬(c = '#' ∨ c = '\n' ∨ c = '\r') := by
    obtain ⟨c, cs, hkey, hc⟩ := s.key_cons
    refine ⟨c, cs ++ s.textAfter ++ (e.text ++ tail), ?_, ?_⟩
    · rw [Setting.body, hkey]
      rfl
    · simp [hc '#' rfl, hc '\n' rfl, hc '\r' rfl]
  rw [statements?, Line.text, List.append_assoc, List.append_assoc, skipBlanks_append, hbody]
  rw [hcons] at hstatement ⊢
  have hfirst : statementOf? s.entry =
      if s.value.Fits then some (.setting ⟨[], s.key⟩ s.value) else none := rfl
  simp only [if_neg hc, hstatement, hfirst]
  by_cases hv : s.value.Fits
  · simp only [if_pos hv, Option.bind_eq_bind, Option.bind_some, lineEnd?_ending e h,
      Option.pure_def, Option.map_eq_bind, Function.comp_def]
  · simp only [if_neg hv, Option.bind_eq_bind, Option.bind_none]

/-- At the end of a line stands nothing, or a character that starts no statement. -/
theorem skipBlanks_ending (e : Ending) (h : Follows tail rest) :
    (skipBlanks (e.text ++ tail) = [] ∧ rest = []) ∨
      ∃ c cs, skipBlanks (e.text ++ tail) = c :: cs ∧ c ∈ ['#', '\n', '\r'] := by
  rw [Ending.text, List.append_assoc, skipBlanks_append]
  cases e.comment with
  | some comment => exact .inr ⟨'#', _, rfl, by decide⟩
  | none =>
    cases h with
    | last => exact .inl ⟨rfl, rfl⟩
    | newline n rest =>
      cases n with
      | lf => exact .inr ⟨'\n', _, rfl, by decide⟩
      | crlf => exact .inr ⟨'\r', _, rfl, by decide⟩

theorem statements?_vacant (e : Ending) (h : Follows tail rest) (hbound : 0 < bound) :
    statements? (bound + 1) (e.text ++ tail) = statements? bound rest := by
  have hend := lineEnd?_ending e h
  rw [statements?]
  obtain ⟨hskip, rfl⟩ | ⟨c, cs, hskip, hc⟩ := skipBlanks_ending e h
  · obtain ⟨bound, rfl⟩ := Nat.exists_eq_add_of_lt hbound
    rw [hskip, Nat.zero_add, statements?]
    rfl
  · have hall : ∀ c ∈ ['#', '\n', '\r'], isBlank c = false ∧ (c = '#' ∨ c = '\n' ∨ c = '\r') := by
      simp [isBlank]
    obtain ⟨hblank, hc⟩ := hall c hc
    have hagain : skipBlanks (c :: cs) = c :: cs := List.dropWhile_cons_of_neg (by simp [hblank])
    have hsame : lineEnd? (c :: cs) = some rest := by
      rw [← hend, lineEnd?, lineEnd?, hskip, hagain]
    simp only [hskip, if_pos hc, hsame, Option.bind_eq_bind, Option.bind_some]

theorem statements?_line (l : Line) (h : Follows tail rest) (hbound : 0 < bound) :
    statements? (bound + 1) (l.text ++ tail) =
      (l.entry?.toList.mapM statementOf?).bind fun first =>
        (statements? bound rest).map (first ++ ·) := by
  cases l with
  | vacant e =>
    refine (statements?_vacant e h hbound).trans ?_
    show _ = (statements? bound rest).map ([] ++ ·)
    simp only [List.nil_append, Option.map_id']
  | setting s e =>
    rw [statements?_setting s e h]
    show _ = ([s.entry].mapM statementOf?).bind _
    cases hfirst : statementOf? s.entry with
    | none => simp only [List.mapM_cons, hfirst, Option.bind_eq_bind, Option.bind_none]
    | some first =>
      simp only [List.mapM_cons, List.mapM_nil, hfirst, Option.bind_eq_bind, Option.bind_some,
        Option.pure_def]
      rfl

/-! ## Documents -/

/-- What the lines say, in order. -/
def entries (lines : List Line) : Entries := lines.filterMap Line.entry?

theorem entries_cons (l : Line) (lines : List Line) :
    entries (l :: lines) = l.entry?.toList ++ entries lines := by
  unfold entries
  cases h : l.entry? with
  | none => rw [List.filterMap_cons_none h]; rfl
  | some e => rw [List.filterMap_cons_some h]; rfl

theorem entry?_of_text_nil {l : Line} (h : l.text = []) : l.entry? = none := by
  cases l with
  | vacant e => rfl
  | setting s e =>
    obtain ⟨c, cs, hkey, -⟩ := s.key_cons
    simp [Line.text, Setting.body, hkey] at h

theorem mapM_append_bind {α β : Type} (f : α → Option β) (xs ys : List α) :
    (xs ++ ys).mapM f = (xs.mapM f).bind fun first => (ys.mapM f).map (first ++ ·) := by
  rw [List.mapM_append]
  cases xs.mapM f with
  | none => rfl
  | some first =>
    cases ys.mapM f with
    | none => rfl
    | some rest => rfl

theorem joined_singleton (newline : Newline) (l : Line) : joined newline [l] = l.text :=
  List.intercalate_singleton

theorem joined_cons (newline : Newline) (l next : Line) (lines : List Line) :
    joined newline (l :: next :: lines) =
      l.text ++ (newline.text ++ joined newline (next :: lines)) := by
  rw [joined, List.map_cons, List.map_cons, List.intercalate_cons_cons, List.append_assoc]
  rfl

/-- A document is read line by line. -/
theorem statements?_joined (newline : Newline) (lines : List Line) :
    ∀ bound, (joined newline lines).length < bound →
      statements? bound (joined newline lines) = (entries lines).mapM statementOf? := by
  induction lines with
  | nil =>
    rintro (_ | bound) hbound
    · cases hbound
    · rfl
  | cons l lines ih =>
    rintro (_ | bound) hbound
    · cases hbound
    · rw [entries_cons, mapM_append_bind]
      cases lines with
      | nil =>
        rw [joined_singleton] at hbound ⊢
        by_cases hempty : l.text = []
        · rw [hempty, entry?_of_text_nil hempty]
          rfl
        · have hpos : 0 < bound :=
            Nat.lt_of_lt_of_le (List.length_pos_iff.2 hempty) (Nat.le_of_lt_succ hbound)
          have hline := statements?_line l .last hpos
          rw [List.append_nil] at hline
          rw [hline]
          obtain ⟨bound, rfl⟩ := Nat.exists_eq_add_of_lt hpos
          rw [Nat.zero_add]
          rfl
      | cons next lines =>
        have hnewline : 0 < newline.text.length := by cases newline <;> decide
        rw [joined_cons, List.length_append, List.length_append] at hbound
        rw [joined_cons, statements?_line l (.newline newline _) (by omega), ih bound (by omega)]

/-! ## Tables -/

theorem mapM_statementOf?_eq_some_iff {t : Entries} {statements : List Statement} :
    t.mapM statementOf? = some statements ↔
      (∀ e ∈ t, e.2.Fits) ∧ statements = t.map fun e => .setting ⟨[], e.1⟩ e.2 := by
  induction t generalizing statements with
  | nil => simp [eq_comm]
  | cons e t ih =>
    rw [List.forall_mem_cons, List.map_cons, List.mapM_cons]
    by_cases he : e.2.Fits
    · have hfirst : statementOf? e = some (.setting ⟨[], e.1⟩ e.2) := if_pos he
      rw [hfirst, Option.bind_eq_bind, Option.bind_some]
      constructor
      · intro h
        obtain ⟨others, hothers, h⟩ := Option.bind_eq_some_iff.1 h
        cases h
        obtain ⟨ht, rfl⟩ := ih.1 hothers
        exact ⟨⟨he, ht⟩, rfl⟩
      · rintro ⟨⟨-, ht⟩, rfl⟩
        rw [ih.2 ⟨ht, rfl⟩]
        rfl
    · have hfirst : statementOf? e = none := if_neg he
      rw [hfirst]
      exact ⟨(nomatch ·), fun h => absurd h.1.1 he⟩

namespace Entries

theorem isSome_lookup_iff {t : Entries} {key : String} :
    (t.lookup key).isSome ↔ key ∈ t.map Prod.fst := by
  rw [Option.isSome_iff_ne_none, Ne, List.lookup_eq_none_iff, List.mem_map]
  simp only [bne_iff_ne, ne_eq, not_forall, not_not, exists_prop, @eq_comm _ key]

theorem set_of_notMem {t : Entries} {key : String} (h : key ∉ t.map Prod.fst) (v : Value) :
    t.set key v = t ++ [(key, v)] := by
  induction t with
  | nil => rfl
  | cons e t ih =>
    obtain ⟨k, old⟩ := e
    obtain ⟨hne, hnotMem⟩ := not_or.1 (mt List.mem_cons.2 h)
    rw [set, if_neg (Ne.symm hne), ih hnotMem]
    rfl

/-- A new key of the document itself is appended to it; a key that is there already is refused. -/
theorem addUnder_eq (t : Entries) (key : String) (v : Value) :
    t.addUnder [] [] key v = if key ∈ t.map Prod.fst then none else some (t ++ [(key, v)]) := by
  have hadd : t.addUnder [] [] key v =
      if (t.lookup key).isSome then none else some (t.set key v) := by
    simp only [addUnder, updateTable, addSetting, reduceCtorEq, decide_false, Bool.false_or]
  rw [hadd]
  by_cases h : key ∈ t.map Prod.fst
  · rw [if_pos h, if_pos (isSome_lookup_iff.2 h)]
  · rw [if_neg h, if_neg (mt isSome_lookup_iff.1 h), set_of_notMem h]

end Entries

/-- Settings of the document itself describe the table of what they set, unless a key comes
twice. -/
theorem build_settings_iff {added t' : Entries} : ∀ {t : Entries}, (t.map Prod.fst).Nodup →
    (build [] t (added.map fun e => .setting ⟨[], e.1⟩ e.2) = some t' ↔
      ((t ++ added).map Prod.fst).Nodup ∧ t' = t ++ added) := by
  induction added with
  | nil =>
    intro t ht
    rw [List.map_nil, build, List.append_nil]
    exact ⟨fun h => ⟨ht, (Option.some.inj h).symm⟩, fun h => congrArg some h.2.symm⟩
  | cons e added ih =>
    obtain ⟨key, v⟩ := e
    intro t ht
    have hkeys : ((t ++ (key, v) :: added).map Prod.fst).Nodup ↔
        key ∉ t.map Prod.fst ∧ ((t ++ [(key, v)] ++ added).map Prod.fst).Nodup := by
      rw [List.append_assoc, List.singleton_append]
      refine ⟨fun h => ⟨fun hmem => ?_, h⟩, And.right⟩
      rw [List.map_append] at h
      exact (List.nodup_append.1 h).2.2 _ hmem _ List.mem_cons_self rfl
    rw [List.map_cons, build, Entries.addUnder_eq, hkeys]
    by_cases hmem : key ∈ t.map Prod.fst
    · rw [if_pos hmem]
      exact ⟨(nomatch ·), fun h => absurd hmem h.1.1⟩
    · have hnext : ((t ++ [(key, v)]).map Prod.fst).Nodup := by
        rw [List.map_append]
        exact NameTable.nodup_concat ht hmem
      rw [if_neg hmem, Option.bind_eq_bind, Option.bind_some, ih hnext, List.append_assoc]
      exact ⟨fun h => ⟨⟨hmem, h.1⟩, h.2⟩, fun h => ⟨h.1.2, h.2⟩⟩

/-- No line starts with a byte order mark. -/
theorem head_joined (newline : Newline) (lines : List Line) :
    ∀ c ∈ (joined newline lines).head?, c ≠ '\uFEFF' := by
  have hblank : ∀ c, isBlank c = true → c ≠ '\uFEFF' := fun c hc => Text.ne_of_kind hc rfl
  have hline : ∀ (l : Line) (tail : List Char), (∀ c ∈ tail.head?, c ≠ '\uFEFF') →
      ∀ c ∈ (l.text ++ tail).head?, c ≠ '\uFEFF' := by
    rintro (e | ⟨s, e⟩) tail htail
    · rw [Line.text, Ending.text, List.append_assoc]
      refine e.blanks.head hblank ?_
      cases e.comment with
      | none => exact htail
      | some comment => rintro _ ⟨⟩; decide
    · obtain ⟨c, cs, hkey, hc⟩ := s.key_cons
      rw [Line.text, List.append_assoc, Setting.body, hkey]
      refine s.indent.head hblank ?_
      rintro _ ⟨⟩
      exact hc '\uFEFF' rfl
  cases lines with
  | nil => rintro _ ⟨⟩
  | cons l lines =>
    cases lines with
    | nil =>
      have h := hline l [] (by rintro _ ⟨⟩)
      rwa [List.append_nil, ← joined_singleton newline l] at h
    | cons next lines =>
      rw [joined_cons]
      refine hline l _ ?_
      cases newline <;> (rintro _ ⟨⟩; decide)

theorem skipMark_of_head {s : List Char} (h : ∀ c ∈ s.head?, c ≠ '\uFEFF') : skipMark s = s := by
  refine skipMark.eq_2 s fun rest hs => ?_
  subst hs
  exact h _ rfl rfl

/-- A document of lines describes the table of what they say, unless a number does not fit its word
or a key comes twice. -/
theorem read?_document_iff {newline : Newline} {lines : List Line} {t : Entries} :
    read? (document newline lines) = some t ↔
      (∀ e ∈ entries lines, e.2.Fits) ∧ ((entries lines).map Prod.fst).Nodup ∧
        t = entries lines := by
  have hread := statements?_joined newline lines _ (Nat.lt_succ_self _)
  have hbuild : build [] [] ((entries lines).map fun e => .setting ⟨[], e.1⟩ e.2) = some t ↔
      ((entries lines).map Prod.fst).Nodup ∧ t = entries lines := build_settings_iff List.nodup_nil
  have hdocument : read? (document newline lines) =
      ((entries lines).mapM statementOf?).bind fun statements => build [] [] statements := by
    rw [← hread, read?, document, String.toList_ofList, skipMark_of_head (head_joined _ _)]
    rfl
  rw [hdocument, Option.bind_eq_some_iff]
  constructor
  · rintro ⟨statements, hstatements, h⟩
    obtain ⟨hfits, rfl⟩ := mapM_statementOf?_eq_some_iff.1 hstatements
    exact ⟨hfits, hbuild.1 h⟩
  · rintro ⟨hfits, h⟩
    exact ⟨_, mapM_statementOf?_eq_some_iff.2 ⟨hfits, rfl⟩, hbuild.2 h⟩

end NameScope.Toml
