import NameScope.Options.Settings
import NameScope.Proofs.Toml.Range

/-
  Options survive being written as a settings document.  What is written is a document of three
  settings, whose table sets every option, so nothing is left to the defaults.  Options that a
  document describes can always be written, since a number that is no 64-bit number with a sign has
  no way into a document (`ofToml?_le`).
-/

namespace NameScope

namespace Options

open Toml

/-! ## Writing -/

/-- What a document says that sets every option. -/
def settings (o : Options) : Entries :=
  [("shadow_policy", .text o.rule.text), ("max_suggestions", .integer o.maxSuggestions),
    ("allow_param_initializers", .boolean o.allowParamInit)]

def ruleSetting (rule : RedeclarationRule) : Setting where
  key := "shadow_policy"
  written := '"' :: (rule.text.toList ++ ['"'])
  value := .text (String.ofList rule.text.toList)
  form := .basic (spells_verbatim (List.all_eq_true.1 (by cases rule <;> decide)))

def countSetting (n : Nat) : Setting where
  key := "max_suggestions"
  written := Nat.toDigits 10 n
  value := .integer n
  form := .natural (numeral_toDigits n)

def flagSetting (b : Bool) : Setting where
  key := "allow_param_initializers"
  written := (toString b).toList
  value := .boolean b
  form := .boolean b

/-- The lines that are written for options; nothing follows the last line end. -/
def writtenLines (o : Options) : List Line :=
  [(ruleSetting o.rule).line, (countSetting o.maxSuggestions).line,
    (flagSetting o.allowParamInit).line, .empty]

theorem entries_writtenLines (o : Options) : entries o.writtenLines = o.settings := by
  have hrule : String.ofList o.rule.text.toList = o.rule.text := String.ofList_toList
  rw [settings, ← hrule]
  rfl

theorem isSome_toToml?_iff (o : Options) : o.toToml?.isSome ↔ o.maxSuggestions ≤ maxWritten := by
  unfold toToml?
  split <;> simp [*]

theorem toToml?_eq {o : Options} (h : o.maxSuggestions ≤ maxWritten) :
    o.toToml? = some (document .lf o.writtenLines) := by
  rw [toToml?, if_pos h, Option.some.injEq, ← String.toList_inj]
  simp [document, joined, writtenLines, Setting.line, Line.empty, Line.text, Ending.none,
    Ending.text, Blanks.none, Blanks.space, Setting.body, Setting.textAfter, Newline.text,
    List.intercalate_cons_cons, ruleSetting, countSetting, flagSetting]

theorem inRange_ofNat {n : Nat} (h : n ≤ maxWritten) : inRange n = true := by
  unfold maxWritten at h
  rw [inRange, Bool.and_eq_true, decide_eq_true_eq, decide_eq_true_eq]
  omega

/-- What is written is read back. -/
theorem ofToml?_of_toToml? {o : Options} {text : String} (h : o.toToml? = some text) :
    ofToml? text = some o := by
  have hle := (isSome_toToml?_iff o).1 (Option.isSome_of_eq_some h)
  rw [toToml?_eq hle, Option.some.injEq] at h
  have hread : read? (document .lf o.writtenLines) = some (entries o.writtenLines) := by
    rw [read?_document_iff, entries_writtenLines]
    refine ⟨?_, by simp [settings], rfl⟩
    simp [settings, Value.Fits, inRange_ofNat hle]
  have hrule := RedeclarationRule.ofText?_text o.rule
  rw [ofToml?, ← h, hread, entries_writtenLines]
  simp [settings, ofEntries?, set?, ruleOf?, countOf?, flagOf?, hrule]

/-! ## Reading -/

theorem eq_of_countOf? {v : Value} {n : Nat} (h : countOf? v = some n) : v = .integer n := by
  unfold countOf? at h
  split at h
  · cases h
    rfl
  · cases h

theorem countOf?_le {v : Value} (hv : v.Fits) {n : Nat} (h : countOf? v = some n) :
    n ≤ maxWritten := by
  obtain rfl := eq_of_countOf? h
  have hlt := of_decide_eq_true (Bool.and_eq_true_iff.1 hv).2
  unfold maxWritten
  omega

theorem set?_le {o o' : Options} {key : String} {v : Value} (ho : o.maxSuggestions ≤ maxWritten)
    (hv : v.Fits) (h : o.set? key v = some o') : o'.maxSuggestions ≤ maxWritten := by
  unfold set? at h
  split at h
  · obtain ⟨rule, -, rfl⟩ := Option.map_eq_some_iff.1 h
    exact ho
  · split at h
    · obtain ⟨n, hn, rfl⟩ := Option.map_eq_some_iff.1 h
      exact countOf?_le hv hn
    · split at h
      · obtain ⟨b, -, rfl⟩ := Option.map_eq_some_iff.1 h
        exact ho
      · cases h

theorem foldlM_set?_le {t : Entries} (ht : ∀ e ∈ t, e.2.Fits) : ∀ {o o' : Options},
    o.maxSuggestions ≤ maxWritten → t.foldlM (fun o (key, v) => o.set? key v) o = some o' →
      o'.maxSuggestions ≤ maxWritten := by
  induction t with
  | nil =>
    intro o o' ho h
    cases h
    exact ho
  | cons e t ih =>
    intro o o' ho h
    obtain ⟨he, ht⟩ := List.forall_mem_cons.1 ht
    rw [List.foldlM_cons] at h
    obtain ⟨mid, hmid, h⟩ := Option.bind_eq_some_iff.1 h
    exact ih ht (set?_le ho he hmid) h

/-- No document sets a number that could not be written. -/
theorem ofToml?_le {document : String} {o : Options} (h : ofToml? document = some o) :
    o.maxSuggestions ≤ maxWritten := by
  obtain ⟨t, hread, hset⟩ := Option.bind_eq_some_iff.1 h
  exact foldlM_set?_le (read?_fits hread) (by decide) hset

theorem ofDocument_eq_ok_iff {document : String} {o : Options} :
    ofDocument document = .ok o ↔ ofToml? document = some o := by
  unfold ofDocument
  split <;> simp [*]

theorem ofFile_toUTF8 {path text : String} {o : Options} (h : ofToml? text = some o) :
    ofFile path (some text.toUTF8) = .ok o := by
  have hbytes : String.fromUTF8? text.toUTF8 = some text := dif_pos text.isValidUTF8
  rw [ofFile, Option.bind_some, hbytes]
  simp only [h]

/-- **Options survive being written.** Options can be written exactly if the number of suggestions
is at most the greatest 64-bit number with a sign. What is then written describes the same options,
and so does any file that holds its bytes. Options that any document describes, in whatever form it
gives them, can be written, and what is written describes them again. -/
theorem toml_round_trip :
    (∀ o : Options, o.toToml?.isSome ↔ o.maxSuggestions ≤ 9223372036854775807) ∧
      (∀ (o : Options) (text : String), o.toToml? = some text →
        ofDocument text = .ok o ∧ ∀ path, ofFile path (some text.toUTF8) = .ok o) ∧
      ∀ (document : String) (o : Options), ofDocument document = .ok o →
        ∃ text, o.toToml? = some text ∧ ofDocument text = .ok o := by
  refine ⟨isSome_toToml?_iff, fun o text h => ?_, fun document o h => ?_⟩
  · have hread := ofToml?_of_toToml? h
    exact ⟨ofDocument_eq_ok_iff.2 hread, fun path => ofFile_toUTF8 hread⟩
  · have hle := ofToml?_le (ofDocument_eq_ok_iff.1 h)
    obtain ⟨text, htext⟩ := Option.isSome_iff_exists.1 ((isSome_toToml?_iff o).2 hle)
    exact ⟨text, htext, ofDocument_eq_ok_iff.2 (ofToml?_of_toToml? htext)⟩

theorem toml_round_trip_hexadecimal :
    let o : Options := ⟨.sameBlock, 31, false⟩
    let text := "shadow_policy = \"reject-in-current-scope\"\nmax_suggestions = 31\n" ++
      "allow_param_initializers = false\n"
    let document := "# in base sixteen\n'max_suggestions' = 0x1_F\n\n" ++
      "shadow_policy . reject-in-current-scope = \x7b\x7d\n"
    o.toToml?.isSome ∧ o.toToml? = some text ∧ ofDocument text = .ok o ∧
      ofFile "binder.toml" (some text.toUTF8) = .ok o ∧ ofDocument document = .ok o ∧
      ∃ written, o.toToml? = some written ∧ ofDocument written = .ok o := by
  intro o text document
  have htext : o.toToml? = some text := by decide +kernel
  have hdocument : ofDocument document = .ok o := by decide +kernel
  obtain ⟨hwritable, hwritten, hread⟩ := toml_round_trip
  obtain ⟨hback, hfile⟩ := hwritten o text htext
  exact ⟨(hwritable o).2 (by decide), htext, hback, hfile "binder.toml", hdocument,
    hread document o hdocument⟩

end Options

end NameScope
