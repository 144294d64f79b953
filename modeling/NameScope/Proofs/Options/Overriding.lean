import Mathlib.Data.List.Nodup
import NameScope.Proofs.Options.RoundTrip

/-
  Options are the defaults, overridden by what the lines of a document set.  Which options a
  document describes depends on what its lines say alone, and not on their order: each option is
  what a line sets it to, or else the default (`Overrides`), and that leaves no choice
  (`Overrides.unique`).
-/

namespace NameScope

namespace Options

open Toml

/-- The keys, each with the values that it may be given. -/
inductive Admitted : String → Value → Prop where
  | rule (rule : RedeclarationRule) : Admitted "shadow_policy" (.text rule.text)
  | count (n : Nat) (hn : n ≤ 9223372036854775807) : Admitted "max_suggestions" (.integer n)
  | flag (b : Bool) : Admitted "allow_param_initializers" (.boolean b)

/-- Each option of `o'` is set by an entry, or is that of `o` if no entry has its key. -/
def Overrides (t : Entries) (o o' : Options) : Prop :=
  ∀ e ∈ o'.settings, e ∈ t ∨ e.1 ∉ t.map Prod.fst ∧ e ∈ o.settings

variable {o o' mid : Options} {t : Entries} {key : String} {v : Value}

/-! ## Overriding -/

theorem text_inj {r r' : RedeclarationRule} (h : r.text = r'.text) : r = r' := by
  have hread := RedeclarationRule.ofText?_text r
  rw [h, RedeclarationRule.ofText?_text] at hread
  exact (Option.some.inj hread).symm

theorem eq_of_settings_subset (h : ∀ e ∈ o.settings, e ∈ o'.settings) : o = o' := by
  obtain ⟨hrule, hcount, hflag⟩ : o.rule.text = o'.rule.text ∧
      o.maxSuggestions = o'.maxSuggestions ∧ o.allowParamInit = o'.allowParamInit := by
    simpa [settings, Int.ofNat_inj] using h
  have hrule := text_inj hrule
  cases o
  cases o'
  simp_all only

theorem nodup_settings (o : Options) : (o.settings.map Prod.fst).Nodup := by simp [settings]

theorem eq_of_mem_of_key {e e' : String × Value} (ht : (t.map Prod.fst).Nodup) (he : e ∈ t)
    (he' : e' ∈ t) (h : e.1 = e'.1) : e = e' :=
  List.inj_on_of_nodup_map ht he he' h

namespace Overrides

theorem refl (o : Options) : Overrides [] o o := fun _ he => .inr ⟨List.not_mem_nil, he⟩

theorem cons (hfirst : Overrides [(key, v)] o mid) (hrest : Overrides t mid o') :
    Overrides ((key, v) :: t) o o' := by
  intro e he
  obtain hmem | ⟨hnone, hmem⟩ := hrest e he
  · exact .inl (List.mem_cons_of_mem _ hmem)
  · obtain hmem | ⟨hne, hmem⟩ := hfirst e hmem
    · exact .inl (List.mem_singleton.1 hmem ▸ List.mem_cons_self)
    · have hkey : e.1 ≠ key := fun h => hne (List.mem_singleton.2 h)
      exact .inr ⟨List.not_mem_cons_of_ne_of_not_mem hkey hnone, hmem⟩

theorem perm {t' : Entries} (h : Overrides t o o') (hperm : t.Perm t') : Overrides t' o o' := by
  intro e he
  rw [← hperm.mem_iff, ← (hperm.map Prod.fst).mem_iff]
  exact h e he

/-- Where no key comes twice, the entries and the options that they override say what comes out. -/
theorem unique {a b : Options} (ht : (t.map Prod.fst).Nodup) (ha : Overrides t o a)
    (hb : Overrides t o b) : a = b := by
  refine eq_of_settings_subset fun e he => ?_
  have hkeys : a.settings.map Prod.fst = b.settings.map Prod.fst := rfl
  obtain ⟨e', he', hkey⟩ := List.mem_map.1 (hkeys ▸ List.mem_map_of_mem he)
  have hmem : ∀ {f f' : String × Value}, f ∈ t → f'.1 ∉ t.map Prod.fst → f.1 ≠ f'.1 :=
    fun hf hnone h => hnone (h ▸ List.mem_map_of_mem hf)
  obtain hset | ⟨hnone, hold⟩ := ha e he
  · obtain hset' | ⟨hnone', -⟩ := hb e' he'
    · rwa [eq_of_mem_of_key ht hset hset' hkey.symm]
    · exact absurd hkey.symm (hmem hset hnone')
  · obtain hset' | ⟨-, hold'⟩ := hb e' he'
    · exact absurd hkey (hmem hset' hnone)
    · rwa [eq_of_mem_of_key (nodup_settings o) hold hold' hkey.symm]

end Overrides

/-! ## Entries -/

theorem ofText?_eq_some {name : String} {r : RedeclarationRule}
    (h : RedeclarationRule.ofText? name = some r) : name = r.text := by
  unfold RedeclarationRule.ofText? at h
  split at h
  · cases h
    assumption
  · obtain ⟨h', h⟩ := Option.ite_none_right_eq_some.1 h
    cases h
    exact h'

theorem eq_of_ruleOf? (hparts : ∀ origin entries, v ≠ .table origin entries)
    {r : RedeclarationRule} (h : ruleOf? v = some r) : v = .text r.text := by
  unfold ruleOf? at h
  split at h
  · rw [ofText?_eq_some h]
  · exact absurd rfl (hparts _ _)
  · cases h

theorem eq_of_flagOf? {b : Bool} (h : flagOf? v = some b) : v = .boolean b := by
  unfold flagOf? at h
  split at h
  · cases h
    rfl
  · cases h

/-- What an entry does to the options, if it has no value with parts. -/
theorem set?_spec (hparts : ∀ origin entries, v ≠ .table origin entries) (hfits : v.Fits)
    (h : o.set? key v = some o') : Admitted key v ∧ Overrides [(key, v)] o o' := by
  unfold set? at h
  split at h
  · subst key
    obtain ⟨r, hr, rfl⟩ := Option.map_eq_some_iff.1 h
    obtain rfl := eq_of_ruleOf? hparts hr
    exact ⟨.rule r, by simp [Overrides, settings]⟩
  · split at h
    · subst key
      obtain ⟨n, hn, rfl⟩ := Option.map_eq_some_iff.1 h
      have hle := countOf?_le hfits hn
      obtain rfl := eq_of_countOf? hn
      exact ⟨.count n hle, by simp [Overrides, settings]⟩
    · split at h
      · subst key
        obtain ⟨b, hb, rfl⟩ := Option.map_eq_some_iff.1 h
        obtain rfl := eq_of_flagOf? hb
        exact ⟨.flag b, by simp [Overrides, settings]⟩
      · cases h

theorem exists_set?_of_admitted (h : Admitted key v) (o : Options) :
    ∃ o', o.set? key v = some o' := by
  cases h with
  | rule r =>
    have hr := RedeclarationRule.ofText?_text r
    exact ⟨{ o with rule := r }, by simp [set?, ruleOf?, hr]⟩
  | count n _ => exact ⟨{ o with maxSuggestions := n }, by simp [set?, countOf?]⟩
  | flag b => exact ⟨{ o with allowParamInit := b }, by simp [set?, flagOf?]⟩

theorem foldlM_set?_spec (hparts : ∀ e ∈ t, ∀ origin entries, e.2 ≠ .table origin entries)
    (hfits : ∀ e ∈ t, e.2.Fits) : ∀ {o : Options},
      t.foldlM (fun o (key, v) => o.set? key v) o = some o' →
        (∀ e ∈ t, Admitted e.1 e.2) ∧ Overrides t o o' := by
  induction t with
  | nil =>
    intro o h
    cases h
    exact ⟨fun _ he => absurd he List.not_mem_nil, .refl _⟩
  | cons e t ih =>
    intro o h
    obtain ⟨hpart, hparts⟩ := List.forall_mem_cons.1 hparts
    obtain ⟨hfit, hfits⟩ := List.forall_mem_cons.1 hfits
    rw [List.foldlM_cons] at h
    obtain ⟨mid, hmid, h⟩ := Option.bind_eq_some_iff.1 h
    obtain ⟨hadmitted, hfirst⟩ := set?_spec hpart hfit hmid
    obtain ⟨hall, hrest⟩ := ih hparts hfits h
    exact ⟨List.forall_mem_cons.2 ⟨hadmitted, hall⟩, hfirst.cons hrest⟩

theorem exists_foldlM_of_admitted (h : ∀ e ∈ t, Admitted e.1 e.2) : ∀ o : Options,
    ∃ o', t.foldlM (fun o (key, v) => o.set? key v) o = some o' := by
  induction t with
  | nil => exact fun o => ⟨o, rfl⟩
  | cons e t ih =>
    intro o
    obtain ⟨he, ht⟩ := List.forall_mem_cons.1 h
    obtain ⟨mid, hmid⟩ := exists_set?_of_admitted he o
    obtain ⟨o', ho'⟩ := ih ht mid
    rw [List.foldlM_cons]
    exact ⟨o', Option.bind_eq_some_iff.2 ⟨mid, hmid, ho'⟩⟩

/-! ## Documents -/

theorem fits_of_admitted (h : Admitted key v) : v.Fits := by
  cases h with
  | rule r => trivial
  | count n hn => exact inRange_ofNat hn
  | flag b => trivial

theorem entries_without_parts (lines : List Line) :
    ∀ e ∈ entries lines, ∀ origin t, e.2 ≠ .table origin t := by
  intro e he origin t h
  obtain ⟨l, -, hl⟩ := List.mem_filterMap.1 he
  cases l with
  | vacant ending => cases hl
  | setting s ending =>
    cases hl
    exact s.form.without_parts h

variable {newline : Newline} {lines lines' : List Line}

theorem ofDocument_document_iff :
    ofDocument (document newline lines) = .ok o ↔
      (∀ e ∈ entries lines, e.2.Fits) ∧ ((entries lines).map Prod.fst).Nodup ∧
        ofEntries? (entries lines) = some o := by
  rw [ofDocument_eq_ok_iff, ofToml?, Option.bind_eq_bind, Option.bind_eq_some_iff]
  simp only [read?_document_iff, and_assoc]
  constructor
  · rintro ⟨t, hfits, hkeys, rfl, h⟩
    exact ⟨hfits, hkeys, h⟩
  · rintro ⟨hfits, hkeys, h⟩
    exact ⟨_, hfits, hkeys, rfl, h⟩

theorem ofDocument_spec (h : ofDocument (document newline lines) = .ok o) :
    (∀ e ∈ entries lines, Admitted e.1 e.2) ∧ ((entries lines).map Prod.fst).Nodup ∧
      Overrides (entries lines) {} o := by
  obtain ⟨hfits, hkeys, hset⟩ := ofDocument_document_iff.1 h
  obtain ⟨hadmitted, hover⟩ := foldlM_set?_spec (entries_without_parts lines) hfits hset
  exact ⟨hadmitted, hkeys, hover⟩

theorem exists_ofDocument (hadmitted : ∀ e ∈ entries lines, Admitted e.1 e.2)
    (hkeys : ((entries lines).map Prod.fst).Nodup) :
    ∃ o, ofDocument (document newline lines) = .ok o := by
  obtain ⟨o, ho⟩ := exists_foldlM_of_admitted hadmitted {}
  exact ⟨o, ofDocument_document_iff.2 ⟨fun e he => fits_of_admitted (hadmitted e he), hkeys, ho⟩⟩

theorem ofDocument_of_perm (hperm : (entries lines).Perm (entries lines'))
    (h : ofDocument (document newline lines) = .ok o) :
    ofDocument (document newline lines') = .ok o := by
  obtain ⟨hadmitted, hkeys, hover⟩ := ofDocument_spec h
  have hadmitted' := fun e he => hadmitted e (hperm.mem_iff.2 he)
  have hkeys' := (hperm.map Prod.fst).nodup_iff.1 hkeys
  obtain ⟨o', ho'⟩ : ∃ o', ofDocument (document newline lines') = .ok o' :=
    exists_ofDocument hadmitted' hkeys'
  obtain ⟨-, -, hover'⟩ := ofDocument_spec ho'
  rw [ho', (hover.perm hperm).unique hkeys' hover']

/-- Documents whose lines say the same, in whatever order, describe the same options, or none. -/
theorem ofDocument_congr (hperm : (entries lines).Perm (entries lines')) :
    ofDocument (document newline lines) = ofDocument (document newline lines') := by
  cases h : ofDocument (document newline lines) with
  | ok o => rw [ofDocument_of_perm hperm h]
  | error e =>
    cases h' : ofDocument (document newline lines') with
    | ok o => rw [ofDocument_of_perm hperm.symm h'] at h; cases h
    | error e' =>
      have hfault : ∀ {s e}, ofDocument s = .error e → e = .malformed none := by
        intro s e hs
        unfold ofDocument at hs
        split at hs <;> cases hs
        rfl
      rw [hfault h, hfault h']

/-- **Options are the defaults, overridden by the lines of a document.** Take any lines, each vacant
but for blanks and a comment, or giving a bare key a string on one line, a flag or a decimal number.
The document with these lines describes options exactly if each key is known and given a value that
suits it, and none comes twice. Each option is then what its line says, or the default if there is
no such line. So the order of the lines does not matter, nor do vacant lines, wherever they
stand. -/
theorem document_overrides_defaults (newline : Newline) (lines : List Line) :
    ((∃ o, ofDocument (document newline lines) = .ok o) ↔
        (∀ e ∈ entries lines, Admitted e.1 e.2) ∧ ((entries lines).map Prod.fst).Nodup) ∧
      (∀ o, ofDocument (document newline lines) = .ok o →
        ∀ e ∈ o.settings, e ∈ entries lines ∨
          e.1 ∉ (entries lines).map Prod.fst ∧ e ∈ ({} : Options).settings) ∧
      (∀ lines', lines'.Perm lines →
        ofDocument (document newline lines') = ofDocument (document newline lines)) ∧
      ∀ front ending back, lines = front ++ back →
        ofDocument (document newline (front ++ .vacant ending :: back)) =
          ofDocument (document newline lines) := by
  refine ⟨⟨fun ⟨o, h⟩ => ?_, fun ⟨hadmitted, hkeys⟩ => exists_ofDocument hadmitted hkeys⟩,
    fun o h => (ofDocument_spec h).2.2, fun lines' hperm => ?_, ?_⟩
  · obtain ⟨hadmitted, hkeys, -⟩ := ofDocument_spec h
    exact ⟨hadmitted, hkeys⟩
  · exact ofDocument_congr (hperm.filterMap Line.entry?)
  · rintro front ending back rfl
    refine ofDocument_congr ?_
    rw [entries, entries, List.filterMap_append, List.filterMap_append,
      List.filterMap_cons_none rfl]

theorem document_overrides_defaults_reversed :
    let lines := [(countSetting 12).line, (ruleSetting .sameBlock).line]
    let o : Options := ⟨.sameBlock, 12, false⟩
    document .lf (.empty :: lines) =
        "\nmax_suggestions = 12\nshadow_policy = \"reject-in-current-scope\"" ∧
      ((∀ e ∈ entries lines, Admitted e.1 e.2) ∧ ((entries lines).map Prod.fst).Nodup) ∧
      (∀ e ∈ o.settings, e ∈ entries lines ∨
        e.1 ∉ (entries lines).map Prod.fst ∧ e ∈ ({} : Options).settings) ∧
      ofDocument (document .lf lines.reverse) = .ok o ∧
      ofDocument (document .lf (.empty :: lines)) = .ok o := by
  intro lines o
  have hread : ofDocument (document .lf lines) = .ok o := by decide +kernel
  obtain ⟨haccepted, hfields, hpermuted, hvacant⟩ := document_overrides_defaults .lf lines
  refine ⟨by decide +kernel, haccepted.1 ⟨o, hread⟩, hfields o hread, ?_, ?_⟩
  · rw [hpermuted lines.reverse lines.reverse_perm, hread]
  · exact (hvacant [] .none lines rfl).trans hread

end Options

end NameScope
