import NameScope.Proofs.Text.Delimiting
import NameScope.Proofs.Tree.Recursion
import NameScope.Proofs.Tree.Relabel

/-
  What a dump identifies.  A dump shows the symbols and the texts of a tree, with the depth of each
  node as an indent.  If no symbol holds a line end or a quote and no text a line end, this is read
  back in one way only (`dump_identifies`): the indent ends at the first dash, whatever the symbol
  starts with, the symbol ends before the first quote, whatever quotes the text holds
  (`dumpLine_inj`), and the depths tell how the nodes are nested.
-/

namespace NameScope

/-- A label whose line in a dump can be read: neither its symbol nor its text breaks the line, and
the quote in front of the text is the first one. -/
structure Label.Legible (l : Label) : Prop where
  symbol_line : '\n' ∉ l.symbol.toList
  symbol_quote : '\'' ∉ l.symbol.toList
  text_line : '\n' ∉ l.text.toList

instance (l : Label) : Decidable l.Legible :=
  decidable_of_iff ('\n' ∉ l.symbol.toList ∧ '\'' ∉ l.symbol.toList ∧ '\n' ∉ l.text.toList)
    ⟨fun ⟨h₁, h₂, h₃⟩ => ⟨h₁, h₂, h₃⟩, fun ⟨h₁, h₂, h₃⟩ => ⟨h₁, h₂, h₃⟩⟩

namespace Tree

/-! ## Lines -/

/-- What a line shows of a label. -/
def lineBody (l : Label) : List Char :=
  l.symbol.toList ++ if l.text = "" then [] else ' ' :: '\'' :: (l.text.toList ++ ['\''])

theorem toList_dumpLine (d : Nat) (l : Label) :
    (dumpLine d l).toList = List.replicate d ' ' ++ '-' :: (lineBody l ++ ['\n']) := by
  by_cases h : l.text = ""
  · simp [dumpLine, lineBody, h]
  · simp [dumpLine, lineBody, h]

theorem not_mem_lineBody {l : Label} (hl : l.Legible) : '\n' ∉ lineBody l := by
  by_cases h : l.text = ""
  · simpa [lineBody, h] using hl.symbol_line
  · simpa [lineBody, h] using ⟨hl.symbol_line, hl.text_line⟩

/-- The first quote, if there is one, parts the symbol and the text. -/
theorem lineBody_inj {l m : Label} (hl : l.Legible) (hm : m.Legible)
    (h : lineBody l = lineBody m) : l.symbol = m.symbol ∧ l.text = m.text := by
  have hquote : ∀ {l : Label}, l.Legible → ('\'' ∈ lineBody l ↔ l.text ≠ "") := by
    intro l hl
    by_cases htext : l.text = ""
    · simpa [lineBody, htext] using hl.symbol_quote
    · simp [lineBody, htext]
  have hempty : l.text = "" ↔ m.text = "" := by
    rw [← not_iff_not, ← Ne, ← Ne, ← hquote hl, ← hquote hm, h]
  by_cases htext : l.text = ""
  · have htext' := hempty.1 htext
    simp only [lineBody, htext, htext', if_true, List.append_nil, String.toList_inj] at h
    exact ⟨h, htext.trans htext'.symm⟩
  · have htext' := mt hempty.2 htext
    have hbefore : ∀ {l : Label}, l.Legible → ∀ c ∈ l.symbol.toList ++ [' '], (c != '\'') = true := by
      intro l hl c hc
      rw [List.mem_append, List.mem_singleton] at hc
      rw [bne_iff_ne]
      rintro rfl
      exact hc.elim hl.symbol_quote (by decide)
    have hline : (l.symbol.toList ++ [' ']) ++ '\'' :: (l.text.toList ++ ['\'']) =
        (m.symbol.toList ++ [' ']) ++ '\'' :: (m.text.toList ++ ['\'']) := by
      simpa [lineBody, htext, htext'] using h
    obtain ⟨hsymbol, hrest⟩ := Text.run_inj (hbefore hl) (hbefore hm) rfl rfl hline
    exact ⟨String.toList_inj.1 (List.append_cancel_right hsymbol),
      String.toList_inj.1 (List.append_cancel_right (List.cons.inj hrest).2)⟩

/-- A line can be told from others and from the lines after it. -/
theorem dumpLine_inj {d e : Nat} {l m : Label} (hl : l.Legible) (hm : m.Legible) {r s : List Char}
    (h : (dumpLine d l).toList ++ r = (dumpLine e m).toList ++ s) :
    d = e ∧ l.symbol = m.symbol ∧ l.text = m.text ∧ r = s := by
  have hspaces : ∀ n : Nat, ∀ c ∈ List.replicate n ' ', (c == ' ') = true := by
    intro n c hc
    rw [beq_iff_eq, List.eq_of_mem_replicate hc]
  have hbody : ∀ {l : Label}, l.Legible → ∀ c ∈ lineBody l, (c != '\n') = true := by
    intro l hl c hc
    rw [bne_iff_ne]
    rintro rfl
    exact not_mem_lineBody hl hc
  rw [toList_dumpLine, toList_dumpLine, List.append_assoc, List.append_assoc] at h
  obtain ⟨hindent, hrest⟩ := Text.run_inj (hspaces d) (hspaces e) rfl rfl h
  have hdepth : d = e := by simpa using congrArg List.length hindent
  have hline : lineBody l ++ '\n' :: r = lineBody m ++ '\n' :: s := by simpa using hrest
  obtain ⟨hshown, hafter⟩ := Text.run_inj (hbody hl) (hbody hm) rfl rfl hline
  obtain ⟨hsymbol, htext⟩ := lineBody_inj hl hm hshown
  exact ⟨hdepth, hsymbol, htext, (List.cons.inj hafter).2⟩

/-! ## Dumps -/

/-- The part of a label that a dump shows. -/
def shown (l : Label) : Label where
  symbolClass := .terminal
  text := l.text
  symbol := l.symbol

theorem shown_eq_iff {l m : Label} : shown l = shown m ↔ l.symbol = m.symbol ∧ l.text = m.text := by
  simp [shown, and_comm]

/-- A dump, line by line. -/
theorem toList_dump (t : Tree) :
    t.dump.toList = t.outline.flatMap fun p => (dumpLine p.1 p.2).toList := by
  rw [dump, dumpFrom_eq_join, String.toList_join, outline, List.flatMap_map, List.flatMap_map]
  simp only [Nat.zero_add]

/-- Lines of labels that can be read tell their depths and what they show. -/
theorem lines_inj {ps qs : List (Nat × Label)} (hps : ∀ p ∈ ps, p.2.Legible)
    (hqs : ∀ q ∈ qs, q.2.Legible)
    (h : (ps.flatMap fun p => (dumpLine p.1 p.2).toList) =
      qs.flatMap fun p => (dumpLine p.1 p.2).toList) :
    (ps.map fun p => (p.1, shown p.2)) = qs.map fun p => (p.1, shown p.2) := by
  have hline : ∀ (p : Nat × Label) (r : List Char), (dumpLine p.1 p.2).toList ++ r ≠ [] := by
    intro p r
    rw [toList_dumpLine]
    simp
  induction ps generalizing qs with
  | nil =>
    cases qs with
    | nil => rfl
    | cons q qs => exact absurd h.symm (hline q _)
  | cons p ps ih =>
    cases qs with
    | nil => exact absurd h (hline p _)
    | cons q qs =>
      rw [List.forall_mem_cons] at hps hqs
      rw [List.flatMap_cons, List.flatMap_cons] at h
      obtain ⟨hdepth, hsymbol, htext, hrest⟩ := dumpLine_inj hps.1 hqs.1 h
      rw [List.map_cons, List.map_cons, hdepth, shown_eq_iff.2 ⟨hsymbol, htext⟩,
        ih hps.2 hqs.2 hrest]

/-- A tree whose dump can be read. -/
def Legible (t : Tree) : Prop := ∀ p ∈ t.outline, p.2.Legible

/-- A dump tells the shape of a tree and what is shown of its labels. -/
theorem relabel_shown_eq_of_dump_eq {s t : Tree} (hs : s.Legible) (ht : t.Legible)
    (h : s.dump = t.dump) : s.relabel shown = t.relabel shown := by
  apply outline_injective
  rw [outline_relabel, outline_relabel]
  refine lines_inj hs ht ?_
  rw [← toList_dump, ← toList_dump, h]

/-- What is shown of the labels is the same at the end of the same paths. -/
theorem relabel_shown_eq_iff {s t : Tree} :
    s.relabel shown = t.relabel shown ↔
      ∀ path, ((s.at? path).map fun n => (n.symbol, n.label.text)) =
        (t.at? path).map fun n => (n.symbol, n.label.text) := by
  have hlabel : ∀ (u : Tree) (path : List Nat),
      ((u.relabel shown).at? path).map label = (u.at? path).map fun n => shown n.label := by
    intro u path
    rw [at?_relabel, Option.map_map]
    exact congrArg (Option.map · _) (funext (label_relabel shown))
  constructor
  · intro h path
    have hshown := hlabel t path
    rw [← h, hlabel s path] at hshown
    have hpair := congrArg (Option.map fun l => (l.symbol, l.text)) hshown
    rw [Option.map_map, Option.map_map] at hpair
    exact hpair
  · intro h
    refine eq_of_at? fun path => ?_
    rw [hlabel, hlabel]
    have hshown := congrArg (Option.map fun p : String × String =>
      shown { symbolClass := .terminal, symbol := p.1, text := p.2 }) (h path)
    rw [Option.map_map, Option.map_map] at hshown
    exact hshown

/-- Trees of which the same is shown have the same dump. -/
theorem dump_eq_of_relabel_shown_eq {s t : Tree} (h : s.relabel shown = t.relabel shown) :
    s.dump = t.dump := by
  have hdump : ∀ u : Tree, u.dump = (u.relabel shown).dump := by
    intro u
    rw [← String.toList_inj, toList_dump, toList_dump, outline_relabel, List.flatMap_map]
    rfl
  rw [hdump s, h, ← hdump t]

/-- **A dump identifies what it prints.** Two trees that are not too deep to be indented can be
dumped; and if their dumps can be read, for no symbol holds a line end or a quote and no text a line
end, the dumps are the same iff the trees have nodes at the end of the same paths, with the same
symbol and the same text.  So trees that differ in nesting, in a symbol or in a text never print
alike. -/
theorem dump_identifies {s t : Tree} (hs : s.Legible) (ht : t.Legible)
    (hheight : s.height ≤ 65535) (hheight' : t.height ≤ 65535) :
    s.print? 0 = some s.dump ∧ t.print? 0 = some t.dump ∧
      (s.dump = t.dump ↔ ∀ path,
        ((s.at? path).map fun n => (n.symbol, n.label.text)) =
          (t.at? path).map fun n => (n.symbol, n.label.text)) := by
  have hprint : ∀ u : Tree, u.height ≤ 65535 → u.print? 0 = some u.dump := by
    intro u hu
    rw [print?_eq, Nat.zero_add]
    exact if_pos hu
  refine ⟨hprint s hheight, hprint t hheight', ?_⟩
  rw [← relabel_shown_eq_iff]
  exact ⟨relabel_shown_eq_of_dump_eq hs ht, dump_eq_of_relabel_shown_eq⟩

/-- One item inside the other and one after the other, where symbols start like an indent and texts
hold quotes. -/
theorem dump_identifies_nested :
    let l (symbol text : String) : Label :=
      { symbolClass := .terminal, symbol := symbol, text := text }
    let nested := node (l " -list" "") [node (l "- item" "it's") [leaf (l "- item" "'")]]
    let flat := node (l " -list" "") [leaf (l "- item" "it's"), leaf (l "- item" "'")]
    nested.Legible ∧ flat.Legible ∧ nested.height ≤ 65535 ∧ flat.height ≤ 65535 ∧
      nested.dump ≠ flat.dump := by
  intro l nested flat
  have hnested : nested.Legible := by
    rw [Legible, outline_eq_lines]
    decide
  have hflat : flat.Legible := by
    rw [Legible, outline_eq_lines]
    decide
  refine ⟨hnested, hflat, by decide, by decide, fun heq => ?_⟩
  obtain ⟨-, -, hpaths⟩ := dump_identifies hnested hflat (by decide) (by decide)
  exact absurd (hpaths.1 heq [1]) (by decide)

end Tree

end NameScope
