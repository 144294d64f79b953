import NameScope.Proofs.Text.Delimiting
import NameScope.Proofs.Tree.Equality
import NameScope.Tree.Dump

/-
  Records lose nothing.  The record of a tree says for every node, in pre-order, how deep it stands,
  what its label is and how many children it has.  `record_loses_nothing`: two trees have one record
  exactly when they are equal, whatever their texts contain.  Every part of a record shows where it
  ends, so the entries can be told from each other (`nodeRecord_inj`) and from the closing bracket
  (`records_inj`); and the depths and labels among them are an outline, from which the tree is built
  again.
-/

namespace NameScope.Tree

/-- What a record says of a node: its depth, its label and the number of its children. -/
def entry (p : Nat × Tree) : Nat × Label × Nat := (p.1, p.2.label, p.2.children.length)

/-- What the record of a tree says of its nodes, in pre-order. -/
def entries (t : Tree) : List (Nat × Label × Nat) := t.walk.map entry

/-- The entries hold an outline. -/
theorem outline_eq_entries (t : Tree) : t.outline = t.entries.map fun e => (e.1, e.2.1) := by
  rw [outline, entries, List.map_map]
  rfl

/-! ## Parts of an entry -/

theorem delimits_symbolClassRecord : Text.Delimits symbolClassRecord := by
  intro a b r s h
  have hlist := congrArg String.toList h
  cases a <;> cases b
  case terminal.terminal | nonterminal.nonterminal =>
    exact ⟨rfl, (String.append_right_inj _).1 h⟩
  all_goals simp [symbolClassRecord] at hlist

theorem delimits_actionRecord : Text.Delimits actionRecord := by
  intro a b r s h
  have hlist := congrArg String.toList h
  cases a <;> cases b
  case pass.pass => exact ⟨rfl, (String.append_right_inj _).1 h⟩
  case named.named name name' =>
    simp only [actionRecord, String.append_assoc, String.append_right_inj] at h
    obtain ⟨hname, hrest⟩ := Text.delimits_quoted h
    exact ⟨by rw [hname], (String.append_right_inj _).1 hrest⟩
  all_goals simp [actionRecord] at hlist

theorem delimits_tokenRecord : Text.Delimits tokenRecord := by
  intro a b r s h
  have hlist := congrArg String.toList h
  unfold tokenRecord at h hlist
  cases a <;> cases b
  case none.none => exact ⟨rfl, (String.append_right_inj _).1 h⟩
  case some.some t u =>
    obtain ⟨text, symbol, row, col⟩ := t
    obtain ⟨text', symbol', row', col'⟩ := u
    simp only [String.append_assoc, String.append_right_inj] at h
    obtain ⟨htext, h⟩ := Text.delimits_quoted h
    rw [String.append_right_inj] at h
    obtain ⟨hsymbol, h⟩ := Text.delimits_quoted h
    rw [String.append_right_inj] at h
    obtain ⟨hrow, h⟩ := Text.numeral_inj ", col: " (by decide) h
    obtain ⟨hcol, hrest⟩ := Text.numeral_inj " \x7d)" (by decide) h
    rw [UInt32.toNat_inj] at hrow hcol
    exact ⟨by rw [htext, hsymbol, hrow, hcol], hrest⟩
  all_goals simp at hlist

theorem label_eq_of_parts {l m : Label} (hclass : l.symbolClass = m.symbolClass)
    (htext : l.text = m.text) (hsymbol : l.symbol = m.symbol) (hrank : l.rank = m.rank)
    (haction : l.action = m.action) (htoken : l.token = m.token) : l = m := by
  cases l
  cases m
  simp_all

/-- An entry can be told from others and from whatever follows it. -/
theorem nodeRecord_inj {p q : Nat × Tree} {r s : String}
    (h : nodeRecord p.1 p.2 ++ r = nodeRecord q.1 q.2 ++ s) : entry p = entry q ∧ r = s := by
  unfold nodeRecord at h
  simp only [String.append_assoc, String.append_right_inj] at h
  obtain ⟨hdepth, h⟩ := Text.numeral_inj ", kind: " (by decide) h
  obtain ⟨hclass, h⟩ := delimits_symbolClassRecord h
  rw [String.append_right_inj] at h
  obtain ⟨htext, h⟩ := Text.delimits_quoted h
  rw [String.append_right_inj] at h
  obtain ⟨hsymbol, h⟩ := Text.delimits_quoted h
  rw [String.append_right_inj] at h
  obtain ⟨hrank, h⟩ := Text.numeral_inj ", action: " (by decide) h
  obtain ⟨haction, h⟩ := delimits_actionRecord h
  rw [String.append_right_inj] at h
  obtain ⟨htoken, h⟩ := delimits_tokenRecord h
  rw [String.append_right_inj] at h
  obtain ⟨hdegree, hrest⟩ := Text.numeral_inj " \x7d" (by decide) h
  have hlabel : p.2.label = q.2.label :=
    label_eq_of_parts hclass htext hsymbol (UInt32.toNat_inj.1 hrank) haction htoken
  exact ⟨by rw [entry, entry, hdepth, hlabel, hdegree], hrest⟩

/-! ## Lists of entries -/

/-- A list of entries can be told from others when a closing bracket follows it. -/
theorem records_inj {p q : Nat × Tree} {ps qs : List (Nat × Tree)}
    (h : ", ".intercalate ((p :: ps).map fun (d, n) => nodeRecord d n) ++ "]" =
      ", ".intercalate ((q :: qs).map fun (d, n) => nodeRecord d n) ++ "]") :
    (p :: ps).map entry = (q :: qs).map entry := by
  have hbracket : ∀ r : String, "]" ≠ ", " ++ r := by
    intro r heq
    have hlist := congrArg String.toList heq
    simp at hlist
  induction ps generalizing p q qs with
  | nil =>
    cases qs with
    | nil =>
      rw [List.map_singleton, List.map_singleton, String.intercalate_singleton,
        String.intercalate_singleton] at h
      obtain ⟨hentry, -⟩ := nodeRecord_inj h
      rw [List.map_singleton, List.map_singleton, hentry]
    | cons q' qs =>
      rw [List.map_singleton, List.map_cons, List.map_cons, String.intercalate_singleton,
        String.intercalate_cons_cons, String.append_assoc, String.append_assoc] at h
      exact absurd (nodeRecord_inj h).2 (hbracket _)
  | cons p' ps ih =>
    cases qs with
    | nil =>
      rw [List.map_singleton, List.map_cons, List.map_cons, String.intercalate_singleton,
        String.intercalate_cons_cons, String.append_assoc, String.append_assoc] at h
      exact absurd (nodeRecord_inj h).2.symm (hbracket _)
    | cons q' qs =>
      rw [List.map_cons, List.map_cons, List.map_cons, List.map_cons,
        String.intercalate_cons_cons, String.intercalate_cons_cons, String.append_assoc,
        String.append_assoc, String.append_assoc, String.append_assoc] at h
      obtain ⟨hentry, hrest⟩ := nodeRecord_inj h
      rw [List.map_cons, List.map_cons (a := q), hentry,
        ih ((String.append_right_inj _).1 hrest)]

/-- The entries can be read off a record. -/
theorem entries_eq_of_record_eq {s t : Tree} (h : s.record = t.record) : s.entries = t.entries := by
  obtain ⟨l, cs⟩ := s
  obtain ⟨m, ds⟩ := t
  rw [record, record, String.append_assoc, String.append_assoc, String.append_right_inj, walk_eq,
    walk_eq, preorder, preorder] at h
  rw [entries, entries, walk_eq, walk_eq, preorder, preorder]
  exact records_inj h

theorem entries_injective {s t : Tree} (h : s.entries = t.entries) : s = t := by
  apply outline_injective
  rw [outline_eq_entries, outline_eq_entries, h]

/-- **Records lose nothing.** Whatever strings the labels of two trees hold, the trees have the same
record iff they are equal.  A record leaves no choice how to read it: there is one list of entries
that it can stand for, each with a depth, a label and a number of children, and one tree with these
entries, the one that the depths and the labels build. -/
theorem record_loses_nothing (s t : Tree) :
    (s.record = t.record ↔ (s == t) = true) ∧
      (s.record = t.record ↔ s.entries = t.entries) ∧
      (s.entries = t.entries ↔ s = t) ∧
      ofOutline? (t.entries.map fun (d, l, _) => (d, l)) = some t := by
  refine ⟨⟨fun h => ?_, fun h => ?_⟩, ⟨entries_eq_of_record_eq, fun h => ?_⟩,
    ⟨entries_injective, fun h => by rw [h]⟩, ?_⟩
  · rw [beq_iff_eq]
    exact entries_injective (entries_eq_of_record_eq h)
  · rw [beq_iff_eq] at h
    rw [h]
  · rw [entries_injective h]
  · show ofOutline? (t.entries.map fun e => (e.1, e.2.1)) = some t
    rw [← outline_eq_entries, ofOutline?_outline]

end NameScope.Tree
