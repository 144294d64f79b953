import NameScope.Proofs.Reading.Scoping

/-
  What the law of scoping keeps while the nodes of a body go by.  Two facts carry it.  The blocks
  around a node are those around its parent, with the node itself in front iff it is a block
  (`enclosing_concat`); and among the locals that stand in each other's way the first is accepted
  and no other (`Settled`), so that those left out hide nothing.  `Settled` survives a declaration,
  the begin of a fresh block and the end of a block.
-/

namespace NameScope

/-! ## Paths -/

namespace Tree

theorem at?_concat (t : Tree) (path : List Nat) (i : Nat) :
    t.at? (path ++ [i]) = (t.at? path).bind (·.children[i]?) := by
  induction path generalizing t with
  | nil =>
    simp only [List.nil_append, at?, Option.bind_some]
    cases t.children[i]? <;> rfl
  | cons j path ih =>
    simp only [List.cons_append, at?]
    cases t.children[j]? with
    | none => rfl
    | some child => simp only [Option.bind_some, ih]

mutual

/-- The nodes that are met below a path have paths that continue it. -/
theorem prefix_of_mem_met (path : List Nat) : ∀ t : Tree, ∀ n ∈ t.met path, path <+: n.1
  | node l cs, n, h => by
    rw [met] at h
    rcases List.mem_cons.1 h with rfl | h
    · exact List.prefix_refl path
    · split at h
      · cases h
      · obtain ⟨j, -, hj⟩ := prefix_of_mem_metAll path 0 cs n h
        exact (List.prefix_append path [j]).trans hj

theorem prefix_of_mem_metAll (path : List Nat) (i : Nat) :
    ∀ ts : List Tree, ∀ n ∈ metAll path i ts, ∃ j, i ≤ j ∧ path ++ [j] <+: n.1
  | [], _, h => by cases h
  | t :: ts, n, h => by
    rw [metAll] at h
    rcases List.mem_append.1 h with h | h
    · exact ⟨i, Nat.le_refl i, prefix_of_mem_met (path ++ [i]) t n h⟩
    · obtain ⟨j, hj, hp⟩ := prefix_of_mem_metAll path (i + 1) ts n h
      exact ⟨j, by omega, hp⟩

end

end Tree

theorem eq_of_prefix_path {path q : List Nat} {i j : Nat} (hi : path ++ [i] <+: q)
    (hj : path ++ [j] <+: q) : i = j := by
  have h : path ++ [i] <+: path ++ [j] := List.prefix_of_prefix_length_le hi hj (by simp)
  have heq : path ++ [i] = path ++ [j] := h.eq_of_length (by simp)
  simpa using heq

namespace LexicalBody

variable {b : LexicalBody} {path : List Nat}

theorem isBlock_nil (b : LexicalBody) : b.isBlock [] = true := rfl

theorem isBlock_iff {i : Nat} {t : Tree} (h : b.block.at? (path ++ [i]) = some t) :
    b.isBlock (path ++ [i]) = true ↔ t.symbol = "compound_statement" := by
  simp [isBlock, h]

theorem enclosing_nil (b : LexicalBody) : b.enclosing [] = [[]] := by
  simp [enclosing, isBlock_nil]

/-- One step down the tree opens the block at the new node, if there is one. -/
theorem enclosing_concat (b : LexicalBody) (path : List Nat) (i : Nat) :
    b.enclosing (path ++ [i]) =
      if b.isBlock (path ++ [i]) then (path ++ [i]) :: b.enclosing path else b.enclosing path := by
  have hself : (path ++ [i]).take (path.length + 1) = path ++ [i] :=
    List.take_of_length_le (by simp)
  have hrest : (List.range (path.length + 1)).reverse.map (path ++ [i]).take =
      (List.range (path.length + 1)).reverse.map path.take := by
    refine List.map_congr_left ?_
    intro n hn
    have hn : n < path.length + 1 := by simpa using hn
    exact List.take_append_of_le_length (by omega)
  unfold enclosing
  rw [List.length_append, List.length_singleton, List.range_succ, List.reverse_append,
    List.reverse_singleton, List.singleton_append, List.map_cons, hself, hrest, List.filter_cons]

theorem enclosing_of_not_block {i : Nat} {t : Tree} (h : b.block.at? (path ++ [i]) = some t)
    (ht : t.symbol ≠ "compound_statement") : b.enclosing (path ++ [i]) = b.enclosing path := by
  rw [enclosing_concat, if_neg fun hb => ht ((isBlock_iff h).1 hb)]

theorem mem_enclosing_iff {q : List Nat} :
    q ∈ b.enclosing path ↔ q <+: path ∧ b.isBlock q = true := by
  unfold enclosing
  rw [List.mem_filter, List.mem_map]
  constructor
  · rintro ⟨⟨n, -, rfl⟩, hq⟩
    exact ⟨List.take_prefix n path, hq⟩
  · rintro ⟨hp, hq⟩
    have hlen : q.length ≤ path.length := hp.length_le
    refine ⟨⟨q.length, by simp; omega, ?_⟩, hq⟩
    exact (List.prefix_iff_eq_take.1 hp).symm

/-- Each of the blocks on a path lies strictly inside those after it in the list. -/
theorem pairwise_enclosing (b : LexicalBody) (path : List Nat) :
    (b.enclosing path).Pairwise fun inner outer =>
      outer <+: inner ∧ outer.length < inner.length := by
  unfold enclosing
  refine List.Pairwise.filter _ ?_
  rw [List.pairwise_map, List.pairwise_reverse]
  refine List.pairwise_lt_range.imp_of_mem ?_
  intro m n hm hn hlt
  have hn : n < path.length + 1 := by simpa using hn
  refine ⟨List.take_prefix_take_left (by omega), ?_⟩
  simp only [List.length_take]
  omega

theorem nodup_enclosing (b : LexicalBody) (path : List Nat) : (b.enclosing path).Nodup := by
  refine (b.pairwise_enclosing path).imp ?_
  rintro inner outer ⟨-, hlt⟩ rfl
  omega

/-- The outermost block encloses everything, so the list of blocks begins with the holder. -/
theorem enclosing_eq_cons (b : LexicalBody) (path : List Nat) :
    ∃ outer, b.enclosing path = b.holder path :: outer := by
  have hnil : [] ∈ b.enclosing path := mem_enclosing_iff.2 ⟨List.nil_prefix, b.isBlock_nil⟩
  unfold holder
  cases h : b.enclosing path with
  | nil => rw [h] at hnil; cases hnil
  | cons block outer => exact ⟨outer, rfl⟩

theorem holder_mem (b : LexicalBody) (path : List Nat) : b.holder path ∈ b.enclosing path := by
  obtain ⟨outer, h⟩ := b.enclosing_eq_cons path
  rw [h]
  exact List.mem_cons_self

theorem holder_prefix_path (b : LexicalBody) (path : List Nat) : b.holder path <+: path :=
  (mem_enclosing_iff.1 (b.holder_mem path)).1

/-- The holder is the innermost block: every block on the path encloses it. -/
theorem prefix_holder {q : List Nat} (h : q ∈ b.enclosing path) : q <+: b.holder path := by
  obtain ⟨outer, ho⟩ := b.enclosing_eq_cons path
  have hp := b.pairwise_enclosing path
  rw [ho] at h hp
  rcases List.mem_cons.1 h with rfl | h
  · exact List.prefix_refl _
  · exact ((List.pairwise_cons.1 hp).1 q h).1

end LexicalBody

/-! ## Locals -/

namespace Local

variable {locals more : List Local} {name : String} {blocks : List (List Nat)}

theorem first?_eq_none_iff :
    first? locals name blocks = none ↔ ∀ e ∈ locals, e.name = name → e.block ∉ blocks := by
  simp [first?]

theorem first?_eq_some {e : Local} (h : first? locals name blocks = some e) :
    e ∈ locals ∧ e.name = name ∧ e.block ∈ blocks := by
  have hp := List.find?_some h
  refine ⟨List.mem_of_find?_eq_some h, ?_⟩
  simpa using hp

theorem first?_append :
    first? (locals ++ more) name blocks =
      (first? locals name blocks).or (first? more name blocks) := by
  simp [first?, List.find?_append]

theorem first?_congr {blocks' : List (List Nat)}
    (h : ∀ e ∈ locals, e.block ∈ blocks ↔ e.block ∈ blocks') :
    first? locals name blocks = first? locals name blocks' := by
  unfold first?
  induction locals with
  | nil => rfl
  | cons e es ih =>
    have he : decide (e.block ∈ blocks) = decide (e.block ∈ blocks') :=
      decide_eq_decide.2 (h e List.mem_cons_self)
    rw [List.find?_cons, List.find?_cons, he, ih fun x hx => h x (List.mem_cons_of_mem e hx)]

theorem mem_acceptedIn {block : List Nat} {d : Named} :
    d ∈ acceptedIn locals block ↔
      ∃ e ∈ locals, e.accepted = true ∧ e.block = block ∧ e.toNamed = d := by
  simp [acceptedIn, and_assoc]

theorem acceptedIn_concat (locals : List Local) (e : Local) (block : List Nat) :
    acceptedIn (locals ++ [e]) block =
      if e.accepted = true ∧ e.block = block then acceptedIn locals block ++ [e.toNamed]
      else acceptedIn locals block := by
  unfold acceptedIn
  rw [List.filter_append, List.map_append]
  by_cases h : e.accepted = true ∧ e.block = block
  · simp [h]
  · have hb : ¬ (e.accepted && e.block == block) = true := by simpa using h
    simp only [List.filter_cons, if_neg hb, if_neg h, List.filter_nil, List.map_nil,
      List.append_nil]

/-- `later` is `earlier` with more locals at the end, all of which satisfy `P`. -/
def Adds (P : Local → Prop) (earlier later : List Local) : Prop :=
  ∃ more, later = earlier ++ more ∧ ∀ e ∈ more, P e

namespace Adds

variable {P Q : Local → Prop} {l₁ l₂ l₃ : List Local}

theorem refl (P : Local → Prop) (l : List Local) : Adds P l l :=
  ⟨[], (List.append_nil l).symm, by simp⟩

theorem trans (h : Adds P l₁ l₂) (h' : Adds P l₂ l₃) : Adds P l₁ l₃ := by
  obtain ⟨more, rfl, hmore⟩ := h
  obtain ⟨rest, rfl, hrest⟩ := h'
  refine ⟨more ++ rest, List.append_assoc l₁ more rest, ?_⟩
  intro e he
  rcases List.mem_append.1 he with he | he
  · exact hmore e he
  · exact hrest e he

theorem mono (h : Adds P l₁ l₂) (hPQ : ∀ e, P e → Q e) : Adds Q l₁ l₂ := by
  obtain ⟨more, hl, hmore⟩ := h
  refine ⟨more, hl, ?_⟩
  intro e he
  exact hPQ e (hmore e he)

theorem mem (h : Adds P l₁ l₂) {e : Local} (he : e ∈ l₂) : e ∈ l₁ ∨ P e := by
  obtain ⟨more, rfl, hmore⟩ := h
  rcases List.mem_append.1 he with he | he
  · exact Or.inl he
  · exact Or.inr (hmore e he)

end Adds

/-- Of the locals of a name in the given blocks the first is accepted and no other. -/
def FirstAccepted (locals : List Local) (blocks : List (List Nat)) : Prop :=
  ∀ e ∈ locals, e.block ∈ blocks →
    ∃ first, first? locals e.name blocks = some first ∧ first.accepted = true ∧
      (e.accepted = true → e = first)

theorem FirstAccepted.congr {blocks' : List (List Nat)} (h : FirstAccepted locals blocks)
    (hb : ∀ e ∈ locals, e.block ∈ blocks ↔ e.block ∈ blocks') : FirstAccepted locals blocks' := by
  intro e he hblock
  obtain ⟨first, hf, hacc, heq⟩ := h e he ((hb e he).2 hblock)
  refine ⟨first, ?_, hacc, heq⟩
  rw [← first?_congr hb]
  exact hf

/-- Locals of other blocks do not matter. -/
theorem FirstAccepted.append (h : FirstAccepted locals blocks)
    (hmore : ∀ e ∈ more, e.block ∉ blocks) : FirstAccepted (locals ++ more) blocks := by
  intro e he hblock
  rcases List.mem_append.1 he with he | he
  · obtain ⟨first, hf, hacc, heq⟩ := h e he hblock
    refine ⟨first, ?_, hacc, heq⟩
    rw [first?_append, hf]
    rfl
  · exact absurd hblock (hmore e he)

/-- One more local keeps the fact if it is accepted iff it is the first. -/
theorem FirstAccepted.concat (h : FirstAccepted locals blocks) {e : Local}
    (hacc : e.accepted = (first? locals e.name blocks).isNone) :
    FirstAccepted (locals ++ [e]) blocks := by
  intro x hx hblock
  rcases List.mem_append.1 hx with hx | hx
  · obtain ⟨first, hf, hfirst, heq⟩ := h x hx hblock
    refine ⟨first, ?_, hfirst, heq⟩
    rw [first?_append, hf]
    rfl
  · obtain rfl : x = e := List.mem_singleton.1 hx
    rw [first?_append]
    cases hf : first? locals x.name blocks with
    | none =>
      have hself : first? [x] x.name blocks = some x := by simp [first?, hblock]
      have hx : x.accepted = true := by simp [hacc, hf]
      exact ⟨x, by rw [hself]; rfl, hx, fun _ => rfl⟩
    | some first =>
      -- The newcomer is refused, and the first of its name was accepted when it came.
      obtain ⟨hmem, hname, hin⟩ := first?_eq_some hf
      obtain ⟨first', hf', hfirst, -⟩ := h first hmem hin
      rw [hname, hf] at hf'
      obtain rfl : first = first' := by simpa using hf'
      refine ⟨first, rfl, hfirst, ?_⟩
      intro hx
      simp [hacc, hf] at hx

/-- The accepted locals of some blocks, innermost first, know each name by its first local. -/
theorem FirstAccepted.find?_acceptedIn (h : FirstAccepted locals blocks) (name : String) :
    (blocks.flatMap (acceptedIn locals)).find? (·.name = name) =
      (first? locals name blocks).map (·.toNamed) := by
  have hfound : ∀ d, (blocks.flatMap (acceptedIn locals)).find? (·.name = name) = some d →
      ∃ first, first? locals name blocks = some first ∧ first.toNamed = d := by
    intro d hd
    obtain ⟨block, hblock, hmem⟩ := List.mem_flatMap.1 (List.mem_of_find?_eq_some hd)
    obtain ⟨e, he, hacc, rfl, rfl⟩ := mem_acceptedIn.1 hmem
    obtain ⟨first, hf, -, heq⟩ := h e he hblock
    have hname : e.name = name := by simpa using List.find?_some hd
    exact ⟨first, hname ▸ hf, by rw [heq hacc]⟩
  cases hd : (blocks.flatMap (acceptedIn locals)).find? (·.name = name) with
  | some d =>
    obtain ⟨first, hf, rfl⟩ := hfound d hd
    rw [hf]
    rfl
  | none =>
    cases hf : first? locals name blocks with
    | none => rfl
    | some first =>
      obtain ⟨hmem, hname, hin⟩ := first?_eq_some hf
      obtain ⟨first', hf', hacc, -⟩ := h first hmem hin
      rw [hname, hf] at hf'
      obtain rfl : first = first' := by simpa using hf'
      have hmem' : first.toNamed ∈ blocks.flatMap (acceptedIn locals) :=
        List.mem_flatMap.2 ⟨_, hin, mem_acceptedIn.2 ⟨first, hmem, hacc, rfl, rfl⟩⟩
      have hne := List.find?_eq_none.1 hd _ hmem'
      exact absurd (by simpa using hname) hne

end Local

/-! ## Locals that stand in each other's way -/

namespace RedeclarationRule

variable {rule : RedeclarationRule} {blocks : List (List Nat)} {block : List Nat}

theorem mem_reach_self (rule : RedeclarationRule) (h : block ∈ blocks) :
    block ∈ rule.reach blocks block := by
  cases rule with
  | visible => exact h
  | sameBlock => exact List.mem_singleton_self block

theorem reach_subset (h : block ∈ blocks) : ∀ q ∈ rule.reach blocks block, q ∈ blocks := by
  intro q hq
  cases rule with
  | visible => exact hq
  | sameBlock =>
    obtain rfl : q = block := List.mem_singleton.1 hq
    exact h

/-- Blocks that reach each other reach the same blocks. -/
theorem reach_eq {q : List Nat} (h : q ∈ rule.reach blocks block) :
    rule.reach blocks block = rule.reach blocks q := by
  cases rule with
  | visible => rfl
  | sameBlock =>
    obtain rfl : q = block := List.mem_singleton.1 h
    rfl

end RedeclarationRule

open Local

/-- Of the locals of a name that stand in each other's way in some open block, the first is
accepted and no other. -/
def Settled (rule : RedeclarationRule) (blocks : List (List Nat)) (locals : List Local) : Prop :=
  ∀ block ∈ blocks, FirstAccepted locals (rule.reach blocks block)

namespace Settled

variable {rule : RedeclarationRule} {blocks : List (List Nat)} {locals : List Local}

theorem nil (rule : RedeclarationRule) (blocks : List (List Nat)) : Settled rule blocks [] :=
  fun _ _ _ h => by cases h

/-- A declaration keeps it. -/
theorem note {b : LexicalBody} {path : List Nat} (h : Settled b.rule (b.enclosing path) locals)
    (d : Named) : Settled b.rule (b.enclosing path) (b.note locals path d) := by
  unfold LexicalBody.note
  split
  · exact h
  · intro block hblock
    by_cases hin : b.holder path ∈ b.rule.reach (b.enclosing path) block
    · refine (h block hblock).concat ?_
      rw [RedeclarationRule.reach_eq hin]
      rfl
    · refine (h block hblock).append ?_
      intro e he
      obtain rfl := List.mem_singleton.1 he
      exact hin

/-- A block in which nothing has been declared may begin. -/
theorem enter (h : Settled rule blocks locals) (hne : blocks ≠ []) {block : List Nat}
    (hfresh : ∀ e ∈ locals, e.block ≠ block) : Settled rule (block :: blocks) locals := by
  intro q hq
  cases rule with
  | visible =>
    obtain ⟨outer, houter⟩ := List.exists_mem_of_ne_nil blocks hne
    refine (h outer houter).congr ?_
    intro e he
    have hmem : e.block ∈ block :: blocks ↔ e.block ∈ blocks := by simp [hfresh e he]
    exact hmem.symm
  | sameBlock =>
    rcases List.mem_cons.1 hq with rfl | hq
    · intro e he hblock
      exact absurd (List.mem_singleton.1 hblock) (hfresh e he)
    · exact h q hq

/-- After the end of a block only what was declared outside of it counts. -/
theorem adds {later : List Local} (h : Settled rule blocks locals)
    (hl : Adds (·.block ∉ blocks) locals later) : Settled rule blocks later := by
  obtain ⟨more, rfl, hmore⟩ := hl
  intro block hblock
  refine (h block hblock).append ?_
  intro e he hin
  exact hmore e he (RedeclarationRule.reach_subset hblock _ hin)

/-- Refused locals do not matter to look-up: a name that is in scope has been accepted in some
open block. -/
theorem isSome_find?_acceptedIn (h : Settled rule blocks locals) (name : String) :
    ((blocks.flatMap (acceptedIn locals)).find? (·.name = name)).isSome =
      (first? locals name blocks).isSome := by
  rw [Bool.eq_iff_iff, List.find?_isSome, Option.isSome_iff_exists]
  constructor
  · rintro ⟨d, hd, hname⟩
    obtain ⟨block, hblock, hmem⟩ := List.mem_flatMap.1 hd
    obtain ⟨e, he, -, rfl, rfl⟩ := mem_acceptedIn.1 hmem
    refine Option.ne_none_iff_exists'.1 ?_
    intro hnone
    exact first?_eq_none_iff.1 hnone e he (by simpa using hname) hblock
  · rintro ⟨e, he⟩
    obtain ⟨hmem, hname, hin⟩ := first?_eq_some he
    have hreach := RedeclarationRule.mem_reach_self rule hin
    obtain ⟨first, hf, hacc, -⟩ := h e.block hin e hmem hreach
    obtain ⟨hmem', hname', hin'⟩ := first?_eq_some hf
    refine ⟨first.toNamed, List.mem_flatMap.2 ⟨first.block, ?_, ?_⟩, ?_⟩
    · exact RedeclarationRule.reach_subset hin _ hin'
    · exact mem_acceptedIn.2 ⟨first, hmem', hacc, rfl, rfl⟩
    · simpa using hname'.trans hname

end Settled

/-! ## Nodes one after another -/

namespace LexicalBody

variable {b : LexicalBody}

theorem locals_append (earlier : List Local) (ns ms : List (List Nat × Tree)) :
    b.locals earlier (ns ++ ms) = b.locals (b.locals earlier ns) ms := by
  induction ns generalizing earlier with
  | nil => rfl
  | cons n ns ih => exact ih _

theorem reports_append (earlier : List Local) (ns ms : List (List Nat × Tree)) :
    b.reports earlier (ns ++ ms) = b.reports earlier ns ++ b.reports (b.locals earlier ns) ms := by
  induction ns generalizing earlier with
  | nil => rfl
  | cons n ns ih =>
    simp only [List.cons_append, reports, locals, ih, List.append_assoc]

theorem note_adds (b : LexicalBody) (earlier : List Local) (path : List Nat) (d : Named) :
    Adds (·.block = b.holder path) earlier (b.note earlier path d) := by
  unfold note
  split
  · exact Adds.refl _ earlier
  · exact ⟨_, rfl, by simp⟩

theorem noteAll_adds (b : LexicalBody) (path : List Nat) (earlier : List Local)
    (ds : List Named) : Adds (·.block = b.holder path) earlier (b.noteAll path earlier ds) := by
  induction ds generalizing earlier with
  | nil => exact Adds.refl _ earlier
  | cons d ds ih => exact (b.note_adds earlier path d).trans (ih _)

/-- Nodes only add locals, each held by the block around its node. -/
theorem locals_adds (b : LexicalBody) (earlier : List Local) (ns : List (List Nat × Tree)) :
    Adds (fun e => ∃ n ∈ ns, e.block = b.holder n.1) earlier (b.locals earlier ns) := by
  induction ns generalizing earlier with
  | nil => exact Adds.refl _ earlier
  | cons n ns ih =>
    obtain ⟨path, t⟩ := n
    have hnode : Adds (·.block = b.holder path) earlier (b.noteNode earlier path t) := by
      unfold noteNode
      split
      · exact b.note_adds earlier path t.declared
      · exact Adds.refl _ earlier
    refine (hnode.mono ?_).trans ((ih _).mono ?_)
    · intro e he
      exact ⟨(path, t), List.mem_cons_self, he⟩
    · rintro e ⟨n, hn, he⟩
      exact ⟨n, List.mem_cons_of_mem _ hn, he⟩

/-- No local lies in the block at `path` or further inside. -/
def Fresh (locals : List Local) (path : List Nat) : Prop := ∀ e ∈ locals, ¬ path <+: e.block

/-- Parameters lie in the outermost block, and in none inside of it. -/
theorem fresh_paramLocals (b : LexicalBody) (j : Nat) : Fresh b.paramLocals ([] ++ [j]) := by
  have hholder : b.holder [] = [] := List.prefix_nil.1 (b.holder_prefix_path [])
  intro e he hp
  rcases (b.noteAll_adds [] [] b.params).mem he with he | he
  · cases he
  · rw [he, hholder] at hp
    have hlen : [j].length ≤ 0 := hp.length_le
    cases hlen

theorem Fresh.concat {locals : List Local} {path : List Nat} (h : Fresh locals path) (i : Nat) :
    Fresh locals (path ++ [i]) := by
  intro e he hp
  exact h e he ((List.prefix_append path [i]).trans hp)

/-- What a child declares lies in no block of a later child. -/
theorem Fresh.met {locals : List Local} {path : List Nat} {i j : Nat}
    (h : Fresh locals (path ++ [j])) (hlt : i < j) (t : Tree) :
    Fresh (b.locals locals (t.met (path ++ [i]))) (path ++ [j]) := by
  intro e he hp
  rcases (b.locals_adds locals (t.met (path ++ [i]))).mem he with he | ⟨n, hn, hb⟩
  · exact h e he hp
  · have hi : path ++ [i] <+: n.1 := Tree.prefix_of_mem_met _ t n hn
    have hj : path ++ [j] <+: n.1 := hp.trans (hb ▸ b.holder_prefix_path n.1)
    have heq : i = j := eq_of_prefix_path hi hj
    omega

/-- What is declared inside a nested block lies in none of the blocks around it. -/
theorem locals_metAll_adds {path : List Nat} {i : Nat} (hblock : b.isBlock (path ++ [i]) = true)
    (earlier : List Local) (ts : List Tree) :
    Adds (·.block ∉ b.enclosing path) earlier
      (b.locals earlier (Tree.metAll (path ++ [i]) 0 ts)) := by
  refine (b.locals_adds earlier _).mono ?_
  rintro e ⟨n, hn, hb⟩ hmem
  obtain ⟨j, -, hj⟩ := Tree.prefix_of_mem_metAll (path ++ [i]) 0 ts n hn
  have hself : path ++ [i] ∈ b.enclosing n.1 :=
    mem_enclosing_iff.2 ⟨(List.prefix_append _ [j]).trans hj, hblock⟩
  have hin : (path ++ [i]).length ≤ (b.holder n.1).length := (prefix_holder hself).length_le
  have hout : e.block.length ≤ path.length := (mem_enclosing_iff.1 hmem).1.length_le
  rw [List.length_append, List.length_singleton] at hin
  rw [hb] at hout
  omega

end LexicalBody

end NameScope
