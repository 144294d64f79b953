import NameScope.Proofs.Reading.Stopped
import NameScope.Proofs.Session.Past

/-
  Function bodies are isolated from one another.  Two units are read that differ in one function
  only, and there in its parameters and its body.  `readUnit_isolates_bodies`: whatever the two
  bodies are, every other child is read in the same way, with the same declaration and the same
  reports, suggestions included, and both units end with the same global names and tags.

  A function that has been read leaves its name, one declaration and some reports
  (`readFunction_leaves`).  Declarations and reports belong to the past of a session, which no later
  reading looks at (`readChildren_since`), and the name is the same in both units.
-/

namespace NameScope

variable {types : BuiltinTypes}

/-! ## Reading and the past -/

variable (ds : List Decl) (rs : List Diagnostic)

namespace OpenFunction

mutual

theorem readStatement_since : ∀ (t : Tree) (f : OpenFunction),
    (f.since ds rs).readStatement types t =
      ((f.readStatement types t).1.since ds rs, (f.readStatement types t).2)
  | .node l cs, f => by
    by_cases hd : l.symbol = "declaration"
    · rw [readStatement_declaration hd, readStatement_declaration hd]
      cases (Tree.node l cs).declaredVariable types with
      | ok v => exact congrArg (·, Except.ok ()) (declare_since ds rs f v none)
      | error fault => rfl
    · by_cases hc : l.symbol = "compound_statement"
      · have hinside := readStatements_since cs f.enter
        have henter : (f.since ds rs).enter = f.enter.since ds rs := rfl
        rw [readStatement_block hc, readStatement_block hc, henter, hinside]
        cases f.enter.readStatements types cs with
        | mk g result =>
          cases result with
          | error fault => rfl
          | ok _ =>
            simp only [exit_since]
            cases g.exit with
            | error fault => rfl
            | ok r => rfl
      · by_cases hi : l.symbol = "identifier"
        · rw [readStatement_identifier hi, readStatement_identifier hi, resolve_since]
          split
          · rfl
          · rfl
        · rw [readStatement_wrapper hd hc hi, readStatement_wrapper hd hc hi]
          exact readStatements_since cs f

theorem readStatements_since : ∀ (ts : List Tree) (f : OpenFunction),
    (f.since ds rs).readStatements types ts =
      ((f.readStatements types ts).1.since ds rs, (f.readStatements types ts).2)
  | [], f => rfl
  | t :: ts, f => by
    rw [readStatements, readStatements, readStatement_since t f]
    cases f.readStatement types t with
    | mk g result =>
      cases result with
      | error fault => rfl
      | ok _ => exact readStatements_since ts g

end

theorem readBody_since (f : OpenFunction) (t : Tree) :
    (f.since ds rs).readBody types t =
      ((f.readBody types t).1.since ds rs, (f.readBody types t).2) :=
  readStatements_since ds rs _ f

end OpenFunction

namespace Session

theorem readFunction_since (s : Session) (t : Tree) :
    (s.since ds rs).readFunction types t =
      ((s.readFunction types t).1.since ds rs, (s.readFunction types t).2) := by
  unfold readFunction
  cases t.declaredFunc types with
  | error fault => rfl
  | ok func =>
    dsimp only
    rw [openFunction_since, OpenFunction.readBody_since]
    cases (s.openFunction func).readBody types t with
    | mk f result =>
      cases result with
      | error fault => exact congrArg (·, Except.error fault) (OpenFunction.abandon_since ds rs f)
      | ok _ =>
        have hclose := congrArg Prod.snd (OpenFunction.close_since ds rs f)
        exact congrArg (·, Except.ok ()) hclose

theorem readChild_since (s : Session) (t : Tree) :
    (s.since ds rs).readChild types t =
      ((s.readChild types t).1.since ds rs, (s.readChild types t).2) := by
  unfold readChild
  split
  · cases t.declaredVariable types with
    | error fault => rfl
    | ok v => exact congrArg (·, Except.ok ()) (declare_since ds rs s _ none)
  · rw [readFunction_since]
    cases s.readFunction types t with
    | mk s' result =>
      cases result with
      | error fault => rfl
      | ok _ => rfl
  · exact congrArg (·, Except.ok ()) (declare_since ds rs s _ none)
  · exact congrArg (·, Except.ok ()) (declare_since ds rs s _ none)
  · exact congrArg (·, Except.ok ()) (declare_since ds rs s _ none)
  · rfl

theorem readChildren_since (s : Session) (ts : List Tree) :
    (s.since ds rs).readChildren types ts =
      ((s.readChildren types ts).1.since ds rs, (s.readChildren types ts).2) := by
  induction ts generalizing s with
  | nil => rfl
  | cons t ts ih =>
    rw [readChildren, readChildren, readChild_since]
    cases s.readChild types t with
    | mk s' result =>
      cases result with
      | error fault => rfl
      | ok _ => exact ih s'

/-- The session without its past. -/
def present (s : Session) : Session :=
  { s with unit := { s.unit with decls := [] }, diagnostics := [] }

/-- Reading adds to the past, and takes everything else from the present. -/
theorem readChildren_eq_since (s : Session) (ts : List Tree) :
    s.readChildren types ts =
      ((s.present.readChildren types ts).1.since s.unit.decls s.diagnostics,
        (s.present.readChildren types ts).2) := by
  rw [← readChildren_since]
  have hs : s.present.since s.unit.decls s.diagnostics = s := by
    simp only [present, since, List.append_nil]
  rw [hs]

end Session

/-! ## What a function leaves -/

theorem Tree.declaredValue_congr {t t' : Tree} (hdeclared : t'.declared = t.declared)
    (htype : t'.specifiedType types = t.specifiedType types) :
    t'.declaredValue types = t.declaredValue types := by
  rw [declaredValue, declaredValue, hdeclared, htype]

namespace Session

/-- A function that can be read leaves what binding its name leaves, with more reports, and one
declaration of its own. -/
theorem readFunction_leaves {s : Session} {t : Tree} (h : (s.readFunction types t).2 = .ok ()) :
    ∃ value func g, t.declaredValue types = .ok value ∧
      (s.bindGlobal value.name ⟨value.type, value.pos⟩).Extends g ∧
        (s.readFunction types t).1 = g.addDecl (.func func) := by
  unfold readFunction at h ⊢
  cases hfunc : t.declaredFunc types with
  | error fault => rw [hfunc] at h; cases h
  | ok func =>
    simp only [hfunc] at h ⊢
    have hkeeps := (openFunction_keeps s func none).trans
      (OpenFunction.keeps_readBody types (s.openFunction func) t)
    cases hbody : (s.openFunction func).readBody types t with
    | mk f result =>
      rw [hbody] at h hkeeps
      cases result with
      | error fault => cases h
      | ok _ =>
        exact ⟨func.toValued, (f.setBlocks f.blocks.closeAll).func, f.session,
          (Tree.declaredFunc_ok hfunc).1, hkeeps.session, rfl⟩

end Session

/-! ## Units that differ in one child -/

/-- The tree with another child at position `i`. -/
def Tree.withChild (t : Tree) (i : Nat) (child : Tree) : Tree :=
  node t.label (t.children.set i child)

theorem Tree.firstChildren_withChild {i k : Nat} (h : k ≤ i) (t child : Tree) :
    (t.withChild i child).firstChildren k = t.firstChildren k := by
  show node t.label ((t.children.set i child).take k) = node t.label (t.children.take k)
  rw [List.take_set_of_le h]

theorem Tree.drop_children_withChild {i k : Nat} (h : i < k) (t child : Tree) :
    (t.withChild i child).children.drop k = t.children.drop k :=
  List.drop_set_of_lt h

namespace Session

/-- The declarations that reading child `k` of a unit adds. -/
def declsOn (s : Session) (types : BuiltinTypes) (t : Tree) (k : Nat) : List Decl :=
  (s.readUnit types (t.firstChildren (k + 1))).1.unit.decls.drop
    (s.readUnit types (t.firstChildren k)).1.unit.decls.length

/-- The reports that reading child `k` of a unit adds. -/
def reportsOn (s : Session) (types : BuiltinTypes) (t : Tree) (k : Nat) : List Diagnostic :=
  (s.readUnit types (t.firstChildren (k + 1))).1.diagnostics.drop
    (s.readUnit types (t.firstChildren k)).1.diagnostics.length

theorem symbol_of_readUnit_ok {s : Session} {u : Tree} (hok : (s.readUnit types u).2 = .ok ()) :
    u.symbol = "translation_unit" := by
  by_contra hne
  rw [readUnit, if_neg hne] at hok
  cases hok

theorem readUnit_firstChildren {u : Tree} (hu : u.symbol = "translation_unit") (s : Session)
    (m : Nat) : s.readUnit types (u.firstChildren m) = s.readChildren types (u.children.take m) :=
  readUnit_of_symbol (t := u.firstChildren m) hu s

/-- Once some children have been read, the next ones are read in the present that these leave. -/
theorem readUnit_firstChildren_add {s : Session} {u : Tree} (hu : u.symbol = "translation_unit")
    {m : Nat} (hok : (s.readUnit types (u.firstChildren m)).2 = .ok ()) (k : Nat) :
    (s.readUnit types (u.firstChildren (m + k))).1 =
      ((s.readUnit types (u.firstChildren m)).1.present.readChildren types
        ((u.children.drop m).take k)).1.since
        (s.readUnit types (u.firstChildren m)).1.unit.decls
        (s.readUnit types (u.firstChildren m)).1.diagnostics := by
  rw [readUnit_firstChildren hu] at hok
  rw [readUnit_firstChildren hu, readUnit_firstChildren hu, List.take_add,
    readChildren_append hok, readChildren_eq_since]

theorem readUnit_firstChildren_of_le {u : Tree} {m : Nat} (h : u.children.length ≤ m)
    (s : Session) : s.readUnit types (u.firstChildren m) = s.readUnit types u := by
  rw [Tree.firstChildren, List.take_of_length_le h]
  cases u
  rfl

/-- A function among the children adds its own declaration, and leaves to the children after it what
binding its name leaves. -/
theorem readUnit_function {s : Session} {u t : Tree} {i : Nat}
    (hu : u.symbol = "translation_unit") (ht : u.children[i]? = some t)
    (hfunc : t.symbol = "function_definition") (hok : (s.readUnit types u).2 = .ok ()) :
    (s.readUnit types (u.firstChildren (i + 1))).2 = .ok () ∧
      ∃ value func, t.declaredValue types = .ok value ∧
        (s.readUnit types (u.firstChildren (i + 1))).1.present =
          ((s.readUnit types (u.firstChildren i)).1.bindGlobal value.name
            ⟨value.type, value.pos⟩).present ∧
        (s.readUnit types (u.firstChildren (i + 1))).1.unit.decls =
          (s.readUnit types (u.firstChildren i)).1.unit.decls ++ [.func func] ∧
        s.declsOn types u i = [.func func] ∧
        (s.readUnit types (u.firstChildren (i + 1))).1.diagnostics =
          (s.readUnit types (u.firstChildren i)).1.diagnostics ++ s.reportsOn types u i := by
  rw [readUnit_of_symbol hu] at hok
  obtain ⟨hnext, hstep, -⟩ := readChildren_split hok ht
  rw [← readUnit_firstChildren hu] at hnext hstep
  rw [← readUnit_firstChildren hu] at hstep
  have hchild : ((s.readUnit types (u.firstChildren i)).1.readChildren types [t]).2 = .ok () := by
    rw [← hstep]
    exact hnext
  obtain ⟨hread, hsame⟩ := readChildren_function hfunc hchild
  obtain ⟨value, func, g, hvalue, hext, hleaves⟩ := readFunction_leaves hread
  have hg : (s.readUnit types (u.firstChildren (i + 1))).1 = g.addDecl (.func func) := by
    rw [hstep, hsame, hleaves]
  obtain ⟨reports, hreports⟩ :=
    ((later_bindGlobal _ value.name ⟨value.type, value.pos⟩).trans hext.later).diagnostics
  have hdecls : (s.readUnit types (u.firstChildren (i + 1))).1.unit.decls =
      (s.readUnit types (u.firstChildren i)).1.unit.decls ++ [.func func] := by
    have hkept := decls_bindGlobal (s.readUnit types (u.firstChildren i)).1 value.name
      ⟨value.type, value.pos⟩
    rw [hg, ← hkept, ← hext.unit_eq]
    rfl
  refine ⟨hnext, value, func, hvalue, ?_, hdecls, ?_, ?_⟩
  · obtain ⟨more, rfl⟩ := hext
    rw [hg]
    rfl
  · rw [declsOn, hdecls, List.drop_left]
  · have hdiag : (s.readUnit types (u.firstChildren (i + 1))).1.diagnostics = g.diagnostics := by
      rw [hg]
      rfl
    rw [reportsOn, hdiag, ← hreports, List.drop_left]

/-- What a child adds is seen whatever the past is. -/
theorem added_since {s w w' : Session} {u : Tree} {k : Nat} {ds : List Decl}
    {rs : List Diagnostic} (h : (s.readUnit types (u.firstChildren k)).1 = w.since ds rs)
    (h' : (s.readUnit types (u.firstChildren (k + 1))).1 = w'.since ds rs) :
    s.declsOn types u k = w'.unit.decls.drop w.unit.decls.length ∧
      s.reportsOn types u k = w'.diagnostics.drop w.diagnostics.length := by
  have hdecls : ∀ v : Session, (v.since ds rs).unit.decls = ds ++ v.unit.decls := fun _ => rfl
  have hreports : ∀ v : Session, (v.since ds rs).diagnostics = rs ++ v.diagnostics := fun _ => rfl
  constructor
  · rw [declsOn, h, h', hdecls, hdecls, List.length_append, List.drop_length_add_append]
  · rw [reportsOn, h, h', hreports, hreports, List.length_append, List.drop_length_add_append]

/-- Let the first `m` children of two units leave the same present, and let the other children be
the same. Then the units end alike but for what the first `m` children have added to the past, and
every later child adds the same. -/
theorem alike_of_present {s : Session} {u u' : Tree} {m : Nat}
    (hu : u.symbol = "translation_unit") (hu' : u'.symbol = "translation_unit")
    (hok : (s.readUnit types (u.firstChildren m)).2 = .ok ())
    (hok' : (s.readUnit types (u'.firstChildren m)).2 = .ok ())
    (hpresent : (s.readUnit types (u'.firstChildren m)).1.present =
      (s.readUnit types (u.firstChildren m)).1.present)
    (hrest : u'.children.drop m = u.children.drop m) :
    (∃ w : Session,
      (s.readUnit types u).1 =
          w.since (s.readUnit types (u.firstChildren m)).1.unit.decls
            (s.readUnit types (u.firstChildren m)).1.diagnostics ∧
        (s.readUnit types u').1 =
          w.since (s.readUnit types (u'.firstChildren m)).1.unit.decls
            (s.readUnit types (u'.firstChildren m)).1.diagnostics) ∧
      ∀ j, m ≤ j → s.declsOn types u' j = s.declsOn types u j ∧
        s.reportsOn types u' j = s.reportsOn types u j := by
  have hlater : ∀ k, ∃ w : Session,
      (s.readUnit types (u.firstChildren (m + k))).1 =
          w.since (s.readUnit types (u.firstChildren m)).1.unit.decls
            (s.readUnit types (u.firstChildren m)).1.diagnostics ∧
        (s.readUnit types (u'.firstChildren (m + k))).1 =
          w.since (s.readUnit types (u'.firstChildren m)).1.unit.decls
            (s.readUnit types (u'.firstChildren m)).1.diagnostics := by
    intro k
    refine ⟨_, readUnit_firstChildren_add hu hok k, ?_⟩
    rw [readUnit_firstChildren_add hu' hok' k, hpresent, hrest]
  constructor
  · -- A whole unit is its first children, if more of them are taken than there are.
    obtain ⟨w, hw, hw'⟩ := hlater (u.children.length + u'.children.length)
    rw [readUnit_firstChildren_of_le (by omega)] at hw hw'
    exact ⟨w, hw, hw'⟩
  · intro j hj
    obtain ⟨w, hw, hw'⟩ := hlater (j - m)
    obtain ⟨v, hv, hv'⟩ := hlater (j - m + 1)
    rw [← Nat.add_assoc] at hv hv'
    rw [Nat.add_sub_cancel' hj] at hw hw' hv hv'
    have hadded := added_since hw hv
    have hadded' := added_since hw' hv'
    exact ⟨hadded'.1.trans hadded.1.symm, hadded'.2.trans hadded.2.symm⟩

/-- A child before the other one is read as it was. -/
theorem added_withChild_of_lt {i j : Nat} (h : j < i) (s : Session) (u child : Tree) :
    s.declsOn types (u.withChild i child) j = s.declsOn types u j ∧
      s.reportsOn types (u.withChild i child) j = s.reportsOn types u j := by
  have hbefore := Tree.firstChildren_withChild (Nat.le_of_lt h) u child
  have hnext := Tree.firstChildren_withChild (Nat.succ_le_of_lt h) u child
  unfold declsOn reportsOn
  rw [hbefore, hnext]
  exact ⟨rfl, rfl⟩

/-- **Bodies are isolated.** Let two units that can be read differ in one child only, a function in
both with the same name, place and type, and with any parameters and any body. Then reading them
from the same session and with the same types gives the same global names with their order, places
and types, the same tags and the same statements; the declarations differ in the one function, and
the reports in those on it; and every other child adds the same declarations and the same
reports. -/
theorem readUnit_isolates_bodies (s : Session) {u t t' : Tree} {i : Nat}
    (ht : u.children[i]? = some t) (hfunc : t.symbol = "function_definition")
    (hfunc' : t'.symbol = "function_definition") (hdeclared : t'.declared = t.declared)
    (htype : t'.specifiedType types = t.specifiedType types) (hok : (s.readUnit types u).2 = .ok ())
    (hok' : (s.readUnit types (u.withChild i t')).2 = .ok ()) :
    let u' := u.withChild i t'
    let before := (s.readUnit types (u.firstChildren i)).1
    let r := (s.readUnit types u).1
    let r' := (s.readUnit types u').1
    r'.unit.table = r.unit.table ∧ r'.tags = r.tags ∧ r'.unit.stmts = r.unit.stmts ∧
      r'.options = r.options ∧
      (∃ func func' later, s.declsOn types u i = [.func func] ∧
        s.declsOn types u' i = [.func func'] ∧
        r.unit.decls = before.unit.decls ++ .func func :: later ∧
        r'.unit.decls = before.unit.decls ++ .func func' :: later) ∧
      (∃ later, r.diagnostics = before.diagnostics ++ s.reportsOn types u i ++ later ∧
        r'.diagnostics = before.diagnostics ++ s.reportsOn types u' i ++ later) ∧
      ∀ j, j ≠ i → s.declsOn types u' j = s.declsOn types u j ∧
        s.reportsOn types u' j = s.reportsOn types u j := by
  intro u' before r r'
  have hu : u.symbol = "translation_unit" := symbol_of_readUnit_ok hok
  have hu' : u'.symbol = "translation_unit" := symbol_of_readUnit_ok hok'
  have hlt : i < u.children.length := (List.getElem?_eq_some_iff.1 ht).1
  have ht' : u'.children[i]? = some t' := List.getElem?_set_self hlt
  have hbefore : s.readUnit types (u'.firstChildren i) = s.readUnit types (u.firstChildren i) := by
    rw [Tree.firstChildren_withChild (Nat.le_refl i)]
  obtain ⟨hnext, value, func, hvalue, hpresent, hdecls, hown, hreports⟩ :=
    readUnit_function hu ht hfunc hok
  obtain ⟨hnext', value', func', hvalue', hpresent', hdecls', hown', hreports'⟩ :=
    readUnit_function hu' ht' hfunc' hok'
  have hsame : value' = value := by
    rw [Tree.declaredValue_congr hdeclared htype, hvalue] at hvalue'
    exact (Except.ok.inj hvalue').symm
  have hleft : (s.readUnit types (u'.firstChildren (i + 1))).1.present =
      (s.readUnit types (u.firstChildren (i + 1))).1.present := by
    rw [hpresent, hpresent', hbefore, hsame]
  rw [hbefore] at hdecls' hreports'
  obtain ⟨⟨w, hr, hr'⟩, hlater⟩ := alike_of_present hu hu' hnext hnext' hleft
    (u.drop_children_withChild (Nat.lt_succ_self i) t')
  rw [hdecls, hreports] at hr
  rw [hdecls', hreports'] at hr'
  have hpresents : r'.present = r.present :=
    (congrArg present hr').trans (congrArg present hr).symm
  refine ⟨congrArg (·.unit.table) hpresents, congrArg (·.tags) hpresents,
    congrArg (·.unit.stmts) hpresents, congrArg (·.options) hpresents,
    ⟨func, func', w.unit.decls, hown, hown', ?_, ?_⟩,
    ⟨w.diagnostics, congrArg (·.diagnostics) hr, congrArg (·.diagnostics) hr'⟩, ?_⟩
  · exact (congrArg (·.unit.decls) hr).trans (List.append_assoc _ _ _)
  · exact (congrArg (·.unit.decls) hr').trans (List.append_assoc _ _ _)
  · intro j hj
    rcases Nat.lt_or_gt_of_ne hj with hlt' | hgt
    · exact added_withChild_of_lt hlt' s u t'
    · exact hlater j hgt

/-- In one unit the body of `main` misspells its parameter, in the other it declares a local; `next`
is told of neither, and gets the same suggestions. -/
theorem readUnit_isolates_bodies_misspelled :
    let main (params body : List Tree) : Tree :=
      (Tree.function "int" "main" ⟨2, 1⟩ params body).modifyLabel fun l => { l with rank := 1 }
    let t : Tree := main [.declaration "int" "count" ⟨2, 1⟩] [.token "identifier" "coun" ⟨3, 5⟩]
    let t' : Tree := main [] [.declaration "int" "coin" ⟨3, 1⟩]
    let next : Tree := .function "int" "next" ⟨6, 1⟩ [] [.token "identifier" "coun" ⟨7, 5⟩]
    let u : Tree := .unit [.declaration "int" "cost" ⟨1, 1⟩, t, next]
    let u' : Tree := u.withChild 1 t'
    let types : BuiltinTypes := .numbered
    let s : Session := {}
    u.children[1]? = some t ∧ t.symbol = "function_definition" ∧
      t'.symbol = "function_definition" ∧ t'.declared = t.declared ∧
      t'.specifiedType types = t.specifiedType types ∧ (s.readUnit types u).2 = .ok () ∧
      (s.readUnit types u').2 = .ok () ∧
      (s.reportsOn types u 1).map (·.position?) = [some ⟨3, 5⟩] ∧
      s.reportsOn types u' 1 = [] ∧
      (s.reportsOn types u 2).map (·.position?) = [some ⟨7, 5⟩] ∧
      s.reportsOn types u' 2 = s.reportsOn types u 2 ∧
      (s.readUnit types u').1.unit.table = (s.readUnit types u).1.unit.table := by
  intro main t t' next u u' types s
  have ht : u.children[1]? = some t := rfl
  have hfunc : t.symbol = "function_definition" := rfl
  have hfunc' : t'.symbol = "function_definition" := rfl
  have hdeclared : t'.declared = t.declared := rfl
  have htype : t'.specifiedType types = t.specifiedType types := rfl
  have hok : (s.readUnit types u).2 = .ok () := rfl
  have hok' : (s.readUnit types u').2 = .ok () := rfl
  have hown : (s.reportsOn types u 1).map (·.position?) = [some ⟨3, 5⟩] := by decide +kernel
  have hown' : s.reportsOn types u' 1 = [] := by decide +kernel
  have hnext : (s.reportsOn types u 2).map (·.position?) = [some ⟨7, 5⟩] := by decide +kernel
  have h := readUnit_isolates_bodies s ht hfunc hfunc' hdeclared htype hok hok'
  obtain ⟨htable, -, -, -, -, -, hothers⟩ := h
  exact ⟨ht, hfunc, hfunc', hdeclared, htype, hok, hok', hown, hown', hnext,
    (hothers 2 (by decide)).2, htable⟩

end Session

end NameScope
