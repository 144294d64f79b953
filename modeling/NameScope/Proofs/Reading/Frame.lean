import NameScope.Proofs.Session.Frame
import NameScope.Session.Reading

/-
  What reading leaves alone.  Whatever a tree is, and whether or not it can be read to its end,
  reading it takes back no report and changes no option (`later_readChildren`); and where all
  children can be read, reading them splits at any child (`readChildren_split`).
-/

namespace NameScope

theorem forall₂_of_mapM {α β ε : Type} {f : α → Except ε β} {xs : List α} {ys : List β}
    (h : xs.mapM f = .ok ys) : List.Forall₂ (fun x y => f x = .ok y) xs ys := by
  induction xs generalizing ys with
  | nil =>
    cases h
    exact .nil
  | cons x xs ih =>
    rw [List.mapM_cons] at h
    cases hx : f x with
    | error e => rw [hx] at h; cases h
    | ok y =>
      cases hxs : xs.mapM f with
      | error e => rw [hx, hxs] at h; cases h
      | ok ys =>
        rw [hx, hxs] at h
        cases h
        exact .cons hx (ih hxs)

/-! ## Statements -/

variable (types : BuiltinTypes)

namespace OpenFunction

mutual

/-- Whatever is read, the session of an open function only gets reports. -/
theorem keeps_readStatement : ∀ (t : Tree) (f : OpenFunction), f.Keeps (f.readStatement types t).1
  | .node l cs, f => by
    unfold readStatement
    split
    · split
      · exact keeps_declare f _ none
      · exact Keeps.refl f
    · have hcs : f.Keeps (f.enter.readStatements types cs).1 :=
        (keeps_setBlocks f _).trans (keeps_readStatements cs f.enter)
      split
      · rw [‹f.enter.readStatements types cs = _›] at hcs
        exact hcs
      · rw [‹f.enter.readStatements types cs = _›] at hcs
        split
        · exact hcs.trans (keeps_exit ‹_›)
        · exact hcs
    · split
      · exact Keeps.refl f
      · exact keeps_resolve f l.text l.pos?
    · exact keeps_readStatements cs f

theorem keeps_readStatements :
    ∀ (ts : List Tree) (f : OpenFunction), f.Keeps (f.readStatements types ts).1
  | [], f => Keeps.refl f
  | t :: ts, f => by
    have ht := keeps_readStatement t f
    unfold readStatements
    split
    · rw [‹f.readStatement types t = _›] at ht
      exact ht.trans (keeps_readStatements ts _)
    · rw [‹f.readStatement types t = _›] at ht
      exact ht

end

theorem keeps_readBody (f : OpenFunction) (t : Tree) : f.Keeps (f.readBody types t).1 :=
  keeps_readStatements types _ f

end OpenFunction

/-! ## Units -/

namespace Session

theorem later_readFunction (s : Session) (t : Tree) : s.Later (s.readFunction types t).1 := by
  unfold readFunction
  split
  · exact Later.refl s
  · next func _ =>
    have hbody : s.Later ((s.openFunction func).readBody types t).1.session :=
      (later_openFunction s func none).trans
        (OpenFunction.keeps_readBody types (s.openFunction func) t).session.later
    split
    · rw [‹(s.openFunction func).readBody types t = _›] at hbody
      exact hbody.trans (later_close _)
    · rw [‹(s.openFunction func).readBody types t = _›] at hbody
      exact hbody.trans (later_abandon _)

theorem later_readChild (s : Session) (t : Tree) : s.Later (s.readChild types t).1 := by
  unfold readChild
  split
  · split
    · exact later_declare s _ none
    · exact Later.refl s
  · have hf := later_readFunction types s t
    split
    · rw [‹s.readFunction types t = _›] at hf
      exact hf
    · rw [‹s.readFunction types t = _›] at hf
      exact hf
  · exact later_declare s _ none
  · exact later_declare s _ none
  · exact later_declare s _ none
  · exact Later.refl s

theorem later_readChildren (s : Session) (ts : List Tree) :
    s.Later (s.readChildren types ts).1 := by
  induction ts generalizing s with
  | nil => exact Later.refl s
  | cons t ts ih =>
    have ht := later_readChild types s t
    unfold readChildren
    split
    · rw [‹s.readChild types t = _›] at ht
      exact ht.trans (ih _)
    · rw [‹s.readChild types t = _›] at ht
      exact ht

variable {types}

/-- Reading children that can be read, and then more of them. -/
theorem readChildren_append {s : Session} {ts : List Tree}
    (h : (s.readChildren types ts).2 = .ok ()) (us : List Tree) :
    s.readChildren types (ts ++ us) = (s.readChildren types ts).1.readChildren types us := by
  induction ts generalizing s with
  | nil => rfl
  | cons t ts ih =>
    unfold readChildren at h
    rw [List.cons_append, readChildren, readChildren]
    cases ht : s.readChild types t with
    | mk s' result =>
      rw [ht] at h
      cases result with
      | error fault => cases h
      | ok _ => exact ih h

/-- If all children can be read, then the first of them can. -/
theorem ok_of_readChildren_append {s : Session} {ts us : List Tree}
    (h : (s.readChildren types (ts ++ us)).2 = .ok ()) : (s.readChildren types ts).2 = .ok () := by
  induction ts generalizing s with
  | nil => rfl
  | cons t ts ih =>
    rw [List.cons_append] at h
    unfold readChildren at h ⊢
    cases ht : s.readChild types t with
    | mk s' result =>
      rw [ht] at h
      cases result with
      | error fault => cases h
      | ok _ => exact ih h

/-- Where all children can be read, child `i` is read in the session that those before it leave,
and those after it are read in the session that it leaves. -/
theorem readChildren_split {s : Session} {ts : List Tree} {t : Tree} {i : Nat}
    (h : (s.readChildren types ts).2 = .ok ()) (ht : ts[i]? = some t) :
    (s.readChildren types (ts.take (i + 1))).2 = .ok () ∧
      s.readChildren types (ts.take (i + 1)) =
          (s.readChildren types (ts.take i)).1.readChildren types [t] ∧
      s.readChildren types ts =
        (s.readChildren types (ts.take (i + 1))).1.readChildren types (ts.drop (i + 1)) := by
  have htake : ts.take (i + 1) = ts.take i ++ [t] := by
    rw [List.take_add_one, ht]
    rfl
  have hts : ts.take (i + 1) ++ ts.drop (i + 1) = ts := List.take_append_drop (i + 1) ts
  have hnext : (s.readChildren types (ts.take (i + 1))).2 = .ok () := by
    rw [← hts] at h
    exact ok_of_readChildren_append h
  have hprev : (s.readChildren types (ts.take i)).2 = .ok () := by
    rw [htake] at hnext
    exact ok_of_readChildren_append hnext
  refine ⟨hnext, ?_, ?_⟩
  · rw [htake]
    exact readChildren_append hprev [t]
  · have hall := readChildren_append hnext (ts.drop (i + 1))
    rw [hts] at hall
    exact hall

/-- A function among the children is read as a function. -/
theorem readChildren_function {s : Session} {t : Tree} (h : t.symbol = "function_definition")
    (hok : (s.readChildren types [t]).2 = .ok ()) :
    (s.readFunction types t).2 = .ok () ∧
      (s.readChildren types [t]).1 = (s.readFunction types t).1 := by
  unfold readChildren readChild at hok ⊢
  rw [h] at hok ⊢
  cases hf : s.readFunction types t with
  | mk s' result =>
    simp only [hf] at hok ⊢
    cases result with
    | error fault => cases hok
    | ok _ => exact ⟨rfl, rfl⟩

end Session

end NameScope
