import Mathlib.Logic.Function.Basic
import NameScope.Proofs.Decl.Parts
import NameScope.Proofs.Decl.Requests

/-
  Updates of a declaration.  A part can be written through every layer that offers it, and a
  declaration also takes the requests that `Decl.perform` answers.  Whichever way it goes, an update
  that reaches the declaration has an effect on one part and leaves the others alone
  (`Decl.part?_step`), and one that does not reach it is refused (`Decl.step_of_not_reaches`).  So
  after a history each part is what the effects on it, in order, make of it (`Decl.part?_run`);
  since a declaration is nothing but its parts, this says what becomes of it
  (`Decl.Result.unique`).
-/

namespace NameScope

/-! ## Writing through a layer -/

namespace Decl

/-- What is written of the parts that several layers offer. -/
inductive Write where
  | name (name : String)
  | pos (pos : Position)
  | type (type : TypeUse)
  | init (init : ExprRef)

def Write.part : Write → Part
  | name _ => .name
  | pos _ => .pos
  | type _ => .type
  | init _ => .init

end Decl

def Named.write (n : Named) : Decl.Write → Named
  | .name name => { n with name := name }
  | .pos pos => { n with pos := some pos }
  | .type _ | .init _ => n

def Valued.write (v : Valued) : Decl.Write → Valued
  | .type type => { v with type := type }
  | w => { v with toNamed := v.toNamed.write w }

def Variable.write (v : Variable) : Decl.Write → Variable
  | .init init => { v with init := some init }
  | w => { v with toValued := v.toValued.write w }

def Record.write (r : Record) (w : Decl.Write) : Record := { r with toNamed := r.toNamed.write w }

def Enumeration.write (e : Enumeration) (w : Decl.Write) : Enumeration :=
  { e with toNamed := e.toNamed.write w }

def Func.write (f : Func Decl) (w : Decl.Write) : Func Decl :=
  { f with toValued := f.toValued.write w }

namespace Decl

/-- Writes through a layer, if the declaration has it. -/
def writeThrough (w : Write) : Layer → Decl → Decl
  | .named, d => d.mapNamed (·.write w)
  | .value, d => d.mapValue (·.write w)
  | .var, d => d.mapVariable (·.write w)
  | .param, param v => param (v.write w)
  | .record, d => d.mapRecord (·.write w)
  | .enumeration, enumeration e => enumeration (e.write w)
  | .func, d => d.mapFunc (·.write w)
  | .param, d | .enumeration, d => d

/-- Writes through the layer that holds all the parts of the declaration. -/
def write (w : Write) : Decl → Decl
  | unit g => unit g
  | named n => named (n.write w)
  | typeName n => typeName (n.write w)
  | record r => record (r.write w)
  | enumeration e => enumeration (e.write w)
  | value v => value (v.write w)
  | declarator v => declarator (v.write w)
  | func f => func (f.write w)
  | var v => var (v.write w)
  | param v => param (v.write w)

/-- It does not matter through which layer a part is written. -/
theorem writeThrough_eq_write {w : Write} {l : Layer} {d : Decl} (hlayer : l.isOf d.kind = true)
    (hoffers : l.offers w.part = true) : d.writeThrough w l = d.write w := by
  -- the kind lacks the layer, or the layer lacks the part, or both sides are the same
  cases d <;> cases l <;> cases w <;> first | rfl | (cases hlayer; done) | cases hoffers

theorem writeThrough_of_absent {w : Write} {l : Layer} {d : Decl} (h : l.isOf d.kind = false) :
    d.writeThrough w l = d := by
  cases d <;> cases l <;> first | rfl | cases h

/-! ## Effects -/

/-- What is made of one part; the others stay as they are. -/
structure Effect where
  part : Part
  change : part.Value → part.Value

/-- What the effect makes of the part `q`. -/
def Effect.on (c : Effect) : (q : Part) → q.Value → q.Value :=
  Function.update (fun _ v => v) c.part c.change

theorem Effect.on_part (c : Effect) (v : c.part.Value) : c.on c.part v = c.change v := by
  rw [on, Function.update_self]

theorem Effect.on_of_ne {c : Effect} {q : Part} (h : c.part ≠ q) (v : q.Value) : c.on q v = v := by
  rw [on, Function.update_of_ne h.symm]

def Write.value : (w : Write) → w.part.Value
  | name s => s
  | pos p => some p
  | type t => t
  | init e => some e

def Write.effect (w : Write) : Effect := ⟨w.part, fun _ => w.value⟩

theorem part?_write (d : Decl) (w : Write) (q : Part) :
    (d.write w).part? q = (d.part? q).map (w.effect.on q) := by
  cases d <;> cases w <;> cases q <;> rfl

/-! ## Requests -/

/-- The effect of a request that is granted. -/
def Request.effect : Request → Effect
  | setName name => (Write.name name).effect
  | setPos pos => (Write.pos pos).effect
  | setType type => (Write.type type).effect
  | setInit init => (Write.init init).effect
  | addMember member => ⟨.members, (· ++ [member])⟩
  | setStruct isStruct => ⟨.isStruct, fun _ => isStruct⟩
  | addEnumerator new => ⟨.enumerators, (· ++ [new])⟩
  | setValue i e => ⟨.enumerators, (·.modify i fun c => { c with value := some e })⟩
  | addParam new => ⟨.params, (· ++ [new])⟩
  | setParams params => ⟨.params, fun _ => params⟩
  | setBody body => ⟨.body, fun _ => some body⟩
  | inScope r => ⟨.scope, fun s => (s.perform r).2⟩
  | inGlobals r => ⟨.globals, fun g => (g.perform r).2⟩

/-- A request for a part that the kind does not have is refused. -/
theorem perform_of_absent {d : Decl} {r : Request} (h : r.effect.part.isOf d.kind = false) :
    d.perform r = (.absent, d) := by
  cases d <;> cases r <;> first | rfl | cases h

/-- The setters of a declaration write, through whatever layer they go. -/
theorem setters_eq_write (d : Decl) :
    (∀ name, d.setName name = d.write (.name name)) ∧ (∀ pos, d.setPos pos = d.write (.pos pos)) ∧
      (∀ type, d.setType type = d.write (.type type)) ∧
      ∀ init, d.setInit init = d.write (.init init) := by
  cases d <;> exact ⟨fun _ => rfl, fun _ => rfl, fun _ => rfl, fun _ => rfl⟩

theorem setValue_eq (e : Enumeration) (i : Nat) (value : ExprRef) :
    e.setValue i value =
      if i < e.enumerators.length then
        .ok { e with enumerators :=
                e.enumerators.modify i fun c => { c with value := some value } }
      else .error ⟨.enumerator, i, e.enumerators.length⟩ := by
  unfold Enumeration.setValue updateAt elementAt
  by_cases h : i < e.enumerators.length
  · rw [if_pos h, List.modify_eq_set_getElem?, List.getElem?_eq_getElem h]
    rfl
  · rw [if_neg h, List.getElem?_eq_none (Nat.le_of_not_lt h)]
    rfl

/-- A position at or past the end is refused with a fault, and nothing changes. -/
theorem perform_setValue (e : Enumeration) (i : Nat) (value : ExprRef) :
    (enumeration e).perform (.setValue i value) =
      (if i < e.enumerators.length then .done
        else .indexFault ⟨.enumerator, i, e.enumerators.length⟩,
      enumeration { e with enumerators :=
                      e.enumerators.modify i fun c => { c with value := some value } }) := by
  simp only [perform, setValue_eq]
  by_cases h : i < e.enumerators.length
  · rw [if_pos h, if_pos h]
  · rw [if_neg h, if_neg h, List.modify_eq_self (Nat.le_of_not_lt h)]

theorem part?_perform {d : Decl} {r : Request} (h : r.effect.part.isOf d.kind = true) (q : Part) :
    (d.perform r).2.part? q = (d.part? q).map (r.effect.on q) := by
  obtain ⟨hname, hpos, htype, hinit⟩ := d.setters_eq_write
  cases r with
  | setName name => exact (congrArg (part? · q) (hname name)).trans (d.part?_write (.name name) q)
  | setPos pos => exact (congrArg (part? · q) (hpos pos)).trans (d.part?_write (.pos pos) q)
  | setType type => exact (congrArg (part? · q) (htype type)).trans (d.part?_write (.type type) q)
  | setInit init => exact (congrArg (part? · q) (hinit init)).trans (d.part?_write (.init init) q)
  | addMember _ | setStruct _ =>
    cases d with
    | record r => cases q <;> rfl
    | _ => cases h
  | addEnumerator _ =>
    cases d with
    | enumeration e => cases q <;> rfl
    | _ => cases h
  | setValue i value =>
    cases d with
    | enumeration e =>
      rw [perform_setValue]
      cases q <;> rfl
    | _ => cases h
  | addParam _ | setParams _ | setBody _ | inScope _ =>
    cases d with
    | func f => cases q <;> rfl
    | _ => cases h
  | inGlobals _ =>
    cases d with
    | unit g => cases q <;> rfl
    | _ => cases h

/-! ## Updates -/

/-- An update of a declaration: a request, a write through a layer that offers the part, or any
change whatever of the scope that it owns. -/
inductive Update where
  | ask (request : Request)
  | through (layer : Layer) (write : Write) (offered : layer.offers write.part = true)
  | rescope (f : Scope Decl → Scope Decl)

namespace Update

/-- Whether a declaration of the kind has what the update goes to. -/
def reaches (k : Kind) : Update → Bool
  | ask r => r.effect.part.isOf k
  | through l _ _ => l.isOf k
  | rescope _ => Part.scope.isOf k

def effect : Update → Effect
  | ask r => r.effect
  | through _ w _ => w.effect
  | rescope f => ⟨.scope, f⟩

end Update

/-- The effects of the updates among a history that reach a declaration of the kind. -/
def effects (k : Kind) (us : List Update) : List Effect :=
  (us.filter (·.reaches k)).map (·.effect)

/-- The reply to an update, and what becomes of the declaration. -/
def step (d : Decl) : Update → Reply × Decl
  | .ask r => d.perform r
  | .through l w _ => (.ofLayer (d.layer? l), d.writeThrough w l)
  | .rescope f => (.ofLayer d.scope?, d.mapFunc fun g => { g with scope := f g.scope })

/-- Makes the updates of a history in order. -/
def run (d : Decl) (us : List Update) : List Reply × Decl := History.run step d us

theorem kind_step (d : Decl) (u : Update) : (d.step u).2.kind = d.kind := by
  cases u with
  | ask r =>
    cases r with
    | setValue i value =>
      cases d with
      | enumeration e =>
        rw [step, perform_setValue]
        rfl
      | _ => rfl
    | _ => cases d <;> rfl
  | through l w _ => cases d <;> cases l <;> rfl
  | rescope f => cases d <;> rfl

theorem step_of_not_reaches {d : Decl} {u : Update} (h : u.reaches d.kind = false) :
    d.step u = (.absent, d) := by
  cases u with
  | ask r => exact perform_of_absent h
  | through l w _ =>
    have hlayer : d.layer? l = none := by
      rw [← Option.isNone_iff_eq_none, ← Option.not_isSome, isSome_layer?]
      exact congrArg not h
    rw [step, writeThrough_of_absent h, hlayer]
    rfl
  | rescope f => cases d <;> first | rfl | cases h

theorem part?_step {d : Decl} {u : Update} (h : u.reaches d.kind = true) (q : Part) :
    (d.step u).2.part? q = (d.part? q).map (u.effect.on q) := by
  cases u with
  | ask r => exact part?_perform h q
  | through l w offered =>
    exact (congrArg (part? · q) (writeThrough_eq_write h offered)).trans (d.part?_write w q)
  | rescope f =>
    cases d with
    | func f => cases q <;> rfl
    | _ => cases h

/-- An update that reaches the declaration is granted, or it has a position past the end. -/
theorem reply_of_reaches {d : Decl} {u : Update} (h : u.reaches d.kind = true) :
    (d.step u).1 = .done ∨ (∃ reply, (d.step u).1 = .inside reply) ∨
      ∃ e i value, d = enumeration e ∧ u = .ask (.setValue i value) ∧
        e.enumerators.length ≤ i ∧
          (d.step u).1 = .indexFault ⟨.enumerator, i, e.enumerators.length⟩ := by
  cases u with
  | ask r =>
    cases r with
    | setValue i value =>
      cases d with
      | enumeration e =>
        rw [step, perform_setValue]
        by_cases hi : i < e.enumerators.length
        · exact .inl (if_pos hi)
        · exact .inr (.inr ⟨e, i, value, rfl, rfl, Nat.le_of_not_lt hi, if_neg hi⟩)
      | _ => cases h
    | inScope _ | inGlobals _ =>
      cases d <;> first | (cases h; done) | exact .inr (.inl ⟨_, rfl⟩)
    | _ => cases d <;> first | (cases h; done) | exact .inl rfl
  | through l w _ =>
    obtain ⟨c, hc⟩ := Option.isSome_iff_exists.1 ((d.isSome_layer? l).trans h)
    exact .inl (congrArg Reply.ofLayer hc)
  | rescope f => cases d <;> first | (cases h; done) | exact .inl rfl

theorem absent_iff (d : Decl) (u : Update) :
    (d.step u).1 = .absent ↔ u.reaches d.kind = false := by
  constructor
  · intro habsent
    refine Bool.eq_false_iff.2 fun h => ?_
    rcases reply_of_reaches h with hdone | ⟨reply, hinside⟩ | ⟨e, i, value, -, -, -, hfault⟩
    · cases habsent.symm.trans hdone
    · cases habsent.symm.trans hinside
    · cases habsent.symm.trans hfault
  · intro h
    rw [step_of_not_reaches h]

/-- Only a position past the last enumerator is refused with a fault. -/
theorem indexFault_cases {d : Decl} {u : Update} {fault : IndexFault}
    (h : (d.step u).1 = .indexFault fault) :
    ∃ e i value, d = enumeration e ∧ u = .ask (.setValue i value) ∧ e.enumerators.length ≤ i ∧
      fault = ⟨.enumerator, i, e.enumerators.length⟩ := by
  have hreaches : u.reaches d.kind = true := by
    cases hnot : u.reaches d.kind with
    | true => rfl
    | false => cases h.symm.trans ((d.absent_iff u).2 hnot)
  rcases reply_of_reaches hreaches with hdone | ⟨reply, hinside⟩ |
    ⟨e, i, value, hd, hu, hi, hfault⟩
  · cases h.symm.trans hdone
  · cases h.symm.trans hinside
  · exact ⟨e, i, value, hd, hu, hi, Reply.indexFault.inj (h.symm.trans hfault)⟩

theorem isOf_effect {k : Kind} {u : Update} (h : u.reaches k = true) :
    u.effect.part.isOf k = true := by
  cases u with
  | ask r => exact h
  | through l w offered => exact isOf_of_offers h offered
  | rescope f => exact h

/-! ## Histories -/

theorem kind_run (d : Decl) (us : List Update) : (d.run us).2.kind = d.kind :=
  History.run_keeps (fun e : Decl => e.kind = d.kind) (fun e u h => (e.kind_step u).trans h) rfl us

theorem effects_cons_of_reaches {k : Kind} {u : Update} (h : u.reaches k = true)
    (us : List Update) : effects k (u :: us) = u.effect :: effects k us := by
  rw [effects, List.filter_cons_of_pos h]
  rfl

theorem effects_cons_of_not_reaches {k : Kind} {u : Update} (h : u.reaches k = false)
    (us : List Update) : effects k (u :: us) = effects k us := by
  rw [effects, List.filter_cons_of_neg (Bool.eq_false_iff.1 h)]
  rfl

theorem effects_append (k : Kind) (us vs : List Update) :
    effects k (us ++ vs) = effects k us ++ effects k vs := by
  rw [effects, List.filter_append, List.map_append]
  rfl

/-- What is in the part `q` after effects, one after another, on what was in it before. -/
def Part.after (q : Part) (cs : List Effect) (v : q.Value) : q.Value :=
  cs.foldl (fun v c => c.on q v) v

theorem Part.after_of_ne {q : Part} {cs : List Effect} (h : ∀ c ∈ cs, c.part ≠ q) (v : q.Value) :
    q.after cs v = v := by
  induction cs with
  | nil => rfl
  | cons c cs ih =>
    obtain ⟨hc, hcs⟩ := List.forall_mem_cons.1 h
    exact (congrArg (q.after cs) (c.on_of_ne hc v)).trans (ih hcs)

/-- A value put into a part is there for as long as nothing else is done to the part. -/
theorem Part.after_put {q : Part} {later : List Effect} (h : ∀ c ∈ later, c.part ≠ q)
    (before : List Effect) (new old : q.Value) :
    q.after (before ++ ⟨q, fun _ => new⟩ :: later) old = new := by
  unfold Part.after
  rw [List.foldl_append, List.foldl_cons]
  exact (Part.after_of_ne h _).trans (Effect.on_part ⟨q, fun _ => new⟩ _)

/-- A part after a history is what the effects of the updates that reach the declaration make of
it. -/
theorem part?_run (d : Decl) (us : List Update) (q : Part) :
    (d.run us).2.part? q = (d.part? q).map (q.after (effects d.kind us)) := by
  -- the declaration changes from step to step, its kind and so what reaches it do not
  induction us generalizing d with
  | nil => exact Option.map_id'.symm
  | cons u us ih =>
    show ((d.step u).2.run us).2.part? q = _
    rw [ih, kind_step]
    cases h : u.reaches d.kind with
    | false => rw [step_of_not_reaches h, effects_cons_of_not_reaches h]
    | true =>
      rw [part?_step h, Option.map_map, effects_cons_of_reaches h]
      rfl

/-- The update reaches a declaration of the kind and goes to the part `q`. -/
def Update.Touches (k : Kind) (q : Part) (u : Update) : Prop :=
  u.reaches k = true ∧ u.effect.part = q

instance (k : Kind) (q : Part) (u : Update) : Decidable (u.Touches k q) :=
  inferInstanceAs (Decidable (u.reaches k = true ∧ u.effect.part = q))

theorem part_ne_of_untouched {k : Kind} {q : Part} {us : List Update}
    (h : ∀ u ∈ us, ¬ u.Touches k q) : ∀ c ∈ effects k us, c.part ≠ q := by
  intro c hc hq
  obtain ⟨u, hu, rfl⟩ := List.mem_map.1 hc
  obtain ⟨hmem, hreaches⟩ := List.mem_filter.1 hu
  exact h u hmem ⟨hreaches, hq⟩

/-- What a history makes of a declaration: the kind stays, and every part is what the updates made
of it, those that reach the declaration, one after another. -/
structure Result (d : Decl) (us : List Update) (e : Decl) : Prop where
  kind : e.kind = d.kind
  part? : ∀ q, e.part? q = (d.part? q).map (q.after (effects d.kind us))

namespace Result

variable {d e : Decl} {us : List Update}

theorem unique {f : Decl} (he : Result d us e) (hf : Result d us f) : e = f :=
  eq_of_parts (he.kind.trans hf.kind.symm) fun q => (he.part? q).trans (hf.part? q).symm

theorem read? (h : Result d us e) (l : Layer) (q : Part) :
    e.read? l q = if l.isOf d.kind && l.offers q then e.part? q else none := by
  rw [read?_eq, h.kind]

theorem part?_of_untouched (h : Result d us e) {q : Part} (hq : ∀ u ∈ us, ¬ u.Touches d.kind q) :
    e.part? q = d.part? q := by
  have hid : q.after (effects d.kind us) = id :=
    funext fun v => Part.after_of_ne (part_ne_of_untouched hq) v
  rw [h.part?, hid, Option.map_id]
  rfl

/-- The value last put into a part is in it. -/
theorem part?_of_last {before later : List Update} {u : Update}
    (h : Result d (before ++ u :: later) e) (hu : u.reaches d.kind = true) {q : Part} {v : q.Value}
    (hput : u.effect = ⟨q, fun _ => v⟩) (hlater : ∀ w ∈ later, ¬ w.Touches d.kind q) :
    e.part? q = some v := by
  have hq : q.isOf d.kind = true := (congrArg (·.part.isOf d.kind) hput).symm.trans (isOf_effect hu)
  obtain ⟨old, hold⟩ := Option.isSome_iff_exists.1 ((d.isSome_part? q).trans hq)
  rw [h.part?, hold, Option.map_some, effects_append, effects_cons_of_reaches hu, hput,
    Part.after_put (part_ne_of_untouched hlater)]

end Result

theorem result_run (d : Decl) (us : List Update) : Result d us (d.run us).2 :=
  ⟨d.kind_run us, d.part?_run us⟩

/-- The updates that a declaration refuses, and that it is left as it is by them. -/
structure Refuses (d : Decl) : Prop where
  absent : ∀ u, (d.step u).1 = .absent ↔ u.reaches d.kind = false
  outOfRange : ∀ u fault, (d.step u).1 = .indexFault fault ↔
    ∃ i value cs, u = .ask (.setValue i value) ∧ d.part? .enumerators = some cs ∧ cs.length ≤ i ∧
      fault = ⟨.enumerator, i, cs.length⟩
  unchanged : ∀ u, ((d.step u).1 = .absent ∨ ∃ fault, (d.step u).1 = .indexFault fault) →
    (d.step u).2 = d

theorem indexFault_iff (d : Decl) (u : Update) (fault : IndexFault) :
    (d.step u).1 = .indexFault fault ↔
      ∃ i value cs, u = .ask (.setValue i value) ∧ d.part? .enumerators = some cs ∧
        cs.length ≤ i ∧ fault = ⟨.enumerator, i, cs.length⟩ := by
  constructor
  · intro h
    obtain ⟨e, i, value, rfl, rfl, hi, rfl⟩ := indexFault_cases h
    exact ⟨i, value, e.enumerators, rfl, rfl, hi, rfl⟩
  · rintro ⟨i, value, cs, rfl, hcs, hi, rfl⟩
    have hkind : Part.enumerators.isOf d.kind = true := by
      rw [← isSome_part?, hcs]
      rfl
    cases d with
    | enumeration e =>
      cases hcs
      rw [step, perform_setValue, if_neg (Nat.not_lt.2 hi)]
    | _ => cases hkind

theorem refuses (d : Decl) : d.Refuses where
  absent := d.absent_iff
  outOfRange := d.indexFault_iff
  unchanged u := by
    rintro (h | ⟨fault, h⟩)
    · rw [step_of_not_reaches ((d.absent_iff u).1 h)]
    · obtain ⟨e, i, value, rfl, rfl, hi, rfl⟩ := indexFault_cases h
      rw [step, perform_setValue, List.modify_eq_self hi]

/-- **The layers of a declaration never disagree.** After any history its layers and its kind agree,
and a part is the same through all of them; a part is what was put into it last, through whatever
layer, and what it was at first if nothing was; and what is refused changes nothing. -/
theorem layers_never_disagree (d : Decl) (us : List Update) :
    (d.run us).2.Coherent ∧ (d.run us).2.Refuses ∧
      (∀ e, Result d us e ↔ e = (d.run us).2) ∧
      (∀ before u later, us = before ++ u :: later → u.reaches d.kind = true →
        ∀ (q : Part) (v : q.Value), u.effect = ⟨q, fun _ => v⟩ →
          (∀ w ∈ later, ¬ w.Touches d.kind q) →
            (d.run us).2.part? q = some v ∧
              ∀ l : Layer, l.isOf d.kind = true → l.offers q = true →
                (d.run us).2.read? l q = some v) ∧
      (∀ q, (∀ u ∈ us, ¬ u.Touches d.kind q) →
        (d.run us).2.part? q = d.part? q ∧ ∀ l, (d.run us).2.read? l q = d.read? l q) ∧
      ∀ name type k, (fresh name type k).kind = k ∧
        ∀ q, (fresh name type k).part? q =
          if q.isOf k then some (q.initial name type) else none := by
  have hrun := d.result_run us
  refine ⟨coherent _, refuses _, fun e => ⟨fun he => he.unique hrun, fun he => he ▸ hrun⟩, ?_, ?_,
    fun name type k => ⟨kind_fresh name type k, part?_fresh name type k⟩⟩
  · rintro before u later rfl hu q v hput hlater
    have hpart := hrun.part?_of_last hu hput hlater
    refine ⟨hpart, fun l hlayer hoffers => ?_⟩
    rw [hrun.read?, hlayer, hoffers]
    exact hpart
  · intro q hq
    have hpart := hrun.part?_of_untouched hq
    refine ⟨hpart, fun l => ?_⟩
    rw [hrun.read?, read?_eq, hpart]

/-- A parameter renamed through two layers, given an initializer as a variable, and asked for what
only records have. -/
theorem layers_never_disagree_param :
    let d := fresh "n" ⟨⟨1⟩, .empty⟩ .param
    let us : List Update := [.through .value (.name "a") rfl, .ask (.addMember ⟨7⟩),
      .through .param (.name "b") rfl, .through .var (.init ⟨5⟩) rfl]
    (∀ l : Layer, l.isOf .param = true → (d.run us).2.read? l .name = some "b") ∧
      (d.run us).2.type? = some ⟨⟨1⟩, .empty⟩ ∧
        ((d.run us).2.step (.ask (.addMember ⟨7⟩))).1 = .absent := by
  intro d us
  obtain ⟨hcoherent, hrefuses, -, hlast, huntouched, -⟩ := layers_never_disagree d us
  refine ⟨fun l hl => ?_, ?_, (hrefuses.absent _).2 (by decide)⟩
  · exact (hlast (us.take 2) (us[2]) (us.drop 3) rfl rfl .name "b" rfl (by decide)).2 l hl rfl
  · rw [hcoherent.type?, (huntouched .type (by decide)).1]
    rfl

end Decl

end NameScope
