import NameScope.Decl.Layers
import NameScope.NameTable.Lemmas
import NameScope.Proofs.Blocks.History

/-
  Requests to declarations, scopes and globals.  A scope and the globals own declarations, and a
  declaration may own a scope or globals, so a change deep inside is a request that is passed on: to
  the declaration at some position, to the scope of that function, to a declaration in it, and so
  on.  A request is data at every level, and so is its reply; two declarations can be asked the same
  thing and what they reply can be compared.

  A request that fails replies with the fault, and one that the kind of the declaration does not
  have replies `absent`; neither changes anything.
-/

namespace NameScope

mutual

/-- A request to a declaration: to change one of its parts, or to pass a request on to the scope or
the globals that it owns. -/
inductive Decl.Request where
  | setName (name : String)
  | setPos (pos : Position)
  | setType (type : TypeUse)
  | setInit (init : ExprRef)
  | addMember (member : StmtRef)
  | setStruct (isStruct : Bool)
  | addEnumerator (new : Enumerator)
  | setValue (i : Nat) (value : ExprRef)
  | addParam (param : Variable)
  | setParams (params : List Variable)
  | setBody (body : StmtRef)
  | inScope (request : Scope.Request)
  | inGlobals (request : Globals.Request)

/-- A request to a scope; `updateDecl` passes one on to the declaration at position `i`. -/
inductive Scope.Request where
  | blocks (call : Blocks.Call)
  | addDecl (d : Decl)
  | decl (i : Nat)
  | updateDecl (i : Nat) (request : Decl.Request)

/-- A request to the globals of a unit; `updateDecl` passes one on to the declaration at position
`i`. -/
inductive Globals.Request where
  | declare (name : String) (type : TypeUse) (pos : Option Position)
  | take (name : String)
  | unbindAll
  | lookup (name : String)
  | addDecl (d : Decl)
  | decl (i : Nat)
  | updateDecl (i : Nat) (request : Decl.Request)
  | addStmt (s : StmtRef)
  | stmt (i : Nat)

end

/-- What a request gives back; a request that is passed on gives back what came from inside. -/
inductive Reply where
  | done
  | absent
  | blocks (answer : Blocks.Answer)
  | binding (found : Option Binding)
  | decl (d : Decl)
  | stmt (s : StmtRef)
  | indexFault (fault : IndexFault)
  | scopeFault (fault : ScopeFault)
  | inside (reply : Reply)

/-- The reply to a change of a layer, which may be there or not. -/
def Reply.ofLayer {α : Type} : Option α → Reply
  | some _ => done
  | none => absent

mutual

/-- The reply to a request, and what becomes of the declaration. -/
def Decl.perform (d : Decl) : Decl.Request → Reply × Decl
  | .setName name => (.ofLayer d.named?, d.setName name)
  | .setPos pos => (.ofLayer d.named?, d.setPos pos)
  | .setType type => (.ofLayer d.value?, d.setType type)
  | .setInit init => (.ofLayer d.var?, d.setInit init)
  | .addMember member => (.ofLayer d.record?, d.mapRecord (·.addMember member))
  | .setStruct isStruct =>
    (.ofLayer d.record?, d.mapRecord fun r => { r with isStruct := isStruct })
  | .addEnumerator new =>
    match d with
    | .enumeration e => (.done, .enumeration (e.addEnumerator new))
    | d => (.absent, d)
  | .setValue i value =>
    match d with
    | .enumeration e =>
      match e.setValue i value with
      | .ok e => (.done, .enumeration e)
      | .error fault => (.indexFault fault, .enumeration e)
    | d => (.absent, d)
  | .addParam param => (.ofLayer d.func?, d.mapFunc (·.addParam param))
  | .setParams params => (.ofLayer d.func?, d.mapFunc fun f => { f with params := params })
  | .setBody body => (.ofLayer d.func?, d.mapFunc fun f => { f with body := some body })
  | .inScope r =>
    match d with
    | .func f => (.inside (f.scope.perform r).1, .func { f with scope := (f.scope.perform r).2 })
    | d => (.absent, d)
  | .inGlobals r =>
    match d with
    | .unit g => (.inside (g.perform r).1, .unit (g.perform r).2)
    | d => (.absent, d)

/-- The reply to a request, and what becomes of the scope. -/
def Scope.perform (s : Scope Decl) : Scope.Request → Reply × Scope Decl
  | .blocks c => (.blocks (s.blocks.step c).1, { s with blocks := (s.blocks.step c).2 })
  | .addDecl d => (.done, s.addDecl d)
  | .decl i =>
    match s.decl i with
    | .ok d => (.decl d, s)
    | .error fault => (.indexFault fault, s)
  | .updateDecl i r =>
    match s.updateDecl i fun d => d.perform r with
    | .ok (reply, s) => (.inside reply, s)
    | .error fault => (.indexFault fault, s)

/-- The reply to a request, and what becomes of the globals. -/
def Globals.perform (g : Globals Decl) : Globals.Request → Reply × Globals Decl
  | .declare name type pos =>
    match g.declare name ⟨type, pos⟩ with
    | .ok g => (.done, g)
    | .error fault => (.scopeFault fault, g)
  | .take name => (.binding (g.take name).1, (g.take name).2)
  | .unbindAll => (.done, g.unbindAll)
  | .lookup name => (.binding (g.lookup? name), g)
  | .addDecl d => (.done, g.addDecl d)
  | .decl i =>
    match g.decl i with
    | .ok d => (.decl d, g)
    | .error fault => (.indexFault fault, g)
  | .updateDecl i r =>
    match g.updateDecl i fun d => d.perform r with
    | .ok (reply, g) => (.inside reply, g)
    | .error fault => (.indexFault fault, g)
  | .addStmt s => (.done, g.addStmt s)
  | .stmt i =>
    match g.stmt i with
    | .ok s => (.stmt s, g)
    | .error fault => (.indexFault fault, g)

end

namespace Globals

/-- Makes the requests of a history in order. -/
def run (g : Globals Decl) (requests : List Request) : List Reply × Globals Decl :=
  History.run perform g requests

/-! ## Names -/

theorem take_eq {δ : Type} (g : Globals δ) (name : String) :
    g.take name = (g.lookup? name, g.unbind name) := by
  unfold take unbind
  rw [NameTable.take_eq]
  rfl

/-- A bound name is refused, and nothing changes. -/
theorem perform_declare_of_bound {g : Globals Decl} {name : String} {old : Binding}
    (h : g.lookup? name = some old) (type : TypeUse) (pos : Option Position) :
    g.perform (.declare name type pos) = (.scopeFault (.redeclared name old.pos pos), g) := by
  simp only [perform, declare, h]

theorem perform_declare_of_free {g : Globals Decl} {name : String} (h : g.lookup? name = none)
    (type : TypeUse) (pos : Option Position) :
    g.perform (.declare name type pos) =
      (.done, { g with table := g.table.insert name ⟨type, pos⟩ }) := by
  simp only [perform, declare, h]

theorem perform_take (g : Globals Decl) (name : String) :
    g.perform (.take name) = (.binding (g.lookup? name), g.unbind name) := by
  simp only [perform, take_eq]

end Globals

end NameScope
