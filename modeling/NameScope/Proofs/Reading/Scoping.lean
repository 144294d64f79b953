import NameScope.Session.Reading

/-
  Lexical scoping as a law about syntax trees.  The law knows neither tables nor open blocks: it
  speaks of the nodes of a body in pre-order, each with its path from the outermost block.  The
  blocks that enclose a node are read off its path (`enclosing`), the innermost of them holds what
  is declared at the node (`holder`), and a parameter or a declaration is in scope at every later
  node that its holder encloses.  `diagnostics` is what the law reports about a body: a
  redeclaration where a local of the same name stands in the way of a declaration, and an unknown
  name where an identifier means neither a local that is in scope nor a global.
-/

namespace NameScope

namespace Tree

/-- The outermost block of a function: all that is in the compound statements of its node. -/
def outermostBlock (t : Tree) : Tree :=
  node { symbolClass := .nonterminal, symbol := "compound_statement" }
    ((t.children.filter (·.symbol = "compound_statement")).flatMap (·.children))

/-- What the parameters of a function are called, and where they stand. -/
def parameters (t : Tree) : List Named :=
  ((t.children.filter (·.symbol = "parameter_list")).flatMap (·.children)).map (·.declared)

mutual

/-- The nodes that reading meets, in pre-order and each with its path; the root is at `path`.
Nothing inside a declaration or an identifier is met. -/
def met (path : List Nat) : Tree → List (List Nat × Tree)
  | node l cs =>
    (path, node l cs) ::
      if l.symbol = "declaration" ∨ l.symbol = "identifier" then [] else metAll path 0 cs

/-- The nodes met in siblings, of which the first is child `i` of the node at `path`. -/
def metAll (path : List Nat) (i : Nat) : List Tree → List (List Nat × Tree)
  | [] => []
  | t :: ts => met (path ++ [i]) t ++ metAll path (i + 1) ts

end

end Tree

/-- The blocks whose names forbid to declare them once more in `block`; `blocks` are the blocks
around the new declaration. -/
def RedeclarationRule.reach (rule : RedeclarationRule) (blocks : List (List Nat))
    (block : List Nat) : List (List Nat) :=
  match rule with
  | .visible => blocks
  | .sameBlock => [block]

/-- A parameter or a declaration of a body, and the block that directly holds it.  It is accepted
if no earlier one stands in its way; whether it is or not, it is in scope in its block. -/
structure Local extends Named where
  block : List Nat
  accepted : Bool
deriving DecidableEq

namespace Local

/-- The first of the locals with the given name in one of the given blocks. -/
def first? (locals : List Local) (name : String) (blocks : List (List Nat)) : Option Local :=
  locals.find? fun e => e.name = name && e.block ∈ blocks

/-- The accepted locals of a block. -/
def acceptedIn (locals : List Local) (block : List Nat) : List Named :=
  (locals.filter fun e => e.accepted && e.block == block).map (·.toNamed)

end Local

/-- A function body, and what its scoping depends on besides: the parameters, the rule for
redeclarations, the global names, and how many names to suggest for an unknown one. -/
structure LexicalBody where
  block : Tree
  params : List Named
  rule : RedeclarationRule
  globals : List String
  limit : Nat

/-- The body of the function that a node declares. -/
def Tree.lexicalBody (t : Tree) (options : Options) (globals : List String) : LexicalBody where
  block := t.outermostBlock
  params := t.parameters
  rule := options.rule
  globals := globals
  limit := options.maxSuggestions

namespace LexicalBody

/-! ## Blocks -/

/-- Whether the node at the end of the path is a block. -/
def isBlock (b : LexicalBody) (path : List Nat) : Bool :=
  path.isEmpty || (b.block.at? path).any (·.symbol = "compound_statement")

/-- The blocks on the path, innermost first; a block encloses itself. -/
def enclosing (b : LexicalBody) (path : List Nat) : List (List Nat) :=
  ((List.range (path.length + 1)).reverse.map path.take).filter b.isBlock

/-- The block that directly holds what is declared at the end of the path. -/
def holder (b : LexicalBody) (path : List Nat) : List Nat := (b.enclosing path).headD []

/-! ## What is in scope -/

/-- The first earlier local that stands in the way of declaring `name` at the end of the path. -/
def obstacle? (b : LexicalBody) (earlier : List Local) (path : List Nat) (name : String) :
    Option Local :=
  Local.first? earlier name (b.rule.reach (b.enclosing path) (b.holder path))

/-- The locals after a declaration at the end of the path; one without a name adds nothing. -/
def note (b : LexicalBody) (earlier : List Local) (path : List Nat) (d : Named) : List Local :=
  if d.name = "" then earlier
  else
    earlier ++
      [{ d with block := b.holder path, accepted := (b.obstacle? earlier path d.name).isNone }]

/-- The locals after declarations at the end of the path, one after another. -/
def noteAll (b : LexicalBody) (path : List Nat) : List Local → List Named → List Local
  | earlier, [] => earlier
  | earlier, d :: ds => b.noteAll path (b.note earlier path d) ds

/-- The names at hand at the end of the path: those accepted in the enclosing blocks, innermost
block first, and the globals. -/
def visibleNames (b : LexicalBody) (earlier : List Local) (path : List Nat) : List String :=
  ((b.enclosing path).flatMap fun block => (Local.acceptedIn earlier block).map (·.name)) ++
    b.globals

/-! ## Reports -/

/-- The report on a declaration, if something stands in its way. -/
def redeclared (b : LexicalBody) (earlier : List Local) (path : List Nat) (d : Named) :
    List Diagnostic :=
  if d.name = "" then []
  else
    match b.obstacle? earlier path d.name with
    | some first => [.scope (.redeclared d.name first.pos d.pos)]
    | none => []

/-- The report on an identifier, if its name is neither that of a local in scope nor global. -/
def undefined (b : LexicalBody) (earlier : List Local) (path : List Nat) (name : String)
    (pos : Option Position) : List Diagnostic :=
  if name = "" ∨ (Local.first? earlier name (b.enclosing path)).isSome ∨ name ∈ b.globals then []
  else [.undefined name pos (Spelling.nearest name (b.visibleNames earlier path) b.limit)]

/-- The report on the node at the end of the path. -/
def report (b : LexicalBody) (earlier : List Local) (path : List Nat) (t : Tree) :
    List Diagnostic :=
  if t.symbol = "declaration" then b.redeclared earlier path t.declared
  else if t.symbol = "identifier" then b.undefined earlier path t.label.text t.label.pos?
  else []

/-- The locals after the node at the end of the path. -/
def noteNode (b : LexicalBody) (earlier : List Local) (path : List Nat) (t : Tree) : List Local :=
  if t.symbol = "declaration" then b.note earlier path t.declared else earlier

/-- The locals after some nodes. -/
def locals (b : LexicalBody) : List Local → List (List Nat × Tree) → List Local
  | earlier, [] => earlier
  | earlier, (path, t) :: rest => b.locals (b.noteNode earlier path t) rest

/-- The reports on some nodes, each in view of what is declared before it. -/
def reports (b : LexicalBody) : List Local → List (List Nat × Tree) → List Diagnostic
  | _, [] => []
  | earlier, (path, t) :: rest =>
    b.report earlier path t ++ b.reports (b.noteNode earlier path t) rest

/-- The parameters, which the outermost block holds. -/
def paramLocals (b : LexicalBody) : List Local := b.noteAll [] [] b.params

/-- The reports on the nodes of the body. -/
def diagnostics (b : LexicalBody) : List Diagnostic :=
  b.reports b.paramLocals (b.block.met [])

end LexicalBody

end NameScope
