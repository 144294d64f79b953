import NameScope.Position

/-
  Syntax trees as a parser leaves them.  A node carries a grammar symbol, the text that it matched,
  the action that the grammar attaches to it and perhaps a token of the source; trees have any
  number of children and any depth.
-/

namespace NameScope

/-- A piece of the source text as the lexer reports it. -/
structure Token where
  text : String
  symbol : String
  pos : Position
deriving DecidableEq

/-- Whether a node was read or reduced. -/
inductive SymbolClass where
  | terminal
  | nonterminal
deriving DecidableEq

/-- The semantic action of a grammar rule; `pass` is none in particular. -/
inductive Action where
  | pass
  | named (name : String)
deriving DecidableEq

namespace Action

def text : Action → String
  | pass => "Pass"
  | named name => name

def isPass : Action → Bool
  | pass => true
  | named _ => false

end Action

/-- What a node carries besides its children; `rank` is its place among its siblings. -/
structure Label where
  symbolClass : SymbolClass
  text : String := ""
  symbol : String
  rank : UInt32 := 0
  action : Action := .pass
  token : Option Token := none
deriving DecidableEq

namespace Label

/-- The label of a node that stands for a token. -/
def ofToken (symbolClass : SymbolClass) (t : Token) : Label where
  symbolClass := symbolClass
  text := t.text
  symbol := t.symbol
  token := some t

def isTerminal (l : Label) : Bool := l.symbolClass = .terminal

/-- Where the token of the node stands. -/
def pos? (l : Label) : Option Position := l.token.map (·.pos)

end Label

inductive Tree where
  | node (label : Label) (children : List Tree)

namespace Tree

def label : Tree → Label
  | node l _ => l

def children : Tree → List Tree
  | node _ cs => cs

def symbol (t : Tree) : String := t.label.symbol

@[simp] theorem symbol_node (l : Label) (cs : List Tree) : (node l cs).symbol = l.symbol := rfl

/-- A node without children. -/
def leaf (l : Label) : Tree := node l []

instance : Inhabited Tree := ⟨leaf { symbolClass := .nonterminal, symbol := "" }⟩

/-- The terminal node of a token. -/
def ofToken (t : Token) : Tree := leaf (.ofToken .terminal t)

def modifyLabel (f : Label → Label) : Tree → Tree
  | node l cs => node (f l) cs

/-- A node for `symbol` over the given children, which are ranked from left to right. -/
def reduce (symbol : String) (children : List Tree) : Tree :=
  node { symbolClass := .nonterminal, symbol := symbol } <|
    children.mapIdx fun i c => c.modifyLabel fun l => { l with rank := UInt32.ofNat i }

/-- Appends a child. -/
def push (t child : Tree) : Tree := node t.label (t.children ++ [child])

mutual

/-- The number of nodes. -/
def size : Tree → Nat
  | node _ cs => sizeAll cs + 1

def sizeAll : List Tree → Nat
  | [] => 0
  | t :: ts => t.size + sizeAll ts

end

mutual

/-- The number of levels below the root. -/
def height : Tree → Nat
  | node _ cs => heightAll cs

/-- The number of levels of a list of siblings. -/
def heightAll : List Tree → Nat
  | [] => 0
  | t :: ts => max (t.height + 1) (heightAll ts)

end

/-! ## Nodes by path -/

/-- The node that is reached from the root by taking the child at each position of the path. -/
def at? : List Nat → Tree → Option Tree
  | [], t => some t
  | i :: path, t => t.children[i]?.bind (at? path)

/-- Changes the node at the end of the path; without such a node there is no result. -/
def modifyAt? (f : Tree → Tree) : List Nat → Tree → Option Tree
  | [], t => some (f t)
  | i :: path, t => do
    let child ← t.children[i]?
    let child ← modifyAt? f path child
    return node t.label (t.children.set i child)

/-- Appends `child` to the children of the node at the end of the path. -/
def graft? (t : Tree) (path : List Nat) (child : Tree) : Option Tree :=
  modifyAt? (·.push child) path t

end Tree

end NameScope
