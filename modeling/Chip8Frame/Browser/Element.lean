/-!
Elements of a document as trees. Every element has a number of its own, by which it is held and
found again after it was changed or removed. A selector is a tag, or an `id` behind a hash sign; its
name starts with an ASCII letter and goes on with letters, digits, hyphens and underscores, and upper
and lower case differ.
-/

namespace Chip8Frame.Browser

structure Node where
  id : Nat
  tag : String
  attributes : List (String × String)
  text : Option String
  value : String
  clientWidth : Int
  hasContentWindow : Bool
  deriving DecidableEq, Repr, Inhabited

namespace Node

def new (id : Nat) (tag : String) : Node :=
  { id, tag, attributes := [], text := none, value := "", clientWidth := 0,
    hasContentWindow := false }

def attribute? (n : Node) (name : String) : Option String := n.attributes.lookup name

def removeAttribute (n : Node) (name : String) : Node :=
  { n with attributes := n.attributes.filter (·.1 ≠ name) }

def setAttribute (n : Node) (name value : String) : Node :=
  { n with attributes := (n.removeAttribute name).attributes ++ [(name, value)] }

/-- The tag, with the `id` attribute behind it if there is one, even an empty one. -/
def label (n : Node) : String :=
  match n.attribute? "id" with
  | some id => n.tag ++ "#" ++ id
  | none => n.tag

def isFrame (n : Node) : Bool := n.tag = "iframe"

def isControl (n : Node) : Bool := n.tag = "select" || n.tag = "input"

/-- Graphics elements cannot hold the keyboard focus that a blur takes away. -/
def isFocusable (n : Node) : Bool := n.tag ≠ "svg"

end Node

inductive Element where
  | mk (node : Node) (children : List Element)
  deriving Inhabited

namespace Element

def node : Element → Node
  | mk node _ => node

def children : Element → List Element
  | mk _ children => children

mutual

def nodes : Element → List Node
  | mk node children => node :: nodesOf children

def nodesOf : List Element → List Node
  | [] => []
  | e :: es => nodes e ++ nodesOf es

end

def find? (p : Node → Bool) (e : Element) : Option Node := e.nodes.find? p

def holds (e : Element) (id : Nat) : Bool := e.nodes.any (·.id = id)

mutual

def update (id : Nat) (f : Node → Node) : Element → Element
  | mk node children => mk (if node.id = id then f node else node) (updateAll id f children)

def updateAll (id : Nat) (f : Node → Node) : List Element → List Element
  | [] => []
  | e :: es => update id f e :: updateAll id f es

end

mutual

/-- Adds an element as the last child of the one with that number. -/
def append (parent : Nat) (child : Element) : Element → Element
  | mk node children =>
      let children := appendAll parent child children
      mk node (if node.id = parent then children ++ [child] else children)

def appendAll (parent : Nat) (child : Element) : List Element → List Element
  | [] => []
  | e :: es => append parent child e :: appendAll parent child es

end

mutual

def below? (id : Nat) : Element → Option Element
  | mk _ children => among? id children

def among? (id : Nat) : List Element → Option Element
  | [] => none
  | e :: es => if e.node.id = id then some e else (below? id e).or (among? id es)

end

mutual

def remove (id : Nat) : Element → Element
  | mk node children => mk node (removeAll id children)

def removeAll (id : Nat) : List Element → List Element
  | [] => []
  | e :: es => if e.node.id = id then removeAll id es else remove id e :: removeAll id es

end

end Element

inductive Selector where
  | tag (name : String)
  | id (name : String)
  deriving DecidableEq, Repr

namespace Selector

def isName : List Char → Bool
  | [] => false
  | c :: cs => c.isAlpha && cs.all fun c => c.isAlphanum || c = '-' || c = '_'

def read? (text : String) : Option Selector :=
  match text.toList with
  | '#' :: name => if isName name then some (.id (String.ofList name)) else none
  | name => if isName name then some (.tag (String.ofList name)) else none

def selects : Selector → Node → Bool
  | tag name, n => n.tag = name
  | id name, n => n.attribute? "id" = some name

end Selector

end Chip8Frame.Browser
