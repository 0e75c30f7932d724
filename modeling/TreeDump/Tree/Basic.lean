import TreeDump.Json.Basic

/-!
# Syntax trees and their exported nodes

A grammar answers a `SyntaxTree`: kinds, spans and children, with no text.  What is written out
is a tree of `Node`s, in which a leaf carries the text it spans and a key that does not apply is
absent.

* `Node.toJson` is the value of a node: kind and span, then the children if there are any to
  tell of, then the text if there is one.
* `Node.preorder` lists a node and all nodes below it, each before its own children.
-/

namespace TreeDump

/-- A tree that a grammar answers.  The span counts bytes of the source. -/
inductive SyntaxTree where
  | node (kind : String) (start stop : Int) (children : List SyntaxTree)
deriving Inhabited

namespace SyntaxTree

def kind : SyntaxTree → String
  | node kind _ _ _ => kind

def start : SyntaxTree → Int
  | node _ start _ _ => start

def stop : SyntaxTree → Int
  | node _ _ stop _ => stop

def children : SyntaxTree → List SyntaxTree
  | node _ _ _ children => children

/-- A tree inside `n` nodes that have it as their only child and span the same bytes. -/
def enclosed (kind : String) (tree : SyntaxTree) : Nat → SyntaxTree
  | 0 => tree
  | n + 1 => node kind tree.start tree.stop [enclosed kind tree n]

end SyntaxTree

/-- An exported node.  Absent children and an empty list of children are told apart. -/
inductive Node where
  | node (kind : String) (start stop : Int) (children : Option (List Node))
      (text : Option String)
deriving Inhabited

namespace Node

def kind : Node → String
  | node kind _ _ _ _ => kind

def start : Node → Int
  | node _ start _ _ _ => start

def stop : Node → Int
  | node _ _ stop _ _ => stop

def children : Node → Option (List Node)
  | node _ _ _ children _ => children

def text : Node → Option String
  | node _ _ _ _ text => text

/-- The children, whether there are none or nothing is told of them. -/
def childList (n : Node) : List Node := n.children.getD []

def isLeaf (n : Node) : Bool := n.childList.isEmpty

/-! ## The value of a node -/

mutual

def toJson : Node → Json
  | node kind start stop children text =>
    .obj ([("kind", .str kind), ("start_byte", .int start), ("end_byte", .int stop)]
      ++ childrenField children
      ++ match text with
        | some text => [("text", .str text)]
        | none => [])

/-- The field that tells of the children. -/
def childrenField : Option (List Node) → List (String × Json)
  | some children => [("children", .arr (toJsonList children))]
  | none => []

def toJsonList : List Node → List Json
  | [] => []
  | n :: rest => toJson n :: toJsonList rest

end

/-! ## The order of nodes -/

mutual

/-- A node and all nodes below it, each before its children. -/
def preorder : Node → List Node
  | node kind start stop children text =>
    node kind start stop children text :: preorderChildren children

def preorderChildren : Option (List Node) → List Node
  | some children => preorderList children
  | none => []

def preorderList : List Node → List Node
  | [] => []
  | n :: rest => preorder n ++ preorderList rest

end

end Node

end TreeDump
