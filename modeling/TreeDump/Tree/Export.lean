import TreeDump.Text.Utf8
import TreeDump.Tree.Basic
import TreeDump.Tree.Builder

/-!
# From a syntax tree to nodes

A node of the export has the kind and the span of its syntax node.  Children are exported in
order; a childless node gets the text of its span if the span is not empty.

* `Node.ofTree` is the export by recursion on the tree.
* `Node.ofSyntax` is the export that is built in place.  Each syntax node gets a shell, an exported
  node that has neither children nor text yet and is filled when the syntax node is looked at.
-/

namespace TreeDump

/-! ## Text of a span -/

/-- Where a bound falls in a sequence of `size` bytes.  A negative bound counts from the end,
and a bound outside the sequence is moved to its nearer end. -/
def clampBound (size : Nat) (bound : Int) : Nat :=
  if bound < 0 then (bound + size).toNat else min bound.toNat size

def spanBytes (source : ByteArray) (start stop : Int) : ByteArray :=
  source.extract (clampBound source.size start) (clampBound source.size stop)

/-- The text of a childless node: none if the span is empty, and with replacement characters
where its bytes are no text. -/
def leafText (source : ByteArray) (start stop : Int) : Option String :=
  if start < stop then some (Utf8.decodeLossy (spanBytes source start stop)) else none

namespace Node

/-! ## By recursion -/

mutual

/-- The exported node of a syntax tree. -/
def ofTree (source : ByteArray) : SyntaxTree → Node
  | .node kind start stop [] => node kind start stop none (leafText source start stop)
  | .node kind start stop (child :: children) =>
    node kind start stop (some (ofTree source child :: ofTrees source children)) none

def ofTrees (source : ByteArray) : List SyntaxTree → List Node
  | [] => []
  | tree :: rest => ofTree source tree :: ofTrees source rest

end

/-! ## In place -/

/-- A node of the export while it is built.  The shells of an export are numbered in the order in
which they are made, and a shell knows its children by their numbers. -/
structure Shell where
  kind : String
  start : Int
  stop : Int
  children : Option (List Nat) := none
  text : Option String := none

namespace Shell

/-- The shell of a syntax node, of which only its kind and span are known. -/
def ofTree (tree : SyntaxTree) : Shell :=
  { kind := tree.kind, start := tree.start, stop := tree.stop }

/-- A shell of a syntax node that is looked at: a childless node gets its text if it has one, any
other node the numbers of its children's shells, of which the first will be `made`. -/
def filled (source : ByteArray) (made : Nat) (tree : SyntaxTree) (shell : Shell) : Shell :=
  match tree.children with
  | [] => { shell with text := leafText source shell.start shell.stop }
  | children => { shell with children := some (List.range' made children.length) }

/-- The node of a shell, where `value` tells the nodes of its children. -/
def toNode (value : Nat → Node) (shell : Shell) : Node :=
  node shell.kind shell.start shell.stop (shell.children.map (·.map value)) shell.text

end Shell

mutual

/-- The number of turns that exporting a tree takes. -/
def turns : SyntaxTree → Nat
  | .node _ _ _ children => turnsOfAll children + 1

def turnsOfAll : List SyntaxTree → Nat
  | [] => 0
  | tree :: rest => turns tree + turnsOfAll rest

end

theorem turnsOfAll_eq (trees : List SyntaxTree) : turnsOfAll trees = weigh turns trees := by
  induction trees with
  | nil => rfl
  | cons tree rest ih => rw [turnsOfAll, weigh, ih]

/-- How the exported node of a syntax tree is built. -/
def shellBuilder (source : ByteArray) : Builder SyntaxTree Shell Node where
  children := SyntaxTree.children
  weight := turns
  weigh_children tree := by
    obtain ⟨kind, start, stop, children⟩ := tree
    rw [turns, turnsOfAll_eq]
    exact Nat.lt_succ_self _
  blank := Shell.ofTree
  fill := Shell.filled source
  value := Shell.toNode

/-- The exported node of a syntax tree over its source. -/
def ofSyntax (source : ByteArray) (tree : SyntaxTree) : Node := (shellBuilder source).build tree

end Node

/-! ## Sources -/

/-- What a tree was parsed from. -/
inductive Source where
  | text (s : String)
  | bytes (data : ByteArray)

def Source.toBytes : Source → ByteArray
  | text s => s.toUTF8
  | bytes data => data

/-- The exported node of a syntax tree over the text or the bytes that it was parsed from. -/
def Node.ofSource (source : Source) (tree : SyntaxTree) : Node := ofSyntax source.toBytes tree

end TreeDump
