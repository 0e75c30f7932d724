import TreeDump.Weight

/-!
# Values built in place

The value of a tree is built in cells, one for each node, without recursion.  The cells are
numbered in the order in which they are made, and a cell knows those of its children by their
numbers.  A stack pairs the nodes that are still to be looked at with their cells; looking at a node
fills its cell and makes blank ones for its children, which go on top of the stack, the last one
uppermost.

* `Builder` is what has to be told of the trees, the cells and the values.
* `Builder.build` is the value of a tree.
-/

namespace TreeDump

/-- How the value of a tree is built. -/
structure Builder (Tree Cell Value : Type) where
  children : Tree → List Tree
  weight : Tree → Nat
  weigh_children : ∀ tree, weigh weight (children tree) < weight tree
  /-- The cell of a node that was not looked at. -/
  blank : Tree → Cell
  /-- The cell of a node that is looked at, if its children's cells are numbered from here on. -/
  fill : Nat → Tree → Cell → Cell
  /-- The value that is read off from a cell, if the values of its children's cells are known. -/
  value : (Nat → Value) → Cell → Value

namespace Builder

variable {Tree Cell Value : Type} (b : Builder Tree Cell Value)

/-! ## Filling -/

/-- The cells after the cell `number` of a node is filled. -/
def fillCell (cells : Array Cell) (tree : Tree) (number : Nat) : Array Cell :=
  cells.modify number (b.fill cells.size tree) ++ ((b.children tree).map b.blank).toArray

/-- The children of a node with the numbers of their cells, if `made` cells were there before. -/
def numbered (tree : Tree) (made : Nat) : List (Tree × Nat) :=
  (b.children tree).zip (List.range' made (b.children tree).length)

theorem weigh_numbered (tree : Tree) (made : Nat) :
    weigh (fun entry => b.weight entry.1) (b.numbered tree made).reverse < b.weight tree := by
  have hFirst : (b.numbered tree made).map Prod.fst = b.children tree :=
    List.map_fst_zip (by simp)
  rw [weigh_reverse, ← weigh_map Prod.fst, hFirst]
  exact b.weigh_children tree

/-- Fills the cells of a stack, the topmost first. -/
def fillCells (cells : Array Cell) (stack : List (Tree × Nat)) : Array Cell :=
  match stack with
  | [] => cells
  | (tree, number) :: rest =>
    fillCells (b.fillCell cells tree number) ((b.numbered tree cells.size).reverse ++ rest)
termination_by weigh (fun entry => b.weight entry.1) stack
decreasing_by
  have hLess := b.weigh_numbered tree cells.size
  rw [weigh_append, weigh]
  exact Nat.add_lt_add_right hLess _

/-! ## Reading off -/

variable [Inhabited Value]

/-- The value of a cell among the values of the last cells, which are listed backwards. -/
def valueOfNumber (total : Nat) (values : Array Value) (number : Nat) : Value :=
  values.getD (total - 1 - number) default

/-- The values of the last cells with that of the cell before them. -/
def placeValue (total : Nat) (cell : Cell) (values : Array Value) : Array Value :=
  values.push (b.value (valueOfNumber total values) cell)

/-- The values of cells, the last one first.  Children have higher numbers than their parents. -/
def assemble (cells : List Cell) : Array Value := cells.foldr (b.placeValue cells.length) #[]

/-- The value of a tree. -/
def build (tree : Tree) : Value :=
  let cells := (b.fillCells #[b.blank tree] [(tree, 0)]).toList
  valueOfNumber cells.length (b.assemble cells) 0

end Builder

end TreeDump
