import TreeDump.Tree.Basic
import TreeDump.Tree.Builder

/-!
# Walking and converting nodes without recursion

Both work on a stack of trees that are still to be looked at, so that nesting costs memory instead
of recursive calls.

* `Node.walk` lists the nodes of a tree.
* `Node.toObject` is the value of a node, with objects that are made empty and filled in place,
  field after field.
-/

namespace TreeDump.Node

/-! ## The measure -/

mutual

def size : Node → Nat
  | node _ _ _ children _ => sizeChildren children + 1

def sizeChildren : Option (List Node) → Nat
  | some children => sizeList children
  | none => 0

def sizeList : List Node → Nat
  | [] => 0
  | n :: rest => size n + sizeList rest

end

theorem sizeList_append (upper lower : List Node) :
    sizeList (upper ++ lower) = sizeList upper + sizeList lower := by
  induction upper with
  | nil => simp [sizeList]
  | cons n rest ih => simp [sizeList, ih]; omega

theorem size_eq (n : Node) : size n = sizeList n.childList + 1 := by
  cases n with
  | node kind start stop children text =>
    cases children <;> simp [size, sizeChildren, childList, children, sizeList]

/-! ## The walk -/

/-- Lists the trees of a stack after the nodes `done`, which are kept backwards. -/
def walkStack (done : List Node) (stack : List Node) : List Node :=
  match stack with
  | [] => done.reverse
  | n :: rest => walkStack (n :: done) (n.childList ++ rest)
termination_by sizeList stack
decreasing_by
  simp only [sizeList, sizeList_append, size_eq]
  omega

/-- A node and all nodes below it, each before its children. -/
def walk (n : Node) : List Node := walkStack [] [n]

/-! ## The value of a node -/

/-- What stands under a key of an object that is built. -/
inductive Draft.Held where
  | value (v : Json)
  /-- A list of objects that are built as well, by their numbers. -/
  | drafts (numbers : List Nat)

/-- An object while it is built. -/
abbrev Draft := List (String × Draft.Held)

namespace Draft

/-- Puts something under a key, in place of what was there; a new key is the last one. -/
def put (draft : Draft) (key : String) (held : Held) : Draft :=
  if draft.any (·.1 == key) then
    draft.map fun field => if field.1 == key then (key, held) else field
  else draft ++ [(key, held)]

/-- Puts something under a key if there is something to put. -/
def put? (draft : Draft) (key : String) : Option Held → Draft
  | some held => draft.put key held
  | none => draft

/-- The object of a node, if those of its children are numbered from `made` on. -/
def filled (made : Nat) (n : Node) (draft : Draft) : Draft :=
  ((((draft.put "kind" (.value (.str n.kind))).put "start_byte" (.value (.int n.start))).put
    "end_byte" (.value (.int n.stop))).put?
    "children" (n.children.map fun children => .drafts (List.range' made children.length))).put?
    "text" (n.text.map fun text => .value (.str text))

def Held.toJson (value : Nat → Json) : Held → Json
  | .value v => v
  | .drafts numbers => .arr (numbers.map value)

/-- The value of an object, where `value` tells the values of those that are built as well. -/
def toJson (value : Nat → Json) (draft : Draft) : Json :=
  .obj (draft.map fun field => (field.1, field.2.toJson value))

end Draft

theorem sizeList_eq_weigh (nodes : List Node) : sizeList nodes = weigh size nodes := by
  induction nodes with
  | nil => rfl
  | cons n rest ih => rw [sizeList, weigh, ih]

/-- How the value of a node is built. -/
def objectBuilder : Builder Node Draft Json where
  children := childList
  weight := size
  weigh_children n := by rw [← sizeList_eq_weigh, size_eq]; exact Nat.lt_succ_self _
  blank _ := []
  fill := Draft.filled
  value := Draft.toJson

/-- The value of a node. -/
def toObject (n : Node) : Json := objectBuilder.build n

end TreeDump.Node
