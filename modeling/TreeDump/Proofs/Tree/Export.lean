import Mathlib.Data.List.Forall2
import TreeDump.Proofs.Tree.Builder
import TreeDump.Tree.Export

/-!
# The export of a syntax tree

The export fills shells in place, so it is an instance of building in place: a shell knows the
numbers of its children's shells, and the node that is read off from it is that of the recursion as
long as those of its children are.

* `shellBuilder_computes`: one shell at a time, the export is that of the recursion.
* `ofSyntax_eq_ofTree`: the export with a stack is the export by recursion.
* `ofSource_exported`: the exported tree has the shape of the syntax tree, kinds and spans are
  kept, and of children and text each node carries what it has to and nothing else.
-/

namespace TreeDump

namespace Node

/-! ## The export as building in place -/

theorem ofTrees_eq_map (source : ByteArray) (trees : List SyntaxTree) :
    ofTrees source trees = trees.map (ofTree source) := by
  induction trees with
  | nil => rfl
  | cons tree rest ih => rw [ofTrees, ih, List.map_cons]

/-- The numbers of the shells of a shell's children. -/
def Shell.links (shell : Shell) : List Nat := shell.children.getD []

/-- The node of a shell depends on the nodes of its children only. -/
theorem Shell.toNode_congr {shell : Shell} {value other : Nat → Node}
    (hSame : ∀ child ∈ shell.links, value child = other child) :
    shell.toNode value = shell.toNode other := by
  obtain ⟨kind, start, stop, children, text⟩ := shell
  cases children with
  | none => rfl
  | some children =>
    have hMap : children.map value = children.map other := List.map_congr_left hSame
    exact congrArg (node kind start stop · text) (congrArg some hMap)

theorem shellBuilder_computes (source : ByteArray) :
    (shellBuilder source).Computes Shell.links (ofTree source) where
  congr _ _ _ hSame := Shell.toNode_congr hSame
  blank _ := rfl
  links_fill made tree := by
    obtain ⟨kind, start, stop, children⟩ := tree
    cases children with
    | nil => exact List.nil_subset _
    | cons child children => exact List.Subset.refl _
  value_fill made tree value hValues := by
    obtain ⟨kind, start, stop, children⟩ := tree
    cases children with
    | nil => rfl
    | cons child children =>
      rw [ofTree, ← ofTrees, ofTrees_eq_map]
      exact congrArg (node kind start stop · none) (congrArg some hValues)

/-- The export with a stack is the export by recursion. -/
theorem ofSyntax_eq_ofTree (source : ByteArray) (tree : SyntaxTree) :
    ofSyntax source tree = ofTree source tree :=
  (shellBuilder_computes source).build_eq tree

/-! ## The exported tree -/

/-- The bytes of a span without negative bounds are those from its start up to its end. -/
theorem spanBytes_natCast (source : ByteArray) (start stop : Nat) :
    spanBytes source start stop = source.extract start stop := by
  have hClamp : ∀ bound : Nat, clampBound source.size bound = min bound source.size := by
    intro bound
    rw [clampBound, if_neg (by omega), Int.toNat_natCast]
  apply ByteArray.ext
  rw [spanBytes, hClamp, hClamp, ByteArray.data_extract, ByteArray.data_extract]
  apply Array.ext_getElem?
  intro i
  rw [Array.getElem?_extract, Array.getElem?_extract, ByteArray.size_data]
  have hSize : source.data.size = source.size := rfl
  grind

/-- `Exported source tree n`: the node `n` and all nodes below it tell of `tree` what is to be
told. -/
inductive Exported (source : ByteArray) : SyntaxTree → Node → Prop where
  /-- A node with children has children and no text. -/
  | inner {kind : String} {start stop : Int} {trees : List SyntaxTree} {nodes : List Node}
      (hTrees : trees ≠ []) (hNodes : List.Forall₂ (Exported source) trees nodes) :
      Exported source (.node kind start stop trees) (.node kind start stop (some nodes) none)
  /-- A childless node has the text of its span. -/
  | leaf {kind : String} {start stop : Int} (hSpan : start < stop) :
      Exported source (.node kind start stop [])
        (.node kind start stop none (some (Utf8.decodeLossy (spanBytes source start stop))))
  /-- A childless node without a span has neither children nor text. -/
  | empty {kind : String} {start stop : Int} (hSpan : stop ≤ start) :
      Exported source (.node kind start stop []) (.node kind start stop none none)

mutual

theorem exported_ofTree (source : ByteArray) :
    ∀ tree : SyntaxTree, Exported source tree (ofTree source tree)
  | .node kind start stop [] => by
    rw [ofTree, leafText]
    split
    · exact .leaf ‹_›
    · exact .empty (by omega)
  | .node kind start stop (child :: children) => by
    rw [ofTree]
    exact .inner (List.cons_ne_nil child children)
      (.cons (exported_ofTree source child) (exported_ofTrees source children))

theorem exported_ofTrees (source : ByteArray) :
    ∀ trees : List SyntaxTree, List.Forall₂ (Exported source) trees (ofTrees source trees)
  | [] => .nil
  | tree :: rest => .cons (exported_ofTree source tree) (exported_ofTrees source rest)

end

mutual

/-- What is to be told of a tree leaves no choice. -/
theorem Exported.unique {source : ByteArray} :
    ∀ {tree : SyntaxTree} {n : Node}, Exported source tree n → n = ofTree source tree
  | .node kind start stop [], n, h => by
    cases h with
    | inner hTrees => exact absurd rfl hTrees
    | leaf hSpan => rw [ofTree, leafText, if_pos hSpan]
    | empty hSpan => rw [ofTree, leafText, if_neg (by omega)]
  | .node kind start stop (child :: children), n, h => by
    cases h with
    | inner hTrees hNodes =>
      cases hNodes with
      | cons hChild hChildren =>
        rw [ofTree, hChild.unique, exported_unique hChildren]

theorem exported_unique {source : ByteArray} :
    ∀ {trees : List SyntaxTree} {nodes : List Node},
      List.Forall₂ (Exported source) trees nodes → nodes = ofTrees source trees
  | [], nodes, h => by
    cases h
    rfl
  | tree :: rest, nodes, h => by
    cases h with
    | cons hTree hRest => rw [ofTrees, hTree.unique, exported_unique hRest]

end

/-- The export tells of every tree what is to be told, and nothing else tells the same. -/
theorem ofSource_exported (source : Source) (tree : SyntaxTree) :
    Exported source.toBytes tree (ofSource source tree) ∧
      (∀ n, Exported source.toBytes tree n → n = ofSource source tree) ∧
      ∀ start stop : Nat,
        spanBytes source.toBytes start stop = source.toBytes.extract start stop := by
  rw [ofSource, ofSyntax_eq_ofTree]
  exact ⟨exported_ofTree source.toBytes tree, fun n h => h.unique,
    spanBytes_natCast source.toBytes⟩

end Node

end TreeDump
