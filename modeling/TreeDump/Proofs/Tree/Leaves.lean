import TreeDump.Proofs.Text.Utf8
import TreeDump.Proofs.Tree.Export
import TreeDump.Tree.Traversal

/-!
# The text of the leaves

A walk lists every node before its children, so it comes to the leaves from left to right.  What a
leaf carries is read from the bytes of its span.  If those begin and end where characters do, they
are a part of the text that was parsed, and reading them back gives that part; if the spans follow
one another without gaps, the parts put together are the text.

* `walk_eq_preorder`: the walk with a stack is the walk by recursion.
* `leaves_preorder`: the leaves of an export are the exports of the childless syntax nodes.
* `exists_leafText`: the text of a leaf is the part of the text that its span covers.
* `ofSource_lossless`: all of that for the leaves of an export.
-/

namespace TreeDump

/-! ## Childless syntax nodes -/

namespace SyntaxTree

mutual

/-- The childless nodes of a syntax tree, from left to right. -/
def leaves : SyntaxTree → List SyntaxTree
  | node kind start stop [] => [node kind start stop []]
  | node _ _ _ (child :: children) => leaves child ++ leavesOfAll children

def leavesOfAll : List SyntaxTree → List SyntaxTree
  | [] => []
  | tree :: rest => leaves tree ++ leavesOfAll rest

end

def span (tree : SyntaxTree) : Int × Int := (tree.start, tree.stop)

end SyntaxTree

/-- `Tiles first last spans`: the spans follow one another without gaps, the first from `first` on
and the last up to `last`.  An empty span covers nothing, so it may be anywhere. -/
def Tiles (first last : Int) : List (Int × Int) → Prop
  | [] => first = last
  | (start, stop) :: rest =>
    if start < stop then start = first ∧ Tiles stop last rest else Tiles first last rest

namespace Node

/-! ## The order of a walk -/

theorem preorder_eq (n : Node) : preorder n = n :: preorderList n.childList := by
  obtain ⟨kind, start, stop, children, text⟩ := n
  cases children <;> rfl

theorem preorderList_append (upper lower : List Node) :
    preorderList (upper ++ lower) = preorderList upper ++ preorderList lower := by
  induction upper with
  | nil => rfl
  | cons n rest ih => rw [List.cons_append, preorderList, preorderList, ih, List.append_assoc]

theorem walkStack_eq (done stack : List Node) :
    walkStack done stack = done.reverse ++ preorderList stack := by
  induction done, stack using walkStack.induct with
  | case1 done => rw [walkStack, preorderList, List.append_nil]
  | case2 done n rest ih =>
    rw [walkStack, ih, preorderList_append, preorderList, preorder_eq, List.reverse_cons,
      List.append_assoc, List.singleton_append, List.cons_append]

/-- The walk with a stack is the walk by recursion. -/
theorem walk_eq_preorder (n : Node) : n.walk = n.preorder := by
  rw [walk, walkStack_eq, preorderList, preorderList, List.append_nil]
  rfl

/-! ## The leaves of an export -/

def span (n : Node) : Int × Int := (n.start, n.stop)

/-- The leaves of a tree in the order of a walk. -/
def leaves (n : Node) : List Node := n.walk.filter isLeaf

mutual

theorem leaves_preorder (source : ByteArray) :
    ∀ tree : SyntaxTree,
      (ofTree source tree).preorder.filter isLeaf = tree.leaves.map (ofTree source)
  | .node kind start stop [] => rfl
  | .node kind start stop (child :: children) => by
    rw [ofTree, preorder, preorderChildren, ← ofTrees, List.filter_cons_of_neg (by simp [isLeaf,
      childList, Node.children, ofTrees]), leaves_preorderList source (child :: children)]
    rfl

theorem leaves_preorderList (source : ByteArray) :
    ∀ trees : List SyntaxTree, (preorderList (ofTrees source trees)).filter isLeaf
      = (SyntaxTree.leavesOfAll trees).map (ofTree source)
  | [] => rfl
  | tree :: rest => by
    rw [ofTrees, preorderList, List.filter_append, leaves_preorder source tree,
      leaves_preorderList source rest, SyntaxTree.leavesOfAll, List.map_append]

end

theorem leaves_ofSource (source : Source) (tree : SyntaxTree) :
    (ofSource source tree).leaves = tree.leaves.map (ofTree source.toBytes) := by
  rw [leaves, walk_eq_preorder, ofSource, ofSyntax_eq_ofTree, leaves_preorder]

mutual

theorem children_of_mem_leaves :
    ∀ {tree leaf : SyntaxTree}, leaf ∈ tree.leaves → leaf.children = []
  | .node kind start stop [], leaf, hLeaf => by
    obtain rfl := List.mem_singleton.mp hLeaf
    rfl
  | .node kind start stop (child :: children), leaf, hLeaf => by
    rcases List.mem_append.mp hLeaf with hChild | hRest
    · exact children_of_mem_leaves hChild
    · exact children_of_mem_leavesOfAll hRest

theorem children_of_mem_leavesOfAll :
    ∀ {trees : List SyntaxTree} {leaf : SyntaxTree}, leaf ∈ SyntaxTree.leavesOfAll trees →
      leaf.children = []
  | tree :: rest, leaf, hLeaf => by
    rcases List.mem_append.mp hLeaf with hTree | hRest
    · exact children_of_mem_leaves hTree
    · exact children_of_mem_leavesOfAll hRest

end

/-- A childless syntax node is exported with its span and the text of it. -/
theorem ofTree_leaf (source : ByteArray) {leaf : SyntaxTree} (hLeaf : leaf.children = []) :
    (ofTree source leaf).span = leaf.span ∧
      (ofTree source leaf).text = leafText source leaf.start leaf.stop := by
  obtain ⟨kind, start, stop, children⟩ := leaf
  obtain rfl : children = [] := hLeaf
  exact ⟨rfl, rfl⟩

end Node

/-! ## Parts of a text -/

open Utf8 (IsBoundary)

/-- Between two boundaries, a leaf carries the part of the text that its span covers. -/
theorem exists_leafText {s : String} {start stop : Int} (hStart : IsBoundary s start)
    (hStop : IsBoundary s stop) (hSpan : start < stop) :
    ∃ before part after, s = before ++ part ++ after ∧ before.utf8ByteSize = start ∧
      (before ++ part).utf8ByteSize = stop ∧
      part.toUTF8 = s.toUTF8.extract start.toNat stop.toNat ∧
      leafText s.toUTF8 start stop = some part := by
  obtain ⟨before, part, after, rfl, rfl, rfl⟩ := hStart.exists_part hStop (by omega)
  have hPart := Utf8.extract_part before part after
  refine ⟨before, part, after, rfl, rfl, rfl, hPart.symm, ?_⟩
  rw [leafText, if_pos hSpan, Node.spanBytes_natCast, hPart, Utf8.decodeLossy_toUTF8]

/-- The texts of leaves over the bytes of `s`, one after the other. -/
def joinedText (s : String) (leaves : List SyntaxTree) : String :=
  String.join (leaves.filterMap fun leaf => leafText s.toUTF8 leaf.start leaf.stop)

/-- Where spans tile a part of a text, the texts of the leaves put together are that part. -/
theorem joinedText_of_tiles {s before rest : String} {last : Int} {leaves : List SyntaxTree}
    (hText : s = before ++ rest)
    (hLeaves : ∀ leaf ∈ leaves, IsBoundary s leaf.start ∧ IsBoundary s leaf.stop)
    (hTiles : Tiles before.utf8ByteSize last (leaves.map SyntaxTree.span)) :
    ∃ after, s = before ++ joinedText s leaves ++ after ∧
      (before ++ joinedText s leaves).utf8ByteSize = last := by
  induction leaves generalizing before rest with
  | nil =>
    have hLast : before.utf8ByteSize = last := hTiles
    refine ⟨rest, ?_, ?_⟩
    · simpa [joinedText] using hText
    · simpa [joinedText] using hLast
  | cons leaf others ih =>
    have hOthers := fun other hOther => hLeaves other (List.mem_cons_of_mem leaf hOther)
    obtain ⟨hStart, hStop⟩ := hLeaves leaf List.mem_cons_self
    rw [List.map_cons, SyntaxTree.span, Tiles] at hTiles
    by_cases hSpan : leaf.start < leaf.stop
    · rw [if_pos hSpan] at hTiles
      obtain ⟨hFirst, hTail⟩ := hTiles
      obtain ⟨front, part, back, hParts, hFront, hPart, -, hLeaf⟩ :=
        exists_leafText hStart hStop hSpan
      have hSame : front ++ (part ++ back) = before ++ rest := by
        rw [← String.append_assoc, ← hParts, hText]
      obtain rfl : front = before := Utf8.eq_of_append_eq hSame (by omega)
      rw [← hPart] at hTail
      obtain ⟨after, hWhole, hLast⟩ := ih hParts hOthers hTail
      have hJoined : joinedText s (leaf :: others) = part ++ joinedText s others := by
        rw [joinedText, List.filterMap_cons, hLeaf, String.join_cons, joinedText]
      rw [hJoined, ← String.append_assoc]
      exact ⟨after, hWhole, hLast⟩
    · rw [if_neg hSpan] at hTiles
      have hJoined : joinedText s (leaf :: others) = joinedText s others := by
        rw [joinedText, List.filterMap_cons, leafText, if_neg hSpan, joinedText]
      rw [hJoined]
      exact ih hText hOthers hTiles

/-- Where spans tile the whole text, the texts of the leaves put together are the text. -/
theorem joinedText_eq {s : String} {leaves : List SyntaxTree}
    (hLeaves : ∀ leaf ∈ leaves, IsBoundary s leaf.start ∧ IsBoundary s leaf.stop)
    (hTiles : Tiles 0 s.utf8ByteSize (leaves.map SyntaxTree.span)) : joinedText s leaves = s := by
  have hFront : s = "" ++ s := (String.empty_append).symm
  obtain ⟨after, hText, hSize⟩ := joinedText_of_tiles hFront hLeaves hTiles
  rw [String.empty_append] at hText hSize
  have hWhole : joinedText s leaves ++ after = s ++ "" := by rw [← hText, String.append_empty]
  exact Utf8.eq_of_append_eq hWhole (by omega)

/-! ## Exported leaves -/

namespace Node

/-- Over a text, with the spans of all leaves between characters: the export is the same over the
text and over its bytes, its leaves have the spans of the childless syntax nodes, and each leaf with
a span carries the part of the text that the span covers.  If the spans tile the text, the texts of
the leaves put together are the text. -/
theorem ofSource_lossless {s : String} {tree : SyntaxTree}
    (hLeaves : ∀ leaf ∈ tree.leaves, IsBoundary s leaf.start ∧ IsBoundary s leaf.stop) :
    ofSource (.text s) tree = ofSource (.bytes s.toUTF8) tree ∧
    (ofSource (.bytes s.toUTF8) tree).leaves.map span = tree.leaves.map SyntaxTree.span ∧
    (∀ leaf ∈ (ofSource (.bytes s.toUTF8) tree).leaves, leaf.start < leaf.stop →
      ∃ before part after, s = before ++ part ++ after ∧ before.utf8ByteSize = leaf.start ∧
        (before ++ part).utf8ByteSize = leaf.stop ∧ leaf.text = some part ∧
        part.toUTF8 = s.toUTF8.extract leaf.start.toNat leaf.stop.toNat) ∧
    (Tiles 0 s.toUTF8.size ((ofSource (.bytes s.toUTF8) tree).leaves.map span) →
      String.join ((ofSource (.bytes s.toUTF8) tree).leaves.filterMap Node.text) = s) := by
  have hExported : ∀ leaf ∈ tree.leaves, (ofTree s.toUTF8 leaf).span = leaf.span ∧
      (ofTree s.toUTF8 leaf).text = leafText s.toUTF8 leaf.start leaf.stop :=
    fun leaf hLeaf => ofTree_leaf s.toUTF8 (children_of_mem_leaves hLeaf)
  have hSpans : (ofSource (.bytes s.toUTF8) tree).leaves.map span
      = tree.leaves.map SyntaxTree.span := by
    rw [leaves_ofSource, List.map_map]
    exact List.map_congr_left fun leaf hLeaf => (hExported leaf hLeaf).1
  refine ⟨rfl, hSpans, ?_, ?_⟩
  · intro n hMem hSpan
    rw [leaves_ofSource] at hMem
    obtain ⟨leaf, hLeaf, rfl⟩ := List.mem_map.mp hMem
    obtain ⟨hSame, hText⟩ := hExported leaf hLeaf
    obtain ⟨hStart, hStop⟩ := Prod.mk.inj hSame
    rw [Source.toBytes, hStart, hStop] at hSpan ⊢
    rw [hText]
    obtain ⟨before, part, after, hParts, hBefore, hPart, hBytes, hCarried⟩ :=
      exists_leafText (hLeaves leaf hLeaf).1 (hLeaves leaf hLeaf).2 hSpan
    exact ⟨before, part, after, hParts, hBefore, hPart, hCarried, hBytes⟩
  · intro hTiles
    rw [hSpans] at hTiles
    have hTexts : (ofSource (.bytes s.toUTF8) tree).leaves.filterMap Node.text
        = tree.leaves.filterMap fun leaf => leafText s.toUTF8 leaf.start leaf.stop := by
      rw [leaves_ofSource, List.filterMap_map]
      exact List.filterMap_congr fun leaf hLeaf => (hExported leaf hLeaf).2
    rw [hTexts]
    exact joinedText_eq hLeaves hTiles

/-- A tree over characters of one, two and four bytes, with an empty leaf at the end. -/
def wideTree : SyntaxTree :=
  .node "source_file" 0 7 [.node "group" 0 3 [.node "word" 0 1 [], .node "word" 1 3 []],
    .node "word" 3 7 [], .node "MISSING" 7 7 []]

theorem ofSource_lossless_wide :
    (∀ leaf ∈ wideTree.leaves, IsBoundary "aé𝄞" leaf.start ∧ IsBoundary "aé𝄞" leaf.stop) ∧
      Tiles 0 "aé𝄞".toUTF8.size ((ofSource (.bytes "aé𝄞".toUTF8) wideTree).leaves.map span) ∧
      String.join ((ofSource (.bytes "aé𝄞".toUTF8) wideTree).leaves.filterMap Node.text)
        = "aé𝄞" := by
  have hZero : IsBoundary "aé𝄞" 0 := Utf8.isBoundary_iff.mpr ⟨"", "aé𝄞", by decide, by decide⟩
  have hOne : IsBoundary "aé𝄞" 1 := Utf8.isBoundary_iff.mpr ⟨"a", "é𝄞", by decide, by decide⟩
  have hThree : IsBoundary "aé𝄞" 3 := Utf8.isBoundary_iff.mpr ⟨"aé", "𝄞", by decide, by decide⟩
  have hSeven : IsBoundary "aé𝄞" 7 := Utf8.isBoundary_iff.mpr ⟨"aé𝄞", "", by decide, by decide⟩
  have hLeaves : ∀ leaf ∈ wideTree.leaves,
      IsBoundary "aé𝄞" leaf.start ∧ IsBoundary "aé𝄞" leaf.stop := by
    have hList : wideTree.leaves = [.node "word" 0 1 [], .node "word" 1 3 [],
        .node "word" 3 7 [], .node "MISSING" 7 7 []] := rfl
    rw [hList]
    simp only [List.forall_mem_cons, List.not_mem_nil, false_implies, implies_true, and_true]
    exact ⟨⟨hZero, hOne⟩, ⟨hOne, hThree⟩, ⟨hThree, hSeven⟩, hSeven, hSeven⟩
  obtain ⟨-, hSpans, -, hJoin⟩ := ofSource_lossless hLeaves
  have hTiles : Tiles 0 "aé𝄞".toUTF8.size
      ((ofSource (.bytes "aé𝄞".toUTF8) wideTree).leaves.map span) := by
    rw [hSpans]
    exact ⟨rfl, rfl, rfl, rfl⟩
  exact ⟨hLeaves, hTiles, hJoin hTiles⟩

end Node

end TreeDump
