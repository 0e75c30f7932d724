import TreeDump.Format
import TreeDump.Proofs.Tree.Export
import TreeDump.Proofs.Yaml.Block

/-!
# Records in YAML

The document of a file is a mapping of texts, numbers, mappings and lists of mappings, which are read
as they were but for their texts.  The texts of a node stand two columns further in for each node
that it stands in, and four in any case.

* `Yaml.load_render`: a legible mapping is read from its document as `asRead` has it.
* `Yaml.legible_document`: the documents of files are legible.
* `Yaml.load_render_document`: what is read from the document of a file, and when it is the document
  itself.
* `Yaml.KeptRecord.of_shallow`: it is if texts hold no U+0085 and nodes are not too deep.
-/

namespace TreeDump

namespace Yaml

/-! ## Whole documents -/

/-- The end of the last line is dropped, and nothing before it. -/
theorem dropFinalBreaks_toList {text : String} {cs : List Char} (hText : text.toList = cs ++ ['\n'])
    (hLast : cs.getLast? ≠ some '\n') : (dropFinalBreaks text).toList = cs := by
  have hKept : cs.reverse.dropWhile (· == '\n') = cs.reverse := by
    rw [← List.head?_reverse] at hLast
    cases hReverse : cs.reverse with
    | nil => rfl
    | cons d rest =>
      have hFirst : d ≠ '\n' := by
        rintro rfl
        exact hLast (by rw [hReverse]; rfl)
      rw [List.dropWhile_cons, if_neg (by simpa using hFirst)]
  have hDrop : (cs ++ ['\n']).reverse.dropWhile (· == '\n') = cs.reverse := by
    rw [List.reverse_append]
    exact hKept
  rw [dropFinalBreaks, String.toList_ofList, hText, hDrop, List.reverse_reverse]

/-- The document of a legible mapping, and how it is read. -/
theorem render_obj {fields : List (String × Json)} (h : LegibleFields fields) :
    ∃ out, (render (.obj fields)).toList = '-' :: '-' :: '-' :: line 0 out ∧
      ReadsFields 0 (asReadFields 0 fields) out := by
  have hLeading : (Cursor.sign {} ['-', '-', '-'] true false false).leading = false := rfl
  obtain ⟨hNewLine, hReaches⟩ := Cursor.Reaches.of_newLine hLeading 0
  obtain ⟨out, hText, hAfter, hReads⟩ := Cursor.emitFields_spec h hReaches
  refine ⟨out, ?_, hReads⟩
  obtain ⟨hFinal, -⟩ := Cursor.Reaches.of_newLine hAfter 0
  obtain ⟨d, more, hOut, -⟩ := hReads.starts
  have hLine := getLast?_line 0 (hOut ▸ List.cons_ne_nil d more) hReads.last
  have hLast := getLast?_append_ne ['-', '-', '-'] (List.cons_ne_nil '\n' _) hLine
  refine dropFinalBreaks_toList ?_ hLast
  rw [isOpenEnded, if_neg Bool.false_ne_true, Cursor.emit_obj h, nestedColumn, hFinal,
    Cursor.newLine_toList, hText, hNewLine, Cursor.newLine_toList]
  rfl

/-- A legible mapping is read from its document as `asRead` has it. -/
theorem load_render {fields : List (String × Json)} (h : LegibleFields fields) :
    load (render (.obj fields)) = some (asRead none (.obj fields)) := by
  obtain ⟨out, hText, hReads⟩ := render_obj h
  obtain ⟨d, more, rfl, hKey⟩ := hReads.starts
  have hBlock := hReads.readBlock_eq (Nat.le_refl _) .nothing (Or.inl rfl)
  rw [List.append_nil] at hBlock
  have hToken := @nextToken_line 0 d more (isKeyChar_spec hKey).1 3
  rw [load, hText]
  simp only [hToken, hBlock]
  rfl

end Yaml

/-! ## Documents of files -/

namespace Node

mutual

/-- The nodes of a tree, each before its children and with the number of nodes that it stands in,
counted from `depth` on. -/
def placed (depth : Nat) : Node → List (Nat × Node)
  | node kind start stop children text =>
    (depth, node kind start stop children text) :: placedChildren (depth + 1) children

def placedChildren (depth : Nat) : Option (List Node) → List (Nat × Node)
  | some children => placedList depth children
  | none => []

def placedList (depth : Nat) : List Node → List (Nat × Node)
  | [] => []
  | n :: rest => placed depth n ++ placedList depth rest

end

end Node

namespace Yaml

theorem plainKey_of_mem {key : String}
    (h : key ∈ ["version", "filename", "language", "ast", "kind", "start_byte", "end_byte", "children",
      "text"]) : PlainKey key := by
  have hAll : ["version", "filename", "language", "ast", "kind", "start_byte", "end_byte", "children",
      "text"].all (fun key => Style.of key.toList == .bare && isSimpleKey key.toList
        && key.toList.all isKeyChar) = true := by decide
  have hKey := List.all_eq_true.mp hAll key h
  simp only [Bool.and_eq_true, beq_iff_eq, List.all_eq_true] at hKey
  exact ⟨hKey.1.1, hKey.1.2, hKey.2⟩

/-- The fields of a node in front of further ones. -/
theorem legible_node (kind : String) (start stop : Int) {fields : List (String × Json)}
    (h : fields = [] ∨ LegibleFields fields)
    (hNew : ∀ key ∈ ["kind", "start_byte", "end_byte"], key ∉ fields.map Prod.fst) :
    LegibleFields ([("kind", .str kind), ("start_byte", .int start), ("end_byte", .int stop)]
      ++ fields) := by
  have hStop : LegibleFields (("end_byte", .int stop) :: fields) := by
    rcases h with rfl | hFields
    · exact .one (plainKey_of_mem (by decide)) (.word (.int stop))
    · exact .more (plainKey_of_mem (by decide)) (.word (.int stop)) (hNew _ (by decide)) hFields
  have hStart : LegibleFields (("start_byte", .int start) :: ("end_byte", .int stop) :: fields) := by
    refine .more (plainKey_of_mem (by decide)) (.word (.int start)) ?_ hStop
    simpa using hNew "start_byte" (by decide)
  refine .more (plainKey_of_mem (by decide)) (.str kind) ?_ hStart
  simpa using hNew "kind" (by decide)

mutual

theorem legible_ofTree (source : ByteArray) (tree : SyntaxTree) :
    ∃ fields, (Node.ofTree source tree).toJson = .obj fields ∧ LegibleFields fields := by
  obtain ⟨kind, start, stop, children⟩ := tree
  cases children with
  | nil =>
    rw [Node.ofTree]
    cases leafText source start stop with
    | none =>
      rw [Node.toJson, Node.childrenField, List.append_nil]
      exact ⟨_, rfl, legible_node kind start stop (Or.inl rfl) (by simp)⟩
    | some text =>
      have hText : LegibleFields [("text", .str text)] :=
        .one (plainKey_of_mem (by decide)) (.str text)
      rw [Node.toJson, Node.childrenField, List.append_nil]
      exact ⟨_, rfl, legible_node kind start stop (Or.inr hText) (by simp)⟩
  | cons child children =>
    have hItems := legible_ofTrees source (child :: children) (List.cons_ne_nil _ _)
    rw [Node.ofTree, ← Node.ofTrees, Node.toJson, Node.childrenField, List.append_nil]
    refine ⟨_, rfl, legible_node kind start stop (Or.inr ?_) (by simp)⟩
    exact .one (plainKey_of_mem (by decide)) (.arr hItems)

theorem legible_ofTrees (source : ByteArray) (trees : List SyntaxTree) (hSome : trees ≠ []) :
    LegibleItems (Node.toJsonList (Node.ofTrees source trees)) := by
  cases trees with
  | nil => exact absurd rfl hSome
  | cons tree rest =>
    obtain ⟨fields, hFields, hLegible⟩ := legible_ofTree source tree
    rw [Node.ofTrees, Node.toJsonList, hFields]
    by_cases hRest : rest = []
    · subst hRest
      exact .one hLegible
    · exact .more hLegible (legible_ofTrees source rest hRest)

end

/-- The document of a file is legible. -/
theorem legible_document (path language : String) (source : Source) (tree : SyntaxTree) :
    ∃ fields, document path language (Node.ofSource source tree) = .obj fields ∧
      LegibleFields fields := by
  obtain ⟨fields, hFields, hLegible⟩ := legible_ofTree source.toBytes tree
  rw [Node.ofSource, Node.ofSyntax_eq_ofTree, document, hFields]
  refine ⟨_, rfl, ?_⟩
  refine .more (plainKey_of_mem (by decide)) (.str _) (by simp) ?_
  refine .more (plainKey_of_mem (by decide)) (.str _) (by simp) ?_
  refine .more (plainKey_of_mem (by decide)) (.str _) (by simp) ?_
  exact .one (plainKey_of_mem (by decide)) (.obj hLegible)

/-! ## What is kept of a record -/

/-- That the texts of a node are read as they were, where it stands in `depth` nodes. -/
structure KeptNode (depth : Nat) (n : Node) : Prop where
  kind : Kept (2 * depth + 4) n.kind.toList
  text : ∀ text ∈ n.text, Kept (2 * depth + 4) text.toList

theorem asReadFields_append_eq_iff (column : Nat) (fields others : List (String × Json)) :
    asReadFields column (fields ++ others) = fields ++ others
      ↔ asReadFields column fields = fields ∧ asReadFields column others = others := by
  induction fields with
  | nil => simp [asReadFields]
  | cons field fields ih =>
    obtain ⟨key, value⟩ := field
    rw [List.cons_append, asReadFields, asReadFields, List.cons.injEq, List.cons.injEq, ih, and_assoc]

mutual

/-- A node is read as it was just if the texts in its tree are. -/
theorem asRead_toJson_eq_iff (depth : Nat) (n : Node) :
    asRead (some (2 * depth)) n.toJson = n.toJson
      ↔ ∀ place ∈ n.placed depth, KeptNode place.1 place.2 := by
  obtain ⟨kind, start, stop, children, text⟩ := n
  have hChildren := asReadFields_childrenField_eq_iff depth children
  have hSpan : asReadFields (2 * depth + 2)
      [("kind", .str kind), ("start_byte", .int start), ("end_byte", .int stop)]
        = [("kind", .str kind), ("start_byte", .int start), ("end_byte", .int stop)]
      ↔ Kept (2 * depth + 4) kind.toList := by
    simp [asReadFields, asRead, scalarColumn, ofList_reading_eq_iff]
  have hKept : KeptNode depth (.node kind start stop children text)
      ↔ Kept (2 * depth + 4) kind.toList ∧ ∀ t ∈ text, Kept (2 * depth + 4) t.toList :=
    ⟨fun h => ⟨h.kind, h.text⟩, fun h => ⟨h.1, h.2⟩⟩
  rw [Node.placed, List.forall_mem_cons, hKept, ← hChildren]
  cases text with
  | none =>
    rw [Node.toJson, asRead, nestedColumn, Json.obj.injEq, List.append_nil, asReadFields_append_eq_iff,
      hSpan]
    simp
  | some text =>
    have hText : asReadFields (2 * depth + 2) [("text", .str text)] = [("text", .str text)]
        ↔ Kept (2 * depth + 4) text.toList := by
      simp [asReadFields, asRead, scalarColumn, ofList_reading_eq_iff]
    rw [Node.toJson, asRead, nestedColumn, Json.obj.injEq, asReadFields_append_eq_iff,
      asReadFields_append_eq_iff, hSpan, hText, and_right_comm]
    simp

theorem asReadFields_childrenField_eq_iff (depth : Nat) (children : Option (List Node)) :
    asReadFields (2 * depth + 2) (Node.childrenField children) = Node.childrenField children
      ↔ ∀ place ∈ Node.placedChildren (depth + 1) children, KeptNode place.1 place.2 := by
  cases children with
  | none => simp [Node.childrenField, asReadFields, Node.placedChildren]
  | some children =>
    rw [Node.placedChildren, ← asReadItems_toJsonList_eq_iff (depth + 1) children]
    simp [Node.childrenField, asReadFields, asRead, listColumn, Nat.mul_add]

theorem asReadItems_toJsonList_eq_iff (depth : Nat) (children : List Node) :
    asReadItems (2 * depth) (Node.toJsonList children) = Node.toJsonList children
      ↔ ∀ place ∈ Node.placedList depth children, KeptNode place.1 place.2 := by
  cases children with
  | nil => simp [Node.toJsonList, asReadItems, Node.placedList]
  | cons n rest =>
    rw [Node.toJsonList, asReadItems, Node.placedList, List.forall_mem_append,
      ← asRead_toJson_eq_iff depth n, ← asReadItems_toJsonList_eq_iff depth rest, List.cons.injEq]

end

/-- That the texts of a record are read as they were. -/
structure KeptRecord (path language : String) (root : Node) : Prop where
  path : Kept 2 path.toList
  language : Kept 2 language.toList
  nodes : ∀ place ∈ root.placed 0, KeptNode place.1 place.2

/-- A record is read as it was just if its texts are. -/
theorem asRead_document_eq_iff (path language : String) (root : Node) :
    asRead none (document path language root) = document path language root
      ↔ KeptRecord path language root := by
  have hVersion : Kept 2 formatVersion.toList := by
    have hBare : Style.of formatVersion.toList = .bare := by decide
    refine ⟨?_, ?_⟩
    · rw [hBare]
      intro hIs
      cases hIs
    · rw [hBare]
      intro hIs
      cases hIs
  have hKept : KeptRecord path language root ↔ Kept 2 path.toList ∧ Kept 2 language.toList ∧
      ∀ place ∈ root.placed 0, KeptNode place.1 place.2 :=
    ⟨fun h => ⟨h.path, h.language, h.nodes⟩, fun h => ⟨h.1, h.2.1, h.2.2⟩⟩
  rw [hKept, ← asRead_toJson_eq_iff 0 root]
  simp [document, asRead, asReadFields, nestedColumn, scalarColumn, ofList_reading_eq_iff, hVersion]

theorem load_document (path language : String) (source : Source) (tree : SyntaxTree) :
    load (OutputFormat.yaml.render (document path language (.ofSource source tree)))
      = some (asRead none (document path language (.ofSource source tree))) := by
  obtain ⟨fields, hFields, hLegible⟩ := legible_document path language source tree
  rw [OutputFormat.render, hFields]
  exact load_render hLegible

theorem Kept.of_shallow {column : Nat} {cs : List Char} (hColumn : column < lineWidth)
    (hNext : '\x85' ∉ cs) : Kept column cs :=
  ⟨fun _ => hNext, fun _ hDeep => absurd hDeep (Nat.not_le.mpr hColumn)⟩

/-- Records whose texts hold no U+0085 and whose nodes stand in fewer than 38 others are kept. -/
theorem KeptRecord.of_shallow {path language : String} {root : Node} (hPath : '\x85' ∉ path.toList)
    (hLanguage : '\x85' ∉ language.toList)
    (hNodes : ∀ place ∈ root.placed 0, place.1 < 38 ∧ '\x85' ∉ place.2.kind.toList ∧
      ∀ text ∈ place.2.text, '\x85' ∉ text.toList) : KeptRecord path language root := by
  have hTop : 2 < lineWidth := by decide
  refine ⟨.of_shallow hTop hPath, .of_shallow hTop hLanguage, ?_⟩
  intro place hPlace
  obtain ⟨hDepth, hKind, hText⟩ := hNodes place hPlace
  have hColumn : 2 * place.1 + 4 < lineWidth := by
    rw [lineWidth]
    omega
  exact ⟨.of_shallow hColumn hKind, fun text hIn => .of_shallow hColumn (hText text hIn)⟩

/-! ## A record with texts of all styles -/

/-- A comment that is too long for a line, a word that means something else than a text, and a text
with a tab. -/
def nestedSource : Source :=
  .text "// adds up the words of all lines, each line by itself, and then all the files\ntrue \"a\tb\""

def nestedTree : SyntaxTree :=
  .node "file" 0 89 [.node "comment" 0 78 [],
    .node "pair" 79 89 [.node "word" 79 83 [], .node "text" 84 89 []]]

def nestedNode : Node :=
  .node "file" 0 89 (some [
    .node "comment" 0 78 none
      (some "// adds up the words of all lines, each line by itself, and then all the files"),
    .node "pair" 79 89 (some [
      .node "word" 79 83 none (some "true"),
      .node "text" 84 89 none (some "\"a\tb\"")]) none]) none

theorem ofSource_nested : Node.ofSource nestedSource nestedTree = nestedNode := by
  have hTexts : leafText nestedSource.toBytes 0 78
        = some "// adds up the words of all lines, each line by itself, and then all the files" ∧
      leafText nestedSource.toBytes 79 83 = some "true" ∧
      leafText nestedSource.toBytes 84 89 = some "\"a\tb\"" := by decide +kernel
  rw [Node.ofSource, Node.ofSyntax_eq_ofTree]
  simp [nestedTree, nestedNode, Node.ofTree, Node.ofTrees, hTexts]

/-! ## Readers -/

/-- That a reader takes a text as `load` does, if `load` takes it.  A reader may take more texts, and
it may have limits of its own, such as one on the depth of nesting, that a text has to keep to. -/
def Takes (read : String → Option Json) (text : String) : Prop :=
  ∀ value, load text = some value → read text = some value

/-- The YAML text of a record is one document, and what is read from it differs from the record in
texts only: between apostrophes breaks are settled, and between double quotes a line that starts past
its width and is ended before a space at once brings in a backslash and a space.  The record itself is
read just if that befalls none of its texts. -/
theorem load_render_document {read : String → Option Json} (path language : String) (source : Source)
    (tree : SyntaxTree)
    (hTakes : Takes read (OutputFormat.yaml.render (document path language (.ofSource source tree)))) :
    read (OutputFormat.yaml.render (document path language (.ofSource source tree)))
        = some (asRead none (document path language (.ofSource source tree))) ∧
      (read (OutputFormat.yaml.render (document path language (.ofSource source tree)))
          = some (document path language (.ofSource source tree))
        ↔ KeptRecord path language (.ofSource source tree)) := by
  have hRead := hTakes _ (load_document path language source tree)
  refine ⟨hRead, ?_⟩
  rw [hRead, Option.some.injEq, asRead_document_eq_iff]

/-- A record is read back by `load` itself that has a text over two lines, one between apostrophes and
one between double quotes. -/
theorem load_render_document_nested :
    Takes load (OutputFormat.yaml.render
        (document "x.go" "Go" (.ofSource nestedSource nestedTree))) ∧
      load (OutputFormat.yaml.render (document "x.go" "Go" (.ofSource nestedSource nestedTree)))
        = some (document "x.go" "Go" nestedNode) := by
  have hKept : KeptRecord "x.go" "Go" nestedNode :=
    .of_shallow (by decide) (by decide) (by decide)
  refine ⟨fun _ hLoad => hLoad, ?_⟩
  rw [(load_render_document "x.go" "Go" nestedSource nestedTree fun _ hLoad => hLoad).2.mpr
    (ofSource_nested ▸ hKept), ofSource_nested]

/-- A text with U+0085 inside is not read as it was. -/
theorem not_load_render_document :
    ¬ ∀ (path language : String) (source : Source) (tree : SyntaxTree),
      load (OutputFormat.yaml.render (document path language (.ofSource source tree)))
        = some (document path language (.ofSource source tree)) := by
  intro hAll
  have hText : leafText ⟨#[0x61, 0xc2, 0x85, 0x62]⟩ 0 4 = some "a\x85b" := by decide +kernel
  have hStyle : Style.of "a\x85b".toList = .apostrophes := by decide
  have hLoad := hAll "x.go" "Go" (.bytes ⟨#[0x61, 0xc2, 0x85, 0x62]⟩) (.node "word" 0 4 [])
  rw [load_document, Option.some.injEq, asRead_document_eq_iff, Node.ofSource, Node.ofSyntax_eq_ofTree,
    Node.ofTree, Source.toBytes, hText] at hLoad
  have hNode := hLoad.nodes (0, _) List.mem_cons_self
  exact (hNode.text _ rfl).apostrophes hStyle (by decide)

end Yaml

end TreeDump
