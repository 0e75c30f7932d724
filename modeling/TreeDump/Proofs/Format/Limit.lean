import TreeDump.Proofs.Format.Preview
import TreeDump.Proofs.Json.Writing
import TreeDump.Run.Process

/-!
# The limit of previews and the length of records

Whether a record is cut down to a preview is decided by the length of the compact text, and a record
that is not cut is written in the format that was asked for.  So the limit bounds the record just if
the compact text is too long for it, or the formatted text is short enough.

* `Json.length_encode_indented`: the indented text of a value is the compact one with blanks put in,
  as many as `Json.padding` counts.
* `ProcessOptions.renderDocument_length_le_iff`: when the limit bounds the record.
-/

namespace TreeDump

namespace Json

/-! ## Lengths -/

@[simp] theorem length_newline_indented (width level : Nat) :
    ((Layout.indented width).newline level).length = 1 + width * level := by
  have hBreak : "\n".length = 1 := by decide
  simp [Layout.newline, hBreak]

@[simp] theorem length_newline_compact (level : Nat) :
    (Layout.compact.newline level).length = 0 := String.length_empty

theorem length_colon_indented (width : Nat) :
    (Layout.indented width).colon.length = Layout.compact.colon.length + 1 := by
  show ": ".length = ":".length + 1
  decide

theorem length_quote (s : String) : (quote s).length = (s.toList.flatMap escape).length + 2 := by
  rw [quote, String.length_ofList]
  simp

mutual

/-- How many blanks the indented text of a value has that the compact one has not. -/
def padding (width level : Nat) : Json → Nat
  | arr (item :: items) =>
    1 + width * (level + 1) + padding width (level + 1) item + paddingItems width level items
  | obj ((_, value) :: fields) =>
    1 + width * (level + 1) + 1 + padding width (level + 1) value + paddingFields width level fields
  | _ => 0

/-- The blanks of the elements of an array after the first one, and of its end. -/
def paddingItems (width level : Nat) : List Json → Nat
  | [] => 1 + width * level
  | item :: items =>
    1 + width * (level + 1) + padding width (level + 1) item + paddingItems width level items

/-- The blanks of the fields of an object after the first one, and of its end. -/
def paddingFields (width level : Nat) : List (String × Json) → Nat
  | [] => 1 + width * level
  | (_, value) :: fields =>
    1 + width * (level + 1) + 1 + padding width (level + 1) value + paddingFields width level fields

end

mutual

/-- The indented text is the compact one with blanks put in. -/
theorem length_encode_indented (width level : Nat) : ∀ v : Json,
    (encode (.indented width) level v).length
      = (encode .compact level v).length + padding width level v
  | arr [] | obj [] | null | bool _ | int _ | str _ => by simp only [encode, padding, Nat.add_zero]
  | arr (item :: items) => by
    have hItem := length_encode_indented width (level + 1) item
    have hItems := length_encodeItems_indented width level items
    rw [encode, encode, padding]
    simp only [String.length_append, length_newline_indented, length_newline_compact]
    omega
  | obj ((key, value) :: fields) => by
    have hValue := length_encode_indented width (level + 1) value
    have hFields := length_encodeFields_indented width level fields
    have hColon := length_colon_indented width
    rw [encode, encode, padding]
    simp only [String.length_append, length_newline_indented, length_newline_compact]
    omega

theorem length_encodeItems_indented (width level : Nat) : ∀ items : List Json,
    (encodeItems (.indented width) level items).length
      = (encodeItems .compact level items).length + paddingItems width level items
  | [] => by
    rw [encodeItems, encodeItems, paddingItems]
    simp only [String.length_append, length_newline_indented, length_newline_compact]
    omega
  | item :: items => by
    have hItem := length_encode_indented width (level + 1) item
    have hItems := length_encodeItems_indented width level items
    rw [encodeItems, encodeItems, paddingItems]
    simp only [String.length_append, length_newline_indented, length_newline_compact]
    omega

theorem length_encodeFields_indented (width level : Nat) : ∀ fields : List (String × Json),
    (encodeFields (.indented width) level fields).length
      = (encodeFields .compact level fields).length + paddingFields width level fields
  | [] => by
    rw [encodeFields, encodeFields, paddingFields]
    simp only [String.length_append, length_newline_indented, length_newline_compact]
    omega
  | (key, value) :: fields => by
    have hValue := length_encode_indented width (level + 1) value
    have hFields := length_encodeFields_indented width level fields
    have hColon := length_colon_indented width
    rw [encodeFields, encodeFields, paddingFields]
    simp only [String.length_append, length_newline_indented, length_newline_compact]
    omega

end

theorem length_render_indented (width : Nat) (v : Json) :
    (v.render (.indented width)).length = v.compact.length + padding width 0 v := by
  rw [compact, render_eq_encode, render_eq_encode]
  exact length_encode_indented width 0 v

/-- There are blanks in the indented text of every document. -/
theorem padding_document_pos (width : Nat) (path language : String) (tree : Node) :
    0 < padding width 0 (document path language tree) := by
  rw [document, padding]
  omega

end Json

/-! ## Records -/

namespace ProcessOptions

/-- With a limit for previews, and otherwise the same. -/
def limitedTo (options : ProcessOptions) (limit : Nat) : ProcessOptions :=
  { options with truncate := some limit }

theorem renderDocument_of_lt {options : ProcessOptions} {doc : Json} {limit : Nat}
    (hLong : limit < doc.compact.length) :
    (options.limitedTo limit).renderDocument doc = preview limit doc.compact :=
  if_pos (Int.ofNat_lt.mpr hLong)

theorem renderDocument_of_le {options : ProcessOptions} {doc : Json} {limit : Nat}
    (hFits : doc.compact.length ≤ limit) :
    (options.limitedTo limit).renderDocument doc = options.format.render doc :=
  if_neg (by omega)

/-- When the limit bounds the record of a document.  A document whose compact text is longer than the
limit has a preview of that text as its record, in any format, and any other document its text in the
format.  So the record is within the limit just if the compact text is not, or the formatted text is.
In the compact format it always is; in the indented one it is not from the length of the compact text
on, for as many limits as there are blanks put in, which are some for the document of every file. -/
theorem renderDocument_length_le_iff (options : ProcessOptions) (doc : Json) (limit : Nat) :
    (limit < doc.compact.length ∧
        (options.limitedTo limit).renderDocument doc = preview limit doc.compact ∨
      doc.compact.length ≤ limit ∧
        (options.limitedTo limit).renderDocument doc = options.format.render doc) ∧
    (((options.limitedTo limit).renderDocument doc).length ≤ limit ↔
      limit < doc.compact.length ∨ (options.format.render doc).length ≤ limit) ∧
    (options.format = .json → ((options.limitedTo limit).renderDocument doc).length ≤ limit) ∧
    (options.format = .prettyJson →
      (limit < ((options.limitedTo limit).renderDocument doc).length ↔
        doc.compact.length ≤ limit ∧ limit < doc.compact.length + doc.padding 2 0)) ∧
    ∀ (path language : String) (tree : Node), 0 < (document path language tree).padding 2 0 := by
  have hPadding := Json.padding_document_pos 2
  rcases Nat.lt_or_ge limit doc.compact.length with hLong | hFits
  · have hPreview : (preview limit doc.compact).length ≤ limit :=
      (previews_preview limit doc.compact).length_le
    rw [renderDocument_of_lt hLong]
    exact ⟨.inl ⟨hLong, rfl⟩, ⟨fun _ => .inl hLong, fun _ => hPreview⟩, fun _ => hPreview,
      fun _ => by omega, hPadding⟩
  · rw [renderDocument_of_le hFits]
    refine ⟨.inr ⟨hFits, rfl⟩, by omega, ?_, ?_, hPadding⟩
    · intro hFormat
      rw [hFormat]
      exact hFits
    · intro hFormat
      have hLength : (OutputFormat.prettyJson.render doc).length
          = doc.compact.length + doc.padding 2 0 := Json.length_render_indented 2 doc
      rw [hFormat, hLength]
      omega

/-- The document of a file of one word. -/
def oneWord : Json :=
  document "x.go" "Go"
    (.node "source_file" 0 1 (some [.node "word" 0 1 none (some "x")]) none)

/-- A limit that the compact text is within does not bound the indented one. -/
theorem not_renderDocument_length_le :
    ¬ ((({ format := .prettyJson } : ProcessOptions).limitedTo 183).renderDocument oneWord).length
      ≤ 183 := by
  have hCompact : oneWord.compact.length = 183 := by
    -- Piece by piece, as the whole text takes long to be put together.
    rw [Json.compact, Json.render_eq_encode]
    simp only [oneWord, document, Node.toJson, Node.childrenField, Node.toJsonList, Json.encode,
      Json.encodeItems, Json.encodeFields, Json.scalar, Layout.colon, String.length_append,
      Json.length_newline_compact, Json.length_quote, List.cons_append, List.nil_append]
    decide
  have hPadding : oneWord.padding 2 0 = 103 := by decide
  have hIndented := Json.length_render_indented 2 oneWord
  rw [renderDocument_of_le hCompact.le]
  show ¬ (oneWord.render (.indented 2)).length ≤ 183
  omega

end ProcessOptions

end TreeDump
