import TreeDump.Proofs.Json.OneLine

/-!
# Where elements stand

What is written of a value can be said without a stack: a container is its elements, each written
in turn, with separators between them and brackets around.  In an indented layout the separators
break lines, and each element begins a line that is indented by its own nesting level, whatever is
written before it.

* `Json.dump`: the text of a value by recursion, element by element.
* `Json.chunks`: the pieces of text that the writer with a stack writes, one at a turn.
* `Json.rows`: the lines of a value with their nesting levels; `Stands` tells the nesting levels of
  the elements of a value.
* `Json.join_chunks`: the writer writes the text by recursion, line by line as the nesting levels
  have it.
-/

namespace TreeDump.Json

/-! ## Element by element -/

/-- What stands before an element whose nesting level is `level`, in front of it on its line. -/
def margin : Layout → Nat → String
  | .compact, _ => ""
  | .indented width, level => "\n" ++ String.ofList (List.replicate (width * level) ' ')

/-- A key and what separates it from its value. -/
def label (key : String) : Layout → String
  | .compact => quote key ++ ":"
  | .indented _ => quote key ++ ": "

/-- A container at a nesting level around the texts of its elements.  Without elements there is
nothing between its brackets. -/
def enclose (layout : Layout) (level : Nat) (opening closing : String) : List String → String
  | [] => opening ++ closing
  | part :: parts =>
    opening ++ margin layout (level + 1)
      ++ ("," ++ margin layout (level + 1)).intercalate (part :: parts)
      ++ margin layout level ++ closing

mutual

/-- The text of a value that stands at a nesting level, by recursion on the value. -/
def dump (layout : Layout) (level : Nat) : Json → String
  | null => "null"
  | bool true => "true"
  | bool false => "false"
  | int n => toString n
  | str s => quote s
  | arr items => enclose layout level "[" "]" (dumpItems layout (level + 1) items)
  | obj fields => enclose layout level "\x7b" "\x7d" (dumpFields layout (level + 1) fields)

def dumpItems (layout : Layout) (level : Nat) : List Json → List String
  | [] => []
  | item :: rest => dump layout level item :: dumpItems layout level rest

def dumpFields (layout : Layout) (level : Nat) : List (String × Json) → List String
  | [] => []
  | (key, value) :: rest =>
    (label key layout ++ dump layout level value) :: dumpFields layout level rest

end

theorem margin_eq (layout : Layout) (level : Nat) : margin layout level = layout.newline level := by
  cases layout <;> rfl

theorem label_eq (key : String) (layout : Layout) : label key layout = quote key ++ layout.colon := by
  cases layout <;> rfl

/-- A separated list, with each separator taken to the part after it. -/
theorem intercalate_append (separator part closing : String) (parts : List String) :
    separator.intercalate (part :: parts) ++ closing
      = part ++ parts.foldr (fun next text => separator ++ next ++ text) closing := by
  induction parts generalizing part with
  | nil => rw [String.intercalate_singleton, List.foldr_nil]
  | cons next rest ih =>
    rw [String.intercalate_cons_cons, String.append_assoc, ih, List.foldr_cons]
    simp only [String.append_assoc]

/-- A container with elements, as the encoding by recursion writes it. -/
theorem enclose_cons (layout : Layout) (level : Nat) (opening closing part : String)
    (parts : List String) :
    enclose layout level opening closing (part :: parts)
      = opening ++ layout.newline (level + 1) ++ part
        ++ parts.foldr (fun next text => "," ++ layout.newline (level + 1) ++ next ++ text)
          (layout.newline level ++ closing) := by
  rw [enclose, margin_eq, margin_eq]
  have hList := intercalate_append ("," ++ layout.newline (level + 1)) part
    (layout.newline level ++ closing) parts
  simp only [String.append_assoc] at hList ⊢
  rw [hList]

mutual

/-- The encoding by recursion writes the elements in turn. -/
theorem encode_eq_dump (layout : Layout) (level : Nat) :
    ∀ v : Json, encode layout level v = dump layout level v
  | null => rfl
  | bool true => rfl
  | bool false => rfl
  | int n => rfl
  | str s => rfl
  | arr [] => rfl
  | arr (item :: items) => by
    rw [encode, dump, dumpItems, enclose_cons, encode_eq_dump, encodeItems_eq]
  | obj [] => rfl
  | obj ((key, value) :: fields) => by
    rw [encode, dump, dumpFields, enclose_cons, encode_eq_dump, encodeFields_eq, label_eq]
    simp only [String.append_assoc]

theorem encodeItems_eq (layout : Layout) (level : Nat) :
    ∀ items : List Json, encodeItems layout level items
      = (dumpItems layout (level + 1) items).foldr
        (fun next text => "," ++ layout.newline (level + 1) ++ next ++ text)
          (layout.newline level ++ "]")
  | [] => rfl
  | item :: items => by
    rw [encodeItems, dumpItems, List.foldr_cons, encode_eq_dump, encodeItems_eq]

theorem encodeFields_eq (layout : Layout) (level : Nat) :
    ∀ fields : List (String × Json), encodeFields layout level fields
      = (dumpFields layout (level + 1) fields).foldr
        (fun next text => "," ++ layout.newline (level + 1) ++ next ++ text)
          (layout.newline level ++ "\x7d")
  | [] => rfl
  | (key, value) :: fields => by
    rw [encodeFields, dumpFields, List.foldr_cons, encode_eq_dump, encodeFields_eq, label_eq]
    simp only [String.append_assoc]

end

/-! ## Turn by turn -/

/-- The pieces of text that the writer writes from a stack on, one at a turn. -/
def chunks (layout : Layout) (stack : List Piece) : List String :=
  match stack with
  | [] => []
  | .text s :: rest => s :: chunks layout rest
  | .value level v :: rest =>
    (expand layout level v).1 :: chunks layout ((expand layout level v).2 ++ rest)
termination_by pending stack
decreasing_by
  · simp [pending_cons, Piece.steps]
  · have hLess := pending_expand layout level v
    simp only [pending_append, pending_cons, Piece.steps]
    omega

theorem renderStack_eq_join (layout : Layout) (done : String) (stack : List Piece) :
    renderStack layout done stack = done ++ String.join (chunks layout stack) := by
  induction done, stack using renderStack.induct layout with
  | case1 done => rw [renderStack, chunks, String.join_nil, String.append_empty]
  | case2 done s rest ih => rw [renderStack, ih, chunks, String.join_cons, String.append_assoc]
  | case3 done level v rest ih =>
    rw [renderStack, ih, chunks, String.join_cons, String.append_assoc]

/-- What is written is what is written at the turns, put together. -/
theorem render_eq_join (layout : Layout) (v : Json) :
    render layout v = String.join (chunks layout [.value 0 v]) := by
  rw [render, renderStack_eq_join, String.empty_append]

/-! ## Line by line -/

/-- A line of a text: the nesting level it is indented by, and what stands on it after that. -/
structure Row where
  level : Nat
  text : String

/-- The line with its indentation. -/
def Row.line (width : Nat) (row : Row) : String :=
  String.ofList (List.replicate (width * row.level) ' ') ++ row.text

/-- What follows an element: a comma, if more elements follow. -/
def comma {α : Type} : List α → String
  | [] => ""
  | _ :: _ => ","

/-- A container at a nesting level around the lines of its elements, with what stands before its
opening bracket and after its closing one.  Without elements it is on one line. -/
def encloseRows (lead trail : String) (level : Nat) (opening closing : String) :
    List Row → List Row
  | [] => [⟨level, lead ++ (opening ++ closing ++ trail)⟩]
  | inner => ⟨level, lead ++ opening⟩ :: inner ++ [⟨level, closing ++ trail⟩]

mutual

/-- The lines of a value that stands at a nesting level, with what stands before the value and
after it on its first line and its last. -/
def rows (lead trail : String) (level : Nat) : Json → List Row
  | arr items => encloseRows lead trail level "[" "]" (itemRows (level + 1) items)
  | obj fields => encloseRows lead trail level "\x7b" "\x7d" (fieldRows (level + 1) fields)
  | value => [⟨level, lead ++ (scalar value ++ trail)⟩]

def itemRows (level : Nat) : List Json → List Row
  | [] => []
  | item :: rest => rows "" (comma rest) level item ++ itemRows level rest

def fieldRows (level : Nat) : List (String × Json) → List Row
  | [] => []
  | (key, value) :: rest =>
    rows (quote key ++ ": ") (comma rest) level value ++ fieldRows level rest

end

theorem encloseRows_eq {inner : List Row} (hInner : inner ≠ [])
    (lead trail : String) (level : Nat) (opening closing : String) :
    encloseRows lead trail level opening closing inner
      = ⟨level, lead ++ opening⟩ :: inner ++ [⟨level, closing ++ trail⟩] := by
  cases inner with
  | nil => exact (hInner rfl).elim
  | cons row inner => rfl

/-- The first line of a value is indented by the nesting level of the value and starts with what
stands before the value. -/
theorem rows_eq_cons (lead trail : String) (level : Nat) (v : Json) :
    ∃ text below, rows lead trail level v = ⟨level, lead ++ text⟩ :: below := by
  cases v with
  | null => exact ⟨_, _, rfl⟩
  | bool b => exact ⟨_, _, rfl⟩
  | int n => exact ⟨_, _, rfl⟩
  | str s => exact ⟨_, _, rfl⟩
  | arr items =>
    rw [rows]
    cases itemRows (level + 1) items with
    | nil => exact ⟨_, _, rfl⟩
    | cons row inner => exact ⟨_, _, rfl⟩
  | obj fields =>
    rw [rows]
    cases fieldRows (level + 1) fields with
    | nil => exact ⟨_, _, rfl⟩
    | cons row inner => exact ⟨_, _, rfl⟩

theorem itemRows_ne_nil (level : Nat) (item : Json) (rest : List Json) :
    itemRows level (item :: rest) ≠ [] := by
  obtain ⟨text, below, hRows⟩ := rows_eq_cons "" (comma rest) level item
  rw [itemRows, hRows]
  exact List.cons_ne_nil _ _

theorem fieldRows_ne_nil (level : Nat) (field : String × Json) (rest : List (String × Json)) :
    fieldRows level (field :: rest) ≠ [] := by
  obtain ⟨text, below, hRows⟩ :=
    rows_eq_cons (quote field.1 ++ ": ") (comma rest) level field.2
  rw [fieldRows, hRows]
  exact List.cons_ne_nil _ _

/-! ### The lines make up the text -/

/-- The text of lines, with a line break before each of them. -/
def broken (width : Nat) (lines : List Row) : String :=
  String.join (lines.map fun row => margin (.indented width) row.level ++ row.text)

theorem broken_cons (width : Nat) (row : Row) (lines : List Row) :
    broken width (row :: lines)
      = margin (.indented width) row.level ++ row.text ++ broken width lines := by
  rw [broken, List.map_cons, String.join_cons, broken]

theorem broken_append (width : Nat) (upper lower : List Row) :
    broken width (upper ++ lower) = broken width upper ++ broken width lower := by
  rw [broken, List.map_append, String.join_append, broken, broken]

theorem broken_singleton (width level : Nat) (text : String) :
    broken width [⟨level, text⟩] = margin (.indented width) level ++ text := by
  rw [broken_cons]
  exact String.append_empty

/-- A container with elements, once the lines of its elements are known to make up their texts. -/
theorem broken_encloseRows {width level : Nat} {inner : List Row} {parts : List String}
    (hInner : inner ≠ []) (hParts : parts ≠ [])
    (h : broken width inner = margin (.indented width) (level + 1)
      ++ ("," ++ margin (.indented width) (level + 1)).intercalate parts)
    (lead trail opening closing : String) :
    broken width (encloseRows lead trail level opening closing inner)
      = margin (.indented width) level
        ++ (lead ++ (enclose (.indented width) level opening closing parts ++ trail)) := by
  obtain ⟨part, parts, rfl⟩ := List.exists_cons_of_ne_nil hParts
  rw [encloseRows_eq hInner, List.cons_append, broken_cons, broken_append, broken_singleton, h,
    enclose]
  simp only [String.append_assoc]

mutual

theorem broken_rows (width : Nat) (lead trail : String) (level : Nat) :
    ∀ v : Json, broken width (rows lead trail level v)
      = margin (.indented width) level ++ (lead ++ (dump (.indented width) level v ++ trail))
  | null => broken_singleton ..
  | bool true => broken_singleton ..
  | bool false => broken_singleton ..
  | int n => broken_singleton ..
  | str s => broken_singleton ..
  | arr [] => by
    rw [rows, itemRows, encloseRows, broken_singleton, dump, dumpItems, enclose]
  | arr (item :: rest) => by
    rw [rows, dump]
    exact broken_encloseRows (itemRows_ne_nil _ item rest) (List.cons_ne_nil _ _)
      (broken_itemRows width (level + 1) (item :: rest) (List.cons_ne_nil _ _)) lead trail "[" "]"
  | obj [] => by
    rw [rows, fieldRows, encloseRows, broken_singleton, dump, dumpFields, enclose]
  | obj (field :: rest) => by
    rw [rows, dump]
    exact broken_encloseRows (fieldRows_ne_nil _ field rest) (List.cons_ne_nil _ _)
      (broken_fieldRows width (level + 1) (field :: rest) (List.cons_ne_nil _ _))
      lead trail "\x7b" "\x7d"

theorem broken_itemRows (width level : Nat) :
    ∀ items : List Json, items ≠ [] → broken width (itemRows level items)
      = margin (.indented width) level ++ ("," ++ margin (.indented width) level).intercalate
        (dumpItems (.indented width) level items)
  | [], hItems => (hItems rfl).elim
  | [item], _ => by
    rw [itemRows, itemRows, List.append_nil, broken_rows, dumpItems, dumpItems,
      String.intercalate_singleton, comma, String.empty_append, String.append_empty]
  | item :: next :: rest, _ => by
    rw [itemRows, broken_append, broken_rows, dumpItems,
      broken_itemRows width level (next :: rest) (List.cons_ne_nil _ _), dumpItems,
      String.intercalate_cons_cons, comma, String.empty_append]
    simp only [String.append_assoc]

theorem broken_fieldRows (width level : Nat) :
    ∀ fields : List (String × Json), fields ≠ [] → broken width (fieldRows level fields)
      = margin (.indented width) level ++ ("," ++ margin (.indented width) level).intercalate
        (dumpFields (.indented width) level fields)
  | [], hFields => (hFields rfl).elim
  | [(key, value)], _ => by
    rw [fieldRows, fieldRows, List.append_nil, broken_rows, dumpFields, dumpFields,
      String.intercalate_singleton, comma, String.append_empty, label]
  | (key, value) :: field :: rest, _ => by
    rw [fieldRows, broken_append, broken_rows, dumpFields,
      broken_fieldRows width level (field :: rest) (List.cons_ne_nil _ _), dumpFields,
      String.intercalate_cons_cons, comma]
    simp only [label, String.append_assoc]

end

/-- Without the first of the line breaks, the lines are separated by line breaks. -/
theorem broken_eq (width : Nat) : ∀ lines : List Row, lines ≠ [] →
    broken width lines = "\n" ++ "\n".intercalate (lines.map (Row.line width))
  | [], hLines => (hLines rfl).elim
  | [row], _ => by
    rw [broken_singleton, List.map_singleton, String.intercalate_singleton, margin, Row.line,
      String.append_assoc]
  | row :: next :: rest, _ => by
    rw [broken_cons, broken_eq width (next :: rest) (List.cons_ne_nil _ _), List.map_cons,
      List.map_cons, List.map_cons, String.intercalate_cons_cons, margin]
    simp only [Row.line, String.append_assoc]

/-- The lines of a value are its text, indented on its first line, with what stands before and
after it. -/
theorem intercalate_rows (width : Nat) (lead trail : String) (level : Nat) (v : Json) :
    "\n".intercalate ((rows lead trail level v).map (Row.line width))
      = String.ofList (List.replicate (width * level) ' ')
        ++ (lead ++ (dump (.indented width) level v ++ trail)) := by
  have hRows : rows lead trail level v ≠ [] := by
    obtain ⟨text, below, hRows⟩ := rows_eq_cons lead trail level v
    rw [hRows]
    exact List.cons_ne_nil _ _
  have h := broken_rows width lead trail level v
  rw [broken_eq width _ hRows, margin, String.append_assoc] at h
  exact (String.append_right_inj _).mp h

/-! ### What stands on a line -/

/-- That a text can stand on a line after the indentation: it has no controls, and it starts with
a character that is no blank. -/
def Flush (text : String) : Prop :=
  Printable text ∧ text.toList.head?.any (· != ' ') = true

instance (text : String) : Decidable (Flush text) :=
  inferInstanceAs (Decidable (Printable text ∧ text.toList.head?.any (· != ' ') = true))

theorem Flush.append {text more : String} (h : Flush text) (hMore : Printable more) :
    Flush (text ++ more) := by
  refine ⟨h.1.append hMore, ?_⟩
  have hHead := h.2
  rw [String.toList_append, List.head?_append]
  cases hFirst : text.toList.head? with
  | none =>
    rw [hFirst] at hHead
    cases hHead
  | some c =>
    rw [hFirst] at hHead
    exact hHead

theorem Flush.lead_append {lead text : String} (hLead : lead = "" ∨ Flush lead)
    (h : Flush text) : Flush (lead ++ text) := by
  rcases hLead with rfl | hLead
  · rwa [String.empty_append]
  · exact hLead.append h.1

theorem flush_scalar : ∀ v : Json, Flush (scalar v)
  | null => (by decide : Flush "null")
  | bool true => (by decide : Flush "true")
  | bool false => (by decide : Flush "false")
  | int n => by
    obtain ⟨c, cs, hText, hc, -⟩ := (Grammar.Value.int (number_toString n)).exists_cons
    refine ⟨printable_scalar _, ?_⟩
    rw [scalar, hText]
    exact bne_iff_ne.mpr hc.1
  | str s => by
    refine ⟨printable_scalar _, ?_⟩
    rw [scalar, quote, String.toList_ofList]
    rfl
  | arr _ => (by decide : Flush "[]")
  | obj _ => (by decide : Flush "\x7b\x7d")

theorem printable_comma {α : Type} : ∀ rest : List α, Printable (comma rest)
  | [] => by rw [comma]; decide
  | _ :: _ => by rw [comma]; decide

theorem flush_scalarRow {lead trail : String} (hLead : lead = "" ∨ Flush lead)
    (hTrail : Printable trail) (level : Nat) (v : Json) :
    ∀ row ∈ [(⟨level, lead ++ (scalar v ++ trail)⟩ : Row)], Flush row.text := by
  intro row hRow
  obtain rfl := List.mem_singleton.mp hRow
  exact Flush.lead_append hLead ((flush_scalar v).append hTrail)

theorem flush_encloseRows {lead trail opening closing : String} {inner : List Row}
    (hLead : lead = "" ∨ Flush lead) (hTrail : Printable trail) (hOpening : Flush opening)
    (hClosing : Flush closing) (hInner : ∀ row ∈ inner, Flush row.text) (level : Nat) :
    ∀ row ∈ encloseRows lead trail level opening closing inner, Flush row.text := by
  intro row hRow
  cases inner with
  | nil =>
    obtain rfl := List.mem_singleton.mp hRow
    exact Flush.lead_append hLead ((hOpening.append hClosing.1).append hTrail)
  | cons first inner =>
    rw [encloseRows_eq (List.cons_ne_nil _ _), List.cons_append] at hRow
    rcases List.mem_cons.mp hRow with rfl | hRow
    · exact Flush.lead_append hLead hOpening
    · rcases List.mem_append.mp hRow with hRow | hRow
      · exact hInner row hRow
      · obtain rfl := List.mem_singleton.mp hRow
        exact hClosing.append hTrail

mutual

theorem flush_rows {lead trail : String} (hLead : lead = "" ∨ Flush lead)
    (hTrail : Printable trail) (level : Nat) :
    ∀ v : Json, ∀ row ∈ rows lead trail level v, Flush row.text
  | arr items => by
    rw [rows]
    exact flush_encloseRows hLead hTrail (by decide) (by decide)
      (flush_itemRows (level + 1) items) level
  | obj fields => by
    rw [rows]
    exact flush_encloseRows hLead hTrail (by decide) (by decide)
      (flush_fieldRows (level + 1) fields) level
  | null => flush_scalarRow hLead hTrail level null
  | bool b => flush_scalarRow hLead hTrail level (bool b)
  | int n => flush_scalarRow hLead hTrail level (int n)
  | str s => flush_scalarRow hLead hTrail level (str s)

theorem flush_itemRows (level : Nat) :
    ∀ items : List Json, ∀ row ∈ itemRows level items, Flush row.text
  | [], _, hRow => (List.not_mem_nil hRow).elim
  | item :: rest, row, hRow => by
    rw [itemRows] at hRow
    rcases List.mem_append.mp hRow with hRow | hRow
    · exact flush_rows (Or.inl rfl) (printable_comma rest) level item row hRow
    · exact flush_itemRows level rest row hRow

theorem flush_fieldRows (level : Nat) :
    ∀ fields : List (String × Json), ∀ row ∈ fieldRows level fields, Flush row.text
  | [], _, hRow => (List.not_mem_nil hRow).elim
  | (key, value) :: rest, row, hRow => by
    rw [fieldRows] at hRow
    rcases List.mem_append.mp hRow with hRow | hRow
    · have hLabel : Flush (quote key ++ ": ") := (flush_scalar (str key)).append (by decide)
      exact flush_rows (Or.inr hLabel) (printable_comma rest) level value row hRow
    · exact flush_fieldRows level rest row hRow

end

/-- The lines that are read off the text of a value. -/
theorem splitOn_dump (width : Nat) (v : Json) :
    (dump (.indented width) 0 v).toList.splitOn '\n'
      = (rows "" "" 0 v).map fun row =>
        List.replicate (width * row.level) ' ' ++ row.text.toList := by
  have hText := intercalate_rows width "" "" 0 v
  rw [Nat.mul_zero, List.replicate_zero, String.ofList_nil, String.empty_append,
    String.empty_append, String.append_empty] at hText
  rw [← hText, String.toList_intercalate, List.map_map]
  have hLines : String.toList ∘ Row.line width = fun row =>
      List.replicate (width * row.level) ' ' ++ row.text.toList := by
    funext row
    rw [Function.comp_apply, Row.line, String.toList_append, String.toList_ofList]
  rw [hLines]
  refine List.splitOn_intercalate '\n' ?_ ?_
  · intro line hLine hBreak
    obtain ⟨row, hRow, rfl⟩ := List.mem_map.mp hLine
    rcases List.mem_append.mp hBreak with hBreak | hBreak
    · exact absurd (List.eq_of_mem_replicate hBreak) (by decide)
    · exact (flush_rows (Or.inl rfl) (by decide) 0 v row hRow).1.noBreak.1 hBreak
  · obtain ⟨text, below, hRows⟩ := rows_eq_cons "" "" 0 v
    rw [hRows]
    exact List.cons_ne_nil _ _

/-! ## Elements at their nesting levels -/

/-- An element of a value, with its nesting level and what stands before it on its line. -/
inductive Stands (v : Json) : Nat → String → Json → Prop
  | self : Stands v 0 "" v
  | item {level : Nat} {lead : String} {items : List Json} {item : Json}
      (h : Stands v level lead (arr items)) (hItem : item ∈ items) : Stands v (level + 1) "" item
  | field {level : Nat} {lead : String} {fields : List (String × Json)} {key : String}
      {value : Json} (h : Stands v level lead (obj fields)) (hField : (key, value) ∈ fields) :
      Stands v (level + 1) (quote key ++ ": ") value

theorem comma_eq {α : Type} : ∀ rest : List α, comma rest = "" ∨ comma rest = ","
  | [] => Or.inl rfl
  | _ :: _ => Or.inr rfl

theorem itemRows_append (level : Nat) (rest : List Json) (item : Json) : ∀ done : List Json,
    rows "" (comma rest) level item <:+: itemRows level (done ++ item :: rest)
  | [] => ⟨[], itemRows level rest, rfl⟩
  | first :: done => by
    rw [List.cons_append, itemRows]
    exact (itemRows_append level rest item done).trans (List.suffix_append _ _).isInfix

theorem fieldRows_append (level : Nat) (rest : List (String × Json)) (key : String)
    (value : Json) : ∀ done : List (String × Json),
    rows (quote key ++ ": ") (comma rest) level value
      <:+: fieldRows level (done ++ (key, value) :: rest)
  | [] => ⟨[], fieldRows level rest, rfl⟩
  | first :: done => by
    rw [List.cons_append, fieldRows]
    exact (fieldRows_append level rest key value done).trans (List.suffix_append _ _).isInfix

theorem infix_encloseRows (lead trail : String) (level : Nat) (opening closing : String)
    (inner : List Row) : inner <:+: encloseRows lead trail level opening closing inner := by
  cases inner with
  | nil => exact List.nil_infix
  | cons row inner => exact ⟨[⟨level, lead ++ opening⟩], [⟨level, closing ++ trail⟩], rfl⟩

/-- The lines of an element are lines of the value, at the nesting level of the element. -/
theorem Stands.infix {v e : Json} {level : Nat} {lead : String} (h : Stands v level lead e) :
    ∃ trail, (trail = "" ∨ trail = ",") ∧ rows lead trail level e <:+: rows "" "" 0 v := by
  induction h with
  | self => exact ⟨"", Or.inl rfl, List.infix_refl _⟩
  | @item level lead items item h hItem ih =>
    obtain ⟨trail, -, hRows⟩ := ih
    obtain ⟨done, rest, rfl⟩ := List.append_of_mem hItem
    refine ⟨comma rest, comma_eq rest, (itemRows_append (level + 1) rest item done).trans ?_⟩
    rw [rows] at hRows
    exact (infix_encloseRows ..).trans hRows
  | @field level lead fields key value h hField ih =>
    obtain ⟨trail, -, hRows⟩ := ih
    obtain ⟨done, rest, rfl⟩ := List.append_of_mem hField
    refine ⟨comma rest, comma_eq rest, (fieldRows_append (level + 1) rest key value done).trans ?_⟩
    rw [rows] at hRows
    exact (infix_encloseRows ..).trans hRows

/-- At its turns the writer writes the text by recursion, in every layout.  In a text that is
indented, the lines of each element stand at the nesting level of that element, and an element
without elements of its own is on one line. -/
theorem join_chunks (v : Json) :
    (∀ layout, String.join (chunks layout [.value 0 v]) = dump layout 0 v
      ∧ render layout v = dump layout 0 v)
    ∧ ∀ width, (dump (.indented width) 0 v).toList.splitOn '\n'
        = ((rows "" "" 0 v).map fun row =>
          List.replicate (width * row.level) ' ' ++ row.text.toList)
      ∧ (∀ row ∈ rows "" "" 0 v, Flush row.text)
      ∧ ∀ {level : Nat} {lead : String} {e : Json}, Stands v level lead e →
        ∃ trail, (trail = "" ∨ trail = ",")
          ∧ rows lead trail level e <:+: rows "" "" 0 v
          ∧ "\n".intercalate ((rows lead trail level e).map (Row.line width))
            = String.ofList (List.replicate (width * level) ' ')
              ++ (lead ++ (dump (.indented width) level e ++ trail))
          ∧ (∃ text below, rows lead trail level e = ⟨level, lead ++ text⟩ :: below)
          ∧ (e = arr [] → rows lead trail level e = [⟨level, lead ++ ("[]" ++ trail)⟩])
          ∧ (e = obj [] → rows lead trail level e = [⟨level, lead ++ ("\x7b\x7d" ++ trail)⟩]) := by
  have hRender : ∀ layout, render layout v = dump layout 0 v := by
    intro layout
    rw [render_eq_encode, encode_eq_dump]
  refine ⟨fun layout => ⟨?_, hRender layout⟩, fun width => ?_⟩
  · rw [← render_eq_join, hRender]
  refine ⟨splitOn_dump width v, flush_rows (Or.inl rfl) (by decide) 0 v, ?_⟩
  intro level lead e h
  obtain ⟨trail, hTrail, hRows⟩ := h.infix
  refine ⟨trail, hTrail, hRows, intercalate_rows width lead trail level e,
    rows_eq_cons lead trail level e, ?_, ?_⟩
  · rintro rfl
    rw [rows, itemRows, encloseRows]
    rfl
  · rintro rfl
    rw [rows, fieldRows, encloseRows]
    rfl

example : dump (.indented 2) 0 (obj [("a", arr [int 1, arr []]), ("b", obj [])])
    = "\x7b\n  \"a\": [\n    1,\n    []\n  ],\n  \"b\": \x7b\x7d\n\x7d" := by decide

end TreeDump.Json
