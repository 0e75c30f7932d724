import TreeDump.Proofs.Yaml.Scalars

/-!
# Mappings and lists

What is written for a mapping or a list is read entry by entry.  Each reading is stated for whatever
may stand after the text, so that the readings of the parts make up the reading of the whole.

* `Legible`: values that are written in block style with short words as keys.
* `ReadsValue`, `ReadsFields`, `ReadsItems`: what it is to be read as a value after a key, as the
  entries of a mapping and as the elements of a list.
* `Cursor.emit_spec`: legible values are read as `asRead` has it, which differs in texts only.
-/

namespace TreeDump.Yaml

/-! ## Values and what they are read as -/

/-- Keys that are read as what they are. -/
structure PlainKey (key : String) : Prop where
  bare : Style.of key.toList = .bare
  simple : isSimpleKey key.toList = true
  word : ∀ d ∈ key.toList, isKeyChar d = true

mutual

/-- Values that are written in block style throughout: no container is empty, keys are plain and no
key stands twice in a mapping, and the elements of lists are mappings. -/
inductive Legible : Json → Prop where
  | word {value : Json} (h : Word value) : Legible value
  | str (s : String) : Legible (.str s)
  | arr {items : List Json} (h : LegibleItems items) : Legible (.arr items)
  | obj {fields : List (String × Json)} (h : LegibleFields fields) : Legible (.obj fields)

inductive LegibleItems : List Json → Prop where
  | one {fields : List (String × Json)} (h : LegibleFields fields) : LegibleItems [.obj fields]
  | more {fields : List (String × Json)} {items : List Json} (h : LegibleFields fields)
      (hMore : LegibleItems items) : LegibleItems (.obj fields :: items)

inductive LegibleFields : List (String × Json) → Prop where
  | one {key : String} {value : Json} (hKey : PlainKey key) (h : Legible value) :
      LegibleFields [(key, value)]
  | more {key : String} {value : Json} {fields : List (String × Json)} (hKey : PlainKey key)
      (h : Legible value) (hNew : key ∉ fields.map Prod.fst) (hMore : LegibleFields fields) :
      LegibleFields ((key, value) :: fields)

end

mutual

/-- What a value inside a container at `column`, or at the top, is read as. -/
def asRead (column : Option Nat) : Json → Json
  | .str s => .str (String.ofList (reading (scalarColumn column) s.toList))
  | .arr items => .arr (asReadItems (listColumn column true false) items)
  | .obj fields => .obj (asReadFields (nestedColumn column) fields)
  | value => value

def asReadItems (column : Nat) : List Json → List Json
  | [] => []
  | item :: items => asRead (some column) item :: asReadItems column items

def asReadFields (column : Nat) : List (String × Json) → List (String × Json)
  | [] => []
  | (key, value) :: fields => (key, asRead (some column) value) :: asReadFields column fields

end

theorem asReadFields_keys (column : Nat) (fields : List (String × Json)) :
    (asReadFields column fields).map Prod.fst = fields.map Prod.fst := by
  induction fields with
  | nil => rfl
  | cons field fields ih =>
    obtain ⟨key, value⟩ := field
    rw [asReadFields, List.map_cons, List.map_cons, ih]

/-! ## Reading -/

/-- A line with a column that another text starts in. -/
def line (column : Nat) (cs : List Char) : List Char := '\n' :: List.replicate column ' ' ++ cs

theorem line_append (column : Nat) (cs rest : List Char) :
    line column cs ++ rest = line column (cs ++ rest) := List.append_assoc _ _ _

theorem Ends.below {indent column k : Nat} {tail next : List Char} (h : Ends indent tail k next)
    (hLt : indent < column) : next = [] ∨ k < column := by
  cases h with
  | nothing => exact Or.inl rfl
  | line hColumn hSpace hBreak => exact Or.inr (Nat.lt_of_le_of_lt hColumn hLt)

theorem nextToken_line (column : Nat) {d : Char} {rest : List Char} (h : isSpaceOrBreak d = false)
    (before : Nat) : nextToken false before (line column (d :: rest)) = some (column, d :: rest) := by
  rw [isSpaceOrBreak, Bool.or_eq_false_iff, beq_eq_false_iff_ne] at h
  exact (Ends.line (Nat.le_refl column) h.1 h.2).nextToken_eq before

-- Of two nested readings at least one takes a character, so each reading needs twice as much fuel as
-- it takes characters, and one less from the entries and elements on.

/-- That `out` is read as a value after the colon of a key at a column. -/
structure ReadsValue (column : Nat) (value : Json) (out : List Char) : Prop where
  starts : ∃ d more, out = d :: more ∧ isSpaceOrBreak d = true
  last : out.getLast? ≠ some '\n'
  read : ∀ {fuel k : Nat} {tail next : List Char}, 2 * out.length ≤ fuel → Ends column tail k next →
    (k = column → isDash next = false) → readValue fuel column (out ++ tail) = some (value, k, next)

/-- That `out` is read as the entries of a mapping at a column. -/
structure ReadsFields (column : Nat) (fields : List (String × Json)) (out : List Char) : Prop where
  starts : ∃ d more, out = d :: more ∧ isKeyChar d = true
  keyed : ∀ tail, (readKey (out ++ tail)).isSome = true
  last : out.getLast? ≠ some '\n'
  read : ∀ {fuel k : Nat} {tail next : List Char}, 2 * out.length ≤ fuel + 1 →
    Ends column tail k next → next = [] ∨ k < column →
    readFields fuel column (out ++ tail) = some (fields, k, next)

/-- That `out` is read as the elements of a list at a column. -/
structure ReadsItems (column : Nat) (items : List Json) (out : List Char) : Prop where
  starts : ∃ more, out = '-' :: ' ' :: more
  last : out.getLast? ≠ some '\n'
  read : ∀ {fuel k : Nat} {tail next : List Char}, 2 * out.length ≤ fuel + 1 →
    Ends column tail k next → (k = column → isDash next = false) →
    readItems fuel column (out ++ tail) = some (items, k, next)

theorem isKeyChar_spec {c : Char} (h : isKeyChar c = true) :
    isSpaceOrBreak c = false ∧ c ≠ '-' ∧ c ≠ '\n' := by
  have hNot : ([' ', '\n', '\x85', '\u2028', '\u2029', '-'].all fun d => !isKeyChar d) = true := by
    decide
  have hNe : ∀ d ∈ [' ', '\n', '\x85', '\u2028', '\u2029', '-'], c ≠ d := by
    rintro d hD rfl
    have hFalse := List.all_eq_true.mp hNot c hD
    rw [h] at hFalse
    cases hFalse
  simp only [List.mem_cons, List.not_mem_nil, or_false, forall_eq_or_imp, forall_eq] at hNe
  obtain ⟨hSpace, hFeed, hNel, hLine, hPara, hDash⟩ := hNe
  exact ⟨by simp [isSpaceOrBreak, isBreak, hSpace, hFeed, hNel, hLine, hPara], hDash, hFeed⟩

theorem PlainKey.exists_cons {key : String} (h : PlainKey key) :
    ∃ d more, key.toList = d :: more ∧ isKeyChar d = true := by
  have hSimple := h.simple
  have hWord := h.word
  cases hKey : key.toList with
  | nil =>
    rw [hKey] at hSimple
    cases hSimple
  | cons d more => exact ⟨d, more, rfl, hWord d (hKey ▸ List.mem_cons_self)⟩

theorem PlainKey.readKey_eq {key : String} (h : PlainKey key) {rest : List Char}
    (hGap : gapAhead rest = true) : readKey (key.toList ++ ':' :: rest) = some (key, rest) := by
  have hMeans := (BareText.of_style h.bare).2
  have hDrop : (key.toList ++ ':' :: rest).dropWhile isKeyChar = ':' :: rest := by
    rw [List.dropWhile_append_of_pos h.word]
    rfl
  have hTake : (key.toList ++ ':' :: rest).takeWhile isKeyChar = key.toList := by
    rw [List.takeWhile_append_of_pos h.word]
    exact List.append_nil _
  have hSimple := h.simple
  simp only [isSimpleKey, Bool.and_eq_true, decide_eq_true_eq] at hSimple
  have hShort : key.toList.length ≤ 1024 := by omega
  rw [readKey, hDrop]
  dsimp only
  rw [hTake, hGap, hMeans, decide_eq_true hShort, hSimple.1.1, String.ofList_toList]
  rfl

/-! ### Values after a key -/

theorem readValue_inLine {d : Char} (h : isSpaceOrBreak d = false) (fuel column : Nat)
    (rest : List Char) :
    readValue (fuel + 1) column (' ' :: d :: rest) = readScalar column (d :: rest) := by
  rw [isSpaceOrBreak, Bool.or_eq_false_iff] at h
  have hStart : (' ' :: d :: rest).dropWhile (· == ' ') = d :: rest := by simp [h.1]
  rw [readValue, hStart]
  simp [h.2]

/-- A block on lines of its own. -/
theorem readValue_line {inner column : Nat} {d : Char} {rest : List Char}
    (h : isSpaceOrBreak d = false)
    (hInner : column < inner ∨ inner = column ∧ isDash (d :: rest) = true) (fuel : Nat) :
    readValue (fuel + 1) column (line inner (d :: rest)) = readBlock fuel inner (d :: rest) := by
  have hStart : (line inner (d :: rest)).dropWhile (· == ' ') = line inner (d :: rest) := rfl
  have hBreak : (line inner (d :: rest)).head?.any isBreak = true := rfl
  have hPlace : (decide (column < inner) || inner == column && isDash (d :: rest)) = true := by
    rcases hInner with hLt | ⟨rfl, hDash⟩
    · simp [hLt]
    · simp [hDash]
  rw [readValue, hStart]
  rw [if_pos hBreak, nextToken_line inner h]
  dsimp only
  rw [if_pos hPlace]

theorem ReadsScalar.value {column : Nat} {value : Json} {out : List Char}
    (h : ReadsScalar (column + 2) value out) : ReadsValue column value (' ' :: out) := by
  have hStarts := h.starts
  have hLast := h.last
  cases out with
  | nil => cases hStarts
  | cons d rest =>
    rw [List.head?_cons, Option.any_some, Bool.not_eq_true'] at hStarts
    refine ⟨⟨' ', d :: rest, rfl, rfl⟩, ?_, ?_⟩
    · rw [List.getLast?_cons_cons]
      exact hLast
    · intro fuel k tail next hFuel hEnds _
      rw [List.length_cons] at hFuel
      obtain ⟨more, rfl⟩ : ∃ more, fuel = more + 1 := ⟨fuel - 1, by omega⟩
      exact (readValue_inLine hStarts more column (rest ++ tail)).trans (h.read (by omega) hEnds)

/-- A text ends as its last part does. -/
theorem getLast?_append_ne (cs : List Char) {out : List Char} (hSome : out ≠ [])
    (hLast : out.getLast? ≠ some '\n') : (cs ++ out).getLast? ≠ some '\n' := by
  obtain ⟨z, hZ⟩ := Option.isSome_iff_exists.mp (List.getLast?_isSome.mpr hSome)
  rw [List.getLast?_append, hZ]
  rw [hZ] at hLast
  exact hLast

theorem getLast?_line (column : Nat) {out : List Char} (hSome : out ≠ [])
    (hLast : out.getLast? ≠ some '\n') : (line column out).getLast? ≠ some '\n' :=
  getLast?_append_ne _ hSome hLast

theorem length_line (column : Nat) (out : List Char) :
    (line column out).length = column + out.length + 1 := by
  rw [line, List.length_append, List.length_cons, List.length_replicate]
  omega

theorem ReadsItems.value {column : Nat} {items : List Json} {out : List Char}
    (h : ReadsItems column items out) : ReadsValue column (.arr items) (line column out) := by
  obtain ⟨more, rfl⟩ := h.starts
  refine ⟨⟨'\n', _, rfl, rfl⟩, getLast?_line _ (List.cons_ne_nil _ _) h.last, ?_⟩
  intro fuel k tail next hFuel hEnds hNext
  rw [length_line] at hFuel
  obtain ⟨less, rfl⟩ : ∃ less, fuel = less + 2 := ⟨fuel - 2, by omega⟩
  have hRead := @h.read less k tail next (by omega) hEnds hNext
  have hDash : isDash ('-' :: ' ' :: more ++ tail) = true := rfl
  rw [line_append, List.cons_append, List.cons_append]
  rw [List.cons_append, List.cons_append] at hRead hDash
  rw [readValue_line (by decide) (Or.inr ⟨rfl, hDash⟩), readBlock, if_pos hDash, hRead]
  rfl

theorem isDash_of_isKeyChar {d : Char} (h : isKeyChar d = true) (rest : List Char) :
    isDash (d :: rest) = false := by
  rw [isDash, beq_false_of_ne (isKeyChar_spec h).2.1, Bool.false_and]

/-- The entries of a mapping are read as the mapping. -/
theorem ReadsFields.readBlock_eq {column : Nat} {fields : List (String × Json)} {out : List Char}
    (h : ReadsFields column fields out) {fuel k : Nat} {tail next : List Char}
    (hFuel : 2 * out.length ≤ fuel) (hEnds : Ends column tail k next) (hNext : next = [] ∨ k < column) :
    readBlock fuel column (out ++ tail) = some (.obj fields, k, next) := by
  obtain ⟨d, more, rfl, hKey⟩ := h.starts
  rw [List.length_cons] at hFuel
  obtain ⟨less, rfl⟩ : ∃ less, fuel = less + 1 := ⟨fuel - 1, by omega⟩
  have hRead := @h.read less k tail next (by rw [List.length_cons]; omega) hEnds hNext
  have hDash : ¬ isDash (d :: more ++ tail) = true :=
    Bool.not_eq_true _ ▸ isDash_of_isKeyChar hKey (more ++ tail)
  rw [readBlock, if_neg hDash, hRead]
  rfl

theorem ReadsFields.value {column : Nat} {fields : List (String × Json)} {out : List Char}
    (h : ReadsFields (column + 2) fields out) :
    ReadsValue column (.obj fields) (line (column + 2) out) := by
  obtain ⟨d, more, rfl, hKey⟩ := h.starts
  refine ⟨⟨'\n', _, rfl, rfl⟩, getLast?_line _ (List.cons_ne_nil _ _) h.last, ?_⟩
  intro fuel k tail next hFuel hEnds hNext
  rw [length_line] at hFuel
  obtain ⟨less, rfl⟩ : ∃ less, fuel = less + 1 := ⟨fuel - 1, by omega⟩
  rw [line_append, List.cons_append, readValue_line (isKeyChar_spec hKey).1 (Or.inl (by omega))]
  exact h.readBlock_eq (by omega) (hEnds.mono (by omega)) (hEnds.below (by omega))

/-! ### Entries of mappings -/

theorem ReadsValue.gapAhead {column : Nat} {value : Json} {out : List Char}
    (h : ReadsValue column value out) (tail : List Char) : Yaml.gapAhead (out ++ tail) = true := by
  obtain ⟨d, more, rfl, hKind⟩ := h.starts
  exact gapAhead_of_head (by simpa using hKind)

namespace ReadsFields

variable {column : Nat} {key : String} {value : Json} {fields : List (String × Json)}
  {out rest : List Char}

theorem one (hKey : PlainKey key) (h : ReadsValue column value out) :
    ReadsFields column [(key, value)] (key.toList ++ ':' :: out) := by
  obtain ⟨d, more, hList, hFirst⟩ := hKey.exists_cons
  obtain ⟨e, others, hOut, -⟩ := h.starts
  have hAfter : (':' :: out).getLast? ≠ some '\n' :=
    getLast?_append_ne [':'] (hOut ▸ List.cons_ne_nil e others) h.last
  refine ⟨⟨d, more ++ ':' :: out, by rw [hList]; rfl, hFirst⟩, ?_, ?_, ?_⟩
  · intro tail
    rw [List.append_assoc, List.cons_append, hKey.readKey_eq (h.gapAhead tail)]
    rfl
  · exact getLast?_append_ne _ (List.cons_ne_nil ':' out) hAfter
  · intro fuel k tail next hFuel hEnds hNext
    rw [List.length_append, List.length_cons] at hFuel
    obtain ⟨less, rfl⟩ : ∃ less, fuel = less + 1 := ⟨fuel - 1, by omega⟩
    have hDash : k = column → isDash next = false := by
      rintro rfl
      rcases hNext with rfl | hLt
      · rfl
      · exact absurd hLt (Nat.lt_irrefl k)
    have hDone : (next.isEmpty || decide (k < column)) = true := by
      rcases hNext with rfl | hLt
      · rfl
      · simp [hLt]
    rw [List.append_assoc, List.cons_append, readFields, hKey.readKey_eq (h.gapAhead tail)]
    dsimp only
    rw [h.read (by omega) hEnds hDash]
    dsimp only
    rw [if_pos hDone]

theorem more (hKey : PlainKey key) (h : ReadsValue column value out)
    (hNew : key ∉ fields.map Prod.fst) (hMore : ReadsFields column fields rest) :
    ReadsFields column ((key, value) :: fields) (key.toList ++ ':' :: (out ++ line column rest)) := by
  obtain ⟨d, later, hList, hFirst⟩ := hKey.exists_cons
  obtain ⟨e, others, rfl, hNextKey⟩ := hMore.starts
  refine ⟨⟨d, later ++ ':' :: (out ++ line column (e :: others)), by rw [hList]; rfl, hFirst⟩, ?_, ?_,
    ?_⟩
  · intro tail
    rw [List.append_assoc, List.cons_append, List.append_assoc, hKey.readKey_eq (h.gapAhead _)]
    rfl
  · have hLine := getLast?_line column (List.cons_ne_nil e others) hMore.last
    have hAfter := getLast?_append_ne (':' :: out) (List.cons_ne_nil '\n' _) hLine
    exact getLast?_append_ne key.toList (List.cons_ne_nil ':' _) hAfter
  · intro fuel k tail next hFuel hEnds hNext
    rw [List.length_append, List.length_cons, List.length_append, length_line] at hFuel
    obtain ⟨less, rfl⟩ : ∃ less, fuel = less + 1 := ⟨fuel - 1, by omega⟩
    obtain ⟨hKind, -, -⟩ := isKeyChar_spec hNextKey
    rw [isSpaceOrBreak, Bool.or_eq_false_iff, beq_eq_false_iff_ne] at hKind
    have hLine : Ends column (line column (e :: others ++ tail)) column (e :: others ++ tail) :=
      .line (Nat.le_refl column) hKind.1 hKind.2
    have hValue := @h.read less _ _ _ (by omega) hLine fun _ => isDash_of_isKeyChar hNextKey _
    have hOpen : ((e :: others ++ tail).isEmpty || decide (column < column)) = false := by simp
    have hOnce : (fields.map Prod.fst).contains key = false := by simpa using hNew
    rw [List.append_assoc, List.cons_append, List.append_assoc, line_append, readFields,
      hKey.readKey_eq (h.gapAhead _)]
    dsimp only
    rw [hValue]
    dsimp only
    rw [hOpen, if_neg Bool.false_ne_true, if_pos (beq_self_eq_true column),
      hMore.read (by omega) hEnds hNext]
    dsimp only
    rw [hOnce]
    rfl

end ReadsFields

/-! ### Elements of lists -/

/-- An element that is a mapping is read from behind its dash. -/
theorem readItems_cons {column : Nat} {fields : List (String × Json)} {out : List Char}
    (h : ReadsFields (column + 2) fields out) {fuel k : Nat} {tail next : List Char}
    (hFuel : 2 * out.length ≤ fuel) (hEnds : Ends column tail k next) :
    readItems (fuel + 1) column ('-' :: ' ' :: (out ++ tail))
      = if k == column && isDash next then
          (readItems fuel column next).map fun read => (.obj fields :: read.1, read.2)
        else some ([.obj fields], k, next) := by
  have hRead := h.readBlock_eq hFuel (hEnds.mono (Nat.le_add_right column 2))
    (hEnds.below (by omega))
  have hSome := h.keyed tail
  obtain ⟨d, more, rfl, hKey⟩ := h.starts
  obtain ⟨hKind, -, -⟩ := isKeyChar_spec hKey
  rw [isSpaceOrBreak, Bool.or_eq_false_iff] at hKind
  rw [List.cons_append] at hSome hRead ⊢
  have hDrop : (' ' :: d :: (more ++ tail)).dropWhile (· == ' ') = d :: (more ++ tail) := by
    simp [hKind.1]
  have hTake : (' ' :: d :: (more ++ tail)).takeWhile (· == ' ') = [' '] := by simp [hKind.1]
  rw [readItems]
  have hRest : List.drop 1 ('-' :: ' ' :: d :: (more ++ tail)) = ' ' :: d :: (more ++ tail) := rfl
  have hInner : column + 1 + [' '].length = column + 2 := rfl
  rw [hRest, hDrop, hTake, hSome, Bool.or_true, if_pos rfl, hInner, hRead]

namespace ReadsItems

variable {column : Nat} {fields : List (String × Json)} {items : List Json} {out rest : List Char}

theorem one (h : ReadsFields (column + 2) fields out) :
    ReadsItems column [.obj fields] ('-' :: ' ' :: out) := by
  obtain ⟨d, more, hOut, -⟩ := h.starts
  have hLast := getLast?_append_ne ['-', ' '] (hOut ▸ List.cons_ne_nil d more) h.last
  refine ⟨⟨out, rfl⟩, hLast, ?_⟩
  intro fuel k tail next hFuel hEnds hNext
  rw [List.length_cons, List.length_cons] at hFuel
  obtain ⟨less, rfl⟩ : ∃ less, fuel = less + 1 := ⟨fuel - 1, by omega⟩
  have hStop : (k == column && isDash next) = false := by
    rw [Bool.and_eq_false_iff]
    by_cases hSame : k = column
    · exact Or.inr (hNext hSame)
    · exact Or.inl (beq_false_of_ne hSame)
  rw [List.cons_append, List.cons_append, readItems_cons h (by omega) hEnds, hStop]
  rfl

theorem more (h : ReadsFields (column + 2) fields out) (hMore : ReadsItems column items rest) :
    ReadsItems column (.obj fields :: items) ('-' :: ' ' :: (out ++ line column rest)) := by
  obtain ⟨later, rfl⟩ := hMore.starts
  have hLine := getLast?_line column (List.cons_ne_nil _ _) hMore.last
  refine ⟨⟨_, rfl⟩, getLast?_append_ne ('-' :: ' ' :: out) (List.cons_ne_nil '\n' _) hLine, ?_⟩
  intro fuel k tail next hFuel hEnds hNext
  rw [List.length_cons, List.length_cons, List.length_append, length_line] at hFuel
  obtain ⟨less, rfl⟩ : ∃ less, fuel = less + 1 := ⟨fuel - 1, by omega⟩
  have hLineEnds : Ends column (line column ('-' :: ' ' :: later ++ tail)) column
      ('-' :: ' ' :: later ++ tail) := .line (Nat.le_refl column) (by decide) (by decide)
  have hGoes : (column == column && isDash ('-' :: ' ' :: later ++ tail)) = true := by
    rw [beq_self_eq_true]
    rfl
  rw [List.cons_append, List.cons_append, List.append_assoc, line_append,
    readItems_cons h (by omega) hLineEnds, hGoes, if_pos rfl, hMore.read (by omega) hEnds hNext]
  rfl

end ReadsItems

/-! ## Writing -/

namespace Cursor

/-- Where moving to a column leads to the column and leaves a gap. -/
structure Reaches (c : Cursor) (column : Nat) : Prop where
  gap : (c.indent column).gap = true
  place : (c.indent column).column = column

theorem Reaches.of_newLine {c : Cursor} (hLeading : c.leading = false) (column : Nat) :
    c.indent column = c.newLine column ∧ c.Reaches column := by
  have hNewLine : c.indent column = c.newLine column := by
    refine c.indent_eq_newLine ?_
    intro hIs
    cases hLeading.symm.trans hIs
  exact ⟨hNewLine, by rw [hNewLine]; rfl, by rw [hNewLine]; rfl⟩

/-- After a dash, moving to the column of its element adds a space. -/
theorem Reaches.of_dash {c : Cursor} {column : Nat} (hLeading : c.leading = true)
    (hPlace : c.column = column + 1) :
    (c.indent (column + 2)).text.toList = c.text.toList ++ [' '] ∧ c.Reaches (column + 2) := by
  have hIndent : c.indent (column + 2) = { c.put [' '] with gap := true } := by
    simp [indent, hLeading, hPlace]
  refine ⟨?_, ?_, ?_⟩
  · rw [hIndent]
    exact c.put_toList [' ']
  · rw [hIndent]
  · rw [hIndent]
    show c.column + 1 = _
    rw [hPlace]

/-- The key of an entry, with its colon. -/
def key (c : Cursor) (column : Nat) (key : String) : Cursor :=
  ((c.indent column).scalar false (column + 2) key.toList).sign [':'] false false false

theorem key_spec {key : String} (hKey : PlainKey key) {c : Cursor} {column : Nat}
    (hReaches : c.Reaches column) :
    (c.key column key).text.toList = (c.indent column).text.toList ++ (key.toList ++ [':']) ∧
      (c.key column key).gap = false ∧ (c.key column key).leading = false ∧
      column + 2 ≤ (c.key column key).column := by
  have hScalar : (c.indent column).scalar false (column + 2) key.toList
      = { c.indent column with gap := false, leading := false : Cursor }.put key.toList := by
    rw [scalar, hKey.bare]
    dsimp only
    rw [bare, hReaches.gap, if_pos rfl, bareRuns_unfolded (cut_runs key.toList)]
  obtain ⟨d, more, hList, -⟩ := hKey.exists_cons
  rw [Cursor.key, hScalar]
  refine ⟨?_, rfl, rfl, ?_⟩
  · rw [sign_toList, put_toList]
    simp
  · rw [sign_column, put_column]
    have hPlace := hReaches.place
    simp only [Bool.not_false, Bool.or_true, if_true, hList, List.length_cons, List.length_nil]
    omega

theorem emitFields_cons {key : String} (hKey : PlainKey key) (column : Nat) (c : Cursor) (value : Json)
    (fields : List (String × Json)) :
    emitFields column c ((key, value) :: fields)
      = emitFields column (emit (some column) true (c.key column key) value) fields := by
  rw [emitFields, hKey.simple]
  rfl

theorem emit_arr {items : List Json} (h : LegibleItems items) (column : Nat) {c : Cursor}
    (hLeading : c.leading = false) :
    emit (some column) true c (.arr items) = emitItems column c items := by
  cases h <;> rw [emit, hLeading] <;> rfl

theorem emit_obj {fields : List (String × Json)} (h : LegibleFields fields) (column : Option Nat)
    (inMapping : Bool) (c : Cursor) :
    emit column inMapping c (.obj fields) = emitFields (nestedColumn column) c fields := by
  cases h <;> rw [emit]

-- By recursion on how the value is legible.  A part is followed by a new line at the column of the
-- whole or by nothing, which is what `Ends` lets stand after it.
mutual

/-- A legible value after a key is read as `asRead` has it. -/
theorem emit_spec {value : Json} (h : Legible value) {column : Nat} {c : Cursor}
    (hGap : c.gap = false) (hLeading : c.leading = false) (hPlace : column + 2 ≤ c.column) :
    ∃ out, (emit (some column) true c value).text.toList = c.text.toList ++ out ∧
      (emit (some column) true c value).leading = false ∧
      ReadsValue column (asRead (some column) value) out := by
  cases h with
  | word h =>
    obtain ⟨out, hText, hAfter, hReads⟩ := bare_spec h.bareText true (column + 2) c h.resolve_eq
    rw [hGap, if_neg Bool.false_ne_true] at hText
    cases h <;> exact ⟨' ' :: out, hText, hAfter, hReads.value⟩
  | str s =>
    obtain ⟨out, hText, hAfter, hReads⟩ :=
      scalar_spec s.toList (Nat.succ_pos (column + 1)) c hPlace
    rw [hGap, if_neg Bool.false_ne_true] at hText
    exact ⟨' ' :: out, hText, hAfter, hReads.value⟩
  | arr h =>
    obtain ⟨out, hText, hAfter, hReads⟩ := emitItems_spec h hLeading
    rw [emit_arr h column hLeading]
    exact ⟨line column out, hText, hAfter, hReads.value⟩
  | obj h =>
    obtain ⟨hNewLine, hReaches⟩ := Reaches.of_newLine hLeading (column + 2)
    obtain ⟨out, hText, hAfter, hReads⟩ := emitFields_spec h hReaches
    rw [emit_obj h]
    refine ⟨line (column + 2) out, ?_, hAfter, hReads.value⟩
    rw [nestedColumn, hText, hNewLine, newLine_toList, List.append_assoc]
    rfl

/-- The entries of a legible mapping are read at the column that they are written at. -/
theorem emitFields_spec {fields : List (String × Json)} (h : LegibleFields fields) {column : Nat}
    {c : Cursor} (hReaches : c.Reaches column) :
    ∃ out, (emitFields column c fields).text.toList = (c.indent column).text.toList ++ out ∧
      (emitFields column c fields).leading = false ∧
      ReadsFields column (asReadFields column fields) out := by
  cases h with
  | @one key value hKey h =>
    obtain ⟨hKeyText, hGap, hLeading, hPlace⟩ := key_spec hKey hReaches
    obtain ⟨out, hText, hAfter, hReads⟩ := emit_spec h hGap hLeading hPlace
    rw [emitFields_cons hKey, emitFields]
    refine ⟨key.toList ++ ':' :: out, ?_, hAfter, .one hKey hReads⟩
    rw [hText, hKeyText, List.append_assoc, List.append_assoc]
    rfl
  | @more key value fields hKey h hNew hMore =>
    obtain ⟨hKeyText, hGap, hLeading, hPlace⟩ := key_spec hKey hReaches
    obtain ⟨out, hText, hAfter, hReads⟩ := emit_spec h hGap hLeading hPlace
    obtain ⟨hNewLine, hNext⟩ := Reaches.of_newLine hAfter column
    obtain ⟨rest, hRestText, hLast, hRestReads⟩ := emitFields_spec hMore hNext
    rw [emitFields_cons hKey]
    refine ⟨key.toList ++ ':' :: (out ++ line column rest), ?_, hLast, .more hKey hReads ?_ hRestReads⟩
    · rw [hRestText, hNewLine, newLine_toList, hText, hKeyText]
      simp [line]
    · rw [asReadFields_keys]
      exact hNew

/-- The elements of a legible list are read at the column that they are written at. -/
theorem emitItems_spec {items : List Json} (h : LegibleItems items) {column : Nat} {c : Cursor}
    (hLeading : c.leading = false) :
    ∃ out, (emitItems column c items).text.toList = c.text.toList ++ line column out ∧
      (emitItems column c items).leading = false ∧
      ReadsItems column (asReadItems column items) out := by
  obtain ⟨hNewLine, -⟩ := Reaches.of_newLine hLeading column
  have hDash : ((c.indent column).sign ['-'] true false true).text.toList
      = c.text.toList ++ line column ['-'] := by
    rw [sign_toList, hNewLine, newLine_toList, List.append_assoc]
    rfl
  have hStart : ((c.indent column).sign ['-'] true false true).leading = true ∧
      ((c.indent column).sign ['-'] true false true).column = column + 1 := by
    rw [hNewLine]
    exact ⟨rfl, rfl⟩
  obtain ⟨hSpace, hReaches⟩ := Reaches.of_dash hStart.1 hStart.2
  cases h with
  | @one fields h =>
    obtain ⟨out, hText, hAfter, hReads⟩ := emitFields_spec h hReaches
    rw [emitItems, emit_obj h, emitItems]
    refine ⟨'-' :: ' ' :: out, ?_, hAfter, .one hReads⟩
    rw [nestedColumn, hText, hSpace, hDash]
    simp [line]
  | @more fields items h hMore =>
    obtain ⟨out, hText, hAfter, hReads⟩ := emitFields_spec h hReaches
    obtain ⟨rest, hRestText, hLast, hRestReads⟩ := @emitItems_spec items hMore column _ hAfter
    rw [emitItems, emit_obj h]
    refine ⟨'-' :: ' ' :: (out ++ line column rest), ?_, hLast, .more hReads hRestReads⟩
    rw [nestedColumn, hRestText, hText, hSpace, hDash]
    simp [line]

end

end Cursor

end TreeDump.Yaml
