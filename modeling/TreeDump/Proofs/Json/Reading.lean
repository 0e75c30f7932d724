import TreeDump.Proofs.Json.Tokens

/-!
# The reader and the grammar

Both directions are by induction on the fuel, with one case for each production.

* `readValue_complete`: what the grammar allows is read as what it writes, if the fuel is twice the
  length of the text.
* `readValue_sound`: what is read is allowed.
* `parse_eq_some_iff`: a text is read as a value if and only if it is a document of that value.
-/

namespace TreeDump.Json

open Grammar

/-! ## Values that the grammar allows are read -/

theorem skipBlank_skipBlank (cs : List Char) : skipBlank (skipBlank cs) = skipBlank cs := by
  obtain ⟨blank, hBlank, hEq⟩ := exists_blank cs
  calc skipBlank (skipBlank cs)
      = skipBlank (blank ++ skipBlank cs) := (skipBlank_append hBlank _).symm
    _ = skipBlank cs := by rw [← hEq]

theorem readValue_skipBlank (fuel : Nat) (cs : List Char) :
    readValue fuel (skipBlank cs) = readValue fuel cs := by
  cases fuel with
  | zero => rw [readValue_zero, readValue_zero]
  | succ fuel => rw [readValue, readValue, skipBlank_skipBlank]

theorem readItems_skipBlank (fuel : Nat) (cs : List Char) :
    readItems fuel (skipBlank cs) = readItems fuel cs := by
  cases fuel with
  | zero => rw [readItems_zero, readItems_zero]
  | succ fuel => rw [readItems, readItems, readValue_skipBlank]

theorem readFields_skipBlank (fuel : Nat) (cs : List Char) :
    readFields fuel (skipBlank cs) = readFields fuel cs := by
  cases fuel with
  | zero => rw [readFields_zero, readFields_zero]
  | succ fuel => rw [readFields, readFields, skipBlank_skipBlank]

/-- A numeral is over before a blank and before what follows a value in a container. -/
theorem ends_append {blank : List Char} (hBlank : Blank blank) {c : Char} (rest : List Char)
    (hc : c = ',' ∨ c = ']' ∨ c = '\x7d') : Ends (blank ++ c :: rest) := by
  intro d hd
  cases blank with
  | nil =>
    obtain rfl := Option.some_inj.mp hd
    rcases hc with rfl | rfl | rfl <;> decide
  | cons e blank =>
    obtain rfl := Option.some_inj.mp hd
    rcases hBlank _ List.mem_cons_self with rfl | rfl | rfl | rfl <;> decide

theorem Grammar.Number.exists_cons {cs : List Char} {n : Int} (h : Number cs n) :
    ∃ c rest, cs = c :: rest ∧ (c = '-' ∨ c.isDigit = true) := by
  cases h with
  | positive h =>
    obtain ⟨c, rest, rfl, hc⟩ := h.exists_cons
    exact ⟨c, rest, rfl, Or.inr hc⟩
  | @negative cs n h => exact ⟨'-', cs, rfl, Or.inl rfl⟩

/-- A value starts with a character that is neither a blank nor the end of an array. -/
theorem Grammar.Value.exists_cons {cs : List Char} {v : Json} (h : Value cs v) :
    ∃ c rest, cs = c :: rest ∧ Visible c ∧ c ≠ ']' := by
  cases h with
  | int h =>
    obtain ⟨c, rest, rfl, hc⟩ := h.exists_cons
    refine ⟨c, rest, rfl, ?_⟩
    unfold Visible
    constructor
    · refine ⟨?_, ?_, ?_, ?_⟩
      all_goals
        rintro rfl
        rcases hc with hc | hc
        · cases hc
        · cases hc
    · rintro rfl
      rcases hc with hc | hc <;> cases hc
  | str h =>
    cases h
    exact ⟨'"', _, rfl, by decide, by decide⟩
  | null => exact ⟨'n', _, rfl, by decide, by decide⟩
  | true => exact ⟨'t', _, rfl, by decide, by decide⟩
  | false => exact ⟨'f', _, rfl, by decide, by decide⟩
  | emptyArr => exact ⟨'[', _, rfl, by decide, by decide⟩
  | arr => exact ⟨'[', _, rfl, by decide, by decide⟩
  | emptyObj => exact ⟨'\x7b', _, rfl, by decide, by decide⟩
  | obj => exact ⟨'\x7b', _, rfl, by decide, by decide⟩

/-! ### One step of the reader -/

theorem readValue_string {fuel : Nat} {cs tail rest : List Char} {s : String}
    (hSkip : skipBlank cs = '"' :: tail) (h : readString [] tail = some (s, rest)) :
    readValue (fuel + 1) cs = some (.str s, rest) := by
  rw [readValue, hSkip]
  exact congrArg (Option.map _) h

theorem readValue_int {fuel : Nat} {cs text rest : List Char} {n : Int} (hNumber : Number text n)
    (hRest : Ends rest) (hSkip : skipBlank cs = text ++ rest) :
    readValue (fuel + 1) cs = some (.int n, rest) := by
  have hRead := readInt_complete hNumber hRest
  obtain ⟨c, text, rfl, hc⟩ := hNumber.exists_cons
  have hOther : ∀ d : Char, d ≠ '-' → d.isDigit = false → c ≠ d := by
    rintro d hMinus hDigit rfl
    rcases hc with rfl | hc
    · exact hMinus rfl
    · rw [hDigit] at hc
      cases hc
  rw [readValue, hSkip]
  rw [List.cons_append] at hRead ⊢
  split
  case h_7 => rw [hRead]; rfl
  all_goals
    rename_i hCons
    exact absurd (List.cons.inj hCons).1 (hOther _ (by decide) (by decide))

theorem readValue_arr {fuel : Nat} {cs tail rest : List Char} {items : List Json}
    (hSkip : skipBlank cs = '[' :: tail) (hItem : ∀ left, skipBlank tail ≠ ']' :: left)
    (h : readItems fuel tail = some (items, rest)) :
    readValue (fuel + 1) cs = some (.arr items, rest) := by
  rw [readValue]
  simp only [hSkip]
  rw [readItems_skipBlank, h]
  rfl

theorem readValue_obj {fuel : Nat} {cs tail rest : List Char} {fields : List (String × Json)}
    (hSkip : skipBlank cs = '\x7b' :: tail) (hField : ∀ left, skipBlank tail ≠ '\x7d' :: left)
    (h : readFields fuel tail = some (fields, rest)) :
    readValue (fuel + 1) cs = some (.obj fields, rest) := by
  rw [readValue]
  simp only [hSkip]
  rw [readFields_skipBlank, h]
  rfl

/-! ### Whole values -/

theorem skipBlank_value {blank cs rest : List Char} {c : Char} (hBlank : Blank blank)
    (hCons : cs = c :: rest) (hc : Visible c) (left : List Char) :
    skipBlank (blank ++ (cs ++ left)) = c :: (rest ++ left) := by
  rw [skipBlank_append hBlank, hCons, List.cons_append, skipBlank_visible hc]

theorem skipBlank_closing {blank : List Char} (hBlank : Blank blank) {c : Char} (hc : Visible c)
    (rest : List Char) : skipBlank (blank ++ c :: rest) = c :: rest := by
  rw [skipBlank_append hBlank, skipBlank_visible hc]

theorem skipBlank_enclosed {blank : List Char} (hBlank : Blank blank) {c : Char} (hc : Visible c)
    (inner : List Char) (d : Char) (rest : List Char) :
    skipBlank (blank ++ (c :: inner ++ [d] ++ rest)) = c :: (inner ++ d :: rest) := by
  rw [List.append_assoc, List.cons_append, List.singleton_append, skipBlank_closing hBlank hc]

/-- Elements do not start like the end of an array. -/
theorem Grammar.Items.skipBlank_ne {cs : List Char} {items : List Json} (h : Items cs items)
    (rest left : List Char) : skipBlank (cs ++ rest) ≠ ']' :: left := by
  have hValue : ∀ {before text : List Char} {v : Json} (after : List Char), Blank before →
      Value text v → skipBlank (before ++ (text ++ after)) ≠ ']' :: left := by
    intro before text v after hBefore hText
    obtain ⟨c, tail, hCons, hVisible, hNe⟩ := hText.exists_cons
    rw [skipBlank_value hBefore hCons hVisible]
    exact fun hEq => hNe (List.cons.inj hEq).1
  cases h with
  | one hBefore h hAfter =>
    rw [List.append_assoc, List.append_assoc]
    exact hValue _ hBefore h
  | more hBefore h hAfter hRest =>
    rw [List.append_assoc, List.append_assoc, List.append_assoc]
    exact hValue _ hBefore h

/-- Fields do not start like the end of an object. -/
theorem Grammar.Fields.skipBlank_ne {cs : List Char} {fields : List (String × Json)}
    (h : Fields cs fields) (rest left : List Char) : skipBlank (cs ++ rest) ≠ '\x7d' :: left := by
  have hName : ∀ {before name : List Char} {key : String} (after : List Char), Blank before →
      Quoted name key → skipBlank (before ++ (name ++ after)) ≠ '\x7d' :: left := by
    intro before name key after hBefore hQuoted
    cases hQuoted
    rw [skipBlank_enclosed hBefore (by decide)]
    exact fun hEq => absurd (List.cons.inj hEq).1 (by decide)
  cases h with
  | one hBefore hQuoted =>
    rw [List.append_assoc, List.append_assoc, List.append_assoc]
    exact hName _ hBefore hQuoted
  | more hBefore hQuoted =>
    rw [List.append_assoc, List.append_assoc, List.append_assoc]
    exact hName _ hBefore hQuoted

/-- A field is read up to the mark behind its value, which says whether there are more. -/
theorem readFields_field {fuel : Nat} {before name middle tail left rest : List Char} {key : String}
    {v : Json} {fields : List (String × Json)} (hBefore : Blank before) (hName : Quoted name key)
    (hMiddle : Blank middle) (hValue : readValue fuel tail = some (v, left))
    (hMore : skipBlank left = '\x7d' :: rest ∧ fields = [] ∨
      ∃ next, skipBlank left = ',' :: next ∧ readFields fuel next = some (fields, rest)) :
    readFields (fuel + 1) (before ++ (name ++ (middle ++ ':' :: tail)))
      = some ((key, v) :: fields, rest) := by
  obtain ⟨inner, hInner, hRead⟩ := hName.readString (middle ++ ':' :: tail)
  rw [readFields, hInner]
  simp only [skipBlank_closing hBefore (by decide : Visible '"'), hRead,
    skipBlank_closing hMiddle (by decide : Visible ':'), hValue]
  rcases hMore with ⟨hEnd, rfl⟩ | ⟨next, hNext, hFields⟩
  · simp only [hEnd]
  · simp only [hNext, hFields, Option.map_some]

mutual

theorem readValue_complete : ∀ (fuel : Nat) {blank cs rest : List Char} {v : Json},
    Blank blank → Value cs v → Ends rest → 2 * cs.length + 1 ≤ fuel →
      readValue fuel (blank ++ (cs ++ rest)) = some (v, rest)
  | fuel + 1, blank, cs, rest, v, hBlank, h, hRest, hFuel => by
    cases h with
    | null =>
      have hSkip := skipBlank_value hBlank (rfl : ['n', 'u', 'l', 'l'] = _) (by decide) rest
      rw [readValue, hSkip]
      exact congrArg (·.map fun rest => (Json.null, rest)) (expect?_append ['u', 'l', 'l'] rest)
    | true =>
      have hSkip := skipBlank_value hBlank (rfl : ['t', 'r', 'u', 'e'] = _) (by decide) rest
      rw [readValue, hSkip]
      exact congrArg (·.map fun rest => (Json.bool true, rest))
        (expect?_append ['r', 'u', 'e'] rest)
    | false =>
      have hSkip := skipBlank_value hBlank (rfl : ['f', 'a', 'l', 's', 'e'] = _) (by decide) rest
      rw [readValue, hSkip]
      exact congrArg (·.map fun rest => (Json.bool false, rest))
        (expect?_append ['a', 'l', 's', 'e'] rest)
    | int h =>
      obtain ⟨c, tail, hCons, hVisible, -⟩ := (Value.int h).exists_cons
      refine readValue_int h hRest ?_
      rw [skipBlank_value hBlank hCons hVisible, hCons, List.cons_append]
    | str h =>
      obtain ⟨tail, hTail, hRead⟩ := h.readString rest
      refine readValue_string ?_ hRead
      rw [hTail, skipBlank_closing hBlank (by decide)]
    | emptyArr hInner =>
      rw [readValue, skipBlank_enclosed hBlank (by decide)]
      simp only [skipBlank_closing hInner (by decide : Visible ']')]
    | arr h =>
      refine readValue_arr (skipBlank_enclosed hBlank (by decide) _ _ _) (h.skipBlank_ne _) ?_
      exact readItems_complete fuel h (by simp at hFuel; omega)
    | emptyObj hInner =>
      rw [readValue, skipBlank_enclosed hBlank (by decide)]
      simp only [skipBlank_closing hInner (by decide : Visible '\x7d')]
    | obj h =>
      refine readValue_obj (skipBlank_enclosed hBlank (by decide) _ _ _) (h.skipBlank_ne _) ?_
      exact readFields_complete fuel h (by simp at hFuel; omega)

theorem readItems_complete : ∀ (fuel : Nat) {cs rest : List Char} {items : List Json},
    Items cs items → 2 * cs.length + 2 ≤ fuel →
      readItems fuel (cs ++ ']' :: rest) = some (items, rest)
  | fuel + 1, cs, rest, items, h, hFuel => by
    cases h with
    | one hBefore h hAfter =>
      rename_i before text after v
      have hLength : 2 * text.length + 1 ≤ fuel := by simp at hFuel; omega
      have hValue := readValue_complete fuel hBefore h
        (ends_append hAfter rest (Or.inr (Or.inl rfl))) hLength
      rw [readItems, List.append_assoc, List.append_assoc, hValue]
      simp only [skipBlank_closing hAfter (by decide : Visible ']')]
    | more hBefore h hAfter hRest =>
      rename_i before text after left v items
      have hLength : 2 * text.length + 1 ≤ fuel ∧ 2 * left.length + 2 ≤ fuel := by
        simp at hFuel
        omega
      have hValue := readValue_complete fuel hBefore h
        (ends_append hAfter (left ++ ']' :: rest) (Or.inl rfl)) hLength.1
      have hLeft : readItems fuel (left ++ ']' :: rest) = some (items, rest) :=
        readItems_complete fuel hRest hLength.2
      rw [readItems, List.append_assoc, List.append_assoc, List.append_assoc, List.cons_append,
        hValue]
      simp only [skipBlank_closing hAfter (by decide : Visible ','), hLeft]
      rfl

theorem readFields_complete : ∀ (fuel : Nat) {cs rest : List Char}
    {fields : List (String × Json)}, Fields cs fields → 2 * cs.length + 2 ≤ fuel →
      readFields fuel (cs ++ '\x7d' :: rest) = some (fields, rest)
  | fuel + 1, cs, rest, fields, h, hFuel => by
    cases h with
    | one hBefore hName hMiddle hBlank h hAfter =>
      rename_i before name middle blank text after key v
      have hLength : 2 * text.length + 1 ≤ fuel := by simp at hFuel; omega
      have hValue := readValue_complete fuel hBlank h
        (ends_append hAfter rest (Or.inr (Or.inr rfl))) hLength
      have hField := readFields_field hBefore hName hMiddle hValue
        (Or.inl ⟨skipBlank_closing hAfter (by decide) rest, rfl⟩)
      simpa only [List.append_assoc, List.cons_append] using hField
    | more hBefore hName hMiddle hBlank h hAfter hRest =>
      rename_i before name middle blank text after left key v fields
      have hLength : 2 * text.length + 1 ≤ fuel ∧ 2 * left.length + 2 ≤ fuel := by
        simp at hFuel
        omega
      have hValue := readValue_complete fuel hBlank h
        (ends_append hAfter (left ++ '\x7d' :: rest) (Or.inl rfl)) hLength.1
      have hLeft : readFields fuel (left ++ '\x7d' :: rest) = some (fields, rest) :=
        readFields_complete fuel hRest hLength.2
      have hField := readFields_field hBefore hName hMiddle hValue
        (Or.inr ⟨_, skipBlank_closing hAfter (by decide) _, hLeft⟩)
      simpa only [List.append_assoc, List.cons_append] using hField

end

/-! ## Values that are read are allowed -/

theorem blank_append {blank other : List Char} (hBlank : Blank blank) (hOther : Blank other) :
    Blank (blank ++ other) := by
  intro c hc
  rcases List.mem_append.mp hc with hc | hc
  · exact hBlank c hc
  · exact hOther c hc

theorem Grammar.Items.blank_append {blank cs : List Char} {items : List Json} (hBlank : Blank blank)
    (h : Items cs items) : Items (blank ++ cs) items := by
  cases h with
  | one hBefore h hAfter =>
    rw [← List.append_assoc, ← List.append_assoc]
    exact .one (Json.blank_append hBlank hBefore) h hAfter
  | more hBefore h hAfter hRest =>
    rw [← List.append_assoc, ← List.append_assoc, ← List.append_assoc]
    exact .more (Json.blank_append hBlank hBefore) h hAfter hRest

theorem Grammar.Fields.blank_append {blank cs : List Char} {fields : List (String × Json)}
    (hBlank : Blank blank) (h : Fields cs fields) : Fields (blank ++ cs) fields := by
  cases h with
  | one hBefore =>
    rw [← List.append_assoc, ← List.append_assoc, ← List.append_assoc]
    exact .one (Json.blank_append hBlank hBefore) ‹_› ‹_› ‹_› ‹_› ‹_›
  | more hBefore =>
    rw [← List.append_assoc, ← List.append_assoc, ← List.append_assoc]
    exact .more (Json.blank_append hBlank hBefore) ‹_› ‹_› ‹_› ‹_› ‹_› ‹_›

mutual

theorem readValue_sound : ∀ (fuel : Nat) {cs rest : List Char} {v : Json},
    readValue fuel cs = some (v, rest) →
      ∃ blank text, Blank blank ∧ Value text v ∧ cs = blank ++ (text ++ rest)
  | 0, cs, rest, v, h => by
    rw [readValue] at h
    cases h
  | fuel + 1, cs, rest, v, h => by
    obtain ⟨blank, hBlank, hCs⟩ := exists_blank cs
    rw [readValue] at h
    -- the value stands behind the blanks
    suffices hText : ∃ text, Value text v ∧ skipBlank cs = text ++ rest by
      obtain ⟨text, hValue, hSkip⟩ := hText
      exact ⟨blank, text, hBlank, hValue, by rw [← hSkip, ← hCs]⟩
    generalize skipBlank cs = visible at h
    split at h
    · obtain ⟨⟨s, left⟩, hRead, hEq⟩ := Option.map_eq_some_iff.mp h
      obtain ⟨rfl, rfl⟩ := Prod.mk.inj hEq
      obtain ⟨text, hQuoted, hText⟩ := quoted_of_readString hRead
      exact ⟨text, .str hQuoted, hText⟩
    · rename_i tail
      obtain ⟨inner, hInner, hTail⟩ := exists_blank tail
      split at h
      · rename_i left hSkip
        obtain ⟨rfl, rfl⟩ := Prod.mk.inj (Option.some_inj.mp h)
        exact ⟨'[' :: inner ++ [']'], .emptyArr hInner, by rw [hTail, hSkip]; simp⟩
      · obtain ⟨⟨items, left⟩, hRead, hEq⟩ := Option.map_eq_some_iff.mp h
        obtain ⟨rfl, rfl⟩ := Prod.mk.inj hEq
        obtain ⟨text, hItems, hSkip⟩ := readItems_sound fuel hRead
        exact ⟨'[' :: (inner ++ text) ++ [']'], .arr (hItems.blank_append hInner),
          by rw [hTail, hSkip]; simp⟩
    · rename_i tail
      obtain ⟨inner, hInner, hTail⟩ := exists_blank tail
      split at h
      · rename_i left hSkip
        obtain ⟨rfl, rfl⟩ := Prod.mk.inj (Option.some_inj.mp h)
        exact ⟨'\x7b' :: inner ++ ['\x7d'], .emptyObj hInner, by rw [hTail, hSkip]; simp⟩
      · obtain ⟨⟨fields, left⟩, hRead, hEq⟩ := Option.map_eq_some_iff.mp h
        obtain ⟨rfl, rfl⟩ := Prod.mk.inj hEq
        obtain ⟨text, hFields, hSkip⟩ := readFields_sound fuel hRead
        exact ⟨'\x7b' :: (inner ++ text) ++ ['\x7d'], .obj (hFields.blank_append hInner),
          by rw [hTail, hSkip]; simp⟩
    · obtain ⟨left, hRead, hEq⟩ := Option.map_eq_some_iff.mp h
      obtain ⟨rfl, rfl⟩ := Prod.mk.inj hEq
      exact ⟨['n', 'u', 'l', 'l'], .null, by rw [eq_of_expect? hRead]; rfl⟩
    · obtain ⟨left, hRead, hEq⟩ := Option.map_eq_some_iff.mp h
      obtain ⟨rfl, rfl⟩ := Prod.mk.inj hEq
      exact ⟨['t', 'r', 'u', 'e'], .true, by rw [eq_of_expect? hRead]; rfl⟩
    · obtain ⟨left, hRead, hEq⟩ := Option.map_eq_some_iff.mp h
      obtain ⟨rfl, rfl⟩ := Prod.mk.inj hEq
      exact ⟨['f', 'a', 'l', 's', 'e'], .false, by rw [eq_of_expect? hRead]; rfl⟩
    · obtain ⟨⟨n, left⟩, hRead, hEq⟩ := Option.map_eq_some_iff.mp h
      obtain ⟨rfl, rfl⟩ := Prod.mk.inj hEq
      obtain ⟨text, hNumber, hText⟩ := readInt_sound hRead
      exact ⟨text, .int hNumber, hText⟩

theorem readItems_sound : ∀ (fuel : Nat) {cs rest : List Char} {items : List Json},
    readItems fuel cs = some (items, rest) →
      ∃ text, Items text items ∧ cs = text ++ ']' :: rest
  | 0, cs, rest, items, h => by
    rw [readItems] at h
    cases h
  | fuel + 1, cs, rest, items, h => by
    rw [readItems] at h
    split at h
    · cases h
    · rename_i v tail hRead
      obtain ⟨blank, text, hBlank, hValue, rfl⟩ := readValue_sound fuel hRead
      obtain ⟨after, hAfter, hTail⟩ := exists_blank tail
      split at h
      · rename_i left hSkip
        obtain ⟨⟨more, last⟩, hMore, hEq⟩ := Option.map_eq_some_iff.mp h
        obtain ⟨rfl, rfl⟩ := Prod.mk.inj hEq
        obtain ⟨others, hOthers, rfl⟩ := readItems_sound fuel hMore
        exact ⟨blank ++ text ++ after ++ ',' :: others, .more hBlank hValue hAfter hOthers,
          by rw [hTail, hSkip]; simp⟩
      · rename_i left hSkip
        obtain ⟨rfl, rfl⟩ := Prod.mk.inj (Option.some_inj.mp h)
        exact ⟨blank ++ text ++ after, .one hBlank hValue hAfter, by rw [hTail, hSkip]; simp⟩
      · cases h

theorem readFields_sound : ∀ (fuel : Nat) {cs rest : List Char} {fields : List (String × Json)},
    readFields fuel cs = some (fields, rest) →
      ∃ text, Fields text fields ∧ cs = text ++ '\x7d' :: rest
  | 0, cs, rest, fields, h => by
    rw [readFields] at h
    cases h
  | fuel + 1, cs, rest, fields, h => by
    obtain ⟨before, hBefore, hCs⟩ := exists_blank cs
    rw [readFields] at h
    split at h
    · rename_i inner hSkip
      split at h
      · cases h
      · rename_i key tail hKey
        obtain ⟨name, hName, hInner⟩ := quoted_of_readString hKey
        obtain ⟨middle, hMiddle, hTail⟩ := exists_blank tail
        split at h
        · rename_i behind hColon
          split at h
          · cases h
          · rename_i v left hRead
            obtain ⟨blank, text, hBlank, hValue, rfl⟩ := readValue_sound fuel hRead
            obtain ⟨after, hAfter, hLeft⟩ := exists_blank left
            rw [hCs, hSkip, hInner, hTail, hColon, hLeft]
            split at h
            · rename_i last hComma
              obtain ⟨⟨more, end_⟩, hMore, hEq⟩ := Option.map_eq_some_iff.mp h
              obtain ⟨rfl, rfl⟩ := Prod.mk.inj hEq
              obtain ⟨others, hOthers, rfl⟩ := readFields_sound fuel hMore
              exact ⟨before ++ name ++ middle ++ ':' :: (blank ++ text ++ after ++ ',' :: others),
                .more hBefore hName hMiddle hBlank hValue hAfter hOthers, by rw [hComma]; simp⟩
            · rename_i last hClosed
              obtain ⟨rfl, rfl⟩ := Prod.mk.inj (Option.some_inj.mp h)
              exact ⟨before ++ name ++ middle ++ ':' :: (blank ++ text ++ after),
                .one hBefore hName hMiddle hBlank hValue hAfter, by rw [hClosed]; simp⟩
            · cases h
        · cases h
    · cases h

end

/-! ## Whole texts -/

theorem ends_of_blank {blank : List Char} (hBlank : Blank blank) : Ends blank := by
  intro c hc
  cases blank with
  | nil => cases hc
  | cons d blank =>
    obtain rfl := Option.some_inj.mp hc
    rcases hBlank _ List.mem_cons_self with rfl | rfl | rfl | rfl <;> decide

/-- A text is read as a value if and only if it is a document of that value. -/
theorem parse_eq_some_iff {text : String} {v : Json} :
    parse text = some v ↔ Document text v := by
  constructor
  · intro h
    simp only [parse] at h
    split at h
    · rename_i w rest hRead
      split at h
      · rename_i hEmpty
        obtain rfl := Option.some_inj.mp h
        obtain ⟨before, cs, hBefore, hValue, hText⟩ := readValue_sound _ hRead
        obtain ⟨after, hAfter, hRest⟩ := exists_blank rest
        rw [List.isEmpty_iff.mp hEmpty, List.append_nil] at hRest
        exact ⟨before, cs, after, hBefore, hValue, hAfter, by rw [hText, hRest, List.append_assoc]⟩
      · cases h
    · cases h
  · rintro ⟨before, cs, after, hBefore, hValue, hAfter, hText⟩
    have hFuel : 2 * cs.length + 1 ≤ 2 * text.toList.length + 2 := by
      rw [hText]
      simp
      omega
    have hRead := readValue_complete _ hBefore hValue (ends_of_blank hAfter) hFuel
    rw [← List.append_assoc, ← hText] at hRead
    simp only [parse, hRead]
    rw [← List.append_nil after, skipBlank_append hAfter]
    rfl

end TreeDump.Json
