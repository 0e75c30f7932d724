import TreeDump.Json.Stream
import TreeDump.Proofs.Json.Tokens

/-!
# The writer and the grammar

The writer works on a stack, and what a stack writes is what its entries write, one after the
other.  Expanding a value in place leaves that unchanged.

* `render_eq_encode`: the writer with a stack writes what the encoding by recursion is.
* `value_encode`: in every layout, the encoding of a value is a text of that value.
-/

namespace TreeDump.Json

open Grammar

/-! ## The stack -/

/-- What an entry of the stack writes. -/
def Piece.written (layout : Layout) : Piece → String
  | .text s => s
  | .value level v => encode layout level v

/-- What a stack writes, from the top down. -/
def written (layout : Layout) : List Piece → String
  | [] => ""
  | piece :: stack => piece.written layout ++ written layout stack

theorem written_append (layout : Layout) (upper lower : List Piece) :
    written layout (upper ++ lower) = written layout upper ++ written layout lower := by
  induction upper with
  | nil => rw [List.nil_append, written, String.empty_append]
  | cons piece upper ih => rw [List.cons_append, written, written, ih, String.append_assoc]

theorem written_itemPieces (layout : Layout) (level : Nat) (items : List Json) :
    written layout (itemPieces layout level false items) = encodeItems layout level items := by
  induction items with
  | nil => rw [itemPieces, written, written, encodeItems, String.append_empty, Piece.written]
  | cons item items ih =>
    rw [itemPieces, written, written, ih, encodeItems, Piece.written, Piece.written]
    simp only [String.append_assoc, Bool.false_eq_true, if_false]

theorem written_fieldPieces (layout : Layout) (level : Nat) (fields : List (String × Json)) :
    written layout (fieldPieces layout level false fields) = encodeFields layout level fields := by
  induction fields with
  | nil => rw [fieldPieces, written, written, encodeFields, String.append_empty, Piece.written]
  | cons field fields ih =>
    obtain ⟨key, value⟩ := field
    rw [fieldPieces, written, written, ih, encodeFields, Piece.written, Piece.written]
    simp only [String.append_assoc, Bool.false_eq_true, if_false]

/-- Expanding a value changes nothing of what is written. -/
theorem written_expand (layout : Layout) (level : Nat) (v : Json) :
    (expand layout level v).1 ++ written layout (expand layout level v).2
      = encode layout level v := by
  unfold expand
  split
  · rename_i item items
    rw [itemPieces, written, written, written_itemPieces, encode, Piece.written, Piece.written]
    simp only [String.append_assoc, String.empty_append, if_true]
  · rename_i field fields
    obtain ⟨key, value⟩ := field
    rw [fieldPieces, written, written, written_fieldPieces, encode, Piece.written, Piece.written]
    simp only [String.append_assoc, String.empty_append, if_true]
  · rename_i hArr hObj
    rw [written, String.append_empty]
    unfold encode
    split
    · exact (hArr _ _ rfl).elim
    · exact (hObj _ _ rfl).elim
    · rfl

theorem renderStack_eq (layout : Layout) (done : String) (stack : List Piece) :
    renderStack layout done stack = done ++ written layout stack := by
  induction done, stack using renderStack.induct layout with
  | case1 done => rw [renderStack, written, String.append_empty]
  | case2 done s rest ih => rw [renderStack, ih, written, Piece.written, String.append_assoc]
  | case3 done level v rest ih =>
    rw [renderStack, ih, written_append, written, Piece.written, ← written_expand]
    simp only [String.append_assoc]

/-- The writer with a stack writes what the encoding by recursion is. -/
theorem render_eq_encode (layout : Layout) (v : Json) : render layout v = encode layout 0 v := by
  rw [render, renderStack_eq, written, written, Piece.written, String.empty_append,
    String.append_empty]

/-! ## Numbers -/

/-- The first digit of a positive number is no zero. -/
theorem head_toDigits {n : Nat} (hn : 0 < n) :
    ∃ c cs, Nat.toDigits 10 n = c :: cs ∧ c ≠ '0' := by
  induction n using Nat.strongRecOn with
  | ind n ih =>
    rcases Nat.lt_or_ge n 10 with hLt | hGe
    · refine ⟨n.digitChar, [], Nat.toDigits_of_lt_base hLt, ?_⟩
      rw [Ne, Nat.digitChar_eq_zero]
      omega
    · obtain ⟨c, cs, hDigits, hc⟩ := ih (n / 10) (by omega) (by omega)
      refine ⟨c, cs ++ [(n % 10).digitChar], ?_, hc⟩
      rw [Nat.toDigits_of_base_le (by decide) hGe, hDigits]
      rfl

theorem natural_toDigits (n : Nat) : Natural (Nat.toDigits 10 n) n := by
  rcases Nat.eq_zero_or_pos n with rfl | hn
  · exact .zero
  · obtain ⟨c, cs, hDigits, hc⟩ := head_toDigits hn
    have hIsDigit : ∀ d ∈ c :: cs, d.isDigit := by
      intro d hd
      rw [← hDigits] at hd
      exact Nat.isDigit_of_mem_toDigits (by decide) (by decide) hd
    have hNatural := Natural.nonzero hc hIsDigit
    rw [← hDigits, Nat.ofDigitChars_ten_toDigits] at hNatural
    exact hNatural

theorem number_toString (n : Int) : Number (toString n).toList n := by
  cases n with
  | ofNat n =>
    have hText : (toString (Int.ofNat n)).toList = Nat.toDigits 10 n := Nat.toList_repr
    rw [hText]
    exact .positive (natural_toDigits n)
  | negSucc n =>
    have hText : (toString (Int.negSucc n)).toList = '-' :: Nat.toDigits 10 (n + 1) := by
      have hNat : (-Int.negSucc n).toNat = n + 1 := rfl
      rw [Int.toString_eq_repr, Int.repr_eq_if, if_neg (by omega), hNat, String.toList_append,
        Nat.toList_repr]
      rfl
    rw [hText, Int.negSucc_eq]
    exact .negative (natural_toDigits (n + 1))

/-! ## Strings -/

theorem value?_digit {n : Nat} (hn : n < 16) : Hex.value? (Hex.digit false n) = some n := by
  revert n
  decide

theorem quad_digits {n : Nat} (hn : n < 0x10000) :
    ∃ a b c d, Hex.digits false 4 n = [a, b, c, d] ∧ Quad a b c d n := by
  refine ⟨_, _, _, _, rfl, _, _, _, _, value?_digit ?_, value?_digit ?_, value?_digit ?_,
    value?_digit ?_, ?_⟩
  all_goals omega

theorem chars_escape (c : Char) {text cs : List Char} (h : Chars text cs) :
    Chars (escape c ++ text) (c :: cs) := by
  unfold escape
  by_cases hQuotation : c = '"'
  · subst hQuotation
    exact .short .quotation h
  by_cases hBackslash : c = '\\'
  · subst hBackslash
    exact .short .backslash h
  by_cases hLineFeed : c = '\n'
  · subst hLineFeed
    exact .short .lineFeed h
  by_cases hReturn : c = '\r'
  · subst hReturn
    exact .short .carriageReturn h
  by_cases hTab : c = '\t'
  · subst hTab
    exact .short .tab h
  by_cases hBackspace : c = '\x08'
  · subst hBackspace
    exact .short .backspace h
  by_cases hFormFeed : c = '\x0c'
  · subst hFormFeed
    exact .short .formFeed h
  simp only [beq_iff_eq, hQuotation, hBackslash, hLineFeed, hReturn, hTab, hBackspace, hFormFeed,
    if_false]
  split
  · rename_i hControl
    obtain ⟨d1, d2, d3, d4, hDigits, hQuad⟩ := quad_digits (n := c.toNat) (by omega)
    have hCode := Chars.code hQuad (Or.inl (by omega)) h
    rw [Char.ofNat_toNat] at hCode
    rw [hDigits]
    exact hCode
  · exact .plain (by omega) hQuotation hBackslash h

theorem chars_flatMap_escape (cs : List Char) : Chars (cs.flatMap escape) cs := by
  induction cs with
  | nil => exact .nil
  | cons c cs ih =>
    rw [List.flatMap_cons]
    exact chars_escape c ih

theorem quoted_quote (s : String) : Quoted (quote s).toList s := by
  have h := Quoted.mk (chars_flatMap_escape s.toList)
  rw [String.ofList_toList] at h
  rw [quote, String.toList_ofList]
  exact h

/-! ## Values -/

theorem blank_newline (layout : Layout) (level : Nat) : Blank (layout.newline level).toList := by
  cases layout with
  | compact =>
    intro c hc
    cases hc
  | indented width =>
    intro c hc
    rw [Layout.newline, String.toList_append] at hc
    rcases List.mem_append.mp hc with hc | hc
    · exact Or.inr (Or.inr (Or.inl (List.mem_singleton.mp hc)))
    · rw [String.toList_ofList] at hc
      exact Or.inl (List.eq_of_mem_replicate hc)

/-- A colon and what blanks the layout puts after it. -/
theorem colon_toList (layout : Layout) :
    ∃ blank, Blank blank ∧ layout.colon.toList = ':' :: blank := by
  cases layout with
  | compact => exact ⟨[], blank_nil, by decide⟩
  | indented _ =>
    refine ⟨[' '], ?_, by rw [Layout.colon]; rfl⟩
    intro c hc
    exact Or.inl (List.mem_singleton.mp hc)

/-- The text of a value that holds no other. -/
theorem value_scalar {v : Json} (hArr : ∀ item items, v ≠ .arr (item :: items))
    (hObj : ∀ field fields, v ≠ .obj (field :: fields)) : Value (scalar v).toList v := by
  cases v with
  | null => exact .null
  | bool b =>
    cases b with
    | true => exact .true
    | false => exact .false
  | int n => exact .int (number_toString n)
  | str s => exact .str (quoted_quote s)
  | arr items =>
    cases items with
    | nil => exact .emptyArr blank_nil
    | cons item items => exact (hArr item items rfl).elim
  | obj fields =>
    cases fields with
    | nil => exact .emptyObj blank_nil
    | cons field fields => exact (hObj field fields rfl).elim

mutual

/-- In every layout, the encoding of a value is a text of that value. -/
theorem value_encode (layout : Layout) (level : Nat) (v : Json) :
    Value (encode layout level v).toList v := by
  unfold encode
  split
  · rename_i item items
    obtain ⟨text, hItems, hText⟩ := items_encode layout level items
      (blank_newline layout (level + 1)) (value_encode layout (level + 1) item)
    have hArr := Value.arr hItems
    rw [List.cons_append, ← hText] at hArr
    have hOpen : "[".toList = ['['] := rfl
    simpa only [String.toList_append, hOpen, List.append_assoc, List.cons_append,
      List.nil_append] using hArr
  · rename_i key value fields
    obtain ⟨blank, hBlank, hColon⟩ := colon_toList layout
    obtain ⟨text, hFields, hText⟩ := fields_encode layout level fields
      (blank_newline layout (level + 1)) (quoted_quote key) hBlank
      (value_encode layout (level + 1) value)
    have hObj := Value.obj hFields
    rw [List.cons_append, ← hText] at hObj
    have hOpen : "\x7b".toList = ['\x7b'] := rfl
    simpa only [String.toList_append, hOpen, hColon, List.append_assoc, List.cons_append,
      List.nil_append] using hObj
  · rename_i hArr hObj
    exact value_scalar hArr (fun field fields => hObj field.1 field.2 fields)

/-- The elements of an array after a first one that is written already. -/
theorem items_encode (layout : Layout) (level : Nat) (items : List Json) {before cs : List Char}
    {v : Json} (hBefore : Blank before) (h : Value cs v) :
    ∃ text, Items text (v :: items) ∧
      before ++ cs ++ (encodeItems layout level items).toList = text ++ [']'] := by
  cases items with
  | nil =>
    refine ⟨_, .one hBefore h (blank_newline layout level), ?_⟩
    rw [encodeItems, String.toList_append, ← List.append_assoc]
    rfl
  | cons item items =>
    obtain ⟨text, hItems, hText⟩ := items_encode layout level items
      (blank_newline layout (level + 1)) (value_encode layout (level + 1) item)
    refine ⟨_, .more hBefore h blank_nil hItems, ?_⟩
    rw [encodeItems, List.append_nil, List.append_assoc _ _ [']'], List.cons_append, ← hText]
    simp only [String.toList_append, List.append_assoc]
    rfl

/-- The fields of an object after a first one that is written already. -/
theorem fields_encode (layout : Layout) (level : Nat) (fields : List (String × Json))
    {before name blank cs : List Char} {key : String} {v : Json} (hBefore : Blank before)
    (hName : Quoted name key) (hBlank : Blank blank) (h : Value cs v) :
    ∃ text, Fields text ((key, v) :: fields) ∧
      before ++ name ++ ':' :: (blank ++ cs) ++ (encodeFields layout level fields).toList
        = text ++ ['\x7d'] := by
  cases fields with
  | nil =>
    refine ⟨_, .one hBefore hName blank_nil hBlank h (blank_newline layout level), ?_⟩
    rw [encodeFields, String.toList_append]
    simp only [List.append_assoc, List.cons_append, List.nil_append]
    rfl
  | cons field fields =>
    obtain ⟨nextKey, nextValue⟩ := field
    obtain ⟨nextBlank, hNextBlank, hColon⟩ := colon_toList layout
    obtain ⟨text, hFields, hText⟩ := fields_encode layout level fields
      (blank_newline layout (level + 1)) (quoted_quote nextKey) hNextBlank
      (value_encode layout (level + 1) nextValue)
    refine ⟨_, .more hBefore hName blank_nil hBlank h blank_nil hFields, ?_⟩
    have hRest : before ++ name ++ [] ++ ':' :: (blank ++ cs ++ [] ++ ',' :: text) ++ ['\x7d']
        = before ++ name ++ ':' :: (blank ++ cs ++ ',' :: (text ++ ['\x7d'])) := by
      simp only [List.append_assoc, List.cons_append, List.nil_append]
    rw [hRest, ← hText, encodeFields]
    simp only [String.toList_append, hColon, List.append_assoc, List.cons_append]
    rfl

end

end TreeDump.Json
