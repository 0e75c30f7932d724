import TreeDump.Text.Utf8

/-!
# Reading UTF-8 back

The bytes of a text are the bytes of its characters, and reading a character takes exactly its bytes
off the front.

* `toList_append`, `toList_toUTF8`: the bytes of files and of texts as lists.
* `first_encode`: the bytes of a character are read as that character.
* `decode_toUTF8`: the bytes of a text are read as that text.
* `decodeLossy_toUTF8`: so they are with replacement, which replaces nothing there.
* `IsBoundary.exists_part`: the bytes between two boundaries of characters are a part of the text.
-/

namespace TreeDump.Utf8

/-! ## Bytes as lists -/

theorem toList_loop (bytes : ByteArray) (i : Nat) (done : List UInt8) :
    ByteArray.toList.loop bytes i done = done.reverse ++ bytes.data.toList.drop i := by
  fun_induction ByteArray.toList.loop bytes i done with
  | case1 i done hMore ih =>
    have hIndex : i < bytes.data.toList.length := hMore
    rw [ih, List.drop_eq_getElem_cons hIndex, List.reverse_cons, List.append_assoc]
    simp [ByteArray.get!, hMore]
  | case2 i done hEnd =>
    have hLength : bytes.data.toList.length ≤ i := Nat.le_of_not_lt hEnd
    rw [List.drop_eq_nil_of_le hLength, List.append_nil]

theorem toList_eq (bytes : ByteArray) : bytes.toList = bytes.data.toList := by
  rw [ByteArray.toList, toList_loop]
  rfl

theorem toList_append (bytes more : ByteArray) :
    (bytes ++ more).toList = bytes.toList ++ more.toList := by
  rw [toList_eq, toList_eq, toList_eq, ByteArray.toList_data_append]

theorem toList_toUTF8 (text : String) :
    text.toUTF8.toList = text.toList.flatMap String.utf8EncodeChar := by
  have hEncode : text.toUTF8 = text.toList.utf8Encode := String.utf8Encode_toList.symm
  rw [hEncode, toList_eq, List.utf8Encode, List.toList_data_toByteArray]

theorem toList_toUTF8_append (text more : String) :
    (text ++ more).toUTF8.toList = text.toUTF8.toList ++ more.toUTF8.toList := by
  rw [toList_toUTF8, toList_toUTF8, toList_toUTF8, String.toList_append, List.flatMap_append]

/-! ## Single bytes -/

theorem toNat_ofNat {n : Nat} (hByte : n < 0x100) : (UInt8.ofNat n).toNat = n := by
  rw [UInt8.toNat_ofNat', Nat.mod_eq_of_lt hByte]

theorem ofNat_lt_iff {n bound : Nat} (hByte : n < 0x100) (hBound : bound < 0x100) :
    UInt8.ofNat n < UInt8.ofNat bound ↔ n < bound := by
  rw [UInt8.lt_iff_toNat_lt, toNat_ofNat hByte, toNat_ofNat hBound]

theorem ofNat_beq {n other : Nat} (hByte : n < 0x100) (hOther : other < 0x100) :
    (UInt8.ofNat n == UInt8.ofNat other) = decide (n = other) := by
  by_cases hEq : n = other
  · simp [hEq]
  · have hNe : UInt8.ofNat n ≠ UInt8.ofNat other := by
      intro h
      have hNat := congrArg UInt8.toNat h
      rw [toNat_ofNat hByte, toNat_ofNat hOther] at hNat
      exact hEq hNat
    simp [hEq, hNe]

/-- A byte in its range is taken into the code point. -/
theorem continued_cons (low high : Nat) {taken bits count n : Nat} {rest : List UInt8}
    (hLow : low ≤ n) (hHigh : n ≤ high) (hByte : high < 0x100) :
    continued (UInt8.ofNat low) (UInt8.ofNat high) taken bits (count + 1) (UInt8.ofNat n :: rest)
      = continued 0x80 0xbf (taken + 1) (64 * bits + (n - 0x80)) count rest := by
  have hIn : (UInt8.ofNat low ≤ UInt8.ofNat n && UInt8.ofNat n ≤ UInt8.ofNat high) = true := by
    simp only [UInt8.le_iff_toNat_le, Bool.and_eq_true, decide_eq_true_eq]
    rw [toNat_ofNat (by omega), toNat_ofNat (by omega), toNat_ofNat (by omega)]
    exact ⟨hLow, hHigh⟩
  rw [continued, if_pos hIn, toNat_ofNat (by omega)]

/-- What a first byte asks for, by its number. -/
theorem lead?_ofNat {n : Nat} (hByte : n < 0x100) :
    lead? (UInt8.ofNat n) =
      if n < 0x80 then some ⟨0, 0, 0, n⟩
      else if n < 0xc2 then none
      else if n < 0xe0 then some ⟨1, 0x80, 0xbf, n - 0xc0⟩
      else if n = 0xe0 then some ⟨2, 0xa0, 0xbf, 0⟩
      else if n = 0xed then some ⟨2, 0x80, 0x9f, 0xd⟩
      else if n < 0xf0 then some ⟨2, 0x80, 0xbf, n - 0xe0⟩
      else if n = 0xf0 then some ⟨3, 0x90, 0xbf, 0⟩
      else if n < 0xf4 then some ⟨3, 0x80, 0xbf, n - 0xf0⟩
      else if n = 0xf4 then some ⟨3, 0x80, 0x8f, 4⟩
      else none := by
  have hLt80 : UInt8.ofNat n < 0x80 ↔ n < 0x80 := ofNat_lt_iff hByte (by decide)
  have hLtC2 : UInt8.ofNat n < 0xc2 ↔ n < 0xc2 := ofNat_lt_iff hByte (by decide)
  have hLtE0 : UInt8.ofNat n < 0xe0 ↔ n < 0xe0 := ofNat_lt_iff hByte (by decide)
  have hLtF0 : UInt8.ofNat n < 0xf0 ↔ n < 0xf0 := ofNat_lt_iff hByte (by decide)
  have hLtF4 : UInt8.ofNat n < 0xf4 ↔ n < 0xf4 := ofNat_lt_iff hByte (by decide)
  have hE0 : (UInt8.ofNat n == 0xe0) = decide (n = 0xe0) := ofNat_beq hByte (by decide)
  have hED : (UInt8.ofNat n == 0xed) = decide (n = 0xed) := ofNat_beq hByte (by decide)
  have hF0 : (UInt8.ofNat n == 0xf0) = decide (n = 0xf0) := ofNat_beq hByte (by decide)
  have hF4 : (UInt8.ofNat n == 0xf4) = decide (n = 0xf4) := ofNat_beq hByte (by decide)
  simp only [lead?, hLt80, hLtC2, hLtE0, hLtF0, hLtF4, hE0, hED, hF0, hF4, decide_eq_true_eq,
    toNat_ofNat hByte]

/-! ## Characters -/

/-- A byte that is not the second one may have any six bits. -/
theorem continued_tail {taken bits count n : Nat} {rest : List UInt8} (hBits : n < 64) :
    continued 0x80 0xbf taken bits (count + 1) (UInt8.ofNat (n + 0x80) :: rest)
      = continued 0x80 0xbf (taken + 1) (64 * bits + n) count rest := by
  have hTaken : continued 0x80 0xbf taken bits (count + 1) (UInt8.ofNat (n + 0x80) :: rest)
      = continued 0x80 0xbf (taken + 1) (64 * bits + (n + 0x80 - 0x80)) count rest :=
    continued_cons 0x80 0xbf (by omega) (by omega) (by omega)
  rw [hTaken, Nat.add_sub_cancel]

/-- A first byte and what follows it are a character once they give its code point. -/
theorem first_of_continued {n count bits code : Nat} {low high : UInt8} {rest : List UInt8}
    (hLead : lead? (UInt8.ofNat n) = some ⟨count, low, high, bits⟩)
    (hCode : continued low high 0 bits count rest = .ok code) :
    first (UInt8.ofNat n) rest = .ok (Char.ofNat code, count) := by
  rw [first, hLead]
  dsimp only
  rw [hCode]

theorem first_two {v : Nat} {rest : List UInt8} (hLow : 0x7f < v) (hHigh : v ≤ 0x7ff) :
    first (UInt8.ofNat (v / 64 % 32 + 0xc0)) (UInt8.ofNat (v % 64 + 0x80) :: rest)
      = .ok (Char.ofNat v, 1) := by
  have hLead : lead? (UInt8.ofNat (v / 64 % 32 + 0xc0)) = some ⟨1, 0x80, 0xbf, v / 64⟩ := by
    rw [lead?_ofNat (by omega), if_neg (by omega), if_neg (by omega), if_pos (by omega)]
    have hBits : v / 64 % 32 + 0xc0 - 0xc0 = v / 64 := by omega
    rw [hBits]
  refine first_of_continued hLead ?_
  rw [continued_tail (by omega)]
  exact congrArg Except.ok (by omega)

theorem first_three {v : Nat} {rest : List UInt8} (hLow : 0x7ff < v) (hHigh : v ≤ 0xffff)
    (hScalar : v < 0xd800 ∨ 0xdfff < v) :
    first (UInt8.ofNat (v / 4096 % 16 + 0xe0))
        (UInt8.ofNat (v / 64 % 64 + 0x80) :: UInt8.ofNat (v % 64 + 0x80) :: rest)
      = .ok (Char.ofNat v, 2) := by
  -- After two of the first bytes, fewer second ones may follow.
  have hLead : ∃ low high, lead? (UInt8.ofNat (v / 4096 % 16 + 0xe0))
      = some ⟨2, UInt8.ofNat low, UInt8.ofNat high, v / 4096⟩ ∧ high < 0x100 ∧
        low ≤ v / 64 % 64 + 0x80 ∧ v / 64 % 64 + 0x80 ≤ high := by
    rw [lead?_ofNat (by omega), if_neg (by omega), if_neg (by omega), if_neg (by omega)]
    have hBits : v / 4096 % 16 = v / 4096 := by omega
    rw [hBits]
    by_cases hFirst : v / 4096 = 0
    · rw [if_pos (by omega), hFirst]
      exact ⟨0xa0, 0xbf, rfl, by omega, by omega, by omega⟩
    rw [if_neg (by omega)]
    by_cases hSurrogate : v / 4096 = 0xd
    · rw [if_pos (by omega), hSurrogate]
      exact ⟨0x80, 0x9f, rfl, by omega, by omega, by omega⟩
    · rw [if_neg (by omega), if_pos (by omega), Nat.add_sub_cancel]
      exact ⟨0x80, 0xbf, rfl, by omega, by omega, by omega⟩
  obtain ⟨low, high, hSome, hByte, hSecondLow, hSecondHigh⟩ := hLead
  refine first_of_continued hSome ?_
  rw [continued_cons _ _ hSecondLow hSecondHigh hByte, continued_tail (by omega)]
  exact congrArg Except.ok (by omega)

theorem first_four {v : Nat} {rest : List UInt8} (hLow : 0xffff < v) (hHigh : v < 0x110000) :
    first (UInt8.ofNat (v / 262144 % 8 + 0xf0))
        (UInt8.ofNat (v / 4096 % 64 + 0x80) :: UInt8.ofNat (v / 64 % 64 + 0x80)
          :: UInt8.ofNat (v % 64 + 0x80) :: rest)
      = .ok (Char.ofNat v, 3) := by
  have hLead : ∃ low high, lead? (UInt8.ofNat (v / 262144 % 8 + 0xf0))
      = some ⟨3, UInt8.ofNat low, UInt8.ofNat high, v / 262144⟩ ∧ high < 0x100 ∧
        low ≤ v / 4096 % 64 + 0x80 ∧ v / 4096 % 64 + 0x80 ≤ high := by
    rw [lead?_ofNat (by omega), if_neg (by omega), if_neg (by omega), if_neg (by omega),
      if_neg (by omega), if_neg (by omega), if_neg (by omega)]
    have hBits : v / 262144 % 8 = v / 262144 := by omega
    rw [hBits]
    by_cases hFirst : v / 262144 = 0
    · rw [if_pos (by omega), hFirst]
      exact ⟨0x90, 0xbf, rfl, by omega, by omega, by omega⟩
    rw [if_neg (by omega)]
    by_cases hLast : v / 262144 = 4
    · rw [if_neg (by omega), if_pos (by omega), hLast]
      exact ⟨0x80, 0x8f, rfl, by omega, by omega, by omega⟩
    · rw [if_pos (by omega), Nat.add_sub_cancel]
      exact ⟨0x80, 0xbf, rfl, by omega, by omega, by omega⟩
  obtain ⟨low, high, hSome, hByte, hSecondLow, hSecondHigh⟩ := hLead
  refine first_of_continued hSome ?_
  rw [continued_cons _ _ hSecondLow hSecondHigh hByte, continued_tail (by omega),
    continued_tail (by omega)]
  exact congrArg Except.ok (by omega)

/-- The bytes of a character are read as that character. -/
theorem first_encode (c : Char) (rest : List UInt8) :
    ∃ b more, String.utf8EncodeChar c = b :: more ∧
      first b (more ++ rest) = .ok (c, more.length) := by
  have hChar : c.val.toNat < 0xd800 ∨ 0xdfff < c.val.toNat ∧ c.val.toNat < 0x110000 := by
    have hValid := c.valid
    simpa [UInt32.isValidChar, Nat.isValidChar] using hValid
  have hSame : Char.ofNat c.val.toNat = c := Char.ofNat_toNat c
  rw [String.utf8EncodeChar]
  generalize c.val.toNat = v at hChar hSame
  subst hSame
  split
  · refine ⟨_, _, rfl, ?_⟩
    have hLead : lead? (UInt8.ofNat v) = some ⟨0, 0, 0, v⟩ := by
      rw [lead?_ofNat (by omega), if_pos (by omega)]
    exact first_of_continued hLead rfl
  split
  · exact ⟨_, _, rfl, first_two (by omega) (by omega)⟩
  split
  · exact ⟨_, _, rfl, first_three (by omega) (by omega) (by omega)⟩
  · exact ⟨_, _, rfl, first_four (by omega) (by omega)⟩

/-! ## Texts -/

theorem decodeFrom_encode (offset : Nat) (text : String) (cs : List Char) :
    decodeFrom offset text (cs.flatMap String.utf8EncodeChar)
      = .ok (text ++ String.ofList cs) := by
  induction cs generalizing offset text with
  | nil =>
    rw [List.flatMap_nil, decodeFrom]
    simp
  | cons c rest ih =>
    obtain ⟨b, more, hBytes, hFirst⟩ := first_encode c (rest.flatMap String.utf8EncodeChar)
    rw [List.flatMap_cons, hBytes, List.cons_append, decodeFrom, hFirst]
    dsimp only
    rw [List.drop_left, ih, String.ofList_cons, ← String.append_assoc, String.append_singleton]

/-- The bytes of a text are read as that text. -/
theorem decode_toUTF8 (text : String) : decode text.toUTF8 = .ok text := by
  rw [decode, toList_toUTF8, decodeFrom_encode]
  simp

/-- Where all bytes are read, nothing is replaced. -/
theorem decodeLossyFrom_of_decodeFrom {offset : Nat} {text read : String} {bytes : List UInt8}
    (h : decodeFrom offset text bytes = .ok read) : decodeLossyFrom text bytes = read := by
  induction offset, text, bytes using decodeFrom.induct with
  | case1 offset text =>
    rw [decodeFrom] at h
    rw [decodeLossyFrom]
    exact Except.ok.inj h
  | case2 offset text b rest c n hFirst ih =>
    rw [decodeFrom, hFirst] at h
    rw [decodeLossyFrom, hFirst]
    exact ih h
  | case3 offset text b rest cause n hFirst =>
    rw [decodeFrom, hFirst] at h
    cases h

/-- The bytes of a text are read as that text, with nothing replaced. -/
theorem decodeLossy_toUTF8 (text : String) : decodeLossy text.toUTF8 = text :=
  decodeLossyFrom_of_decodeFrom (decode_toUTF8 text)

/-! ## Boundaries of characters -/

/-- That a character of a text begins at an offset in its bytes, or that the text ends there. -/
def IsBoundary (text : String) (offset : Int) : Prop :=
  ∃ place : String.Pos.Raw, place.IsValid text ∧ place.byteIdx = offset

theorem isBoundary_iff {text : String} {offset : Int} :
    IsBoundary text offset
      ↔ ∃ before after, text = before ++ after ∧ before.utf8ByteSize = offset := by
  constructor
  · rintro ⟨place, hValid, hOffset⟩
    obtain ⟨before, after, hText, rfl⟩ := String.Pos.Raw.isValid_iff_exists_append.mp hValid
    exact ⟨before, after, hText, hOffset⟩
  · rintro ⟨before, after, hText, hOffset⟩
    exact ⟨before.rawEndPos,
      String.Pos.Raw.isValid_iff_exists_append.mpr ⟨before, after, hText, rfl⟩, hOffset⟩

/-- What a text begins with is known by its number of bytes. -/
theorem eq_of_append_eq {before after other rest : String} (hText : before ++ after = other ++ rest)
    (hSize : before.utf8ByteSize = other.utf8ByteSize) : before = other := by
  have hBytes : before.toUTF8 ++ after.toUTF8 = other.toUTF8 ++ rest.toUTF8 := by
    have hSame := congrArg String.toUTF8 hText
    simpa using hSame
  exact String.toByteArray_inj.mp (ByteArray.append_inj_left hBytes hSize)

/-- Between two boundaries there is a part of the text. -/
theorem IsBoundary.exists_part {text : String} {start stop : Int} (hStart : IsBoundary text start)
    (hStop : IsBoundary text stop) (hLe : start ≤ stop) :
    ∃ before part after, text = before ++ part ++ after ∧ before.utf8ByteSize = start ∧
      (before ++ part).utf8ByteSize = stop := by
  obtain ⟨before, rest, hText, rfl⟩ := isBoundary_iff.mp hStart
  obtain ⟨longer, after, hSame, rfl⟩ := isBoundary_iff.mp hStop
  have hChars : before.toList ++ rest.toList = longer.toList ++ after.toList := by
    rw [← String.toList_append, ← String.toList_append, ← hText, ← hSame]
  have hPart : ∃ part, longer = before ++ part := by
    rcases List.append_eq_append_iff.mp hChars with ⟨part, hLonger, -⟩ | ⟨part, hBefore, -⟩
    · exact ⟨String.ofList part, by rw [← String.toList_inj]; simpa using hLonger⟩
    · have hLess : before = longer ++ String.ofList part := by
        rw [← String.toList_inj]
        simpa using hBefore
      have hSize : before.utf8ByteSize = longer.utf8ByteSize := by
        have hMore := congrArg String.utf8ByteSize hLess
        rw [String.utf8ByteSize_append] at hMore
        omega
      have hEq : before = longer := eq_of_append_eq (hText.symm.trans hSame) hSize
      exact ⟨"", by rw [hEq, String.append_empty]⟩
  obtain ⟨part, rfl⟩ := hPart
  exact ⟨before, part, after, hSame, rfl, rfl⟩

/-- The bytes of a part of a text are the bytes of the text from its start up to its end. -/
theorem extract_part (before part after : String) :
    (before ++ part ++ after).toUTF8.extract before.utf8ByteSize (before ++ part).utf8ByteSize
      = part.toUTF8 := by
  have hBytes : (before ++ part ++ after).toUTF8
      = before.toUTF8 ++ (part.toUTF8 ++ after.toUTF8) := by
    simp [ByteArray.append_assoc]
  have hShift : (before.toUTF8 ++ (part.toUTF8 ++ after.toUTF8)).extract
      (before.toUTF8.size + 0) (before.toUTF8.size + part.toUTF8.size)
        = (part.toUTF8 ++ after.toUTF8).extract 0 part.toUTF8.size :=
    ByteArray.extract_append_size_add
  rw [hBytes, String.utf8ByteSize_append]
  exact hShift.trans (ByteArray.extract_append_eq_left rfl)

end TreeDump.Utf8
