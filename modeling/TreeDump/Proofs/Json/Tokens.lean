import TreeDump.Json.Grammar

/-!
# Blanks, numerals and strings

The reader takes a piece off the front of a text and answers the rest, while the grammar speaks of
whole texts.  `Ends` is what the rest must satisfy for a numeral to be over.

* `readInt_complete`, `readInt_sound`: the numerals that are read are those of the grammar.
* `readString_complete`, `readString_sound`: so are the strings, with all their escapes.
-/

namespace TreeDump.Json

open Grammar

/-! ## Blanks -/

theorem blank_nil : Blank [] := by
  intro c hc
  cases hc

theorem skipBlank_append {blank : List Char} (hBlank : Blank blank) (cs : List Char) :
    skipBlank (blank ++ cs) = skipBlank cs := by
  induction blank with
  | nil => rfl
  | cons c blank ih =>
    have hRest : Blank blank := fun d hd => hBlank d (List.mem_cons_of_mem c hd)
    rw [List.cons_append, skipBlank, if_pos (by
      rcases hBlank c List.mem_cons_self with rfl | rfl | rfl | rfl <;> rfl), ih hRest]

/-- A character that no blank is. -/
def Visible (c : Char) : Prop := c ≠ ' ' ∧ c ≠ '\n' ∧ c ≠ '\r' ∧ c ≠ '\t'

instance (c : Char) : Decidable (Visible c) := inferInstanceAs (Decidable (_ ∧ _))

theorem skipBlank_visible {c : Char} (hc : Visible c) (cs : List Char) :
    skipBlank (c :: cs) = c :: cs := by
  obtain ⟨h1, h2, h3, h4⟩ := hc
  rw [skipBlank, if_neg (by simp [h1, h2, h3, h4])]

/-- A text is its blanks and what is left of it without them. -/
theorem exists_blank (cs : List Char) : ∃ blank, Blank blank ∧ cs = blank ++ skipBlank cs := by
  induction cs with
  | nil => exact ⟨[], blank_nil, rfl⟩
  | cons c cs ih =>
    rw [skipBlank]
    split
    · rename_i hc
      obtain ⟨blank, hBlank, hEq⟩ := ih
      refine ⟨c :: blank, ?_, by rw [List.cons_append, ← hEq]⟩
      intro d hd
      rcases List.mem_cons.mp hd with rfl | hd
      · simp only [Bool.or_eq_true, beq_iff_eq] at hc
        rcases hc with ((hc | hc) | hc) | hc
        · exact Or.inl hc
        · exact Or.inr (Or.inr (Or.inl hc))
        · exact Or.inr (Or.inr (Or.inr hc))
        · exact Or.inr (Or.inl hc)
      · exact hBlank d hd
    · exact ⟨[], blank_nil, rfl⟩

theorem expect?_append (word rest : List Char) : expect? word (word ++ rest) = some rest := by
  induction word with
  | nil => rfl
  | cons c word ih => rw [List.cons_append, expect?, if_pos (beq_self_eq_true c), ih]

theorem eq_of_expect? {word cs rest : List Char} (h : expect? word cs = some rest) :
    cs = word ++ rest := by
  induction word generalizing cs with
  | nil => exact Option.some_inj.mp h
  | cons c word ih =>
    cases cs with
    | nil => cases h
    | cons d cs =>
      rw [expect?] at h
      split at h
      · rename_i hEq
        rw [ih h, eq_of_beq hEq, List.cons_append]
      · cases h

/-! ## Numbers -/

/-- A numeral is over before such a rest. -/
def Ends (rest : List Char) : Prop :=
  ∀ c ∈ rest.head?, c.isDigit = false ∧ c ≠ '.' ∧ c ≠ 'e' ∧ c ≠ 'E'

theorem Grammar.Natural.digits {cs : List Char} {n : Nat} (h : Natural cs n) :
    ∀ c ∈ cs, c.isDigit = true := by
  cases h with
  | zero =>
    intro c hc
    rw [List.mem_singleton.mp hc]
    rfl
  | nonzero _ hDigits => exact hDigits

theorem Grammar.Natural.natural? {cs : List Char} {n : Nat} (h : Natural cs n) :
    Json.natural? cs = some n := by
  cases h with
  | zero => rfl
  | nonzero hFirst hDigits =>
    unfold Json.natural?
    split
    · rename_i hCons
      cases hCons
    · rename_i hCons
      exact absurd (List.cons.inj hCons).1 hFirst
    · rfl

theorem natural_of_natural? {cs : List Char} {n : Nat} (hDigits : ∀ c ∈ cs, c.isDigit = true)
    (h : natural? cs = some n) : Natural cs n := by
  unfold natural? at h
  split at h
  · cases h
  · cases h
  · rename_i hNil hZero
    cases h
    cases cs with
    | nil => exact absurd rfl hNil
    | cons c cs =>
      by_cases hFirst : c = '0'
      · subst hFirst
        cases cs with
        | nil => exact .zero
        | cons d cs => exact absurd rfl (hZero d cs)
      · exact .nonzero hFirst hDigits

theorem readNat_complete {cs rest : List Char} {n : Nat} (h : Natural cs n) (hRest : Ends rest) :
    readNat (cs ++ rest) = some (n, rest) := by
  have hTake : (cs ++ rest).takeWhile Char.isDigit = cs := by
    rw [List.takeWhile_append_of_pos h.digits]
    cases rest with
    | nil => simp
    | cons c rest => simp [(hRest c rfl).1]
  have hDrop : (cs ++ rest).dropWhile Char.isDigit = rest := by
    rw [List.dropWhile_append_of_pos h.digits]
    cases rest with
    | nil => rfl
    | cons c rest => simp [(hRest c rfl).1]
  have hOver : continues rest = false := by
    cases rest with
    | nil => rfl
    | cons c rest =>
      obtain ⟨-, h1, h2, h3⟩ := hRest c rfl
      simp [continues, h1, h2, h3]
  simp only [readNat, hTake, hDrop, hOver, h.natural?]
  rfl

theorem readNat_sound {cs rest : List Char} {n : Nat} (h : readNat cs = some (n, rest)) :
    ∃ text, Natural text n ∧ cs = text ++ rest := by
  simp only [readNat] at h
  split at h
  · cases h
  · obtain ⟨m, hm, hEq⟩ := Option.map_eq_some_iff.mp h
    obtain ⟨rfl, rfl⟩ := Prod.mk.inj hEq
    refine ⟨cs.takeWhile Char.isDigit, natural_of_natural? ?_ hm,
      List.takeWhile_append_dropWhile.symm⟩
    intro c hc
    exact List.all_eq_true.mp List.all_takeWhile c hc

theorem Grammar.Natural.exists_cons {cs : List Char} {n : Nat} (h : Natural cs n) :
    ∃ c rest, cs = c :: rest ∧ c.isDigit = true := by
  have hDigits := h.digits
  cases h with
  | zero => exact ⟨'0', [], rfl, rfl⟩
  | @nonzero c cs => exact ⟨c, cs, rfl, hDigits c List.mem_cons_self⟩

theorem readInt_complete {cs rest : List Char} {n : Int} (h : Number cs n) (hRest : Ends rest) :
    readInt (cs ++ rest) = some (n, rest) := by
  cases h with
  | positive h =>
    have hRead := readNat_complete h hRest
    obtain ⟨c, cs, rfl, hc⟩ := h.exists_cons
    unfold readInt
    split
    · rename_i hCons
      obtain rfl := (List.cons.inj hCons).1
      cases hc
    · rw [hRead]
      rfl
  | negative h =>
    rw [List.cons_append, readInt, readNat_complete h hRest]
    rfl

theorem readInt_sound {cs rest : List Char} {n : Int} (h : readInt cs = some (n, rest)) :
    ∃ text, Number text n ∧ cs = text ++ rest := by
  unfold readInt at h
  split at h
  all_goals
    obtain ⟨⟨m, left⟩, hRead, hEq⟩ := Option.map_eq_some_iff.mp h
    obtain ⟨rfl, rfl⟩ := Prod.mk.inj hEq
    obtain ⟨text, hText, rfl⟩ := readNat_sound hRead
  · exact ⟨'-' :: text, .negative hText, rfl⟩
  · exact ⟨text, .positive hText, rfl⟩

/-! ## Strings -/

theorem unescape?_eq_some_iff {letter c : Char} :
    unescape? letter = some c ↔ ShortEscape letter c := by
  constructor
  · intro h
    unfold unescape? at h
    split at h
    all_goals cases h
    all_goals constructor
  · intro h
    cases h
    all_goals rfl

theorem hex4?_of_quad {a b c d : Char} {n : Nat} (h : Quad a b c d n) : hex4? a b c d = some n := by
  obtain ⟨i, j, k, l, ha, hb, hc, hd, rfl⟩ := h
  simp [hex4?, Hex.isDigit, Hex.read, ha, hb, hc, hd]

theorem quad_of_hex4? {a b c d : Char} {n : Nat} (h : hex4? a b c d = some n) : Quad a b c d n := by
  unfold hex4? at h
  split at h
  · rename_i hDigits
    simp only [List.all_cons, List.all_nil, Bool.and_true, Bool.and_eq_true, Hex.isDigit,
      Option.isSome_iff_exists] at hDigits
    obtain ⟨⟨i, ha⟩, ⟨j, hb⟩, ⟨k, hc⟩, l, hd⟩ := hDigits
    refine ⟨i, j, k, l, ha, hb, hc, hd, ?_⟩
    cases h
    simp [Hex.read, ha, hb, hc, hd]
  · cases h

/-- A short escape is none that a number follows. -/
theorem Grammar.ShortEscape.ne_u {letter c : Char} (h : ShortEscape letter c) : letter ≠ 'u' := by
  cases h
  all_goals decide

theorem readString_plain {c : Char} (hControl : 0x20 ≤ c.toNat) (hQuotation : c ≠ '"')
    (hBackslash : c ≠ '\\') (done cs : List Char) :
    readString done (c :: cs) = readString (c :: done) cs := by
  rw [readString.eq_4 done c cs hQuotation, if_neg (by omega)]
  · intro _ _ _ _ _ hEq
    exact absurd hEq hBackslash
  · intro _ _ hEq
    exact absurd hEq hBackslash

theorem readString_short {letter c : Char} (h : ShortEscape letter c) (done cs : List Char) :
    readString done ('\\' :: letter :: cs) = readString (c :: done) cs := by
  rw [readString.eq_3, unescape?_eq_some_iff.mpr h]
  intro _ _ _ _ _ hLetter
  exact absurd hLetter h.ne_u

theorem readString_code {a b c d : Char} {n : Nat} (hQuad : Quad a b c d n)
    (hScalar : n < 0xd800 ∨ 0xe000 ≤ n) (done cs : List Char) :
    readString done ('\\' :: 'u' :: a :: b :: c :: d :: cs)
      = readString (Char.ofNat n :: done) cs := by
  rw [readString, hex4?_of_quad hQuad]
  dsimp only
  rw [if_pos (by simpa using hScalar)]

theorem readString_pair {a b c d e f g h : Char} {high low : Nat} (hHigh : Quad a b c d high)
    (hHighRange : 0xd800 ≤ high ∧ high < 0xdc00) (hLow : Quad e f g h low)
    (hLowRange : 0xdc00 ≤ low ∧ low < 0xe000) (done cs : List Char) :
    readString done
        ('\\' :: 'u' :: a :: b :: c :: d :: '\\' :: 'u' :: e :: f :: g :: h :: cs)
      = readString (Char.ofNat (joinSurrogates high low) :: done) cs := by
  rw [readString, hex4?_of_quad hHigh]
  dsimp only
  rw [if_neg (by simp; omega)]
  simp only [hex4?_of_quad hLow]
  rw [if_pos (by simp; omega)]

theorem readString_complete {text cs : List Char} (h : Chars text cs) (done rest : List Char) :
    readString done (text ++ '"' :: rest) = some (String.ofList (done.reverse ++ cs), rest) := by
  induction h generalizing done with
  | nil => simp [readString]
  | plain hControl hQuotation hBackslash h ih =>
    rw [List.cons_append, readString_plain hControl hQuotation hBackslash, ih]
    simp
  | short hLetter h ih =>
    rw [List.cons_append, List.cons_append, readString_short hLetter, ih]
    simp
  | code hQuad hScalar h ih =>
    simp only [List.cons_append]
    rw [readString_code hQuad hScalar, ih]
    simp
  | pair hHigh hHighRange hLow hLowRange h ih =>
    simp only [List.cons_append]
    rw [readString_pair hHigh hHighRange hLow hLowRange, ih]
    simp

theorem readString_sound {done cs rest : List Char} {s : String}
    (h : readString done cs = some (s, rest)) :
    ∃ text chars, Chars text chars ∧ cs = text ++ '"' :: rest ∧
      s = String.ofList (done.reverse ++ chars) := by
  induction done, cs using readString.induct with
  | case1 done cs =>
    rw [readString] at h
    cases h
    exact ⟨[], [], .nil, rfl, by simp⟩
  | case2 done a b c d cs hNone =>
    rw [readString, hNone] at h
    cases h
  | case3 done a b c d cs n hSome hScalar ih =>
    rw [readString, hSome] at h
    dsimp only at h
    rw [if_pos hScalar] at h
    obtain ⟨text, chars, hChars, rfl, rfl⟩ := ih h
    exact ⟨_, _, .code (quad_of_hex4? hSome) (by simpa using hScalar) hChars, rfl, by simp⟩
  | case4 done a b c d high hSome hHigh e f g h' cs hNone =>
    rw [readString, hSome] at h
    dsimp only at h
    rw [if_neg hHigh] at h
    simp only [hNone] at h
    cases h
  | case5 done a b c d high hSome hHigh e f g h' cs low hLow hRange ih =>
    rw [readString, hSome] at h
    dsimp only at h
    rw [if_neg hHigh] at h
    simp only [hLow] at h
    rw [if_pos hRange] at h
    obtain ⟨text, chars, hChars, rfl, rfl⟩ := ih h
    simp only [Bool.or_eq_true, Bool.and_eq_true, decide_eq_true_eq] at hHigh hRange
    refine ⟨_, _, .pair (quad_of_hex4? hSome) ?_ (quad_of_hex4? hLow) ?_ hChars, rfl, by simp⟩
    · omega
    · omega
  | case6 done a b c d high hSome hHigh e f g h' cs low hLow hRange =>
    rw [readString, hSome] at h
    dsimp only at h
    rw [if_neg hHigh] at h
    simp only [hLow] at h
    rw [if_neg hRange] at h
    cases h
  | case7 done a b c d cs high hSome hHigh hOther =>
    rw [readString, hSome] at h
    dsimp only at h
    rw [if_neg hHigh] at h
    split at h
    · exact (hOther _ _ _ _ _ rfl).elim
    · cases h
  | case8 done letter cs hLetter c hSome ih =>
    rw [readString.eq_3 done letter cs hLetter, hSome] at h
    obtain ⟨text, chars, hChars, rfl, rfl⟩ := ih h
    exact ⟨_, _, .short (unescape?_eq_some_iff.mp hSome) hChars, rfl, by simp⟩
  | case9 done letter cs hLetter hNone =>
    rw [readString.eq_3 done letter cs hLetter, hNone] at h
    cases h
  | case10 done c cs hQuotation hCode hShort hControl =>
    rw [readString.eq_4 done c cs hQuotation hCode hShort, if_pos hControl] at h
    cases h
  | case11 done c cs hQuotation hCode hShort hControl ih =>
    rw [readString.eq_4 done c cs hQuotation hCode hShort, if_neg hControl] at h
    obtain ⟨text, chars, hChars, rfl, rfl⟩ := ih h
    -- a backslash at the very end would have nothing after it
    have hBackslash : c ≠ '\\' := by
      rintro rfl
      cases hText : text ++ '"' :: rest with
      | nil => simp at hText
      | cons letter left => exact hShort letter left rfl hText
    exact ⟨_, _, .plain (by omega) hQuotation hBackslash hChars, rfl, by simp⟩
  | case12 done =>
    rw [readString] at h
    cases h

theorem Grammar.Quoted.readString {cs : List Char} {s : String} (h : Quoted cs s)
    (rest : List Char) :
    ∃ tail, cs ++ rest = '"' :: tail ∧ Json.readString [] tail = some (s, rest) := by
  cases h with
  | @mk text chars h =>
    refine ⟨text ++ '"' :: rest, by simp, ?_⟩
    rw [readString_complete h]
    rfl

theorem quoted_of_readString {cs rest : List Char} {s : String}
    (h : readString [] cs = some (s, rest)) :
    ∃ text, Quoted text s ∧ '"' :: cs = text ++ rest := by
  obtain ⟨text, chars, hChars, rfl, rfl⟩ := readString_sound h
  exact ⟨'"' :: text ++ ['"'], .mk hChars, by simp⟩

end TreeDump.Json
