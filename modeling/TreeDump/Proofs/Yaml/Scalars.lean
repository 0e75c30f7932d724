import TreeDump.Proofs.Json.RoundTrip
import TreeDump.Proofs.Yaml.Quotes

/-!
# Scalars of all kinds

A text is read as its style has it, and a value that is no text is written as a bare word and read as
the value again.

* `reading`, `Kept`: what a text is read as, and when it is read as it was (`reading_eq_iff`).
* `Cursor.scalar_spec`: a text is written after a gap, and is read as its style has it.
* `Word.bareText`, `Word.resolve_eq`: numbers, truth values and nothing are bare words that mean what
  they are written for.
-/

namespace TreeDump.Yaml

/-! ## Texts -/

/-- What a text is read as whose further lines start at a column. -/
def reading (column : Nat) (cs : List Char) : List Char :=
  match Style.of cs with
  | .bare => cs
  | .apostrophes => settled false cs
  | .quotes => stutter (decide (lineWidth ≤ column)) false true cs

/-- That a text is read as it was: between apostrophes it holds no U+0085, and between double quotes
no escaped character stands before a space inside it if further lines start past their width. -/
structure Kept (column : Nat) (cs : List Char) : Prop where
  apostrophes : Style.of cs = .apostrophes → '\x85' ∉ cs
  quotes : Style.of cs = .quotes → lineWidth ≤ column → ¬ Stutters false cs

theorem reading_eq_iff {column : Nat} {cs : List Char} : reading column cs = cs ↔ Kept column cs := by
  have hKept : Kept column cs ↔ (Style.of cs = .apostrophes → '\x85' ∉ cs) ∧
      (Style.of cs = .quotes → lineWidth ≤ column → ¬ Stutters false cs) :=
    ⟨fun h => ⟨h.apostrophes, h.quotes⟩, fun h => ⟨h.1, h.2⟩⟩
  rw [hKept, reading]
  cases Style.of cs with
  | bare => simp
  | apostrophes => simp [settled_eq_iff]
  | quotes =>
    by_cases hDeep : lineWidth ≤ column
    · simp [hDeep, stutter_eq_iff]
    · simp [hDeep, stutter_shallow]

theorem ofList_reading_eq_iff {column : Nat} {s : String} :
    String.ofList (reading column s.toList) = s ↔ Kept column s.toList := by
  rw [← reading_eq_iff, ← String.toList_inj, String.toList_ofList]

/-- A text is written after a gap, and is read as its style has it. -/
theorem Cursor.scalar_spec (cs : List Char) {column : Nat} (hColumn : 0 < column) (c : Cursor)
    (hPlace : column ≤ c.column) :
    ∃ out, (c.scalar true column cs).text.toList
        = c.text.toList ++ (if c.gap then out else ' ' :: out) ∧
      (c.scalar true column cs).leading = false ∧
      ReadsScalar column (.str (String.ofList (reading column cs))) out := by
  cases hStyle : Style.of cs with
  | bare =>
    obtain ⟨hText, hMeans⟩ := BareText.of_style hStyle
    have hResolve : resolve cs = some (.str (String.ofList cs)) := by
      rw [resolve, hMeans]
      rfl
    rw [scalar, reading, hStyle]
    exact bare_spec hText true column c hResolve
  | apostrophes =>
    rw [scalar, reading, hStyle]
    exact apostrophes_spec hStyle true hColumn c
  | quotes =>
    rw [scalar, reading, hStyle]
    exact quotes_spec cs hColumn c hPlace

/-! ## Words that mean something else -/

theorem mem_digits {c : Char} (h : c.isDigit = true) :
    c ∈ ['0', '1', '2', '3', '4', '5', '6', '7', '8', '9'] := by
  have hAll : ∀ k < 10, Char.ofNat (48 + k) ∈ ['0', '1', '2', '3', '4', '5', '6', '7', '8', '9'] := by
    decide
  simp only [Char.isDigit, Bool.and_eq_true, decide_eq_true_eq, ge_iff_le, UInt32.le_iff_toNat_le] at h
  have hLow : 48 ≤ c.toNat := h.1
  have hHigh : c.toNat ≤ 57 := h.2
  have hMem := hAll (c.toNat - 48) (by omega)
  rw [show 48 + (c.toNat - 48) = c.toNat by omega, Char.ofNat_toNat] at hMem
  exact hMem

/-- Characters that stand for themselves wherever they stand, but for a minus sign before a gap. -/
def isSober (c : Char) : Bool :=
  !isSpaceOrBreak c && isReadable c && !isIndicator c && c != ':' && c != '?'

theorem isSober_of_isDigit {c : Char} (h : c.isDigit = true) : isSober c = true := by
  have hAll : (['0', '1', '2', '3', '4', '5', '6', '7', '8', '9'].all isSober) = true := by decide
  exact List.all_eq_true.mp hAll c (mem_digits h)

theorem marksInside_sober {cs : List Char} (hSober : ∀ d ∈ cs, isSober d = true) :
    marksInside false cs = false := by
  induction cs with
  | nil => rfl
  | cons c rest ih =>
    have hC := hSober c List.mem_cons_self
    simp only [isSober, Bool.and_eq_true, Bool.not_eq_true', bne_iff_ne] at hC
    obtain ⟨⟨⟨⟨hKind, hReadable⟩, -⟩, hColon⟩, -⟩ := hC
    have hGap := (isGap_eq hReadable).trans hKind
    rw [marksInside, hGap, ih fun d hD => hSober d (List.mem_cons_of_mem c hD)]
    simp [hColon]

theorem BareText.of_sober {c : Char} {rest : List Char} (hSober : ∀ d ∈ c :: rest, isSober d = true)
    (hDash : (c == '-' && gapAhead rest) = false) : BareText (c :: rest) := by
  have hFacts : ∀ d ∈ c :: rest, isBreak d = false ∧ d ≠ ' ' ∧ isReadable d = true := by
    intro d hD
    have hOne := hSober d hD
    simp only [isSober, isSpaceOrBreak, Bool.and_eq_true, Bool.not_eq_true', Bool.or_eq_false_iff,
      beq_eq_false_iff_ne] at hOne
    exact ⟨hOne.1.1.1.1.2, hOne.1.1.1.1.1, hOne.1.1.1.2⟩
  have hFirst := hSober c List.mem_cons_self
  simp only [isSober, Bool.and_eq_true, Bool.not_eq_true', bne_iff_ne] at hFirst
  obtain ⟨⟨⟨⟨hKind, hReadable⟩, hIndicator⟩, hColon⟩, hQuestion⟩ := hFirst
  refine ⟨⟨fun d hD => (hFacts d hD).1, fun d hD => (hFacts d hD).2.2, ?_⟩, marksInside_sober hSober, ?_⟩
  · intro hLast
    exact (hFacts ' ' (List.mem_of_getLast? hLast)).2.1 rfl
  · rw [startsBare, isGap_eq hReadable, hKind, hIndicator, beq_false_of_ne hColon,
      beq_false_of_ne hQuestion, Bool.or_self, Bool.false_or, Bool.false_or, hDash]
    rfl

/-- Values that are no texts and hold no other values. -/
inductive Word : Json → Prop where
  | null : Word .null
  | bool (b : Bool) : Word (.bool b)
  | int (n : Int) : Word (.int n)

theorem isInt_natural {cs : List Char} {n : Nat} (h : Json.Grammar.Natural cs n) :
    isInt cs = true ∧ isInt ('-' :: cs) = true := by
  cases h with
  | zero => decide
  | @nonzero c rest hFirst hDigits =>
    have hRest : rest.all isDigitOrUnderscore = true := by
      refine List.all_eq_true.mpr fun d hD => ?_
      rw [isDigitOrUnderscore, hDigits d (List.mem_cons_of_mem c hD), Bool.true_or]
    have hMem := mem_digits (hDigits c List.mem_cons_self)
    simp only [List.mem_cons, List.not_mem_nil, or_false, hFirst, false_or] at hMem
    rcases hMem with rfl | rfl | rfl | rfl | rfl | rfl | rfl | rfl | rfl
    all_goals simp [isInt, dropSign, hRest]

theorem isInt_number {cs : List Char} {n : Int} (h : Json.Grammar.Number cs n) : isInt cs = true := by
  cases h with
  | positive h => exact (isInt_natural h).1
  | negative h => exact (isInt_natural h).2

theorem bareText_number {cs : List Char} {n : Int} (h : Json.Grammar.Number cs n) : BareText cs := by
  cases h with
  | positive h =>
    obtain ⟨c, rest, rfl, hC⟩ := h.exists_cons
    refine .of_sober (fun d hD => isSober_of_isDigit (h.digits d hD)) ?_
    have hDash : c ≠ '-' := by
      rintro rfl
      cases hC
    simp [hDash]
  | @negative cs n h =>
    obtain ⟨c, rest, rfl, hC⟩ := h.exists_cons
    have hSober := isSober_of_isDigit hC
    simp only [isSober, Bool.and_eq_true, Bool.not_eq_true'] at hSober
    have hGap := (isGap_eq hSober.1.1.1.2).trans hSober.1.1.1.1
    refine .of_sober ?_ (by simp [gapAhead, hGap])
    intro d hD
    rcases List.mem_cons.mp hD with rfl | hDigit
    · decide
    · exact isSober_of_isDigit (h.digits d hDigit)

/-- A value that is no text is a bare word. -/
theorem Word.bareText {value : Json} (h : Word value) : BareText (Json.scalar value).toList := by
  have hSober : ∀ {cs : List Char}, cs.all isSober = true → ∀ d ∈ cs, isSober d = true :=
    fun hAll => List.all_eq_true.mp hAll
  cases h with
  | null => exact @BareText.of_sober 'n' ['u', 'l', 'l'] (hSober (by decide)) rfl
  | bool b =>
    cases b with
    | true => exact @BareText.of_sober 't' ['r', 'u', 'e'] (hSober (by decide)) rfl
    | false => exact @BareText.of_sober 'f' ['a', 'l', 's', 'e'] (hSober (by decide)) rfl
  | int n => exact bareText_number (Json.number_toString n)

/-- A value that is no text is written as a word that means it. -/
theorem Word.resolve_eq {value : Json} (h : Word value) :
    resolve (Json.scalar value).toList = some value := by
  have hMeans : meansOther (Json.scalar value).toList = true := by
    cases h with
    | null => decide
    | bool b => cases b <;> decide
    | int n =>
      have hInt : isInt (Json.scalar (.int n)).toList = true := isInt_number (Json.number_toString n)
      rw [meansOther, hInt, Bool.or_true]
      rfl
  have hRender : Json.render .compact value = Json.scalar value := by
    rw [Json.render_eq_encode]
    cases h <;> rw [Json.encode] <;> simp
  rw [resolve, hMeans, if_pos rfl, String.ofList_toList, ← hRender, Json.parse_render]

end TreeDump.Yaml
