import TreeDump.Proofs.Yaml.Cursor
import TreeDump.Yaml.Reader

/-!
# Bare scalars

A text that is written bare holds no breaks, no special characters and nothing that would be taken
for a mark.  A line that is too long ends at a single space, which is what a reader takes the end of
that line for, so the text is read as it is.

* `Ends`: what may stand after a scalar.
* `BareText`: what the choice of style grants of a text that is written bare.
* `Cursor.bare_spec`: a bare text is read as it is.
-/

namespace TreeDump.Yaml

/-! ## Characters -/

theorem isReadable_of_isSpecial {c : Char} (h : isSpecial c = false) : isReadable c = true := by
  simp only [isSpecial, Bool.or_eq_false_iff, Bool.not_eq_false', Bool.or_eq_true] at h
  simp only [isReadable, Bool.or_eq_true]
  rcases h.1 with (((((hFeed | hAscii) | hNext) | hLatin) | hPrivate) | hAstral)
  · simp [hFeed]
  · simp [hAscii]
  · simp [hNext]
  · simp [hLatin]
  · simp [hPrivate]
  · simp only [Bool.and_eq_true] at hAstral
    simp [hAstral.1]

/-- A readable character is a gap only as a space or a break. -/
theorem isGap_eq {c : Char} (h : isReadable c = true) : isGap c = isSpaceOrBreak c := by
  have hNul : c ≠ '\x00' := by
    rintro rfl
    exact absurd h (by decide)
  have hTab : c ≠ '\t' := by
    rintro rfl
    exact absurd h (by decide)
  have hReturn : c ≠ '\r' := by
    rintro rfl
    exact absurd h (by decide)
  rw [isGap, isBlank, isSpaceOrBreak, beq_false_of_ne hNul, beq_false_of_ne hTab,
    beq_false_of_ne hReturn]
  simp

theorem gapAhead_of_head {cs : List Char} (h : cs.head?.all isSpaceOrBreak = true) :
    gapAhead cs = true := by
  cases cs with
  | nil => rfl
  | cons d rest =>
    rw [List.head?_cons, Option.all_some, isSpaceOrBreak, Bool.or_eq_true] at h
    rcases h with hSpace | hBreak
    · rw [eq_of_beq hSpace]
      rfl
    · simp [gapAhead, isGap, hBreak]

/-! ## After a scalar -/

/-- What may stand after a scalar inside a container at `indent`: nothing, or another line with `next`
at the column `k`. -/
inductive Ends (indent : Nat) : List Char → Nat → List Char → Prop where
  | nothing : Ends indent [] 0 []
  | line {k : Nat} {d : Char} {rest : List Char} (hColumn : k ≤ indent) (hSpace : d ≠ ' ')
      (hBreak : isBreak d = false) :
      Ends indent ('\n' :: List.replicate k ' ' ++ d :: rest) k (d :: rest)

theorem Ends.gapAhead {indent k : Nat} {tail next : List Char} (h : Ends indent tail k next) :
    gapAhead tail = true := by
  cases h with
  | nothing => rfl
  | line hColumn hSpace hBreak => rfl

theorem Ends.mono {indent other k : Nat} {tail next : List Char} (h : Ends indent tail k next)
    (hLe : indent ≤ other) : Ends other tail k next := by
  cases h with
  | nothing => exact .nothing
  | line hColumn hSpace hBreak => exact .line (Nat.le_trans hColumn hLe) hSpace hBreak

theorem nextToken_spaces (broken : Bool) (column n : Nat) (rest : List Char) :
    nextToken broken column (List.replicate n ' ' ++ rest) = nextToken broken (column + n) rest := by
  induction n generalizing column with
  | zero => rfl
  | succ n ih =>
    rw [List.replicate_succ, List.cons_append, nextToken, if_pos (beq_self_eq_true ' '), ih]
    congr 1
    omega

theorem Ends.nextToken_eq {indent k : Nat} {tail next : List Char} (h : Ends indent tail k next)
    (column : Nat) : nextToken false column tail = some (k, next) := by
  cases h with
  | nothing => rfl
  | @line _ d rest hColumn hSpace hBreak =>
    rw [List.cons_append, nextToken, if_neg (by decide), if_pos (by decide), nextToken_spaces,
      nextToken, if_neg (by simpa using hSpace), if_neg (by simp [hBreak]), if_pos rfl, Nat.zero_add]

/-! ## Blanks -/

namespace Blanks

/-- A number of spaces more. -/
def addSpaces (blanks : Blanks) : Nat → Blanks
  | 0 => blanks
  | n + 1 => blanks.addSpace.addSpaces n

theorem addSpaces_spaces (m n : Nat) : (spaces m).addSpaces n = spaces (m + n) := by
  induction n generalizing m with
  | zero => rfl
  | succ n ih =>
    rw [addSpaces, addSpace, ih]
    congr 1
    omega

theorem addSpaces_breaks (first : Char) (more : List Char) (n : Nat) :
    (breaks first more).addSpaces n = breaks first more := by
  induction n with
  | zero => rfl
  | succ n ih => exact ih

theorem addSpaces_joined (more : List Char) (n : Nat) : (joined more).addSpaces n = joined more := by
  induction n with
  | zero => rfl
  | succ n ih => exact ih

end Blanks

theorem prepend_prepend {α : Type} (text more : List Char) (read : Option (List Char × α)) :
    prepend text (prepend more read) = prepend (text ++ more) read := by
  cases read with
  | none => rfl
  | some answer => simp [prepend]

theorem prepend_some {α : Type} (text more : List Char) (rest : α) :
    prepend text (some (more, rest)) = some (text ++ more, rest) := rfl

/-! ## Reading bare text -/

theorem readBare_spaces (indent : Nat) (blanks : Blanks) (column n : Nat) (rest : List Char) :
    readBare indent blanks column (List.replicate n ' ' ++ rest)
      = readBare indent (blanks.addSpaces n) (column + n) rest := by
  induction n generalizing blanks column with
  | zero => rfl
  | succ n ih =>
    rw [List.replicate_succ, List.cons_append, readBare, if_pos (beq_self_eq_true ' '), ih,
      Blanks.addSpaces]
    congr 1
    omega

/-- The end of a line is read as a break, and the indentation of the next one is passed over. -/
theorem readBare_newLine (indent column k : Nat) (rest : List Char) :
    readBare indent (.spaces 0) column ('\n' :: List.replicate k ' ' ++ rest)
      = readBare indent (.breaks '\n' []) k rest := by
  rw [List.cons_append, readBare, if_neg (by decide), if_pos (by decide), readBare_spaces,
    Blanks.addBreak, Blanks.addSpaces_breaks, Nat.zero_add]
  rfl

theorem readBare_tail {indent k : Nat} {tail next : List Char} (h : Ends indent tail k next)
    (column : Nat) : readBare indent (.spaces 0) column tail = some ([], k, next) := by
  cases h with
  | nothing => rfl
  | @line _ d rest hColumn hSpace hBreak =>
    rw [readBare_newLine, readBare, if_neg (by simpa using hSpace), if_neg (by simp [hBreak]),
      if_pos (by simpa [Blanks.inLine] using hColumn)]

/-- A character that stands for itself. -/
theorem readBare_cons {indent column : Nat} {blanks : Blanks} {c : Char} {rest : List Char}
    (hInside : blanks.inLine = true ∨ indent < column) (hKind : isSpaceOrBreak c = false)
    (hReadable : isReadable c = true) (hColon : (c == ':' && gapAhead rest) = false)
    (hSign : blanks ≠ .spaces 0 → c ≠ '#') :
    readBare indent blanks column (c :: rest)
      = prepend (blanks.text ++ [c]) (readBare indent (.spaces 0) (column + 1) rest) := by
  rw [isSpaceOrBreak, Bool.or_eq_false_iff] at hKind
  have hStay : ¬ (!blanks.inLine && decide (column ≤ indent)) = true := by
    rcases hInside with hLine | hColumn
    · simp [hLine]
    · simp [hColumn]
  have hComment : (c == '#' && blanks != .spaces 0) = false := by
    by_cases hBlanks : blanks = .spaces 0
    · simp [hBlanks]
    · simp [hSign hBlanks]
  rw [readBare, if_neg (by simp [hKind.1]), if_neg (by simp [hKind.2]), if_neg hStay,
    if_neg (by simp [hComment, hColon, hReadable])]

/-- A word is read as it is if nothing in it is a mark. -/
theorem readBare_word {indent : Nat} {w : Char} {ws cs rest : List Char}
    (hWord : ∀ d ∈ w :: ws, isSpaceOrBreak d = false ∧ isReadable d = true)
    (hGap : gapAhead rest = gapAhead cs) {blanks : Blanks} {column : Nat}
    (hInside : blanks.inLine = true ∨ indent < column)
    (hMarks : marksInside (blanks != .spaces 0) (w :: ws ++ cs) = false) :
    (∃ after, readBare indent blanks column (w :: ws ++ rest)
      = prepend (blanks.text ++ w :: ws) (readBare indent (.spaces 0) after rest)) ∧
    marksInside false cs = false := by
  induction ws generalizing w blanks column with
  | nil =>
    obtain ⟨hKind, hReadable⟩ := hWord w List.mem_cons_self
    rw [List.cons_append, List.nil_append, marksInside, Bool.or_eq_false_iff, Bool.or_eq_false_iff]
      at hMarks
    obtain ⟨⟨hColon, hSign⟩, hRest⟩ := hMarks
    rw [isGap_eq hReadable, hKind] at hRest
    refine ⟨⟨column + 1, readBare_cons hInside hKind hReadable (hGap ▸ hColon) ?_⟩, hRest⟩
    intro hBlanks hIs
    simp [hIs, hBlanks] at hSign
  | cons v vs ih =>
    obtain ⟨hKind, hReadable⟩ := hWord w List.mem_cons_self
    rw [List.cons_append, marksInside, Bool.or_eq_false_iff, Bool.or_eq_false_iff] at hMarks
    obtain ⟨⟨hColon, hSign⟩, hRest⟩ := hMarks
    rw [isGap_eq hReadable, hKind] at hRest
    have hMore : ∀ d ∈ v :: vs, isSpaceOrBreak d = false ∧ isReadable d = true :=
      fun d hD => hWord d (List.mem_cons_of_mem w hD)
    obtain ⟨⟨after, hRead⟩, hLast⟩ :=
      @ih v hMore (.spaces 0) (column + 1) (Or.inl rfl) hRest
    refine ⟨⟨after, ?_⟩, hLast⟩
    have hFirst : readBare indent blanks column (w :: (v :: vs ++ rest)) = _ :=
      readBare_cons hInside hKind hReadable hColon (by
        intro hBlanks hIs
        simp [hIs, hBlanks] at hSign)
    rw [List.cons_append, hFirst, hRead, prepend_prepend]
    simp [Blanks.text]

/-! ## Writing bare text -/

/-- That bare text `out`, written for `cs` with further lines at `column`, is read as `cs` by a reader
that passed over some blanks before. -/
structure ReadsBare (blanks : Blanks) (column : Nat) (cs out : List Char) : Prop where
  last : out.getLast? = cs.getLast?
  gap : cs.head?.all isSpaceOrBreak = true → ∀ tail, gapAhead tail = true →
    gapAhead (out ++ tail) = true
  starts : startsBare cs = true → ∀ tail, gapAhead tail = true →
    out.head? = cs.head? ∧ startsBare (out ++ tail) = true
  read : ∀ {indent position k : Nat} {tail next : List Char}, indent < column →
    Ends indent tail k next → (blanks.inLine = true ∨ indent < position) →
    readBare indent blanks position (out ++ tail) = some (blanks.text ++ cs, k, next)

namespace ReadsBare

variable {blanks : Blanks} {column : Nat} {cs out : List Char}

theorem nil (column : Nat) : ReadsBare (.spaces 0) column [] [] where
  last := rfl
  gap := fun _ _ hTail => hTail
  starts := by
    intro hStarts
    cases hStarts
  read := fun _ hEnds _ => readBare_tail hEnds _

theorem spaces {n : Nat} (h : ReadsBare (.spaces (n + 1)) column cs out) :
    ReadsBare (.spaces 0) column (List.replicate (n + 1) ' ' ++ cs)
      (List.replicate (n + 1) ' ' ++ out) where
  last := by rw [List.getLast?_append, List.getLast?_append, h.last]
  gap := fun _ _ _ => rfl
  starts := by
    intro hStarts
    cases hStarts
  read := by
    intro indent position k tail next hColumn hEnds _
    rw [List.append_assoc, readBare_spaces, Blanks.addSpaces_spaces, Nat.zero_add,
      h.read hColumn hEnds (Or.inl rfl)]
    rfl

/-- A single space that became the end of a line. -/
theorem fold (h : ReadsBare (.breaks '\n' []) column cs out) (hMore : cs ≠ []) :
    ReadsBare (.spaces 0) column (' ' :: cs) ('\n' :: List.replicate column ' ' ++ out) where
  last := by
    obtain ⟨z, hZ⟩ := Option.isSome_iff_exists.mp (List.getLast?_isSome.mpr hMore)
    show _ = ([' '] ++ cs).getLast?
    rw [List.getLast?_append, List.getLast?_append, h.last, hZ]
    rfl
  gap := fun _ _ _ => rfl
  starts := by
    intro hStarts
    cases hStarts
  read := by
    intro indent position k tail next hColumn hEnds _
    rw [List.append_assoc, readBare_newLine, h.read hColumn hEnds (Or.inr hColumn)]
    rfl

theorem word (h : ReadsBare (.spaces 0) column cs out) {w : Char} {ws : List Char}
    (hWord : ∀ d ∈ w :: ws, isSpaceOrBreak d = false ∧ isReadable d = true)
    (hNext : cs.head?.all isSpaceOrBreak = true)
    (hMarks : marksInside (blanks != .spaces 0) (w :: ws ++ cs) = false) :
    ReadsBare blanks column (w :: ws ++ cs) (w :: ws ++ out) where
  last := by rw [List.getLast?_append, List.getLast?_append, h.last]
  gap := by
    intro hHead
    rw [List.cons_append, List.head?_cons, Option.all_some, (hWord w List.mem_cons_self).1] at hHead
    cases hHead
  starts := by
    intro hStarts tail hTail
    refine ⟨rfl, ?_⟩
    rw [List.append_assoc, List.cons_append, startsBare] at *
    cases ws with
    | nil =>
      rw [List.nil_append, gapAhead_of_head hNext] at hStarts
      rw [List.nil_append, h.gap hNext tail hTail]
      exact hStarts
    | cons v vs => exact hStarts
  read := by
    intro indent position k tail next hColumn hEnds hInside
    have hGap : gapAhead (out ++ tail) = gapAhead cs :=
      (h.gap hNext tail hEnds.gapAhead).trans (gapAhead_of_head hNext).symm
    obtain ⟨⟨after, hRead⟩, -⟩ := readBare_word hWord hGap hInside hMarks
    rw [List.append_assoc, hRead, h.read hColumn hEnds (Or.inl rfl), prepend_some]
    simp [Blanks.text]

end ReadsBare

/-! ## Scalars in general -/

/-- That `out`, written with further lines at `column`, is read as a scalar with a value. -/
structure ReadsScalar (column : Nat) (value : Json) (out : List Char) : Prop where
  starts : out.head?.any (fun d => !isSpaceOrBreak d) = true
  last : out.getLast? ≠ some '\n'
  read : ∀ {indent k : Nat} {tail next : List Char}, indent < column → Ends indent tail k next →
    readScalar indent (out ++ tail) = some (value, k, next)

/-- What the choice of style grants of a text that is written bare, and of what is left of it after any
of its characters. -/
structure BareEnd (cs : List Char) : Prop where
  noBreak : ∀ d ∈ cs, isBreak d = false
  readable : ∀ d ∈ cs, isReadable d = true
  tight : cs.getLast? ≠ some ' '

theorem BareEnd.right {xs cs : List Char} (h : BareEnd (xs ++ cs)) : BareEnd cs where
  noBreak := fun d hD => h.noBreak d (List.mem_append_right _ hD)
  readable := fun d hD => h.readable d (List.mem_append_right _ hD)
  tight := by
    intro hLast
    have hTight := h.tight
    rw [List.getLast?_append, hLast] at hTight
    exact hTight rfl

/-- After spaces the text goes on with a word. -/
theorem BareEnd.word_after_spaces {n : Nat} {cs : List Char}
    (h : BareEnd (List.replicate (n + 1) ' ' ++ cs)) (hNext : cs.head? ≠ some ' ') :
    ∃ d rest, cs = d :: rest ∧ isSpaceOrBreak d = false := by
  cases cs with
  | nil =>
    have hTight := h.tight
    simp [List.getLast?_replicate] at hTight
  | cons d rest =>
    have hSpace : d ≠ ' ' := fun hIs => hNext (congrArg some hIs)
    exact ⟨d, rest, rfl, by simp [isSpaceOrBreak, hSpace, h.right.noBreak d List.mem_cons_self]⟩

/-- What the choice of style grants of a text that is written bare. -/
structure BareText (cs : List Char) : Prop extends BareEnd cs where
  unmarked : marksInside false cs = false
  starts : startsBare cs = true

theorem BareText.of_style {cs : List Char} (h : Style.of cs = .bare) :
    BareText cs ∧ meansOther cs = false := by
  rw [Style.of] at h
  split at h
  · rename_i hBare
    simp only [Shape.bare, Shape.of, Bool.and_eq_true, Bool.not_eq_true', List.any_eq_false,
      Bool.or_eq_false_iff] at hBare
    obtain ⟨⟨⟨⟨⟨hBreak, hFirst, hLast⟩, hSpecial, -⟩, -⟩, hMark⟩, hMeans⟩ := hBare
    have hReadable : ∀ d ∈ cs, isReadable d = true := fun d hD =>
      isReadable_of_isSpecial (Bool.eq_false_iff.mpr (hSpecial d hD))
    have hNoBreak : ∀ d ∈ cs, isBreak d = false := fun d hD => Bool.eq_false_iff.mpr (hBreak d hD)
    have hTight : cs.getLast? ≠ some ' ' := by
      intro hIs
      rw [hIs] at hLast
      cases hLast
    cases cs with
    | nil => exact absurd hMeans (by decide)
    | cons c rest =>
      have hGap : isGap c = false := (isGap_eq (hReadable c List.mem_cons_self)).trans hFirst
      simp only [hasMark, Bool.or_eq_false_iff, hGap] at hMark
      obtain ⟨-, ⟨hIndicator, hSign⟩, hInside⟩ := hMark
      have hColon : (c == ':' && gapAhead rest) = false := by
        rw [Bool.and_eq_false_iff] at hSign ⊢
        exact hSign.imp_left fun hNone => (Bool.or_eq_false_iff.mp (Bool.or_eq_false_iff.mp hNone).1).2
      refine ⟨⟨⟨hNoBreak, hReadable, hTight⟩, ?_, ?_⟩, hMeans⟩
      · rw [marksInside, hColon, hGap, hInside, Bool.and_false]
        rfl
      · rw [startsBare, hGap, hIndicator, hSign]
        rfl
  · split at h
    · cases h
    · cases h

/-- A bare text is read with the value that it resolves to. -/
theorem ReadsBare.scalar {column : Nat} {cs out : List Char} {value : Json}
    (h : ReadsBare (.spaces 0) column cs out) (hText : BareText cs)
    (hResolve : resolve cs = some value) : ReadsScalar column value out := by
  obtain ⟨hHead, -⟩ := h.starts hText.starts [] rfl
  cases cs with
  | nil => cases hText.starts
  | cons c rest =>
    have hStarts := hText.starts
    rw [startsBare, Bool.not_eq_true', Bool.or_eq_false_iff, Bool.or_eq_false_iff] at hStarts
    obtain ⟨⟨hGap, hIndicator⟩, -⟩ := hStarts
    rw [isGap_eq (hText.readable c List.mem_cons_self)] at hGap
    cases out with
    | nil => cases hHead
    | cons d more =>
      obtain rfl : d = c := Option.some.inj hHead
      refine ⟨?_, ?_, ?_⟩
      · rw [List.head?_cons, Option.any_some, hGap]
        rfl
      · rw [h.last]
        intro hIs
        have hNot := hText.noBreak '\n' (List.mem_of_getLast? hIs)
        cases hNot
      · intro indent k tail next hColumn hEnds
        have hApostrophe : ¬ (d == '\'') = true := by
          intro hIs
          rw [eq_of_beq hIs] at hIndicator
          cases hIndicator
        have hQuote : ¬ (d == '"') = true := by
          intro hIs
          rw [eq_of_beq hIs] at hIndicator
          cases hIndicator
        obtain ⟨-, hBare⟩ := h.starts hText.starts tail hEnds.gapAhead
        have hRead := @h.read indent 0 k tail next hColumn hEnds (Or.inl rfl)
        rw [List.cons_append] at hBare hRead ⊢
        rw [readScalar, if_neg hApostrophe, if_neg hQuote, if_pos hBare, hRead]
        dsimp only [Blanks.text, List.replicate_zero, List.nil_append]
        rw [hResolve]
        rfl

theorem marksInside_spaces (afterGap : Bool) (n : Nat) (cs : List Char) :
    marksInside afterGap (List.replicate (n + 1) ' ' ++ cs) = marksInside true cs := by
  induction n generalizing afterGap with
  | zero => rfl
  | succ n ih =>
    rw [List.replicate_succ, List.cons_append, marksInside]
    exact ih true

namespace Cursor

variable {c : Cursor}

theorem put_put (c : Cursor) (cs more : List Char) : (c.put cs).put more = c.put (cs ++ more) := by
  simp [put, String.append_assoc, String.ofList_append, Nat.add_assoc]

/-- Without folding, bare text is written as it is. -/
theorem bareRuns_unfolded {cs : List Char} {rs : List Run} (hCut : Cut cs rs) (column : Nat)
    (c : Cursor) : bareRuns false column c rs = c.put cs := by
  induction hCut generalizing c with
  | nil => simp [bareRuns, put]
  | spaces hNext hRest ih =>
    rw [bareRuns]
    simp only [Bool.and_false, Bool.false_and, Bool.false_eq_true, if_false]
    rw [ih, put_put]
  | breaks hBreaks hNext hRest ih => rw [bareRuns, ih, put_put]
  | word hWord hNext hRest ih => rw [bareRuns, ih, put_put]

/-- Runs of bare text are read as the text that they were cut from. -/
theorem bareRuns_spec {cs : List Char} {rs : List Run} (hCut : Cut cs rs) (fold : Bool)
    (column : Nat) (hLeading : c.leading = false) {blanks : Blanks}
    (hBlanks : blanks = .spaces 0 ∨ cs.head?.any (fun d => !isSpaceOrBreak d) = true)
    (hText : BareEnd cs) (hMarks : marksInside (blanks != .spaces 0) cs = false) :
    ∃ out, (bareRuns fold column c rs).text.toList = c.text.toList ++ out ∧
      (bareRuns fold column c rs).leading = false ∧ ReadsBare blanks column cs out := by
  induction hCut generalizing c blanks with
  | nil =>
    rcases hBlanks with rfl | hSome
    · exact ⟨[], (List.append_nil _).symm, hLeading, .nil column⟩
    · cases hSome
  | @spaces n cs rs hNext hRest ih =>
    obtain rfl : blanks = .spaces 0 := by
      rcases hBlanks with hNone | hSome
      · exact hNone
      · cases hSome
    obtain ⟨d, rest, rfl, hKind⟩ := hText.word_after_spaces hNext
    have hHead : (d :: rest).head?.any (fun e => !isSpaceOrBreak e) = true := by simp [hKind]
    rw [marksInside_spaces] at hMarks
    rw [bareRuns]
    dsimp only
    split
    · rename_i hFold
      simp only [Bool.and_eq_true, beq_iff_eq] at hFold
      obtain rfl : n = 0 := by omega
      have hInside : c.leading = true → column < c.column := by
        intro hIs
        cases hLeading.symm.trans hIs
      obtain ⟨out, hWritten, hAfter, hReads⟩ :=
        @ih { c.indent column with gap := false, leading := false } rfl (.breaks '\n' [])
          (Or.inr hHead) hText.right hMarks
      refine ⟨'\n' :: List.replicate column ' ' ++ out, ?_, hAfter,
        hReads.fold (List.cons_ne_nil d rest)⟩
      rw [hWritten]
      dsimp only
      rw [c.indent_eq_newLine hInside, newLine_toList, List.append_assoc]
    · obtain ⟨out, hWritten, hAfter, hReads⟩ :=
        @ih (c.put (List.replicate (n + 1) ' ')) hLeading (.spaces (n + 1)) (Or.inr hHead)
          hText.right hMarks
      refine ⟨List.replicate (n + 1) ' ' ++ out, ?_, hAfter, hReads.spaces⟩
      rw [hWritten, put_toList, List.append_assoc]
  | @breaks b bs cs rs hBreaks hNext hRest ih =>
    have hNot := hText.noBreak b (List.mem_append_left _ List.mem_cons_self)
    rw [hBreaks b List.mem_cons_self] at hNot
    cases hNot
  | @word w ws cs rs hWord hNext hRest ih =>
    have hGood : ∀ d ∈ w :: ws, isSpaceOrBreak d = false ∧ isReadable d = true :=
      fun d hD => ⟨hWord d hD, hText.readable d (List.mem_append_left _ hD)⟩
    have hRestMarks : marksInside false cs = false :=
      (@readBare_word 0 w ws cs cs hGood rfl blanks 1 (Or.inr Nat.one_pos) hMarks).2
    rw [bareRuns]
    obtain ⟨out, hWritten, hAfter, hReads⟩ :=
      @ih (c.put (w :: ws)) hLeading (.spaces 0) (Or.inl rfl) hText.right hRestMarks
    refine ⟨w :: ws ++ out, ?_, hAfter, hReads.word hGood hNext hMarks⟩
    rw [hWritten, put_toList, List.append_assoc]

/-- A bare text is written after a gap, and is read with the value that it resolves to. -/
theorem bare_spec {cs : List Char} (hText : BareText cs) (fold : Bool) (column : Nat) (c : Cursor)
    {value : Json} (hResolve : resolve cs = some value) :
    ∃ out, (c.bare fold column cs).text.toList
        = c.text.toList ++ (if c.gap then out else ' ' :: out) ∧
      (c.bare fold column cs).leading = false ∧ ReadsScalar column value out := by
  rw [bare]
  obtain ⟨out, hWritten, hLeading, hReads⟩ :=
    @bareRuns_spec { (if c.gap then c else c.put [' ']) with gap := false, leading := false } cs
      (runs cs) (cut_runs cs) fold column rfl (.spaces 0) (Or.inl rfl) hText.toBareEnd hText.unmarked
  refine ⟨out, ?_, hLeading, hReads.scalar hText hResolve⟩
  rw [hWritten]
  cases c.gap with
  | true => rfl
  | false =>
    rw [if_neg Bool.false_ne_true, if_neg Bool.false_ne_true, put_toList, List.append_assoc]
    rfl

end Cursor

end TreeDump.Yaml
