import TreeDump.Proofs.Yaml.Apostrophes

/-!
# Scalars between double quotes

Between double quotes everything that is not plain is escaped, and a line that is too long ends with
a backslash, which a reader drops with the line's end and the indentation after it.  A space that the
next line starts with has a backslash of its own before it.  Where further lines start in a column
that is past the width of lines already, the line that has this backslash only is ended by another one
at once; a reader takes the two for an escaped backslash and the line's end for a space.

* `stutter`: what a text between double quotes is read as.
* `stutter_eq_iff`: it is the text itself unless lines start past their width and an escaped character
  stands inside the text before a space.
* `Cursor.quotes_spec`: a text between double quotes is read as that.
-/

namespace TreeDump.Yaml

/-! ## What a text is read as -/

/-- What a text between double quotes is read as.  `deep` tells that further lines start past their
width, `after` that an escaped character stands before the text, and `first` that nothing does. -/
def stutter (deep after first : Bool) : List Char → List Char
  | [] => []
  | c :: rest =>
    (if deep && after && c == ' ' && !rest.isEmpty then ['\\', ' '] else [])
      ++ c :: stutter deep (Cursor.needsEscape c && !first) false rest

theorem stutter_shallow (after first : Bool) (cs : List Char) :
    stutter false after first cs = cs := by
  induction cs generalizing after first with
  | nil => rfl
  | cons c rest ih => rw [stutter, ih]; rfl

/-- That a text goes on with a space that does not end it. -/
def Spaced (cs : List Char) : Prop := ∃ d rest, cs = ' ' :: d :: rest

/-- That an escaped character stands before a space inside a text, or at its start if `inner`. -/
def Stutters (inner : Bool) (cs : List Char) : Prop :=
  ∃ before e after, (inner = false → before ≠ []) ∧ Cursor.needsEscape e = true ∧ Spaced after ∧
    cs = before ++ e :: after

theorem length_le_stutter (deep after first : Bool) (cs : List Char) :
    cs.length ≤ (stutter deep after first cs).length := by
  induction cs generalizing after first with
  | nil => exact Nat.le_refl 0
  | cons c rest ih =>
    have hRest := ih (Cursor.needsEscape c && !first) false
    rw [stutter, List.length_append, List.length_cons, List.length_cons]
    omega

theorem stutters_cons (inner : Bool) (c : Char) (rest : List Char) :
    Stutters inner (c :: rest)
      ↔ (inner = true ∧ Cursor.needsEscape c = true ∧ Spaced rest) ∨ Stutters true rest := by
  constructor
  · rintro ⟨before, e, after, hBefore, hEscape, hSpaced, hText⟩
    cases before with
    | nil =>
      obtain ⟨rfl, rfl⟩ := List.cons.inj hText
      exact Or.inl ⟨Bool.of_not_eq_false fun hNot => hBefore hNot rfl, hEscape, hSpaced⟩
    | cons b bs =>
      obtain ⟨rfl, rfl⟩ := List.cons.inj hText
      exact Or.inr ⟨bs, e, after, by simp, hEscape, hSpaced, rfl⟩
  · rintro (⟨hInner, hEscape, hSpaced⟩ | ⟨before, e, after, -, hEscape, hSpaced, rfl⟩)
    · exact ⟨[], c, rest, by simp [hInner], hEscape, hSpaced, rfl⟩
    · exact ⟨c :: before, e, after, by simp, hEscape, hSpaced, rfl⟩

theorem stutter_true_eq_iff {after first : Bool} {cs : List Char} :
    stutter true after first cs = cs
      ↔ ¬ (after = true ∧ Spaced cs) ∧ ¬ Stutters (!first) cs := by
  induction cs generalizing after first with
  | nil => simp [stutter, Spaced, Stutters]
  | cons c rest ih =>
    rw [stutters_cons, stutter]
    by_cases hHere : after = true ∧ Spaced (c :: rest)
    · obtain ⟨rfl, d, more, hText⟩ := hHere
      obtain ⟨rfl, rfl⟩ := List.cons.inj hText
      have hLength := length_le_stutter true (Cursor.needsEscape ' ' && !first) false (d :: more)
      have hLonger : ['\\', ' ']
          ++ ' ' :: stutter true (Cursor.needsEscape ' ' && !first) false (d :: more)
          ≠ ' ' :: d :: more := by
        intro hSame
        have hLengths := congrArg List.length hSame
        simp only [List.length_append, List.length_cons, List.length_nil] at hLengths hLength
        omega
      refine iff_of_false hLonger ?_
      exact fun hNot => hNot.1 ⟨rfl, d, more, rfl⟩
    · have hPlain : (true && after && c == ' ' && !rest.isEmpty) = false := by
        rw [Bool.eq_false_iff]
        intro hAll
        simp only [Bool.and_eq_true, Bool.not_eq_true', beq_iff_eq] at hAll
        obtain ⟨⟨⟨-, hAfter⟩, rfl⟩, hSome⟩ := hAll
        cases rest with
        | nil => cases hSome
        | cons d more => exact hHere ⟨hAfter, d, more, rfl⟩
      rw [hPlain, if_neg Bool.false_ne_true, List.nil_append, List.cons_inj_right, ih]
      simp only [hHere, not_false_eq_true, true_and, not_or, Bool.and_eq_true, Bool.not_false,
        and_left_comm, and_assoc]

/-- Where further lines start past their width, a text is read as it was unless it stutters. -/
theorem stutter_eq_iff {cs : List Char} :
    stutter true false true cs = cs ↔ ¬ Stutters false cs := by
  rw [stutter_true_eq_iff]
  simp

example : stutter true false true ['a', '\t', ' ', 'b'] = ['a', '\t', '\\', ' ', ' ', 'b'] := by decide

/-! ## Reading -/

theorem prepend_nil {α : Type} (read : Option (List Char × α)) : prepend [] read = read := by
  cases read with
  | none => rfl
  | some answer => rfl

theorem raw_spec {c : Char} (h : Cursor.needsEscape c = false) :
    c ≠ '"' ∧ c ≠ '\\' ∧ isBreak c = false ∧ isReadable c = true := by
  simp only [Cursor.needsEscape, Bool.or_eq_false_iff, Bool.not_eq_false', Bool.or_eq_true,
    Bool.and_eq_true, decide_eq_true_eq, beq_eq_false_iff_ne, ne_eq] at h
  obtain ⟨⟨⟨⟨⟨⟨hQuote, hSlash⟩, hNel⟩, hLine⟩, hPara⟩, -⟩, hRange⟩ := h
  refine ⟨hQuote, hSlash, ?_, ?_⟩
  · have hFeed : c ≠ '\n' := by
      rintro rfl
      revert hRange
      decide
    have hNext : c ≠ '\x85' := fun hIs => hNel (by rw [hIs]; rfl)
    have hLineSep : c ≠ '\u2028' := fun hIs => hLine (by rw [hIs]; rfl)
    have hParaSep : c ≠ '\u2029' := fun hIs => hPara (by rw [hIs]; rfl)
    simp [isBreak, hFeed, hNext, hLineSep, hParaSep]
  · simp only [isReadable, Bool.or_eq_true, Bool.and_eq_true, decide_eq_true_eq]
    rcases hRange with (hAscii | hLatin) | hPrivate
    · simp [hAscii]
    · simp [hLatin]
    · simp [hPrivate]

theorem readQuotes_close (blanks : Blanks) (rest : List Char) :
    readQuotes (.text blanks) ('"' :: rest) = some (blanks.text, rest) := rfl

theorem readQuotes_backslash (blanks : Blanks) (rest : List Char) :
    readQuotes (.text blanks) ('\\' :: rest) = prepend blanks.text (readQuotes .escape rest) := rfl

/-- With plain characters read up to a quotation mark or a backslash, no blanks are left to settle. -/
theorem readQuotes_raw {w : List Char} (hRaw : ∀ d ∈ w, Cursor.needsEscape d = false) {t : Char}
    (hStop : t = '"' ∨ t = '\\') (n : Nat) (rest : List Char) :
    readQuotes (.text (.spaces n)) (w ++ t :: rest)
      = prepend (List.replicate n ' ' ++ w) (readQuotes (.text (.spaces 0)) (t :: rest)) := by
  induction w generalizing n with
  | nil =>
    rw [List.nil_append, List.append_nil]
    rcases hStop with rfl | rfl
    · rw [readQuotes_close, readQuotes_close, prepend_some]
      simp [Blanks.text]
    · rw [readQuotes_backslash, readQuotes_backslash, prepend_prepend]
      simp [Blanks.text]
  | cons d ds ih =>
    obtain ⟨hQuote, hSlash, hBreak, hReadable⟩ := raw_spec (hRaw d List.mem_cons_self)
    have hMore := ih fun e hE => hRaw e (List.mem_cons_of_mem d hE)
    rw [List.cons_append, readQuotes, if_neg (by simpa using hQuote), if_neg (by simpa using hSlash)]
    by_cases hSpace : d = ' '
    · subst hSpace
      rw [if_pos (beq_self_eq_true ' '), Blanks.addSpace, hMore, List.replicate_succ',
        List.append_assoc]
      rfl
    · rw [if_neg (by simpa using hSpace), if_neg (by simp [hBreak]), if_pos hReadable, hMore,
        prepend_prepend]
      simp [Blanks.text]

/-- That a reader is at a place from where it reads a text as it is: in the line, in a new line that
does not go on with a space, or after a backslash before a space. -/
def Quoting.Ready (cs : List Char) : Quoting → Prop
  | .text (.spaces n) => n = 0
  | .text (.joined more) => more = [] ∧ cs.head? ≠ some ' '
  | .escape => cs.head? = some ' '
  | _ => False

theorem readQuotes_ready {w : List Char} (hRaw : ∀ d ∈ w, Cursor.needsEscape d = false)
    {quoting : Quoting} (hReady : quoting.Ready w) {t : Char} (hStop : t = '"' ∨ t = '\\')
    (rest : List Char) :
    readQuotes quoting (w ++ t :: rest)
      = prepend w (readQuotes (.text (.spaces 0)) (t :: rest)) := by
  match quoting, hReady with
  | .text (.spaces n), hZero =>
    obtain rfl : n = 0 := hZero
    exact readQuotes_raw hRaw hStop 0 rest
  | .text (.joined more), ⟨hNone, hHead⟩ =>
    subst hNone
    cases w with
    | nil =>
      rw [List.nil_append, prepend_nil]
      rcases hStop with rfl | rfl
      · rfl
      · rfl
    | cons d ds =>
      obtain ⟨hQuote, hSlash, hBreak, hReadable⟩ := raw_spec (hRaw d List.mem_cons_self)
      have hSpace : d ≠ ' ' := fun hIs => hHead (congrArg some hIs)
      rw [List.cons_append, readQuotes, if_neg (by simpa using hQuote), if_neg (by simpa using hSlash),
        if_neg (by simpa using hSpace), if_neg (by simp [hBreak]), if_pos hReadable,
        readQuotes_raw (fun e hE => hRaw e (List.mem_cons_of_mem d hE)) hStop, prepend_prepend]
      rfl
  | .escape, hHead =>
    cases w with
    | nil => cases hHead
    | cons d ds =>
      obtain rfl : d = ' ' := Option.some.inj hHead
      have hMore := readQuotes_raw (fun e hE => hRaw e (List.mem_cons_of_mem ' ' hE)) hStop 0 rest
      have hEscaped : readQuotes .escape (' ' :: (ds ++ t :: rest))
          = prepend [' '] (readQuotes (.text (.spaces 0)) (ds ++ t :: rest)) := rfl
      rw [List.cons_append, hEscaped, hMore, prepend_prepend]
      rfl

theorem readQuotes_spaces (blanks : Blanks) (n : Nat) (rest : List Char) :
    readQuotes (.text blanks) (List.replicate n ' ' ++ rest)
      = readQuotes (.text (blanks.addSpaces n)) rest := by
  induction n generalizing blanks with
  | zero => rfl
  | succ n ih =>
    have hOne : readQuotes (.text blanks) (' ' :: (List.replicate n ' ' ++ rest))
        = readQuotes (.text blanks.addSpace) (List.replicate n ' ' ++ rest) := rfl
    rw [List.replicate_succ, List.cons_append, hOne, ih, Blanks.addSpaces]

/-- A backslash drops the end of its line and the indentation of the next one. -/
theorem readQuotes_joined {column : Nat} (hColumn : 0 < column) (rest : List Char) :
    readQuotes .escape ('\n' :: List.replicate column ' ' ++ rest)
      = readQuotes (.text (.joined [])) rest := by
  obtain ⟨n, rfl⟩ : ∃ n, column = n + 1 := ⟨column - 1, by omega⟩
  have hSpaces := readQuotes_spaces (.joined []) (n + 1) rest
  rw [Blanks.addSpaces_joined] at hSpaces
  rw [← hSpaces]
  rfl

/-! ## Escapes -/

theorem value?_digit_upper {n : Nat} (hn : n < 16) : Hex.value? (Hex.digit true n) = some n := by
  revert n
  decide

/-- The letters that stand for a character, with the characters. -/
def letters : List (Char × Char) :=
  [('\x00', '0'), ('\x07', 'a'), ('\x08', 'b'), ('\t', 't'), ('\n', 'n'), ('\x0b', 'v'),
    ('\x0c', 'f'), ('\r', 'r'), ('\x1b', 'e'), ('"', '"'), ('\\', '\\'), ('\x85', 'N'),
    ('\xa0', '_'), ('\u2028', 'L'), ('\u2029', 'P')]

theorem escapeLetter?_spec {c letter : Char} (h : Cursor.escapeLetter? c = some letter) :
    isBreak letter = false ∧ codeLength? letter = none ∧ unescape? letter = some c := by
  have hAll : letters.all (fun pair => !isBreak pair.2 && (codeLength? pair.2).isNone
      && unescape? pair.2 == some pair.1) = true := by decide
  obtain ⟨before, after, hTable, -⟩ := List.lookup_eq_some_iff.mp h
  have hMem : (c, letter) ∈ letters := by
    rw [letters, hTable]
    exact List.mem_append_right _ List.mem_cons_self
  have hPair := List.all_eq_true.mp hAll (c, letter) hMem
  simpa [and_assoc] using hPair

theorem readQuotes_letter {c letter : Char} (h : Cursor.escapeLetter? c = some letter)
    (rest : List Char) :
    readQuotes .escape (letter :: rest) = prepend [c] (readQuotes (.text (.spaces 0)) rest) := by
  obtain ⟨hBreak, hLength, hStands⟩ := escapeLetter?_spec h
  rw [readQuotes, if_neg (by simp [hBreak]), hLength]
  dsimp only
  rw [hStands]

theorem readQuotes_digit {n : Nat} (hn : n < 16) (left code : Nat) (rest : List Char) :
    readQuotes (.code (left + 2) code) (Hex.digit true n :: rest)
      = readQuotes (.code (left + 1) (16 * code + n)) rest := by
  rw [readQuotes, value?_digit_upper hn]
  dsimp only
  rw [if_pos (by omega)]
  rfl

theorem readQuotes_lastDigit (c : Char) {n : Nat} (hn : n < 16) {code : Nat}
    (hCode : 16 * code + n = c.toNat) (rest : List Char) :
    readQuotes (.code 1 code) (Hex.digit true n :: rest)
      = prepend [c] (readQuotes (.text (.spaces 0)) rest) := by
  have hValid : c.toNat.isValidChar := c.valid
  rw [readQuotes, value?_digit_upper hn]
  dsimp only
  rw [if_neg (by omega), hCode, if_pos hValid, Char.ofNat_toNat]

theorem mod_sixteen (n : Nat) : n % 16 < 16 := Nat.mod_lt n (by decide)

theorem readQuotes_two {c : Char} (h : c.toNat ≤ 0xff) (rest : List Char) :
    readQuotes (.code 2 0) (Hex.digits true 2 c.toNat ++ rest)
      = prepend [c] (readQuotes (.text (.spaces 0)) rest) := by
  simp only [Hex.digits, List.nil_append, List.cons_append]
  rw [readQuotes_digit (mod_sixteen _), readQuotes_lastDigit c (mod_sixteen _) (by omega)]

theorem readQuotes_four {c : Char} (h : c.toNat ≤ 0xffff) (rest : List Char) :
    readQuotes (.code 4 0) (Hex.digits true 4 c.toNat ++ rest)
      = prepend [c] (readQuotes (.text (.spaces 0)) rest) := by
  simp only [Hex.digits, List.nil_append, List.cons_append]
  rw [readQuotes_digit (mod_sixteen _), readQuotes_digit (mod_sixteen _),
    readQuotes_digit (mod_sixteen _), readQuotes_lastDigit c (mod_sixteen _) (by omega)]

theorem readQuotes_eight (c : Char) (rest : List Char) :
    readQuotes (.code 8 0) (Hex.digits true 8 c.toNat ++ rest)
      = prepend [c] (readQuotes (.text (.spaces 0)) rest) := by
  have hValid : c.toNat.isValidChar := c.valid
  have hSmall : c.toNat < 0x110000 := by
    rcases hValid with hLow | ⟨-, hHigh⟩
    · omega
    · exact hHigh
  simp only [Hex.digits, List.nil_append, List.cons_append]
  rw [readQuotes_digit (mod_sixteen _), readQuotes_digit (mod_sixteen _),
    readQuotes_digit (mod_sixteen _), readQuotes_digit (mod_sixteen _),
    readQuotes_digit (mod_sixteen _), readQuotes_digit (mod_sixteen _),
    readQuotes_digit (mod_sixteen _), readQuotes_lastDigit c (mod_sixteen _) (by omega)]

/-- An escape is read as the character that it was written for. -/
theorem readQuotes_escape (c : Char) (rest : List Char) :
    ∃ more, Cursor.escape c = '\\' :: more ∧
      readQuotes .escape (more ++ rest) = prepend [c] (readQuotes (.text (.spaces 0)) rest) := by
  rw [Cursor.escape]
  split
  · rename_i letter hLetter
    exact ⟨[letter], rfl, readQuotes_letter hLetter rest⟩
  split
  · rename_i hSmall
    exact ⟨_, rfl, readQuotes_two hSmall rest⟩
  split
  · rename_i hSmall
    exact ⟨_, rfl, readQuotes_four hSmall rest⟩
  · exact ⟨_, rfl, readQuotes_eight c rest⟩

/-! ## Folded lines -/

/-- The end of a line between double quotes, with the start of the next one. -/
def lineEnd (column : Nat) (protects : Bool) : List Char :=
  '\\' :: '\n' :: List.replicate column ' ' ++ if protects then ['\\'] else []

/-- Where a reader stands after the end of a line. -/
def Quoting.nextLine (protects : Bool) : Quoting := if protects then .escape else .text (.joined [])

namespace Cursor

/-- A line that is ended with a backslash after some characters, and the next line with another one if
it is to be protected. -/
def folded (c : Cursor) (column : Nat) (chunk : List Char) (protects : Bool) : Cursor :=
  let next := { (c.put (chunk.reverse ++ ['\\'])).indent column with gap := false, leading := false }
  if protects then next.put ['\\'] else next

variable {c : Cursor} {column : Nat} {chunk : List Char} {ch : Char} {rest : List Char}

theorem folded_toList (hLeading : c.leading = false) (protects : Bool) :
    (c.folded column chunk protects).text.toList
      = c.text.toList ++ (chunk.reverse ++ lineEnd column protects) := by
  have hInside : (c.put (chunk.reverse ++ ['\\'])).leading = true →
      column < (c.put (chunk.reverse ++ ['\\'])).column := by
    intro hIs
    cases hLeading.symm.trans hIs
  rw [folded, indent_eq_newLine _ hInside, lineEnd]
  cases protects with
  | true => simp
  | false => simp

theorem folded_leading (protects : Bool) : (c.folded column chunk protects).leading = false := by
  cases protects <;> rfl

theorem folded_column (hLeading : c.leading = false) (protects : Bool) :
    (c.folded column chunk protects).column = column + if protects then 1 else 0 := by
  have hInside : (c.put (chunk.reverse ++ ['\\'])).leading = true →
      column < (c.put (chunk.reverse ++ ['\\'])).column := by
    intro hIs
    cases hLeading.symm.trans hIs
  rw [folded, indent_eq_newLine _ hInside]
  cases protects <;> rfl

theorem quoteRest_escaped (first : Bool) (hEscaped : needsEscape ch = true) :
    quoteRest true column first chunk c (ch :: rest)
      = if !first && !rest.isEmpty
          && decide (lineWidth + 1 < (c.put (chunk.reverse ++ escape ch)).column)
        then quoteRest true column false []
          ((c.put (chunk.reverse ++ escape ch)).folded column [] (rest.head? == some ' ')) rest
        else quoteRest true column false [] (c.put (chunk.reverse ++ escape ch)) rest := by
  rw [quoteRest]
  simp only [hEscaped, if_true, put_put, List.isEmpty_nil, Bool.or_true, Bool.and_true, List.length_nil,
    Nat.add_zero, gt_iff_lt, List.reverse_nil, List.nil_append, folded]

theorem quoteRest_raw (first : Bool) (hRaw : needsEscape ch = false) :
    quoteRest true column first chunk c (ch :: rest)
      = if !first && !rest.isEmpty && (ch == ' ' || chunk.isEmpty)
          && decide (lineWidth < c.column + chunk.length)
        then quoteRest true column false [ch] (c.folded column chunk (ch == ' ')) rest
        else quoteRest true column false (ch :: chunk) c rest := by
  rw [quoteRest]
  have hSome : (some ch == some ' ') = (ch == ' ') := rfl
  simp only [hRaw, Bool.false_eq_true, if_false, Bool.and_true, Nat.add_zero, gt_iff_lt, folded, hSome]

end Cursor

theorem readQuotes_lineEnd {column : Nat} (hColumn : 0 < column) (protects : Bool)
    (rest : List Char) :
    readQuotes (.text (.spaces 0)) (lineEnd column protects ++ rest)
      = readQuotes (.nextLine protects) rest := by
  have hJoined := readQuotes_joined hColumn ((if protects then ['\\'] else []) ++ rest)
  rw [lineEnd, List.append_assoc, List.cons_append, readQuotes_backslash, hJoined]
  cases protects with
  | true =>
    rw [if_pos rfl, List.singleton_append, readQuotes_backslash]
    exact (prepend_prepend _ _ _).trans (prepend_nil _)
  | false => exact prepend_nil _

/-- A line that is ended with a backslash is read up to it, and the reader goes on in the next one. -/
theorem readQuotes_folded {chunk : List Char} (hRaw : ∀ d ∈ chunk, Cursor.needsEscape d = false)
    {quoting : Quoting} (hReady : quoting.Ready chunk.reverse) {column : Nat} (hColumn : 0 < column)
    (protects : Bool) (rest : List Char) :
    readQuotes quoting (chunk.reverse ++ lineEnd column protects ++ rest)
      = prepend chunk.reverse (readQuotes (.nextLine protects) rest) := by
  rw [← readQuotes_lineEnd hColumn, List.append_assoc]
  exact readQuotes_ready (fun d hD => hRaw d (List.mem_reverse.mp hD)) hReady (Or.inr rfl) _

/-- Where nothing was written since a backslash at the start of a line, ending the line with another
one makes them an escaped backslash, and the end of the line a space. -/
theorem readQuotes_stutter {column : Nat} (hColumn : 0 < column) (rest : List Char) :
    readQuotes .escape (lineEnd column true ++ rest)
      = prepend ['\\', ' '] (readQuotes .escape rest) := by
  obtain ⟨n, rfl⟩ : ∃ n, column = n + 1 := ⟨column - 1, by omega⟩
  have hSpaces := readQuotes_spaces (.breaks '\n' []) (n + 1) ('\\' :: rest)
  rw [Blanks.addSpaces_breaks, readQuotes_backslash] at hSpaces
  have hStart : readQuotes .escape ('\\' :: '\n' :: (List.replicate (n + 1) ' ' ++ '\\' :: rest))
      = prepend ['\\'] (readQuotes (.text (.breaks '\n' []))
          (List.replicate (n + 1) ' ' ++ '\\' :: rest)) := rfl
  rw [hSpaces, prepend_prepend] at hStart
  refine Eq.trans ?_ hStart
  rw [lineEnd]
  simp only [if_true, List.append_assoc, List.cons_append, List.nil_append]

/-! ## Writing -/

namespace Quoting.Ready

variable {quoting : Quoting} {w rest : List Char}

/-- A reader can go on with a text if it could with another one that starts the same. -/
theorem of_head (h : quoting.Ready w) {other : List Char} (hHead : other.head? = w.head?) :
    quoting.Ready other := by
  match quoting, h with
  | .text (.spaces n), hZero => exact hZero
  | .text (.joined more), ⟨hNone, hSpace⟩ => exact ⟨hNone, hHead ▸ hSpace⟩
  | .escape, hSpace => exact hHead.trans hSpace

/-- It can go on with the front of the text, unless it has to read a space at once. -/
theorem front (h : quoting.Ready (w ++ rest)) (hSome : ¬ (w = [] ∧ quoting = .escape)) :
    quoting.Ready w := by
  cases w with
  | cons d ds => exact h.of_head rfl
  | nil =>
    match quoting, h with
    | .text (.spaces n), hZero => exact hZero
    | .text (.joined more), ⟨hNone, _⟩ => exact ⟨hNone, by simp⟩
    | .escape, _ => exact absurd ⟨rfl, rfl⟩ hSome

/-- After the end of a line that was protected as the next character needs it, a reader can go on. -/
theorem folded (next : List Char) :
    (nextLine (next.head? == some ' ')).Ready next := by
  rw [nextLine]
  split
  · rename_i hIs
    exact eq_of_beq hIs
  · rename_i hNot
    exact ⟨rfl, fun hIs => hNot (beq_iff_eq.mpr hIs)⟩

end Quoting.Ready

theorem needsEscape_space : Cursor.needsEscape ' ' = false := by decide

theorem length_escape (c : Char) : 2 ≤ (Cursor.escape c).length := by
  rw [Cursor.escape]
  split
  · exact Nat.le_refl 2
  split
  · rw [List.length_cons, List.length_cons]
    omega
  split
  · rw [List.length_cons, List.length_cons]
    omega
  · rw [List.length_cons, List.length_cons]
    omega

namespace Cursor

/-- How the writer of a text between double quotes and a reader of what it wrote stand to each other,
where `cs` is still to come after the characters in `chunk`, which are passed over but not written.
If further lines start past their width, a line has just ended where an escaped character went before,
and nowhere else. -/
structure InStep (column : Nat) (first after : Bool) (chunk : List Char) (c : Cursor)
    (quoting : Quoting) (cs : List Char) : Prop where
  leading : c.leading = false
  place : column ≤ c.column
  raw : ∀ d ∈ chunk, needsEscape d = false
  ready : quoting.Ready (chunk.reverse ++ cs)
  guarded : chunk = [] → quoting = .escape → c.column = column + 1
  fresh : first = true → after = false
  turned : lineWidth ≤ column → cs ≠ [] →
    (after = true ↔ chunk = [] ∧ quoting ≠ .text (.spaces 0))

namespace InStep

variable {column : Nat} {first after : Bool} {chunk rest : List Char} {c : Cursor}
  {quoting : Quoting} {ch : Char}

/-- Where a backslash will be read with the end of a line, the last line holds no more than one. -/
theorem stuttering (h : InStep column first after chunk c quoting (ch :: rest))
    (hDeep : lineWidth ≤ column) (hAfter : after = true) (hSpace : ch = ' ') :
    chunk = [] ∧ quoting = .escape := by
  obtain ⟨hChunk, hQuoting⟩ := (h.turned hDeep (List.cons_ne_nil ch rest)).mp hAfter
  have hReady := h.ready
  subst hChunk hSpace
  refine ⟨rfl, ?_⟩
  match quoting, hReady with
  | .text (.spaces n), hZero =>
    obtain rfl : n = 0 := hZero
    exact absurd rfl hQuoting
  | .text (.joined more), ⟨_, hNot⟩ => exact absurd rfl hNot
  | .escape, _ => rfl

/-- After an escape in the same line. -/
theorem escaped (h : InStep column first after chunk c quoting (ch :: rest))
    (hStays : lineWidth ≤ column → rest ≠ [] → first = true) :
    InStep column false (!first) [] (c.put (chunk.reverse ++ escape ch)) (.text (.spaces 0)) rest where
  leading := h.leading
  place := Nat.le_trans h.place (Nat.le_add_right _ _)
  raw := fun _ hIn => absurd hIn List.not_mem_nil
  ready := rfl
  guarded := by
    intro _ hIs
    cases hIs
  fresh := by
    intro hIs
    cases hIs
  turned := by
    intro hDeep hMore
    simp [hStays hDeep hMore]

/-- After an escape and the end of its line. -/
theorem escapedFolded (h : InStep column first after chunk c quoting (ch :: rest))
    (hFirst : first = false) :
    InStep column false (!first) []
      ((c.put (chunk.reverse ++ escape ch)).folded column [] (rest.head? == some ' '))
      (.nextLine (rest.head? == some ' ')) rest where
  leading := folded_leading _
  place := by
    rw [folded_column (c := c.put (chunk.reverse ++ escape ch)) h.leading]
    omega
  raw := fun _ hIn => absurd hIn List.not_mem_nil
  ready := Quoting.Ready.folded rest
  guarded := by
    intro _ hIs
    rw [folded_column (c := c.put (chunk.reverse ++ escape ch)) h.leading]
    rw [Quoting.nextLine] at hIs
    split at hIs
    · rename_i hSpace
      rw [if_pos hSpace]
    · cases hIs
  fresh := by
    intro hIs
    cases hIs
  turned := by
    intro _ _
    simp only [hFirst, Bool.not_false, true_and, true_iff, Quoting.nextLine]
    split
    · simp
    · simp

/-- After a character that is passed over. -/
theorem passed (h : InStep column first after chunk c quoting (ch :: rest))
    (hRaw : needsEscape ch = false) : InStep column false false (ch :: chunk) c quoting rest where
  leading := h.leading
  place := h.place
  raw := by
    intro d hIn
    rcases List.mem_cons.mp hIn with rfl | hOld
    · exact hRaw
    · exact h.raw d hOld
  ready := by simpa using h.ready
  guarded := by
    intro hIs
    cases hIs
  fresh := fun _ => rfl
  turned := by
    intro _ _
    simp

/-- After the end of a line before a character. -/
theorem passedFolded (h : InStep column first after chunk c quoting (ch :: rest))
    (hRaw : needsEscape ch = false) :
    InStep column false false [ch] (c.folded column chunk (ch == ' '))
      (.nextLine (ch == ' ')) rest where
  leading := folded_leading _
  place := by
    rw [folded_column h.leading]
    omega
  raw := by
    intro d hIn
    obtain rfl := List.mem_singleton.mp hIn
    exact hRaw
  ready := Quoting.Ready.folded (ch :: rest)
  guarded := by
    intro hIs
    cases hIs
  fresh := fun _ => rfl
  turned := by
    intro _ _
    simp

/-- A character before which no backslash is read with the end of a line. -/
theorem plain (h : InStep column first after chunk c quoting (ch :: rest))
    (hNot : lineWidth ≤ column → after = true → ch = ' ' → rest ≠ [] →
      ¬ (chunk = [] ∧ quoting = .escape)) :
    stutter (decide (lineWidth ≤ column)) after first (ch :: rest)
      = ch :: stutter (decide (lineWidth ≤ column)) (needsEscape ch && !first) false rest := by
  have hNone : (decide (lineWidth ≤ column) && after && ch == ' ' && !rest.isEmpty) = false := by
    rw [Bool.eq_false_iff]
    intro hAll
    simp only [Bool.and_eq_true, Bool.not_eq_true', decide_eq_true_eq, beq_iff_eq] at hAll
    obtain ⟨⟨⟨hDeep, hAfter⟩, hSpace⟩, hMore⟩ := hAll
    exact hNot hDeep hAfter hSpace (by simpa using hMore) (h.stuttering hDeep hAfter hSpace)
  rw [stutter, hNone]
  rfl

/-- An escape is read after the characters before it. -/
theorem readQuotes_escaped (h : InStep column first after chunk c quoting (ch :: rest))
    (hSpace : ch ≠ ' ') (tail : List Char) :
    readQuotes quoting (chunk.reverse ++ escape ch ++ tail)
      = prepend (chunk.reverse ++ [ch]) (readQuotes (.text (.spaces 0)) tail) := by
  obtain ⟨code, hEscape, hCode⟩ := readQuotes_escape ch tail
  have hFront : quoting.Ready chunk.reverse := by
    refine h.ready.front ?_
    rintro ⟨hNone, rfl⟩
    have hHead := h.ready
    rw [hNone] at hHead
    exact hSpace (Option.some.inj hHead)
  rw [hEscape, List.append_assoc, List.cons_append,
    readQuotes_ready (fun d hD => h.raw d (List.mem_reverse.mp hD)) hFront (Or.inr rfl),
    readQuotes_backslash, hCode, prepend_prepend, prepend_prepend]
  simp [Blanks.text]

end InStep

/-- That what a writer writes from `c` on for `cs`, after the characters in `chunk`, is read as they
are and as `stutter` has it. -/
def ReadsQuotes (column : Nat) (first after : Bool) (chunk : List Char) (c : Cursor)
    (quoting : Quoting) (cs : List Char) : Prop :=
  ∃ out, (quoteRest true column first chunk c cs).text.toList = c.text.toList ++ out ∧
    ∀ rest, readQuotes quoting (out ++ '"' :: rest)
      = some (chunk.reverse ++ stutter (decide (lineWidth ≤ column)) after first cs, rest)

namespace ReadsQuotes

variable {column : Nat} {first after : Bool} {chunk rest : List Char} {c : Cursor}
  {quoting : Quoting} {ch : Char}

theorem nil (h : InStep column first after chunk c quoting []) :
    ReadsQuotes column first after chunk c quoting [] := by
  refine ⟨chunk.reverse, c.put_toList _, ?_⟩
  intro tail
  have hReady := h.ready
  rw [List.append_nil] at hReady
  rw [readQuotes_ready (fun d hD => h.raw d (List.mem_reverse.mp hD)) hReady (Or.inl rfl),
    readQuotes_close, prepend_some]
  rfl

theorem escaped (hEscaped : needsEscape ch = true) (hColumn : 0 < column)
    (h : InStep column first after chunk c quoting (ch :: rest))
    (hMore : ∀ {chunk : List Char} {c : Cursor} {quoting : Quoting},
      InStep column false (!first) chunk c quoting rest →
      ReadsQuotes column false (!first) chunk c quoting rest) :
    ReadsQuotes column first after chunk c quoting (ch :: rest) := by
  have hSpace : ch ≠ ' ' := by
    rintro rfl
    cases needsEscape_space.symm.trans hEscaped
  have hPlain := h.plain fun _ _ hIs => absurd hIs hSpace
  rw [hEscaped, Bool.true_and] at hPlain
  rw [ReadsQuotes, quoteRest_escaped first hEscaped, hPlain]
  split
  · rename_i hFold
    simp only [Bool.and_eq_true, Bool.not_eq_true'] at hFold
    obtain ⟨out, hText, hRead⟩ := hMore (h.escapedFolded hFold.1.1)
    refine ⟨chunk.reverse ++ escape ch ++ (lineEnd column (rest.head? == some ' ') ++ out), ?_, ?_⟩
    · rw [hText, folded_toList (c := c.put (chunk.reverse ++ escape ch)) h.leading, put_toList]
      simp
    · intro tail
      rw [List.append_assoc, h.readQuotes_escaped hSpace, List.append_assoc,
        readQuotes_lineEnd hColumn, hRead, prepend_some]
      simp
  · rename_i hStays
    -- An escape is longer than a character, so past the width it always ends a line.
    have hShort : lineWidth ≤ column → rest ≠ [] → first = true := by
      intro hDeep hSome
      have hPlace := h.place
      have hLength := length_escape ch
      cases first with
      | true => rfl
      | false =>
        refine absurd ?_ hStays
        simp only [Bool.and_eq_true, decide_eq_true_eq, put_column, List.length_append]
        exact ⟨⟨rfl, by simpa using hSome⟩, by omega⟩
    obtain ⟨out, hText, hRead⟩ := hMore (h.escaped hShort)
    refine ⟨chunk.reverse ++ escape ch ++ out, ?_, ?_⟩
    · rw [hText, put_toList, List.append_assoc]
    · intro tail
      rw [List.append_assoc, h.readQuotes_escaped hSpace, hRead, prepend_some]
      simp

/-- Where the line ends before a character, nothing is lost if something was written in it; else the
backslash at its start is read with its end. -/
theorem passedFolded (hRaw : needsEscape ch = false) (hColumn : 0 < column)
    (h : InStep column first after chunk c quoting (ch :: rest)) (hSome : rest ≠ [])
    (hFull : lineWidth < c.column + chunk.length) {out : List Char}
    (hRead : ∀ tail, readQuotes (.nextLine (ch == ' ')) (out ++ '"' :: tail)
      = some (ch :: stutter (decide (lineWidth ≤ column)) false false rest, tail))
    (tail : List Char) :
    readQuotes quoting (chunk.reverse ++ lineEnd column (ch == ' ') ++ (out ++ '"' :: tail))
      = some (chunk.reverse ++ stutter (decide (lineWidth ≤ column)) after first (ch :: rest),
          tail) := by
  by_cases hStutter : chunk = [] ∧ quoting = .escape
  · -- The line holds nothing but a backslash, so it can be full only past its width.
    obtain ⟨rfl, rfl⟩ := hStutter
    obtain rfl : ch = ' ' := Option.some.inj h.ready
    have hStart := h.guarded rfl rfl
    rw [List.length_nil] at hFull
    have hDeep : lineWidth ≤ column := by omega
    have hAfter : after = true := (h.turned hDeep (List.cons_ne_nil _ _)).mpr ⟨rfl, by simp⟩
    have hTwice := readQuotes_stutter hColumn (out ++ '"' :: tail)
    have hNext := hRead tail
    rw [beq_self_eq_true, Quoting.nextLine, if_pos rfl] at hNext
    rw [hNext, prepend_some] at hTwice
    rw [beq_self_eq_true, List.reverse_nil, List.nil_append, hTwice, stutter, hAfter,
      needsEscape_space]
    simp [hDeep, hSome]
  · rw [readQuotes_folded h.raw (h.ready.front (by simpa using hStutter)) hColumn, hRead, prepend_some,
      h.plain fun _ _ _ _ => hStutter, hRaw]
    rfl

theorem passed (hRaw : needsEscape ch = false) (hColumn : 0 < column)
    (h : InStep column first after chunk c quoting (ch :: rest))
    (hMore : ∀ {chunk : List Char} {c : Cursor} {quoting : Quoting},
      InStep column false false chunk c quoting rest →
      ReadsQuotes column false false chunk c quoting rest) :
    ReadsQuotes column first after chunk c quoting (ch :: rest) := by
  rw [ReadsQuotes, quoteRest_raw first hRaw]
  split
  · rename_i hFold
    simp only [Bool.and_eq_true, Bool.not_eq_true', decide_eq_true_eq] at hFold
    obtain ⟨⟨⟨-, hSome⟩, -⟩, hFull⟩ := hFold
    obtain ⟨out, hText, hRead⟩ := hMore (h.passedFolded hRaw)
    refine ⟨chunk.reverse ++ lineEnd column (ch == ' ') ++ out, ?_, ?_⟩
    · rw [hText, folded_toList h.leading, List.append_assoc]
    · intro tail
      rw [List.append_assoc]
      exact passedFolded hRaw hColumn h (by simpa using hSome) hFull hRead tail
  · rename_i hStays
    obtain ⟨out, hText, hRead⟩ := hMore (h.passed hRaw)
    refine ⟨out, hText, ?_⟩
    intro tail
    have hPlain := h.plain (by
      rintro hDeep hAfter hSpace hSome ⟨hChunk, hQuoting⟩
      have hStart := h.guarded hChunk hQuoting
      have hFirst : first = false := by
        rw [Bool.eq_false_iff]
        intro hIs
        cases (h.fresh hIs).symm.trans hAfter
      refine hStays ?_
      simp only [Bool.and_eq_true, decide_eq_true_eq]
      exact ⟨⟨⟨by simp [hFirst], by simpa using hSome⟩, by simp [hSpace]⟩, by omega⟩)
    rw [hRead, hPlain, hRaw]
    simp

end ReadsQuotes

/-- What is still to come of a text between double quotes is read as `stutter` has it. -/
theorem quoteRest_spec {cs : List Char} {column : Nat} (hColumn : 0 < column)
    {first after : Bool} {chunk : List Char} {c : Cursor} {quoting : Quoting}
    (h : InStep column first after chunk c quoting cs) :
    ReadsQuotes column first after chunk c quoting cs := by
  induction cs generalizing first after chunk c quoting with
  | nil => exact .nil h
  | cons ch more ih =>
    cases hKind : needsEscape ch with
    | true => exact .escaped hKind hColumn h ih
    | false => exact .passed hKind hColumn h ih

/-- A text between double quotes is written after a gap, and is read as `stutter` has it. -/
theorem quotes_spec (cs : List Char) {column : Nat} (hColumn : 0 < column) (c : Cursor)
    (hPlace : column ≤ c.column) :
    ∃ out, (c.quotes true column cs).text.toList
        = c.text.toList ++ (if c.gap then out else ' ' :: out) ∧
      (c.quotes true column cs).leading = false ∧
      ReadsScalar column
        (.str (String.ofList (stutter (decide (lineWidth ≤ column)) false true cs))) out := by
  have hStart : InStep column true false [] (c.sign ['"'] true false false) (.text (.spaces 0)) cs := by
    refine ⟨Bool.and_false _, ?_, ?_, rfl, ?_, ?_, ?_⟩
    · rw [sign_column]
      omega
    · exact fun _ hIn => absurd hIn List.not_mem_nil
    · simp
    · exact fun _ => rfl
    · simp
  obtain ⟨inner, hText, hReads⟩ := quoteRest_spec hColumn hStart
  refine ⟨'"' :: inner ++ ['"'], ?_, ?_, ?_, ?_, ?_⟩
  · rw [quotes]
    rw [sign_toList, hText, sign_toList]
    cases c.gap <;> simp
  · rw [quotes, sign_leading, Bool.and_false]
  · rfl
  · rw [List.getLast?_append, List.getLast?_singleton]
    intro hIs
    cases Option.some.inj hIs
  · intro indent k tail next hColumn hEnds
    have hRead := hReads tail
    rw [List.append_assoc, List.cons_append, readScalar, if_neg (by decide),
      if_pos (beq_self_eq_true '"'), List.singleton_append, hRead, closeScalar]
    rw [hEnds.nextToken_eq 0]
    rfl

end Cursor

end TreeDump.Yaml
