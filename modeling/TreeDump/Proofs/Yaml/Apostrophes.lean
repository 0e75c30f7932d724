import TreeDump.Proofs.Yaml.Bare

/-!
# Scalars between apostrophes

Between apostrophes breaks stand as they are, but for a line feed at the start of several breaks,
which is written twice.  A reader normalises breaks, and drops the first of several if it is a line
feed then.  So line feeds and separators are read as they were, and U+0085 is not: it is read as a
space if it stands alone, and as a line feed or not at all if it does not.

* `settled`: what a text between apostrophes is read as.
* `settled_eq_iff`: it is the text itself just if that holds no U+0085.
* `Cursor.apostrophes_spec`: a text between apostrophes is read as that.
-/

namespace TreeDump.Yaml

/-! ## What a text is read as -/

/-- What a text between apostrophes is read as; `inside` tells whether a break stands before it. -/
def settled (inside : Bool) : List Char → List Char
  | [] => []
  | c :: rest =>
    if !isBreak c then c :: settled false rest
    else if inside || c != '\x85' then normal c :: settled true rest
    else if rest.head?.any isBreak then settled true rest
    else ' ' :: settled true rest

theorem normal_ne (c : Char) : normal c ≠ '\x85' := by
  rw [normal]
  split
  · decide
  · rename_i hNot
    intro hIs
    exact hNot (beq_iff_eq.mpr hIs)

theorem normal_eq {c : Char} (h : c ≠ '\x85') : normal c = c := if_neg (by simpa using h)

theorem not_mem_settled (inside : Bool) (cs : List Char) : '\x85' ∉ settled inside cs := by
  induction cs generalizing inside with
  | nil => exact List.not_mem_nil
  | cons c rest ih =>
    rw [settled]
    split
    · rename_i hBreak
      refine List.not_mem_cons_of_ne_of_not_mem ?_ (ih false)
      rintro rfl
      exact absurd hBreak (by decide)
    split
    · exact List.not_mem_cons_of_ne_of_not_mem (normal_ne c).symm (ih true)
    split
    · exact ih true
    · exact List.not_mem_cons_of_ne_of_not_mem (by decide) (ih true)

theorem settled_of_not_mem {cs : List Char} (h : '\x85' ∉ cs) (inside : Bool) :
    settled inside cs = cs := by
  induction cs generalizing inside with
  | nil => rfl
  | cons c rest ih =>
    have hNot : c ≠ '\x85' := fun hIs => h (hIs ▸ List.mem_cons_self)
    have hRest : '\x85' ∉ rest := fun hIn => h (List.mem_cons_of_mem c hIn)
    rw [settled]
    split
    · rw [ih hRest]
    · rw [if_pos (by simp [hNot]), normal_eq hNot, ih hRest]

/-- Only U+0085 is not read as it was. -/
theorem settled_eq_iff {cs : List Char} : settled false cs = cs ↔ '\x85' ∉ cs := by
  constructor
  · intro hSame
    rw [← hSame]
    exact not_mem_settled false cs
  · exact fun hNot => settled_of_not_mem hNot false

example : settled false ['a', '\x85', 'b'] = ['a', ' ', 'b'] := by decide

/-! ## Reading -/

theorem startsDocument_blank {c : Char} (h : isSpaceOrBreak c = true) (rest : List Char) :
    startsDocument (c :: rest) = false := by
  have hDash : c ≠ '-' := by
    rintro rfl
    exact absurd h (by decide)
  have hDot : c ≠ '.' := by
    rintro rfl
    exact absurd h (by decide)
  simp [startsDocument, List.isPrefixOf, hDash.symm, hDot.symm]

/-- What is read of a character that is no apostrophe. -/
theorem readApostrophes_cons (blanks : Blanks) {c : Char} (hc : c ≠ '\'') (rest : List Char) :
    readApostrophes blanks (c :: rest)
      = if c == ' ' then readApostrophes blanks.addSpace rest
        else if isBreak c then
          if startsDocument rest then none else readApostrophes (blanks.addBreak c) rest
        else if isReadable c then
          prepend (blanks.text ++ [c]) (readApostrophes (.spaces 0) rest)
        else none := by
  rw [readApostrophes.eq_def]
  exact if_neg (by simpa using hc)

theorem readApostrophes_spaces (blanks : Blanks) (n : Nat) (rest : List Char) :
    readApostrophes blanks (List.replicate n ' ' ++ rest)
      = readApostrophes (blanks.addSpaces n) rest := by
  induction n generalizing blanks with
  | zero => rfl
  | succ n ih =>
    rw [List.replicate_succ, List.cons_append, readApostrophes_cons blanks (by decide),
      if_pos (beq_self_eq_true ' '), ih, Blanks.addSpaces]

theorem isSpaceOrBreak_of_isBreak {c : Char} (h : isBreak c = true) : isSpaceOrBreak c = true := by
  rw [isSpaceOrBreak, h, Bool.or_true]

/-- A break before another one, or before the indentation of a line. -/
theorem readApostrophes_break (blanks : Blanks) {b c : Char} (hBreak : isBreak b = true)
    (hNext : isSpaceOrBreak c = true) (rest : List Char) :
    readApostrophes blanks (b :: c :: rest) = readApostrophes (blanks.addBreak b) (c :: rest) := by
  have hApostrophe : b ≠ '\'' := by
    rintro rfl
    exact absurd hBreak (by decide)
  have hSpace : b ≠ ' ' := by
    rintro rfl
    exact absurd hBreak (by decide)
  rw [readApostrophes_cons blanks hApostrophe, if_neg (by simpa using hSpace), if_pos hBreak,
    startsDocument_blank hNext]
  rfl

/-- Breaks after a break, and the indentation after them. -/
theorem readApostrophes_breaks {bs : List Char} (hBreaks : ∀ d ∈ bs, isBreak d = true)
    {column : Nat} (hColumn : 0 < column) (b first : Char) (more rest : List Char)
    (hBreak : isBreak b = true) :
    readApostrophes (.breaks first more) (b :: bs ++ (List.replicate column ' ' ++ rest))
      = readApostrophes (.breaks first (more ++ (b :: bs).map normal)) rest := by
  obtain ⟨n, rfl⟩ : ∃ n, column = n + 1 := ⟨column - 1, by omega⟩
  induction bs generalizing b more with
  | nil =>
    have hRead : readApostrophes (.breaks first more) (b :: ' ' :: (List.replicate n ' ' ++ rest)) = _ :=
      readApostrophes_break _ hBreak rfl _
    rw [List.replicate_succ]
    refine hRead.trans ?_
    have hSpaces := readApostrophes_spaces (.breaks first (more ++ [normal b])) (n + 1) rest
    rw [Blanks.addSpaces_breaks] at hSpaces
    exact hSpaces
  | cons d ds ih =>
    have hD := hBreaks d List.mem_cons_self
    have hRead := readApostrophes_break (.breaks first more) hBreak
      (isSpaceOrBreak_of_isBreak hD) (ds ++ (List.replicate (n + 1) ' ' ++ rest))
    have hRest := ih (fun e hE => hBreaks e (List.mem_cons_of_mem d hE)) d (more ++ [normal b]) hD
    refine hRead.trans (hRest.trans ?_)
    rw [List.append_assoc]
    rfl

/-- What a run of breaks is read as, as it is written. -/
def settledRun (b : Char) (bs : List Char) : Blanks :=
  if b = '\n' then .breaks '\n' ('\n' :: bs.map normal) else .breaks (normal b) (bs.map normal)

theorem readApostrophes_run {b : Char} {bs : List Char} (hBreaks : ∀ d ∈ b :: bs, isBreak d = true)
    {column : Nat} (hColumn : 0 < column) (rest : List Char) :
    readApostrophes (.spaces 0)
        ((if b = '\n' then ['\n'] else []) ++ (b :: bs ++ (List.replicate column ' ' ++ rest)))
      = readApostrophes (settledRun b bs) rest := by
  have hBreak := hBreaks b List.mem_cons_self
  have hMore : ∀ d ∈ bs, isBreak d = true := fun d hD => hBreaks d (List.mem_cons_of_mem b hD)
  rw [settledRun]
  split
  · rename_i hFeed
    subst hFeed
    have hFirst := readApostrophes_break (.spaces 0) hBreak (isSpaceOrBreak_of_isBreak hBreak)
      (bs ++ (List.replicate column ' ' ++ rest))
    exact hFirst.trans (readApostrophes_breaks hMore hColumn '\n' '\n' [] rest hBreak)
  · rw [List.nil_append]
    cases bs with
    | nil =>
      obtain ⟨n, rfl⟩ : ∃ n, column = n + 1 := ⟨column - 1, by omega⟩
      have hFirst := readApostrophes_break (.spaces 0) hBreak (c := ' ') rfl
        (List.replicate n ' ' ++ rest)
      have hSpaces := readApostrophes_spaces (.breaks (normal b) []) (n + 1) rest
      rw [Blanks.addSpaces_breaks] at hSpaces
      exact hFirst.trans hSpaces
    | cons d ds =>
      have hD := hMore d List.mem_cons_self
      have hFirst := readApostrophes_break (.spaces 0) hBreak (isSpaceOrBreak_of_isBreak hD)
        (ds ++ (List.replicate column ' ' ++ rest))
      exact hFirst.trans (readApostrophes_breaks (fun e hE => hMore e (List.mem_cons_of_mem d hE))
        hColumn d (normal b) [] rest hD)

theorem settled_true {bs cs : List Char} (hBreaks : ∀ d ∈ bs, isBreak d = true)
    (hNext : cs.head?.any isBreak = false) :
    settled true (bs ++ cs) = bs.map normal ++ settled false cs := by
  induction bs with
  | nil =>
    cases cs with
    | nil => rfl
    | cons c rest =>
      rw [List.head?_cons, Option.any_some] at hNext
      simp [settled, hNext]
  | cons d ds ih =>
    have hRest := ih fun e hE => hBreaks e (List.mem_cons_of_mem d hE)
    rw [List.cons_append, settled, if_neg (by simp [hBreaks d List.mem_cons_self]),
      if_pos (Bool.true_or _), hRest]
    rfl

theorem settled_run {b : Char} {bs cs : List Char} (hBreaks : ∀ d ∈ b :: bs, isBreak d = true)
    (hNext : cs.head?.any isBreak = false) :
    settled false (b :: bs ++ cs) = (settledRun b bs).text ++ settled false cs := by
  have hMore := settled_true (fun d hD => hBreaks d (List.mem_cons_of_mem b hD)) hNext
  rw [List.cons_append, settled, if_neg (by simp [hBreaks b List.mem_cons_self]), settledRun, hMore]
  by_cases hNel : b = '\x85'
  · subst hNel
    cases bs with
    | nil =>
      rw [List.nil_append, hNext]
      rfl
    | cons d ds =>
      have hD := hBreaks d (List.mem_cons_of_mem _ List.mem_cons_self)
      rw [List.cons_append, List.head?_cons, Option.any_some, hD]
      rfl
  · rw [if_pos (by simp [hNel]), normal_eq hNel]
    by_cases hFeed : b = '\n'
    · subst hFeed
      rfl
    · simp [Blanks.text, hFeed]

theorem settled_spaces (n : Nat) (cs : List Char) :
    settled false (List.replicate n ' ' ++ cs) = List.replicate n ' ' ++ settled false cs := by
  induction n with
  | zero => rfl
  | succ n ih =>
    rw [List.replicate_succ, List.cons_append, settled, if_pos (by decide), ih]
    rfl

theorem settled_word {ws : List Char} (hWord : ∀ d ∈ ws, isSpaceOrBreak d = false)
    (cs : List Char) : settled false (ws ++ cs) = ws ++ settled false cs := by
  induction ws with
  | nil => rfl
  | cons d ds ih =>
    have hD := hWord d List.mem_cons_self
    rw [isSpaceOrBreak, Bool.or_eq_false_iff] at hD
    rw [List.cons_append, settled, if_pos (by simp [hD.2]),
      ih fun e hE => hWord e (List.mem_cons_of_mem d hE)]
    rfl

/-! ## Words -/

theorem readApostrophes_doubled_cons {c : Char} (hKind : isSpaceOrBreak c = false)
    (hReadable : isReadable c = true) (blanks : Blanks) (cs rest : List Char) :
    readApostrophes blanks (Cursor.doubled (c :: cs) ++ rest)
      = prepend (blanks.text ++ [c]) (readApostrophes (.spaces 0) (Cursor.doubled cs ++ rest)) := by
  rw [isSpaceOrBreak, Bool.or_eq_false_iff] at hKind
  rw [Cursor.doubled, List.flatMap_cons, List.append_assoc, ← Cursor.doubled]
  split
  · rename_i hApostrophe
    obtain rfl := eq_of_beq hApostrophe
    rfl
  · rename_i hApostrophe
    rw [List.singleton_append, readApostrophes_cons blanks (by simpa using hApostrophe),
      if_neg (by simp [hKind.1]), if_neg (by simp [hKind.2]), if_pos hReadable]

/-- A word is read with the blanks before it. -/
theorem readApostrophes_doubled {w : Char} {ws : List Char}
    (hWord : ∀ d ∈ w :: ws, isSpaceOrBreak d = false ∧ isReadable d = true) (blanks : Blanks)
    (rest : List Char) :
    readApostrophes blanks (Cursor.doubled (w :: ws) ++ rest)
      = prepend (blanks.text ++ w :: ws) (readApostrophes (.spaces 0) rest) := by
  induction ws generalizing w blanks with
  | nil =>
    obtain ⟨hKind, hReadable⟩ := hWord w List.mem_cons_self
    exact readApostrophes_doubled_cons hKind hReadable blanks [] rest
  | cons v vs ih =>
    obtain ⟨hKind, hReadable⟩ := hWord w List.mem_cons_self
    rw [readApostrophes_doubled_cons hKind hReadable, ih fun d hD => hWord d (List.mem_cons_of_mem w hD),
      prepend_prepend]
    simp [Blanks.text]

/-! ## Writing -/

/-- That what is written between apostrophes for `cs` is read as `settled` has it, by a reader that
passed over some blanks before. -/
def ReadsApostrophes (blanks : Blanks) (cs out : List Char) : Prop :=
  ∀ rest, rest.head? ≠ some '\'' →
    readApostrophes blanks (out ++ '\'' :: rest) = some (blanks.text ++ settled false cs, rest)

namespace ReadsApostrophes

variable {cs out : List Char}

theorem nil (blanks : Blanks) : ReadsApostrophes blanks [] [] := by
  intro rest hRest
  rw [List.nil_append, readApostrophes.eq_def]
  cases rest with
  | nil => simp [settled]
  | cons d more =>
    have hOther : d ≠ '\'' := fun hIs => hRest (congrArg some hIs)
    simp [settled, hOther]

theorem spaces {n : Nat} (h : ReadsApostrophes (.spaces n) cs out) :
    ReadsApostrophes (.spaces 0) (List.replicate n ' ' ++ cs) (List.replicate n ' ' ++ out) := by
  intro rest hRest
  rw [List.append_assoc, readApostrophes_spaces, Blanks.addSpaces_spaces, Nat.zero_add, h rest hRest,
    settled_spaces]
  rfl

/-- A run of breaks, and the indentation after it. -/
theorem breaks {b : Char} {bs : List Char} (h : ReadsApostrophes (settledRun b bs) cs out)
    (hBreaks : ∀ d ∈ b :: bs, isBreak d = true) (hNext : cs.head?.any isBreak = false)
    {column : Nat} (hColumn : 0 < column) :
    ReadsApostrophes (.spaces 0) (b :: bs ++ cs)
      ((if b = '\n' then ['\n'] else []) ++ (b :: bs ++ (List.replicate column ' ' ++ out))) := by
  intro rest hRest
  have hRead := readApostrophes_run hBreaks hColumn (out ++ '\'' :: rest)
  rw [h rest hRest] at hRead
  rw [settled_run hBreaks hNext, show (Blanks.spaces 0).text = [] from rfl, List.nil_append]
  simpa only [List.append_assoc] using hRead

/-- A single space that became the end of a line. -/
theorem fold (h : ReadsApostrophes (.breaks '\n' []) cs out) {column : Nat} (hColumn : 0 < column) :
    ReadsApostrophes (.spaces 0) (' ' :: cs) ('\n' :: List.replicate column ' ' ++ out) := by
  intro rest hRest
  obtain ⟨n, rfl⟩ : ∃ n, column = n + 1 := ⟨column - 1, by omega⟩
  have hFirst := readApostrophes_break (.spaces 0) (b := '\n') rfl (c := ' ') rfl
    (List.replicate n ' ' ++ (out ++ '\'' :: rest))
  have hSpaces := readApostrophes_spaces (.breaks '\n' []) (n + 1) (out ++ '\'' :: rest)
  rw [Blanks.addSpaces_breaks, h rest hRest] at hSpaces
  rw [List.append_assoc]
  exact hFirst.trans hSpaces

theorem word (h : ReadsApostrophes (.spaces 0) cs out) {w : Char} {ws : List Char}
    (hWord : ∀ d ∈ w :: ws, isSpaceOrBreak d = false ∧ isReadable d = true) (blanks : Blanks) :
    ReadsApostrophes blanks (w :: ws ++ cs) (Cursor.doubled (w :: ws) ++ out) := by
  intro rest hRest
  rw [List.append_assoc, readApostrophes_doubled hWord, h rest hRest, prepend_some,
    settled_word fun d hD => (hWord d hD).1]
  simp [Blanks.text]

end ReadsApostrophes

/-! ## Neighbours -/

theorem adjoins_append {p q : Char → Bool} {xs ys : List Char}
    (h : adjoins p q (xs ++ ys) = false) : adjoins p q ys = false := by
  induction xs with
  | nil => exact h
  | cons x rest ih =>
    refine ih ?_
    cases hRest : rest ++ ys with
    | nil => rfl
    | cons y more =>
      rw [List.cons_append, hRest, adjoins, Bool.or_eq_false_iff] at h
      exact h.2

/-- Where one part ends with a character of the first class, the next one does not start with one of
the second. -/
theorem adjoins_between {p q : Char → Bool} {xs ys : List Char} {x : Char}
    (h : adjoins p q (xs ++ x :: ys) = false) (hX : p x = true) : ys.head?.any q = false := by
  have hLast := adjoins_append h
  cases ys with
  | nil => rfl
  | cons y more =>
    rw [adjoins, hX, Bool.or_eq_false_iff, Bool.true_and] at hLast
    exact hLast.1

/-- What the choice of style grants of a text that is written between apostrophes: a break has no
space beside it. -/
structure Quotable (cs : List Char) : Prop where
  readable : ∀ d ∈ cs, isReadable d = true
  escapes : adjoins (· == ' ') isBreak cs = false
  indented : adjoins isBreak (· == ' ') cs = false

/-- That a text does not go on with a space or a break. -/
def Worded (cs : List Char) : Prop := cs.head?.all (fun d => !isSpaceOrBreak d) = true

theorem Worded.head?_ne {cs : List Char} (h : Worded cs) : cs.head? ≠ some ' ' := by
  intro hIs
  rw [Worded, hIs] at h
  cases h

theorem Worded.of_head {cs : List Char} (hSpace : cs.head? ≠ some ' ')
    (hBreak : cs.head?.any isBreak = false) : Worded cs := by
  cases cs with
  | nil => rfl
  | cons d rest =>
    have hNot : d ≠ ' ' := fun hIs => hSpace (congrArg some hIs)
    rw [List.head?_cons, Option.any_some] at hBreak
    simp [Worded, isSpaceOrBreak, hNot, hBreak]

namespace Quotable

variable {xs cs : List Char}

theorem of_style (h : Style.of cs = .apostrophes) : Quotable cs := by
  rw [Style.of] at h
  split at h
  · cases h
  split at h
  · rename_i hQuotable
    simp only [Shape.quotable, Shape.of, Bool.and_eq_true, Bool.not_eq_true', Bool.or_eq_false_iff,
      List.any_eq_false] at hQuotable
    obtain ⟨⟨hSpecial, hEscapes⟩, hIndented⟩ := hQuotable
    refine ⟨?_, hEscapes, hIndented⟩
    exact fun d hD => isReadable_of_isSpecial (Bool.eq_false_iff.mpr (hSpecial d hD))
  · cases h

theorem right (h : Quotable (xs ++ cs)) : Quotable cs where
  readable := fun d hD => h.readable d (List.mem_append_right _ hD)
  escapes := adjoins_append h.escapes
  indented := adjoins_append h.indented

theorem worded_after_spaces {n : Nat} (h : Quotable (List.replicate (n + 1) ' ' ++ cs))
    (hNext : cs.head? ≠ some ' ') : Worded cs := by
  have hEscapes := h.escapes
  rw [List.replicate_succ', List.append_assoc] at hEscapes
  exact .of_head hNext (adjoins_between hEscapes (beq_self_eq_true ' '))

theorem worded_after_breaks {b : Char} {bs : List Char} (h : Quotable (b :: bs ++ cs))
    (hBreaks : ∀ d ∈ b :: bs, isBreak d = true) (hNext : cs.head?.any isBreak = false) :
    Worded cs := by
  obtain ⟨front, z, hEnd⟩ : ∃ front z, b :: bs = front ++ [z] :=
    ⟨_, _, (List.dropLast_concat_getLast (List.cons_ne_nil b bs)).symm⟩
  have hZ : isBreak z = true := by
    refine hBreaks z ?_
    rw [hEnd]
    exact List.mem_append_right _ List.mem_cons_self
  have hIndented := h.indented
  rw [hEnd, List.append_assoc, List.singleton_append] at hIndented
  have hSpace : cs.head?.any (· == ' ') = false := adjoins_between hIndented hZ
  refine .of_head ?_ hNext
  intro hIs
  rw [hIs] at hSpace
  cases hSpace

end Quotable

namespace Cursor

theorem foldl_breakLine_indent (b : Char) (bs : List Char) (column : Nat) (c : Cursor) :
    ((b :: bs).foldl breakLine c).indent column
      = ⟨c.text ++ String.ofList (b :: bs ++ List.replicate column ' '), column, true, true⟩ := by
  induction bs generalizing b c with
  | nil => exact c.breakLine_indent b column
  | cons d ds ih =>
    have hText : (c.breakLine b).text = c.text ++ String.ofList [b] := by
      rw [← String.toList_inj, breakLine, String.toList_push, String.toList_append,
        String.toList_ofList]
    rw [List.foldl_cons, ih, hText, String.append_assoc, ← String.ofList_append]
    rfl

theorem breakRun_eq (b : Char) (bs : List Char) (column : Nat) (c : Cursor) :
    breakRun column c (b :: bs)
      = ⟨c.text ++ String.ofList ((if b = '\n' then ['\n'] else [])
          ++ (b :: bs ++ List.replicate column ' ')), column, true, true⟩ := by
  rw [breakRun, foldl_breakLine_indent, List.head?_cons]
  by_cases hFeed : b = '\n'
  · subst hFeed
    have hText : (c.breakLine '\n').text = c.text ++ String.ofList ['\n'] := by
      rw [← String.toList_inj, breakLine, String.toList_push, String.toList_append,
        String.toList_ofList]
    rw [if_pos (by simp), if_pos rfl, hText, String.append_assoc, ← String.ofList_append]
  · rw [if_neg (by simp [hFeed]), if_neg hFeed, List.nil_append]

variable {c : Cursor}

theorem length_doubled_pos (w : Char) (ws : List Char) : 0 < (doubled (w :: ws)).length := by
  rw [doubled, List.flatMap_cons, List.length_append]
  split
  · exact Nat.add_pos_left (Nat.succ_pos _) _
  · exact Nat.add_pos_left (Nat.succ_pos _) _

/-- Runs between apostrophes are read as the text that they were cut from, with its breaks settled. -/
theorem apostropheRuns_spec {cs : List Char} {rs : List Run} (hCut : Cut cs rs) (fold : Bool)
    {column : Nat} (hColumn : 0 < column) (first : Bool)
    (hInside : c.leading = true → column ≤ c.column)
    (hFar : first = false → cs.head? = some ' ' → c.leading = true → column < c.column)
    (hQuotable : Quotable cs) {blanks : Blanks} (hBlanks : blanks = .spaces 0 ∨ Worded cs) :
    ∃ out, (apostropheRuns fold column first c rs).text.toList = c.text.toList ++ out ∧
      ReadsApostrophes blanks cs out := by
  induction hCut generalizing c first blanks with
  | nil => exact ⟨[], (List.append_nil _).symm, .nil blanks⟩
  | @spaces n cs rs hNext hRest ih =>
    obtain rfl : blanks = .spaces 0 := by
      rcases hBlanks with hNone | hWorded
      · exact hNone
      · exact absurd rfl hWorded.head?_ne
    have hWorded := hQuotable.worded_after_spaces hNext
    have hNoSpace : ∀ {P : Prop}, cs.head? = some ' ' → P := fun hIs => absurd hIs hNext
    rw [apostropheRuns]
    split
    · rename_i hFold
      simp only [Bool.and_eq_true, Bool.not_eq_true', beq_iff_eq] at hFold
      obtain ⟨⟨⟨⟨hOne, -⟩, -⟩, hFirst⟩, -⟩ := hFold
      obtain rfl : n = 0 := by omega
      have hLine := c.indent_eq_newLine (hFar hFirst rfl)
      obtain ⟨out, hText, hReads⟩ := @ih (c.newLine column) false (fun _ => Nat.le_refl column)
        (fun _ hIs => hNoSpace hIs) hQuotable.right (.breaks '\n' []) (Or.inr hWorded)
      refine ⟨'\n' :: List.replicate column ' ' ++ out, ?_, hReads.fold hColumn⟩
      rw [hLine, hText, newLine_toList, List.append_assoc]
    · obtain ⟨out, hText, hReads⟩ := @ih (c.put (List.replicate (n + 1) ' ')) false
        (fun hIs => Nat.le_trans (hInside hIs) (Nat.le_add_right _ _)) (fun _ hIs => hNoSpace hIs)
        hQuotable.right (.spaces (n + 1)) (Or.inr hWorded)
      refine ⟨List.replicate (n + 1) ' ' ++ out, ?_, hReads.spaces⟩
      rw [hText, put_toList, List.append_assoc]
  | @breaks b bs cs rs hBreaks hNext hRest ih =>
    obtain rfl : blanks = .spaces 0 := by
      rcases hBlanks with hNone | hWorded
      · exact hNone
      · rw [Worded, List.cons_append, List.head?_cons, Option.all_some,
          isSpaceOrBreak_of_isBreak (hBreaks b List.mem_cons_self)] at hWorded
        cases hWorded
    have hWorded := hQuotable.worded_after_breaks hBreaks hNext
    rw [apostropheRuns, breakRun_eq]
    obtain ⟨out, hText, hReads⟩ := @ih ⟨_, column, true, true⟩ false (fun _ => Nat.le_refl column)
      (fun _ hIs => absurd hIs hWorded.head?_ne) hQuotable.right (settledRun b bs) (Or.inr hWorded)
    refine ⟨_, ?_, hReads.breaks hBreaks hNext hColumn⟩
    rw [hText]
    simp only [String.toList_append, String.toList_ofList, List.append_assoc]
  | @word w ws cs rs hWord hNext hRest ih =>
    have hGood : ∀ d ∈ w :: ws, isSpaceOrBreak d = false ∧ isReadable d = true :=
      fun d hD => ⟨hWord d hD, hQuotable.readable d (List.mem_append_left _ hD)⟩
    have hLonger : c.leading = true → column < (c.put (doubled (w :: ws))).column := by
      intro hIs
      have hPos := length_doubled_pos w ws
      have hLe := hInside hIs
      rw [put_column]
      omega
    rw [apostropheRuns]
    obtain ⟨out, hText, hReads⟩ := @ih (c.put (doubled (w :: ws))) false
      (fun hIs => Nat.le_of_lt (hLonger hIs)) (fun _ _ hIs => hLonger hIs) hQuotable.right (.spaces 0)
      (Or.inl rfl)
    refine ⟨doubled (w :: ws) ++ out, ?_, hReads.word hGood blanks⟩
    rw [hText, put_toList, List.append_assoc]

/-- A text between apostrophes is written after a gap, and its breaks are settled when it is read. -/
theorem apostrophes_spec {cs : List Char} (hStyle : Style.of cs = .apostrophes) (fold : Bool)
    {column : Nat} (hColumn : 0 < column) (c : Cursor) :
    ∃ out, (c.apostrophes fold column cs).text.toList
        = c.text.toList ++ (if c.gap then out else ' ' :: out) ∧
      (c.apostrophes fold column cs).leading = false ∧
      ReadsScalar column (.str (String.ofList (settled false cs))) out := by
  have hClosed : (c.sign ['\''] true false false).leading = false := Bool.and_false _
  have hNever : ∀ {P : Prop}, (c.sign ['\''] true false false).leading = true → P := by
    intro P hIs
    cases hClosed.symm.trans hIs
  obtain ⟨inner, hText, hReads⟩ := @apostropheRuns_spec (c.sign ['\''] true false false) cs
    (runs cs) (cut_runs cs) fold column hColumn true (fun hIs => hNever hIs)
    (fun _ _ hIs => hNever hIs) (.of_style hStyle) (.spaces 0) (Or.inl rfl)
  refine ⟨'\'' :: inner ++ ['\''], ?_, ?_, ?_, ?_, ?_⟩
  · rw [apostrophes]
    rw [sign_toList, hText, sign_toList]
    cases c.gap <;> simp
  · rw [apostrophes, sign_leading, Bool.and_false]
  · rfl
  · rw [List.getLast?_append, List.getLast?_singleton]
    intro hIs
    cases Option.some.inj hIs
  · intro indent k tail next hColumn hEnds
    have hTail : tail.head? ≠ some '\'' := by
      cases hEnds with
      | nothing => simp
      | line hColumn hSpace hBreak => simp
    have hRead := hReads tail hTail
    rw [List.append_assoc, List.cons_append, readScalar, if_pos (beq_self_eq_true '\''),
      List.singleton_append, hRead, closeScalar]
    rw [hEnds.nextToken_eq 0]
    rfl

end Cursor

end TreeDump.Yaml
