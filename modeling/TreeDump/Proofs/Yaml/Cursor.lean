import TreeDump.Yaml.Emit

/-!
# What a cursor adds

Writing only adds to the text of a cursor.  Inside a scalar, moving to a column starts a new line and
indents it, since something else than indentation stands in the line.

* `Cursor.put_toList`, `Cursor.sign_toList`, `Cursor.indent_eq_newLine`: what single calls add.
* `Cursor.Cut`: a text is cut into runs of spaces, of breaks and of other characters, which take turns.
-/

namespace TreeDump.Yaml.Cursor

variable (c : Cursor)

/-! ## Single calls -/

@[simp] theorem put_toList (cs : List Char) : (c.put cs).text.toList = c.text.toList ++ cs := by
  rw [put, String.toList_append, String.toList_ofList]

@[simp] theorem put_column (cs : List Char) : (c.put cs).column = c.column + cs.length := rfl

@[simp] theorem put_gap (cs : List Char) : (c.put cs).gap = c.gap := rfl

@[simp] theorem put_leading (cs : List Char) : (c.put cs).leading = c.leading := rfl

theorem sign_toList (sign : List Char) (apart opens nests : Bool) :
    (c.sign sign apart opens nests).text.toList
      = c.text.toList ++ (if c.gap || !apart then sign else ' ' :: sign) := c.put_toList _

theorem sign_column (sign : List Char) (apart opens nests : Bool) :
    (c.sign sign apart opens nests).column
      = c.column + (if c.gap || !apart then sign else ' ' :: sign).length := rfl

@[simp] theorem sign_leading (sign : List Char) (apart opens nests : Bool) :
    (c.sign sign apart opens nests).leading = (c.leading && nests) := rfl

/-- A new line that is indented to a column. -/
def newLine (column : Nat) : Cursor :=
  ⟨c.text ++ String.ofList ('\n' :: List.replicate column ' '), column, true, true⟩

@[simp] theorem newLine_toList (column : Nat) :
    (c.newLine column).text.toList = c.text.toList ++ '\n' :: List.replicate column ' ' := by
  rw [newLine, String.toList_append, String.toList_ofList]

theorem breakLine_indent (ending : Char) (column : Nat) :
    (c.breakLine ending).indent column
      = ⟨c.text ++ String.ofList (ending :: List.replicate column ' '), column, true, true⟩ := by
  have hPush : c.text.push ending = c.text ++ String.ofList [ending] := by
    rw [← String.toList_inj, String.toList_push, String.toList_append, String.toList_ofList]
  cases column with
  | zero =>
    rw [breakLine, hPush]
    rfl
  | succ n =>
    have hText : c.text.push ending ++ String.ofList (List.replicate (n + 1) ' ')
        = c.text ++ String.ofList (ending :: List.replicate (n + 1) ' ') := by
      rw [hPush, String.append_assoc, ← String.ofList_append]
      rfl
    simp only [breakLine, indent, put, Bool.not_true, Nat.not_lt_zero, gt_iff_lt, decide_false,
      Bool.and_false, Bool.or_false, Bool.false_eq_true, if_false, Nat.zero_lt_succ, if_true,
      Nat.sub_zero, hText, List.length_replicate, Nat.zero_add]

/-- With more than indentation in the line, moving to a column starts a new one. -/
theorem indent_eq_newLine {column : Nat} (hInside : c.leading = true → column < c.column) :
    c.indent column = c.newLine column := by
  have hBreak : (!c.leading || decide (c.column > column)
      || (c.column == column && !c.gap)) = true := by
    cases hLeading : c.leading with
    | true =>
      have hFar := hInside hLeading
      simp [hFar]
    | false => rfl
  have hReached : (!(c.breakLine '\n').leading || decide ((c.breakLine '\n').column > column)
      || ((c.breakLine '\n').column == column && !(c.breakLine '\n').gap)) = false := by
    simp [breakLine]
  rw [newLine, ← c.breakLine_indent '\n' column, indent, indent, hBreak, hReached]
  rfl

/-! ## Runs -/

/-- A text that is cut into the longest stretches of spaces, of breaks and of other characters. -/
inductive Cut : List Char → List Run → Prop where
  | nil : Cut [] []
  | spaces {n : Nat} {cs : List Char} {rs : List Run} (hNext : cs.head? ≠ some ' ')
      (hRest : Cut cs rs) : Cut (List.replicate (n + 1) ' ' ++ cs) (.spaces (n + 1) :: rs)
  | breaks {b : Char} {bs cs : List Char} {rs : List Run} (hBreaks : ∀ d ∈ b :: bs, isBreak d = true)
      (hNext : cs.head?.any isBreak = false) (hRest : Cut cs rs) :
      Cut (b :: bs ++ cs) (.breaks (b :: bs) :: rs)
  | word {w : Char} {ws cs : List Char} {rs : List Run}
      (hWord : ∀ d ∈ w :: ws, isSpaceOrBreak d = false) (hNext : cs.head?.all isSpaceOrBreak = true)
      (hRest : Cut cs rs) : Cut (w :: ws ++ cs) (.word (w :: ws) :: rs)

theorem isBreak_space : isBreak ' ' = false := by decide

/-- A run of its own in front of a text that starts with a character of another kind. -/
theorem Cut.start {d : Char} {cs : List Char} {rs : List Run} (h : Cut cs rs)
    (hSpace : d = ' ' → cs.head? ≠ some ' ') (hBreak : isBreak d = true → cs.head?.any isBreak = false)
    (hWord : isSpaceOrBreak d = false → cs.head?.all isSpaceOrBreak = true) :
    Cut (d :: cs) (Run.cons.start d :: rs) := by
  rw [Run.cons.start]
  by_cases hIsSpace : d = ' '
  · subst hIsSpace
    exact @Cut.spaces 0 cs rs (hSpace rfl) h
  · rw [if_neg (by simpa using hIsSpace)]
    cases hIsBreak : isBreak d with
    | true =>
      have hOne : ∀ e ∈ [d], isBreak e = true := by
        intro e hE
        obtain rfl := List.mem_singleton.mp hE
        exact hIsBreak
      exact @Cut.breaks d [] cs rs hOne (hBreak hIsBreak) h
    | false =>
      have hKind : isSpaceOrBreak d = false := by
        rw [isSpaceOrBreak, hIsBreak, Bool.or_false]
        exact beq_false_of_ne hIsSpace
      have hOne : ∀ e ∈ [d], isSpaceOrBreak e = false := by
        intro e hE
        obtain rfl := List.mem_singleton.mp hE
        exact hKind
      exact @Cut.word d [] cs rs hOne (hWord hKind) h

theorem Cut.cons (d : Char) {cs : List Char} {rs : List Run} (h : Cut cs rs) :
    Cut (d :: cs) (Run.cons d rs) := by
  cases h with
  | nil => exact Cut.nil.start (by simp) (by simp) (by simp)
  | @spaces n cs rs hNext hRest =>
    rw [Run.cons]
    split
    · rename_i hSpace
      obtain rfl := eq_of_beq hSpace
      exact @Cut.spaces (n + 1) cs rs hNext hRest
    · rename_i hSpace
      refine (Cut.spaces hNext hRest).start ?_ ?_ ?_
      · rintro rfl
        exact absurd rfl hSpace
      · intro _
        exact isBreak_space
      · intro _
        exact rfl
  | @breaks b bs cs rs hBreaks hNext hRest =>
    have hFirst := hBreaks b List.mem_cons_self
    rw [Run.cons]
    split
    · rename_i hBreak
      refine @Cut.breaks d (b :: bs) cs rs ?_ hNext hRest
      intro e hE
      rcases List.mem_cons.mp hE with rfl | hOld
      · exact hBreak
      · exact hBreaks e hOld
    · rename_i hBreak
      refine (Cut.breaks hBreaks hNext hRest).start ?_ ?_ ?_
      · intro _ hHead
        obtain rfl : b = ' ' := Option.some.inj hHead
        rw [isBreak_space] at hFirst
        cases hFirst
      · intro hIsBreak
        exact absurd hIsBreak hBreak
      · intro _
        simp [isSpaceOrBreak, hFirst]
  | @word w ws cs rs hWord hNext hRest =>
    have hFirst := hWord w List.mem_cons_self
    rw [isSpaceOrBreak, Bool.or_eq_false_iff] at hFirst
    rw [Run.cons]
    split
    · rename_i hKind
      refine (Cut.word hWord hNext hRest).start ?_ ?_ ?_
      · intro _ hHead
        obtain rfl : w = ' ' := Option.some.inj hHead
        cases hFirst.1
      · intro _
        exact hFirst.2
      · intro hNot
        rw [isSpaceOrBreak, hKind] at hNot
        cases hNot
    · rename_i hKind
      refine @Cut.word d (w :: ws) cs rs ?_ hNext hRest
      intro e hE
      rcases List.mem_cons.mp hE with rfl | hOld
      · exact Bool.eq_false_iff.mpr hKind
      · exact hWord e hOld

theorem cut_runs (cs : List Char) : Cut cs (runs cs) := by
  induction cs with
  | nil => exact .nil
  | cons d rest ih => exact ih.cons d

end TreeDump.Yaml.Cursor
