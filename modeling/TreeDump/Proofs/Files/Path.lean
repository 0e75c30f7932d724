import TreeDump.Files.Path

/-!
# Written paths

The steps of a path that was read stand between the slashes of its text.  Such a path can be written
and read back, and what stands in its text besides its steps leads nowhere.

* `Path.Written.rawSteps_text`: the steps of the text of a path.
* `Path.Written.ofString_text`: reading the text of a path gives the path back.
-/

namespace TreeDump

/-! ## Parts between slashes -/

theorem splitSlashes_eq (part : List Char) {cs : List Char} (h : '/' ∉ cs) :
    splitSlashes part cs = [part.reverse ++ cs] := by
  induction cs generalizing part with
  | nil => simp [splitSlashes]
  | cons c cs ih =>
    obtain ⟨hc, hcs⟩ : c ≠ '/' ∧ '/' ∉ cs := by simpa [eq_comm] using h
    rw [splitSlashes, if_neg (by simpa using hc), ih _ hcs]
    simp

/-- The parts before a slash and those after it. -/
theorem splitSlashes_slash (part before after : List Char) :
    splitSlashes part (before ++ '/' :: after)
      = splitSlashes part before ++ splitSlashes [] after := by
  induction before generalizing part with
  | nil => simp [splitSlashes]
  | cons c before ih =>
    simp only [List.cons_append, splitSlashes, ih]
    split <;> simp

theorem splitSlashes_append (part after : List Char) {before : List Char} (h : '/' ∉ before) :
    splitSlashes part (before ++ '/' :: after)
      = (part.reverse ++ before) :: splitSlashes [] after := by
  rw [splitSlashes_slash, splitSlashes_eq part h]
  rfl

theorem splitSlashes_intercalate {parts : List (List Char)} (hSome : parts ≠ [])
    (h : ∀ part ∈ parts, '/' ∉ part) : splitSlashes [] (['/'].intercalate parts) = parts := by
  induction parts with
  | nil => exact absurd rfl hSome
  | cons part parts ih =>
    cases parts with
    | nil => simpa using splitSlashes_eq [] (h part List.mem_cons_self)
    | cons next parts =>
      have hRest := ih (by simp) fun other hOther => h other (List.mem_cons_of_mem _ hOther)
      have hFirst := splitSlashes_append [] (['/'].intercalate (next :: parts))
        (h part List.mem_cons_self)
      rw [hRest] at hFirst
      simpa [List.intercalate] using hFirst

theorem splitSlashes_ne_nil (part cs : List Char) : splitSlashes part cs ≠ [] := by
  induction cs generalizing part with
  | nil => simp [splitSlashes]
  | cons c cs ih =>
    rw [splitSlashes]
    split
    · simp
    · exact ih _

theorem slash_notMem_splitSlashes {part cs : List Char} (h : '/' ∉ part) :
    ∀ found ∈ splitSlashes part cs, '/' ∉ found := by
  induction cs generalizing part with
  | nil => simpa [splitSlashes] using h
  | cons c cs ih =>
    rw [splitSlashes]
    split
    · have hNil : '/' ∉ ([] : List Char) := by simp
      simpa [h] using ih hNil
    · rename_i hc
      have hPart : '/' ∉ c :: part := by
        have : c ≠ '/' := by simpa using hc
        simpa [h] using this.symm
      exact ih hPart

namespace Path

theorem child_inj {path other : Path} {name otherName : String}
    (h : path.child name = other.child otherName) : path = other ∧ name = otherName := by
  obtain ⟨anchor, names⟩ := path
  obtain ⟨otherAnchor, otherNames⟩ := other
  obtain ⟨rfl, hNames⟩ := Path.mk.inj h
  obtain ⟨rfl, hName⟩ := List.append_inj' hNames rfl
  exact ⟨rfl, List.singleton_inj.mp hName⟩

/-! ## Paths that can be read back -/

/-- That a name stands between slashes and leads somewhere. -/
structure StepName (name : String) : Prop where
  isStep : isStep name
  noSlash : '/' ∉ name.toList

/-- That all names of a path stand between the slashes of its text. -/
def Written (path : Path) : Prop := ∀ name ∈ path.names, StepName name

theorem written_ofString (text : String) : (ofString text).Written := by
  intro name hName
  rw [ofString, List.mem_filter, rawSteps, List.mem_map] at hName
  obtain ⟨⟨part, hPart, rfl⟩, hStep⟩ := hName
  refine ⟨hStep, ?_⟩
  rw [String.toList_ofList]
  exact slash_notMem_splitSlashes (by simp) part hPart

theorem Written.child {path : Path} (h : path.Written) {name : String}
    (hName : StepName name) : (path.child name).Written := by
  intro other hOther
  rcases List.mem_append.mp hOther with hOld | hNew
  · exact h other hOld
  · obtain rfl := List.mem_singleton.mp hNew
    exact hName

theorem StepName.exists_cons {name : String} (h : StepName name) :
    ∃ c cs, name.toList = c :: cs ∧ c ≠ '/' := by
  cases hName : name.toList with
  | nil =>
    obtain rfl : name = "" := String.toList_eq_nil_iff.mp hName
    exact absurd h.isStep (by decide)
  | cons c cs =>
    refine ⟨c, cs, rfl, ?_⟩
    rintro rfl
    exact h.noSlash (hName ▸ List.mem_cons_self)

variable {path : Path}

/-- What is written after the slashes in front does not begin with a slash. -/
theorem Written.head_ne (h : path.Written) (cs : List Char) :
    ("/".intercalate path.names).toList ≠ '/' :: cs := by
  rw [String.toList_intercalate]
  cases hNames : path.names with
  | nil => simp
  | cons name names =>
    obtain ⟨c, rest, hName, hc⟩ := (h name (hNames ▸ List.mem_cons_self)).exists_cons
    cases names <;> simp [hName, hc, List.intercalate]

/-- The steps of what is written after the slashes in front. -/
theorem Written.rawSteps_names (h : path.Written) :
    rawSteps ("/".intercalate path.names) = if path.names = [] then [""] else path.names := by
  split
  · rename_i hNone
    rw [hNone]
    decide
  · rename_i hSome
    have hParts : ∀ part ∈ path.names.map String.toList, '/' ∉ part := by
      intro part hPart
      obtain ⟨name, hName, rfl⟩ := List.mem_map.mp hPart
      exact (h name hName).noSlash
    have hSplit := splitSlashes_intercalate (by simpa using hSome) hParts
    have hSlash : "/".toList = ['/'] := rfl
    rw [rawSteps, String.toList_intercalate, hSlash, hSplit, List.map_map]
    simp [Function.comp_def]

theorem text_of_ne (hSome : path.anchor ≠ .relative ∨ path.names ≠ []) :
    path.text = path.anchor.text ++ "/".intercalate path.names := by
  rw [text, if_neg]
  rintro ⟨hAnchor, hNames⟩
  exact hSome.elim (absurd hAnchor) (absurd hNames)

theorem rawSteps_slash (text : String) : rawSteps ("/" ++ text) = "" :: rawSteps text := by
  have hNil : '/' ∉ ([] : List Char) := by simp
  have hSplit := splitSlashes_append [] text.toList hNil
  rw [rawSteps, String.toList_append]
  simpa [rawSteps] using congrArg (List.map String.ofList) hSplit

/-- The steps of the text of a path are its own, after some that lead nowhere. -/
theorem Written.rawSteps_text (h : path.Written) : ∃ blanks,
    (∀ step ∈ blanks, Path.isStep step = false) ∧ rawSteps path.text = blanks ++ path.names := by
  -- The steps after the slashes in front: without names, there is an empty one.
  obtain ⟨last, hLast, hNames⟩ : ∃ last, (∀ step ∈ last, isStep step = false) ∧
      rawSteps ("/".intercalate path.names) = last ++ path.names := by
    rw [h.rawSteps_names]
    split
    · rename_i hNone
      exact ⟨[""], by decide, by rw [hNone]; rfl⟩
    · exact ⟨[], by simp, rfl⟩
  cases hAnchor : path.anchor with
  | relative =>
    by_cases hNone : path.names = []
    · refine ⟨["."], by decide, ?_⟩
      rw [text, if_pos ⟨hAnchor, hNone⟩, hNone]
      decide
    · refine ⟨last, hLast, ?_⟩
      rw [text_of_ne (Or.inr hNone), hAnchor]
      simpa [Anchor.text] using hNames
  | root =>
    refine ⟨"" :: last, by simpa [isStep] using hLast, ?_⟩
    rw [text_of_ne (Or.inl (by simp [hAnchor])), hAnchor]
    simp only [Anchor.text, rawSteps_slash, hNames, List.cons_append]
  | doubleRoot =>
    refine ⟨"" :: "" :: last, by simpa [isStep] using hLast, ?_⟩
    have hText : path.text = "/" ++ ("/" ++ "/".intercalate path.names) := by
      rw [text_of_ne (Or.inl (by simp [hAnchor])), hAnchor, ← String.append_assoc]
      rfl
    rw [hText, rawSteps_slash, rawSteps_slash, hNames]
    rfl

/-- Where a text starts is where its path does. -/
theorem Written.ofChars_text (h : path.Written) : Anchor.ofChars path.text.toList = path.anchor := by
  have hHead := h.head_ne
  cases hAnchor : path.anchor with
  | relative =>
    by_cases hNone : path.names = []
    · rw [text, if_pos ⟨hAnchor, hNone⟩]
      decide
    · rw [text_of_ne (Or.inr hNone), hAnchor]
      unfold Anchor.ofChars
      simp only [Anchor.text, String.empty_append]
      split <;> grind
  | root =>
    rw [text_of_ne (Or.inl (by simp [hAnchor])), hAnchor, String.toList_append]
    unfold Anchor.ofChars
    have hSlash : Anchor.root.text.toList = ['/'] := rfl
    simp only [hSlash]
    split <;> grind
  | doubleRoot =>
    rw [text_of_ne (Or.inl (by simp [hAnchor])), hAnchor, String.toList_append]
    have hSlash : Anchor.doubleRoot.text.toList = ['/', '/'] := rfl
    unfold Anchor.ofChars
    simp only [hSlash]
    split <;> grind

/-- Whether a text starts at the root. -/
theorem Written.head?_text (h : path.Written) :
    (path.text.toList.head? == some '/') = decide (path.anchor ≠ .relative) := by
  rw [← h.ofChars_text]
  unfold Anchor.ofChars
  split
  · rename_i hText
    simp [hText]
  · rename_i hText
    simp [hText]
  · rename_i hText
    simp [hText]
  · rename_i hNone
    simpa [List.head?_eq_some_iff] using hNone

/-- Reading the text of a path gives the path back. -/
theorem Written.ofString_text (h : path.Written) : ofString path.text = path := by
  obtain ⟨blanks, hBlanks, hSteps⟩ := h.rawSteps_text
  have hNames : (rawSteps path.text).filter isStep = path.names := by
    rw [hSteps, List.filter_append, List.filter_eq_nil_iff.mpr (by simpa using hBlanks),
      List.filter_eq_self.mpr fun name hName => (h name hName).isStep, List.nil_append]
  rw [ofString, hNames, h.ofChars_text]

/-! ## Directories of paths -/

/-- What more names add to a written path comes after what is written already. -/
theorem intercalate_concat (names : List String) (name : String) :
    ∃ rest, "/".intercalate (names ++ [name]) = "/".intercalate names ++ rest := by
  induction names with
  | nil => exact ⟨name, by simp⟩
  | cons first names ih =>
    obtain ⟨rest, hRest⟩ := ih
    cases names with
    | nil => exact ⟨"/" ++ name, by simp [String.append_assoc]⟩
    | cons second names =>
      refine ⟨rest, ?_⟩
      rw [List.cons_append, List.cons_append, String.intercalate_cons_cons, ← List.cons_append,
        hRest, String.intercalate_cons_cons]
      simp only [String.append_assoc]

/-- The text of a directory is no longer than that of what is in it, but for the single dot. -/
theorem utf8ByteSize_parent_le (path : Path) :
    path.parent.text = "." ∨ path.parent.text.utf8ByteSize ≤ path.text.utf8ByteSize := by
  rcases List.eq_nil_or_concat path.names with hNone | ⟨front, name, hNames⟩
  · have hSame : path.parent = path := by rw [parent, hNone, List.dropLast_nil, ← hNone]
    exact Or.inr (Nat.le_of_eq (by rw [hSame]))
  · have hParent : path.parent.names = front := by simp [parent, hNames]
    by_cases hDot : path.parent.anchor = .relative ∧ path.parent.names = []
    · exact Or.inl (if_pos hDot)
    · obtain ⟨rest, hRest⟩ := intercalate_concat front name
      have hShort : path.parent.text = path.anchor.text ++ "/".intercalate front := by
        rw [text, if_neg hDot, hParent]
        rfl
      have hLong : path.text = path.anchor.text ++ ("/".intercalate front ++ rest) := by
        rw [text_of_ne (Or.inr (by simp [hNames])), hNames, ← hRest, List.concat_eq_append]
      right
      rw [hShort, hLong]
      simp only [String.utf8ByteSize_append]
      omega

theorem Written.text_ne_empty {path : Path} (h : path.Written) : path.text ≠ "" := by
  intro hEmpty
  have hRead := h.ofString_text
  rw [hEmpty] at hRead
  have hNone : ofString "" = ⟨.relative, []⟩ := by decide
  rw [← hRead, hNone] at hEmpty
  exact absurd hEmpty (by decide)

end Path

end TreeDump
