import Mathlib.Data.List.Infix
import Mathlib.Data.List.TakeWhile
import TreeDump.Format

/-!
# What previews show

A text that is too long is cut twice: at the limit, and back to the last closing brace before it.
What comes out can be said without the cutting, and leaves no choice, so the preview of a preview is
found by comparing what the two show and not where the two cut.

* `Previews`: what a preview of at most so many characters shows of a text.
* `previews_preview`: previews show that.
* `Previews.trans`: a preview of a preview shows what the smaller limit shows.
* `preview_longest`: previews are the longest that end with a closing brace, if there is one, and
  the smaller of two limits is the one that counts.
-/

namespace TreeDump

/-- `Braced limit cs shown`: of what `cs` begins with in at most `limit` characters, `shown` is the
longest that ends with a closing brace. -/
structure Braced (limit : Nat) (cs shown : List Char) : Prop where
  begins : shown <+: cs
  length_le : shown.length ≤ limit
  closed : shown.getLast? = some '\x7d'
  longest : ∀ ⦃other : List Char⦄, other <+: cs → other.length ≤ limit →
    other.getLast? = some '\x7d' → other.length ≤ shown.length

/-- `Previews limit cs shown`: a preview of at most `limit` characters shows `shown` of `cs`. -/
inductive Previews (limit : Nat) (cs : List Char) : List Char → Prop where
  | whole (hFits : cs.length ≤ limit) : Previews limit cs cs
  | braced {shown : List Char} (hLong : limit < cs.length) (hBraced : Braced limit cs shown) :
      Previews limit cs shown
  /-- Without a closing brace before the limit, all is shown that is before it. -/
  | raw (hLong : limit < cs.length) (hNone : '\x7d' ∉ cs.take limit) :
      Previews limit cs (cs.take limit)

/-! ## The last closing brace -/

theorem upToLastBrace_of_not_mem {cs : List Char} (hNone : '\x7d' ∉ cs) :
    upToLastBrace cs = cs := by
  have hDrop : cs.reverse.dropWhile (· != '\x7d') = [] := by
    rw [List.dropWhile_eq_nil_iff]
    intro c hc
    exact bne_iff_ne.mpr fun hBrace => hNone (hBrace ▸ List.mem_reverse.mp hc)
  rw [upToLastBrace, hDrop]

/-- After the last closing brace there is none. -/
theorem exists_last_brace {cs : List Char} (hBrace : '\x7d' ∈ cs) :
    ∃ front rest, cs = front ++ '\x7d' :: rest ∧ '\x7d' ∉ rest ∧
      upToLastBrace cs = front ++ ['\x7d'] := by
  obtain ⟨after, before, hReverse, hAfter⟩ :=
    List.eq_append_cons_of_mem (List.mem_reverse.mpr hBrace)
  refine ⟨before.reverse, after.reverse, ?_, by simpa using hAfter, ?_⟩
  · have hTwice := congrArg List.reverse hReverse
    simpa using hTwice
  · have hAll : ∀ c ∈ after, (c != '\x7d') = true := by
      intro c hc
      exact bne_iff_ne.mpr fun hEq => hAfter (hEq ▸ hc)
    have hDrop : cs.reverse.dropWhile (· != '\x7d') = '\x7d' :: before := by
      rw [hReverse, List.dropWhile_append_of_pos hAll]
      rfl
    rw [upToLastBrace, hDrop]
    simp

/-- What comes before the last closing brace, and the brace itself, cannot be longer. -/
theorem Braced.of_take {limit : Nat} {cs front rest : List Char}
    (hTake : cs.take limit = front ++ '\x7d' :: rest) (hRest : '\x7d' ∉ rest) :
    Braced limit cs (front ++ ['\x7d']) := by
  have hSplit : cs.take limit = (front ++ ['\x7d']) ++ rest := by rw [hTake, List.append_assoc]; rfl
  have hWithin : front ++ ['\x7d'] <+: cs ∧ (front ++ ['\x7d']).length ≤ limit :=
    List.prefix_take_iff.mp ⟨rest, hSplit.symm⟩
  refine ⟨hWithin.1, hWithin.2, List.getLast?_concat, ?_⟩
  intro other hOther hShort hClosed
  by_contra hLonger
  have hLess : (front ++ ['\x7d']).length ≤ other.length := by omega
  obtain ⟨more, rfl⟩ := List.prefix_of_prefix_length_le hWithin.1 hOther hLess
  -- The brace at the end of the longer beginning stands in `rest`.
  have hMore : more ≠ [] := by
    rintro rfl
    exact hLonger (by simp)
  rw [List.getLast?_append_of_ne_nil _ hMore] at hClosed
  have hMoreRest : more <+: rest := by
    have hTaken : (front ++ ['\x7d']) ++ more <+: cs.take limit :=
      List.prefix_take_iff.mpr ⟨hOther, hShort⟩
    rw [hSplit] at hTaken
    exact (List.prefix_append_right_inj _).mp hTaken
  exact hRest (hMoreRest.subset (List.mem_of_getLast? hClosed))

/-- There is a closing brace before the limit. -/
theorem Braced.mem_take {limit : Nat} {cs shown : List Char} (h : Braced limit cs shown) :
    '\x7d' ∈ cs.take limit :=
  (List.prefix_take_iff.mpr ⟨h.begins, h.length_le⟩).subset (List.mem_of_getLast? h.closed)

/-- What is after the limit does not matter. -/
theorem Braced.of_take_eq {limit : Nat} {cs other shown : List Char} (h : Braced limit cs shown)
    (hTake : cs.take limit = other.take limit) : Braced limit other shown := by
  have hWithin : shown <+: other ∧ shown.length ≤ limit := by
    rw [← List.prefix_take_iff, ← hTake]
    exact List.prefix_take_iff.mpr ⟨h.begins, h.length_le⟩
  refine ⟨hWithin.1, h.length_le, h.closed, ?_⟩
  intro candidate hBegins hShort hClosed
  have hCandidate : candidate <+: cs.take limit := by
    rw [hTake]
    exact List.prefix_take_iff.mpr ⟨hBegins, hShort⟩
  exact h.longest (List.prefix_take_iff.mp hCandidate).1 hShort hClosed

/-! ## Previews -/

theorem toList_preview (limit : Nat) (text : String) :
    (preview limit text).toList
      = if text.toList.length ≤ limit then text.toList
        else upToLastBrace (text.toList.take limit) := by
  have hTake : takeUpTo limit text.toList = text.toList.take limit := by
    rw [takeUpTo, if_neg (by omega), Int.toNat_natCast]
  rw [preview, hTake]
  by_cases hFits : text.toList.length ≤ limit
  · rw [if_pos (by omega), if_pos hFits]
  · rw [if_neg (by omega), if_neg hFits, String.toList_ofList]

theorem braced_preview {limit : Nat} {text : String} (hLong : limit < text.toList.length)
    (hBrace : '\x7d' ∈ text.toList.take limit) :
    Braced limit text.toList (preview limit text).toList := by
  obtain ⟨front, rest, hTake, hRest, hShown⟩ := exists_last_brace hBrace
  rw [toList_preview, if_neg (by omega), hShown]
  exact Braced.of_take hTake hRest

theorem preview_of_no_brace {limit : Nat} {text : String} (hLong : limit < text.toList.length)
    (hNone : '\x7d' ∉ text.toList.take limit) :
    (preview limit text).toList = text.toList.take limit := by
  rw [toList_preview, if_neg (by omega), upToLastBrace_of_not_mem hNone]

theorem preview_of_short {limit : Nat} {text : String} (hFits : text.toList.length ≤ limit) :
    preview limit text = text := by
  rw [← String.toList_inj, toList_preview, if_pos hFits]

/-- Previews show what they are said to show. -/
theorem previews_preview (limit : Nat) (text : String) :
    Previews limit text.toList (preview limit text).toList := by
  rcases Nat.lt_or_ge limit text.toList.length with hLong | hFits
  · by_cases hBrace : '\x7d' ∈ text.toList.take limit
    · exact .braced hLong (braced_preview hLong hBrace)
    · rw [preview_of_no_brace hLong hBrace]
      exact .raw hLong hBrace
  · rw [preview_of_short hFits]
    exact .whole hFits

namespace Previews

variable {limit other : Nat} {cs shown further : List Char}

theorem begins (h : Previews limit cs shown) : shown <+: cs := by
  cases h with
  | whole hFits => exact List.prefix_rfl
  | braced hLong hBraced => exact hBraced.begins
  | raw hLong hNone => exact List.take_prefix limit cs

theorem length_le (h : Previews limit cs shown) : shown.length ≤ limit := by
  cases h with
  | whole hFits => exact hFits
  | braced hLong hBraced => exact hBraced.length_le
  | raw hLong hNone => exact List.length_take_le limit cs

/-- There is nothing to choose in what a preview shows. -/
theorem unique (h : Previews limit cs shown) (hFurther : Previews limit cs further) :
    shown = further := by
  cases h with
  | whole hFits =>
    cases hFurther with
    | whole => rfl
    | braced hLong => omega
    | raw hLong => omega
  | braced hLong hBraced =>
    cases hFurther with
    | whole hFits => omega
    | braced _ hOther =>
      have hShort := hBraced.longest hOther.begins hOther.length_le hOther.closed
      have hLonger := hOther.longest hBraced.begins hBraced.length_le hBraced.closed
      exact (List.prefix_of_prefix_length_le hBraced.begins hOther.begins hLonger).eq_of_length_le
        hShort
    | raw _ hNone => exact absurd hBraced.mem_take hNone
  | raw hLong hNone =>
    cases hFurther with
    | whole hFits => omega
    | braced _ hOther => exact absurd hOther.mem_take hNone
    | raw => rfl

/-- Where the limit cuts off more, it does not matter what comes after. -/
theorem of_begins (hBegins : shown <+: cs) (hLong : limit < shown.length)
    (h : Previews limit shown further) : Previews limit cs further := by
  have hTake : shown.take limit = cs.take limit := by
    obtain ⟨rest, rfl⟩ := hBegins
    rw [List.take_append_of_le_length (by omega)]
  have hLonger : limit < cs.length := Nat.lt_of_lt_of_le hLong hBegins.length_le
  cases h with
  | whole hFits => omega
  | braced _ hBraced => exact .braced hLonger (hBraced.of_take_eq hTake)
  | raw _ hNone =>
    rw [hTake] at hNone ⊢
    exact .raw hLonger hNone

/-- Where the limit cuts off nothing more, it shows the same. -/
theorem of_fits (h : Previews limit cs shown) (hFits : shown.length ≤ other) :
    Previews (min limit other) cs shown := by
  cases h with
  | whole hFitsToo => exact .whole (by omega)
  | braced hLong hBraced =>
    have hLess := hBraced.length_le
    refine .braced (by omega) ⟨hBraced.begins, by omega, hBraced.closed, ?_⟩
    intro candidate hBegins hShort hClosed
    exact hBraced.longest hBegins (by omega) hClosed
  | raw hLong hNone =>
    rw [List.length_take_of_le (by omega)] at hFits
    rw [Nat.min_eq_left hFits]
    exact .raw hLong hNone

/-- A preview of a preview shows what the smaller limit shows. -/
theorem trans (h : Previews limit cs shown) (hFurther : Previews other shown further) :
    Previews (min limit other) cs further := by
  have hLess := h.length_le
  rcases Nat.lt_or_ge other shown.length with hLong | hFits
  · rw [Nat.min_eq_right (by omega)]
    exact of_begins h.begins hLong hFurther
  · obtain rfl : shown = further := unique (.whole hFits) hFurther
    exact h.of_fits hFits

end Previews

/-- The smaller of two limits is the one that counts. -/
theorem preview_preview (limit other : Nat) (text : String) :
    preview other (preview limit text) = preview (min limit other : Nat) text := by
  rw [← String.toList_inj]
  exact ((previews_preview limit text).trans (previews_preview other _)).unique
    (previews_preview (min limit other) text)

/-- Previews are the longest that end with a closing brace, if there is one, and otherwise as long
as the limit has it.  A preview of a preview is a preview with the smaller limit, so that what a
smaller limit shows begins what a larger one shows. -/
theorem preview_longest (text : String) (limit : Nat) :
    (text.length ≤ limit → preview limit text = text) ∧
    (limit < text.length → '\x7d' ∈ text.toList.take limit →
      Braced limit text.toList (preview limit text).toList) ∧
    (limit < text.length → '\x7d' ∉ text.toList.take limit →
      (preview limit text).toList = text.toList.take limit) ∧
    (preview limit text).length ≤ limit ∧
    (∀ other : Nat, preview other (preview limit text) = preview (min limit other : Nat) text) ∧
    preview limit (preview limit text) = preview limit text ∧
    ∀ smaller : Nat, smaller ≤ limit →
      (preview smaller text).toList <+: (preview limit text).toList := by
  rw [← String.length_toList, ← String.length_toList]
  refine ⟨preview_of_short, braced_preview, preview_of_no_brace,
    (previews_preview limit text).length_le, fun other => preview_preview limit other text, ?_, ?_⟩
  · rw [preview_preview, Nat.min_self]
  · intro smaller hSmaller
    have hTwice := (previews_preview smaller (preview limit text)).begins
    rw [preview_preview, Nat.min_eq_right hSmaller] at hTwice
    exact hTwice

end TreeDump
