import TreeDump.Proofs.Json.RoundTrip
import TreeDump.Proofs.Text.Utf8

/-!
# The compact text has no line breaks

The compact text of a value is on one line, whatever strings and keys the value holds: controls are
escaped in them, and nothing is put between tokens.  A preview of the text is on one line, too, as it
is cut out of the text.

* `printable_compact`: the compact text of a value has no control characters.
* `printable_preview`: nor has a preview of a text without them.
* `Printable.bytes`: the bytes of such a text are no control characters either.
-/

namespace TreeDump

/-- That a text has none of the first control characters, to which the line breaks of files
belong. -/
def Printable (text : String) : Prop := ∀ c ∈ text.toList, 0x20 ≤ c.toNat

theorem printable_iff_all {cs : List Char} :
    (cs.all fun c => decide (0x20 ≤ c.toNat)) = true ↔ ∀ c ∈ cs, 0x20 ≤ c.toNat := by
  simp only [List.all_eq_true, decide_eq_true_eq]

instance (text : String) : Decidable (Printable text) :=
  decidable_of_iff _ printable_iff_all

namespace Printable

variable {text more : String}

theorem append (h : Printable text) (hMore : Printable more) : Printable (text ++ more) := by
  intro c hc
  rw [String.toList_append] at hc
  rcases List.mem_append.mp hc with hText | hMoreText
  · exact h c hText
  · exact hMore c hMoreText

theorem noBreak (h : Printable text) : '\n' ∉ text.toList ∧ '\r' ∉ text.toList := by
  refine ⟨fun hBreak => ?_, fun hBreak => ?_⟩
  · exact absurd (h _ hBreak) (by decide)
  · exact absurd (h _ hBreak) (by decide)

/-- The bytes of a character are no less than the character. -/
theorem bytes (h : Printable text) : ∀ b ∈ text.toUTF8.toList, 0x20 ≤ b.toNat := by
  intro b hb
  rw [Utf8.toList_toUTF8, List.mem_flatMap] at hb
  obtain ⟨c, hc, hb⟩ := hb
  have hChar : 0x20 ≤ c.val.toNat := h c hc
  rw [String.utf8EncodeChar] at hb
  generalize c.val.toNat = v at hChar hb
  -- Only a character of one byte is that byte; all other bytes have their highest bit set.
  have hHigh : ∀ n, 0x80 ≤ n → n < 0x100 → 0x20 ≤ (UInt8.ofNat n).toNat := by
    intro n hLow hByte
    rw [Utf8.toNat_ofNat hByte]
    omega
  split at hb
  · obtain rfl := List.mem_singleton.mp hb
    rw [Utf8.toNat_ofNat (by omega)]
    exact hChar
  split at hb
  · simp only [List.mem_cons, List.not_mem_nil, or_false] at hb
    rcases hb with rfl | rfl
    · exact hHigh _ (by omega) (by omega)
    · exact hHigh _ (by omega) (by omega)
  split at hb
  · simp only [List.mem_cons, List.not_mem_nil, or_false] at hb
    rcases hb with rfl | rfl | rfl
    · exact hHigh _ (by omega) (by omega)
    · exact hHigh _ (by omega) (by omega)
    · exact hHigh _ (by omega) (by omega)
  · simp only [List.mem_cons, List.not_mem_nil, or_false] at hb
    rcases hb with rfl | rfl | rfl | rfl
    · exact hHigh _ (by omega) (by omega)
    · exact hHigh _ (by omega) (by omega)
    · exact hHigh _ (by omega) (by omega)
    · exact hHigh _ (by omega) (by omega)

end Printable

namespace Json

/-! ## Strings and numbers -/

theorem printable_escape (c : Char) : ∀ d ∈ escape c, 0x20 ≤ d.toNat := by
  rw [escape]
  split
  · exact printable_iff_all.mp (by decide)
  split
  · exact printable_iff_all.mp (by decide)
  split
  · exact printable_iff_all.mp (by decide)
  split
  · exact printable_iff_all.mp (by decide)
  split
  · exact printable_iff_all.mp (by decide)
  split
  · exact printable_iff_all.mp (by decide)
  split
  · exact printable_iff_all.mp (by decide)
  split
  · rename_i hControl
    have hAll : ∀ n < 0x20, (('\\' :: 'u' :: Hex.digits false 4 n).all
        fun d => decide (0x20 ≤ d.toNat)) = true := by decide
    exact printable_iff_all.mp (hAll c.toNat hControl)
  · rename_i hVisible
    intro d hd
    obtain rfl := List.mem_singleton.mp hd
    omega

theorem printable_quote (s : String) : Printable (quote s) := by
  intro c hc
  rw [quote, String.toList_ofList] at hc
  simp only [List.cons_append, List.mem_cons, List.mem_append, List.mem_flatMap,
    List.not_mem_nil, or_false] at hc
  rcases hc with rfl | ⟨d, -, hc⟩ | rfl
  · decide
  · exact printable_escape d c hc
  · decide

theorem printable_int (n : Int) : Printable (toString n) := by
  have hDigits : ∀ {cs : List Char} {n : Nat}, Grammar.Natural cs n → ∀ c ∈ cs, 0x20 ≤ c.toNat := by
    intro cs n hNatural c hc
    have hDigit := hNatural.digits c hc
    simp only [Char.isDigit, Bool.and_eq_true, decide_eq_true_eq] at hDigit
    exact Nat.le_trans (by decide) (UInt32.le_iff_toNat_le.mp hDigit.1)
  have hNumber := number_toString n
  rw [Printable]
  generalize (toString n).toList = cs at hNumber
  cases hNumber with
  | positive h => exact hDigits h
  | negative h =>
    intro c hc
    rcases List.mem_cons.mp hc with rfl | hc
    · decide
    · exact hDigits h c hc

/-! ## Values -/

theorem printable_scalar (v : Json) : Printable (scalar v) := by
  cases v with
  | null => decide
  | bool b => cases b <;> decide
  | int n => exact printable_int n
  | str s => exact printable_quote s
  | arr items => exact (by decide : Printable "[]")
  | obj fields => exact (by decide : Printable "\x7b\x7d")

theorem printable_newline (level : Nat) : Printable (Layout.compact.newline level) :=
  (by decide : Printable "")

mutual

theorem printable_encode (level : Nat) (v : Json) : Printable (encode .compact level v) := by
  unfold encode
  split
  · rename_i item items
    exact (((by decide : Printable "[").append (printable_newline _)).append
      (printable_encode _ item)).append (printable_encodeItems level items)
  · rename_i key value fields
    exact (((((by decide : Printable "\x7b").append (printable_newline _)).append
      (printable_quote key)).append (by decide)).append
      (printable_encode _ value)).append (printable_encodeFields level fields)
  · exact printable_scalar _

theorem printable_encodeItems (level : Nat) (items : List Json) :
    Printable (encodeItems .compact level items) := by
  cases items with
  | nil => exact (by decide : Printable "").append (by decide)
  | cons item items =>
    rw [encodeItems]
    exact (((by decide : Printable ",").append (printable_newline _)).append
      (printable_encode _ item)).append (printable_encodeItems level items)

theorem printable_encodeFields (level : Nat) (fields : List (String × Json)) :
    Printable (encodeFields .compact level fields) := by
  cases fields with
  | nil => exact (by decide : Printable "").append (by decide)
  | cons field fields =>
    obtain ⟨key, value⟩ := field
    rw [encodeFields]
    exact (((((by decide : Printable ",").append (printable_newline _)).append
      (printable_quote key)).append (by decide)).append
      (printable_encode _ value)).append (printable_encodeFields level fields)

end

theorem printable_compact (v : Json) : Printable v.compact := by
  have hEncode : v.compact = encode .compact 0 v := render_eq_encode .compact v
  rw [hEncode]
  exact printable_encode 0 v

end Json

/-! ## Previews -/

/-- A preview has no characters but those of the text. -/
theorem preview_subset (limit : Int) (text : String) :
    (preview limit text).toList ⊆ text.toList := by
  have hTake : takeUpTo limit text.toList ⊆ text.toList := by
    rw [takeUpTo]
    split
    · exact List.take_subset _ _
    · exact List.take_subset _ _
  have hBrace : ∀ cs : List Char, upToLastBrace cs ⊆ cs := by
    intro cs
    rw [upToLastBrace]
    split
    · exact List.Subset.refl cs
    · rename_i reversed _
      intro c hc
      have hDrop := List.dropWhile_subset (· != '\x7d') (List.mem_reverse.mp hc)
      exact List.mem_reverse.mp hDrop
  rw [preview]
  split
  · exact List.Subset.refl _
  · rw [String.toList_ofList]
    exact List.Subset.trans (hBrace _) hTake

theorem printable_preview {text : String} (h : Printable text) (limit : Int) :
    Printable (preview limit text) := fun c hc => h c (preview_subset limit text hc)

end TreeDump
