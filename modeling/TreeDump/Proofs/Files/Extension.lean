import Mathlib.Data.List.TakeDrop
import Mathlib.Data.List.TakeWhile
import TreeDump.Proofs.Files.Path

/-!
# Extensions of paths

The extension of a path is what its last name has after its last dot, if there is something on both
sides of that dot.  So a name that begins or ends with its only dot has none, and whatever
precedes the last name, dots included, does not count.

* `extensionOf?_eq_some_iff`: what the extension of a path is.
* `extensionOf?_below`: in any directory a name has the same extension.
-/

namespace TreeDump

namespace Path

/-! ## Suffixes of names -/

theorem forall_ne_dot {cs : List Char} (hDot : '.' ∉ cs) : ∀ c ∈ cs.reverse, (c != '.') = true := by
  intro c hc
  apply bne_iff_ne.mpr
  rintro rfl
  exact hDot (List.mem_reverse.mp hc)

theorem suffixOf?_of_notMem {cs : List Char} (hDot : '.' ∉ cs) : suffixOf? cs = none := by
  unfold suffixOf?
  rw [List.span_eq_takeWhile_dropWhile, List.dropWhile_eq_nil_iff.2 (forall_ne_dot hDot)]

/-- The suffix begins at the last dot, unless that is the first or the last character. -/
theorem suffixOf?_append (stem : List Char) {extension : List Char} (hDot : '.' ∉ extension) :
    suffixOf? (stem ++ '.' :: extension)
      = if stem = [] ∨ extension = [] then none else some ('.' :: extension) := by
  have hAll := forall_ne_dot hDot
  have hReverse : (stem ++ '.' :: extension).reverse
      = extension.reverse ++ '.' :: stem.reverse := by simp
  have hSpan : (stem ++ '.' :: extension).reverse.span (· != '.')
      = (extension.reverse, '.' :: stem.reverse) := by
    rw [List.span_eq_takeWhile_dropWhile, hReverse, List.takeWhile_append_of_pos hAll,
      List.dropWhile_append_of_pos hAll]
    simp
  unfold suffixOf?
  rw [hSpan]
  cases hStem : stem.reverse with
  | nil => simp [List.reverse_eq_nil_iff.mp hStem]
  | cons c rest =>
    have hStemSome : stem ≠ [] := by
      rintro rfl
      cases hStem
    cases hExtension : extension.reverse with
    | nil => simp [List.reverse_eq_nil_iff.mp hExtension]
    | cons d others =>
      have hSome : extension ≠ [] := by
        rintro rfl
        cases hExtension
      have hNeither : ¬ (stem = [] ∨ extension = []) := not_or.mpr ⟨hStemSome, hSome⟩
      rw [if_neg hNeither, ← List.reverse_reverse extension, hExtension]

theorem exists_lastDot {cs : List Char} (hDot : '.' ∈ cs) :
    ∃ stem extension, cs = stem ++ '.' :: extension ∧ '.' ∉ extension := by
  obtain ⟨after, before, hReverse, hAfter⟩ :=
    List.eq_append_cons_of_mem (List.mem_reverse.mpr hDot)
  refine ⟨before.reverse, after.reverse, ?_, fun h => hAfter (List.mem_reverse.mp h)⟩
  rw [← List.reverse_reverse cs, hReverse]
  simp

end Path

/-! ## Extensions -/

/-- That a text is the extension of a path: the last name on the path has it after its last dot,
which has something before it. -/
def HasExtension (path extension : String) : Prop :=
  ∃ stem, (Path.ofString path).name = stem ++ "." ++ extension ∧
    stem ≠ "" ∧ extension ≠ "" ∧ '.' ∉ extension.toList

theorem extensionOf?_eq_some_iff {path extension : String} :
    extensionOf? path = some extension ↔ HasExtension path extension := by
  unfold extensionOf? Path.extension? HasExtension
  generalize (Path.ofString path).name = name
  constructor
  · intro h
    obtain ⟨suffix, hSuffix, hExtension⟩ := Option.map_eq_some_iff.mp h
    by_cases hDot : '.' ∈ name.toList
    · obtain ⟨stem, after, hName, hAfter⟩ := Path.exists_lastDot hDot
      rw [hName, Path.suffixOf?_append stem hAfter] at hSuffix
      split at hSuffix
      · cases hSuffix
      · rename_i hSome
        obtain ⟨hStem, hAfterSome⟩ := not_or.mp hSome
        obtain rfl := Option.some.inj hSuffix
        obtain rfl : String.ofList after = extension := hExtension
        refine ⟨String.ofList stem, ?_, ?_, ?_, ?_⟩
        · rw [← String.toList_inj, hName]
          simp
        · simpa using hStem
        · simpa using hAfterSome
        · simpa using hAfter
    · rw [Path.suffixOf?_of_notMem hDot] at hSuffix
      cases hSuffix
  · rintro ⟨stem, rfl, hStem, hExtension, hDot⟩
    have hName : (stem ++ "." ++ extension).toList = stem.toList ++ '.' :: extension.toList := by
      simp
    have hSome : ¬ (stem.toList = [] ∨ extension.toList = []) := by
      rw [String.toList_eq_nil_iff, String.toList_eq_nil_iff]
      exact not_or.mpr ⟨hStem, hExtension⟩
    rw [hName, Path.suffixOf?_append stem.toList hDot, if_neg hSome]
    simp

theorem extensionOf?_eq_none_iff {path : String} :
    extensionOf? path = none ↔ ∀ extension, ¬ HasExtension path extension := by
  rw [Option.eq_none_iff_forall_ne_some]
  exact forall_congr' fun extension => not_congr extensionOf?_eq_some_iff

theorem Path.name_ofString {text name : String} {steps : List String}
    (hSteps : rawSteps text = steps ++ [name]) (hStep : isStep name) :
    (ofString text).name = name := by
  unfold Path.name ofString
  rw [hSteps, List.filter_append, List.filter_cons_of_pos hStep]
  simp

/-- In any directory a name has the same extension. -/
theorem extensionOf?_below {name : String} (hName : Path.StepName name) (directory : String) :
    extensionOf? (directory ++ "/" ++ name) = extensionOf? name := by
  have hChars : (directory ++ "/" ++ name).toList = directory.toList ++ '/' :: name.toList := by
    simp
  have hAlone : splitSlashes [] name.toList = [name.toList] := splitSlashes_eq [] hName.noSlash
  have hSingle : rawSteps name = [] ++ [name] := by
    unfold rawSteps
    rw [hAlone]
    simp
  have hBelow : rawSteps (directory ++ "/" ++ name) = rawSteps directory ++ [name] := by
    unfold rawSteps
    rw [hChars, splitSlashes_slash, hAlone, List.map_append]
    simp
  unfold extensionOf? Path.extension?
  rw [Path.name_ofString hBelow hName.isStep, Path.name_ofString hSingle hName.isStep]

end TreeDump
