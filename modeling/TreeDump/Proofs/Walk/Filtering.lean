import TreeDump.Proofs.Walk.Coverage

/-!
# Patterns only sift

The patterns of a walk are asked about files only, after everything else about a file is settled.  So
what a walk enters, reports and is interrupted by does not depend on them, even if links lead round
in circles: a walk with patterns lists what the walk without patterns lists, less the files that the
patterns reject.

* `Filter.accepts_congr`, `Filter.accepts_of_excluded`, `Filter.accepts_of_included`: patterns that
  are listed in another way, and further patterns.
* `visitEntry_sifted`, `readDirectory_sifted`: an entry, and a directory, with and without patterns.
* `readStack_sifted`, `walkWith_sifted`: the same of a stack of directories and of a walk.
* `walkWith_filtered`: how the lists of walks with different patterns compare.
-/

namespace TreeDump

/-! ## Filters -/

theorem anyMatches_iff {patterns : List String} {path : String} :
    anyMatches patterns path ↔ ∃ pattern ∈ patterns, globMatches pattern path := by
  rw [anyMatches, List.any_eq_true]

namespace Filter

variable {f g : Filter} {path : String}

theorem accepts_iff : f.accepts path ↔
    (∀ pattern ∈ f.excluded, ¬ globMatches pattern path) ∧
      (f.included ≠ [] → ∃ pattern ∈ f.included, globMatches pattern path) := by
  rw [accepts, Bool.and_eq_true, Bool.not_eq_true', ← Bool.not_eq_true, anyMatches_iff,
    Bool.or_eq_true, anyMatches_iff, List.isEmpty_iff]
  simp only [not_exists, not_and, or_iff_not_imp_left, ne_eq]

/-- More patterns of paths that are not wanted take fewer paths. -/
theorem accepts_of_excluded (hIncluded : f.included = g.included) (hExcluded : f.excluded ⊆ g.excluded)
    (hAccepts : g.accepts path) : f.accepts path := by
  rw [accepts_iff] at hAccepts ⊢
  obtain ⟨hNone, hSome⟩ := hAccepts
  refine ⟨fun pattern hPattern => hNone pattern (hExcluded hPattern), ?_⟩
  rw [hIncluded]
  exact hSome

/-- More patterns of paths that are wanted take more paths, if there are any already. -/
theorem accepts_of_included (hSome : f.included ≠ []) (hIncluded : f.included ⊆ g.included)
    (hExcluded : f.excluded = g.excluded) (hAccepts : f.accepts path) : g.accepts path := by
  rw [accepts_iff] at hAccepts ⊢
  rw [← hExcluded]
  refine ⟨hAccepts.1, fun _ => ?_⟩
  obtain ⟨pattern, hPattern, hMatches⟩ := hAccepts.2 hSome
  exact ⟨pattern, hIncluded hPattern, hMatches⟩

/-- How often patterns are listed, and in which order, does not matter. -/
theorem accepts_congr (hIncluded : ∀ pattern, pattern ∈ f.included ↔ pattern ∈ g.included)
    (hExcluded : ∀ pattern, pattern ∈ f.excluded ↔ pattern ∈ g.excluded) (path : String) :
    f.accepts path = g.accepts path := by
  have hEmpty : f.included = [] ↔ g.included = [] := by
    simp only [List.eq_nil_iff_forall_not_mem, hIncluded]
  rw [Bool.eq_iff_iff, accepts_iff, accepts_iff]
  simp only [hIncluded, hExcluded, ne_eq, hEmpty]

end Filter

namespace Walk

/-! ## Entries and directories -/

/-- What was found, with those of its files only that a test takes. -/
def Found.sifted {language : RuleLanguage} (found : Found language) (keep : Path → Bool) :
    Found language :=
  { found with files := found.files.filter keep }

/-- The result of a walk, with those of its files only that a test takes. -/
def Result.sifted (result : Result) (keep : Path → Bool) : Result :=
  { result with files := result.files.filter keep }

/-- The options of a walk with other patterns. -/
def withFilter (options : WalkOptions) (f : Filter) : WalkOptions := { options with filter := f }

/-- Whether patterns take a path. -/
def takenBy (f : Filter) (path : Path) : Bool := f.accepts path.text

section

variable {language : RuleLanguage} (fs : FileSystem) (options : WalkOptions) (f : Filter)
  (parent : Pending language) (found : Found language)

/-- A file is listed if it is listed without patterns, and the patterns take it. -/
theorem isListed_withFilter (scopes : List (Scope language)) (path : Path) (name : String) :
    isListed (withFilter options f) scopes path name
      = (isListed (withFilter options {}) scopes path name && takenBy f path) := by
  simp only [isListed, withFilter, takenBy, Filter.accepts_empty, Bool.and_true]

/-- Directories are entered whatever the patterns are. -/
theorem visitDirectory_sifted (name : String) :
    visitDirectory fs (withFilter options f) parent (found.sifted (takenBy f)) name
      = (visitDirectory fs (withFilter options {}) parent found name).sifted (takenBy f) := by
  have hLoad : loadScope language fs (withFilter options f) (parent.directory.child name)
      = loadScope language fs (withFilter options {}) (parent.directory.child name) := rfl
  rw [visitDirectory, visitDirectory, hLoad]
  by_cases hPassed : (isPruned (withFilter options {}) parent.scopes (parent.directory.child name) name
      || (withFilter options {}).maxDepth ≤ (parent.depth + 1 : Nat)
      || (withFilter options {}).followLinks
        && found.visited.contains (placeOf fs (parent.directory.child name))) = true
  · rw [if_pos hPassed]
    exact if_pos hPassed
  · rw [if_neg hPassed]
    refine (if_neg hPassed).trans ?_
    cases loadScope language fs (withFilter options {}) (parent.directory.child name) with
    | error raised => rfl
    | ok scope => rfl

theorem visitEntry_sifted (entry : String × Entry) :
    visitEntry fs (withFilter options f) parent (found.sifted (takenBy f)) entry
      = (visitEntry fs (withFilter options {}) parent found entry).sifted (takenBy f) := by
  have hKind : kindOf fs (withFilter options f).followLinks (parent.directory.child entry.1) entry.2
      = kindOf fs (withFilter options {}).followLinks (parent.directory.child entry.1) entry.2 := rfl
  rw [visitEntry, visitEntry, hKind]
  cases kindOf fs (withFilter options {}).followLinks (parent.directory.child entry.1) entry.2 with
  | neither => rfl
  | directory => exact visitDirectory_sifted fs options f parent found entry.1
  | file =>
    dsimp only
    rw [isListed_withFilter]
    cases isListed (withFilter options {}) parent.scopes (parent.directory.child entry.1) entry.1 with
    | false => rfl
    | true =>
      cases hTaken : takenBy f (parent.directory.child entry.1) with
      | false => simp [Found.sifted, hTaken]
      | true => simp [Found.sifted, hTaken]

theorem visitEntries_sifted (entries : List (String × Entry)) :
    visitEntries fs (withFilter options f) parent (found.sifted (takenBy f)) entries
      = (visitEntries fs (withFilter options {}) parent found entries).sifted (takenBy f) := by
  induction entries generalizing found with
  | nil => rfl
  | cons entry rest ih =>
    have hSame := visitEntry_sifted fs options f parent found entry
    cases hStop : (visitEntry fs (withFilter options {}) parent found entry).interruption with
    | some raised =>
      have hStopToo : (visitEntry fs (withFilter options f) parent (found.sifted (takenBy f))
          entry).interruption = some raised := by
        rw [hSame]
        exact hStop
      rw [visitEntries_stop fs parent rest hStop, visitEntries_stop fs parent rest hStopToo, hSame]
    | none =>
      have hOn : (visitEntry fs (withFilter options f) parent (found.sifted (takenBy f))
          entry).interruption = none := by
        rw [hSame]
        exact hStop
      rw [visitEntries_cons fs parent rest hStop, visitEntries_cons fs parent rest hOn, hSame]
      exact ih _

/-- Reading a directory finds the same, less the files that the patterns reject. -/
theorem readDirectory_sifted (visited : List Place) :
    readDirectory fs (withFilter options f) visited parent
      = (readDirectory fs (withFilter options {}) visited parent).sifted (takenBy f) := by
  have hDepth : (withFilter options f).maxDepth = (withFilter options {}).maxDepth := rfl
  rw [readDirectory, readDirectory, hDepth]
  split
  · rfl
  · cases fs.list parent.directory.text with
    | error refusal => rfl
    | ok entries => exact visitEntries_sifted fs options f parent { visited } (byName entries)

end

/-! ## The walk -/

section

variable {language : RuleLanguage} (fs : FileSystem) (options : WalkOptions) (f : Filter)

/-- From the same stack the same directories are read, with the same log and the same end. -/
theorem readStack_sifted (files : List Path) (log : List LogRecord) (visited : List Place)
    (stack : List (Pending language)) :
    readStack fs (withFilter options f) (files.filter (takenBy f)) log visited stack
      = (readStack fs (withFilter options {}) files log visited stack).sifted (takenBy f) := by
  -- What is left on the stack does not depend on the patterns, so both walks take their turns together.
  induction visited, stack using stack_induction fs (withFilter options {}) generalizing files log with
  | hNil visited =>
    rw [readStack, readStack]
    rfl
  | hStop visited top rest raised hStop =>
    rw [readStack, readStack, readDirectory_sifted]
    simp only [Found.sifted, Result.sifted, hStop, List.filter_append]
  | hTurn visited top rest hOn ih =>
    rw [readStack, readStack, readDirectory_sifted]
    simp only [Found.sifted, hOn]
    rw [← ih, List.filter_append]

/-- A walk with patterns is the walk without patterns, less the files that the patterns reject. -/
theorem walkWith_sifted (root : Path) :
    walkWith language fs (withFilter options f) root
      = (walkWith language fs (withFilter options {}) root).sifted (takenBy f) := by
  have hLoad : loadScope language fs (withFilter options f) root
      = loadScope language fs (withFilter options {}) root := rfl
  rw [walkWith, walkWith, hLoad]
  split
  · rfl
  · cases loadScope language fs (withFilter options {}) root with
    | error raised => rfl
    | ok scope =>
      exact readStack_sifted fs options f [] [] [placeOf fs root] [⟨root, 0, scope.toList⟩]

end

/-- With or without links, and with rules of any language, a walk with patterns lists, in the same
order, those files of the walk without patterns that the patterns take, and reports and is interrupted
by the same.  So it does not matter in which order and how often patterns are listed, further
patterns of paths that are not wanted only take files away, and further patterns of paths that are
wanted only add files if there are such patterns already. -/
theorem walkWith_filtered (language : RuleLanguage) (fs : FileSystem) (options : WalkOptions)
    (root : Path) :
    let walked (f : Filter) : Result := walkWith language fs { options with filter := f } root
    (∀ f, (walked f).files = (walked {}).files.filter (fun path => f.accepts path.text) ∧
      (walked f).log = (walked {}).log ∧ (walked f).interruption = (walked {}).interruption) ∧
    (∀ f g : Filter, (∀ pattern, pattern ∈ f.included ↔ pattern ∈ g.included) →
      (∀ pattern, pattern ∈ f.excluded ↔ pattern ∈ g.excluded) → walked f = walked g) ∧
    (∀ f g : Filter, f.included = g.included → f.excluded ⊆ g.excluded →
      List.Sublist (walked g).files (walked f).files) ∧
    ∀ f g : Filter, f.included ≠ [] → f.included ⊆ g.included → f.excluded = g.excluded →
      List.Sublist (walked f).files (walked g).files := by
  intro walked
  have hSifted : ∀ f, walked f = (walked {}).sifted (takenBy f) := fun f =>
    walkWith_sifted fs options f root
  have hMore : ∀ f g : Filter, (∀ path, f.accepts path → g.accepts path) →
      List.Sublist (walked f).files (walked g).files := by
    intro f g hAccepts
    rw [hSifted f, hSifted g]
    exact List.monotone_filter_right _ fun path => hAccepts path.text
  refine ⟨?_, ?_, ?_, ?_⟩
  · intro f
    rw [hSifted f]
    exact ⟨rfl, rfl, rfl⟩
  · intro f g hIncluded hExcluded
    have hSame : takenBy f = takenBy g := funext fun path =>
      Filter.accepts_congr hIncluded hExcluded path.text
    rw [hSifted f, hSifted g, hSame]
  · intro f g hIncluded hExcluded
    exact hMore g f fun path => Filter.accepts_of_excluded hIncluded hExcluded
  · intro f g hSome hIncluded hExcluded
    exact hMore f g fun path => Filter.accepts_of_included hSome hIncluded hExcluded

/-- The theorem of a directory with a link to another one: a pattern that is listed twice rejects what
it rejects if it is listed once, one more takes files away, and one more that is wanted adds some. -/
theorem walkWith_filtered_aliased :
    let walked (f : Filter) : Result :=
      walkWith .gitignore aliased { linkRejected with filter := f } (.ofString ".")
    (∀ pattern, pattern ∈ ["a/", "a/"] ↔ pattern ∈ ["a/"]) ∧
      (walked ⟨[], ["a/", "a/"]⟩).files = [⟨.relative, ["z", "f.rs"]⟩] ∧
    ["a/"] ⊆ ["a/", "z/"] ∧
      List.Sublist (walked ⟨[], ["a/", "z/"]⟩).files [⟨.relative, ["z", "f.rs"]⟩] ∧
    ["f"] ≠ [] ∧ ["f"] ⊆ ["f", "*.rs"] ∧
      List.Sublist (walked ⟨["f"], ["a/"]⟩).files (walked ⟨["f", "*.rs"], ["a/"]⟩).files := by
  intro walked
  obtain ⟨-, hSame, hFewer, hMore⟩ :=
    walkWith_filtered .gitignore aliased linkRejected (.ofString ".")
  have hFiles : (walked ⟨[], ["a/"]⟩).files = [⟨.relative, ["z", "f.rs"]⟩] :=
    (walkWith_aliased false).2
  have hTwice : ∀ pattern, pattern ∈ ["a/", "a/"] ↔ pattern ∈ ["a/"] := by simp
  have hExcluded : ["a/"] ⊆ ["a/", "z/"] := by simp
  have hIncluded : ["f"] ⊆ ["f", "*.rs"] := by simp
  refine ⟨hTwice, ?_, hExcluded, ?_, by simp, hIncluded, ?_⟩
  · rw [← hFiles]
    exact congrArg Result.files (hSame ⟨[], ["a/", "a/"]⟩ ⟨[], ["a/"]⟩ (fun _ => Iff.rfl) hTwice)
  · rw [← hFiles]
    exact hFewer ⟨[], ["a/"]⟩ ⟨[], ["a/", "z/"]⟩ rfl hExcluded
  · exact hMore ⟨["f"], ["a/"]⟩ ⟨["f", "*.rs"], ["a/"]⟩ (by simp) hIncluded rfl

end Walk

end TreeDump
