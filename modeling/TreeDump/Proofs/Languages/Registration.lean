import TreeDump.Language
import TreeDump.Proofs.Files.Extension

/-!
# Registering languages

A registry is made by registering languages one after the other.  What is no pattern is not
registered and changes nothing.  The binding of a path is the first one that was registered and
whose pattern is found in the extension of the path, so once a path has a binding it keeps it, and
one more binding gets just those of the other paths that it matches.

* `Registry.registerAll_bindings`: what is registered.
* `Registry.classify_eq_some_iff`, `Registry.classify_eq_none_iff`: which binding a path has.
* `Registry.classify_concat`: what one more binding changes.
* `Registry.registerAll_stable`: the same for all registrations and all paths.
-/

namespace TreeDump

/-- What is asked of a registry when a language is registered. -/
structure Registration where
  pattern : String
  languageId : String
  name : String
  ignoreCase : Bool := false

/-- The binding that is registered, if the pattern is one. -/
def Registration.binding? (entry : Registration) : Option Binding :=
  match Pattern.compile entry.ignoreCase entry.pattern with
  | .ok pattern => some ⟨pattern, entry.languageId, entry.name⟩
  | .error _ => none

/-- That the pattern of a binding is found in the extension of a path. -/
def Binding.FoundIn (b : Binding) (path : String) : Prop :=
  ∃ extension, HasExtension path extension ∧ (b.pattern.expr.search extension.toList).isSome

theorem Binding.matchesPath_iff {b : Binding} {path : String} :
    b.matchesPath path ↔ b.FoundIn path := by
  unfold matchesPath matchesExtension FoundIn
  simp only [Option.any_eq_true, ← extensionOf?_eq_some_iff]

namespace Registry

/-- Registers a language, or leaves the registry as it is if the pattern is none. -/
def attempt (r : Registry) (entry : Registration) : Registry :=
  (r.register entry.pattern entry.languageId entry.name entry.ignoreCase).toOption.getD r

/-- Registers languages one after the other. -/
def registerAll (r : Registry) (entries : List Registration) : Registry := entries.foldl attempt r

/-! ## What is registered -/

theorem attempt_bindings (r : Registry) (entry : Registration) :
    (r.attempt entry).bindings = r.bindings ++ entry.binding?.toList := by
  unfold attempt register Registration.binding?
  cases Pattern.compile entry.ignoreCase entry.pattern with
  | ok pattern => rfl
  | error fault => exact (List.append_nil _).symm

/-- The bindings of the patterns among what was registered, in their order. -/
theorem registerAll_bindings (r : Registry) (entries : List Registration) :
    (r.registerAll entries).bindings = r.bindings ++ entries.filterMap Registration.binding? := by
  induction entries generalizing r with
  | nil => exact (List.append_nil _).symm
  | cons entry rest ih =>
    have hRest := ih (r.attempt entry)
    have hStep : r.registerAll (entry :: rest) = (r.attempt entry).registerAll rest := rfl
    rw [hStep, hRest, attempt_bindings, List.filterMap_cons]
    cases entry.binding? <;> simp

/-- Registering adds one binding at the end, or it fails and leaves the registry as it is. -/
theorem register_cases (r : Registry) (entry : Registration) :
    (∃ b s, r.register entry.pattern entry.languageId entry.name entry.ignoreCase = .ok s ∧
      entry.binding? = some b ∧ r.attempt entry = s ∧ s.bindings = r.bindings ++ [b]) ∨
    (∃ fault, r.register entry.pattern entry.languageId entry.name entry.ignoreCase = .error fault ∧
      entry.binding? = none ∧ r.attempt entry = r) := by
  unfold attempt register Registration.binding?
  cases Pattern.compile entry.ignoreCase entry.pattern with
  | ok pattern => exact Or.inl ⟨_, _, rfl, rfl, rfl, rfl⟩
  | error fault => exact Or.inr ⟨fault, rfl, rfl, rfl⟩

/-! ## The binding of a path -/

theorem classify_eq_some_iff {r : Registry} {path : String} {b : Binding} :
    r.classify path = some b ↔
      b.FoundIn path ∧ ∃ earlier later, r.bindings = earlier ++ b :: later ∧
        ∀ other ∈ earlier, ¬ other.FoundIn path := by
  unfold classify
  rw [List.find?_eq_some_iff_append]
  simp only [← Binding.matchesPath_iff, Bool.not_eq_true', Bool.not_eq_true]

theorem classify_eq_none_iff {r : Registry} {path : String} :
    r.classify path = none ↔ ∀ b ∈ r.bindings, ¬ b.FoundIn path := by
  unfold classify
  rw [List.find?_eq_none]
  simp only [← Binding.matchesPath_iff]

/-- One more binding changes nothing for paths that have one, and it gets those that it matches of
the others. -/
theorem classify_concat {r s : Registry} {b : Binding} (hBindings : s.bindings = r.bindings ++ [b])
    (path : String) :
    (∀ c, r.classify path = some c → s.classify path = some c) ∧
    (r.classify path = none → (s.classify path = some b ↔ b.FoundIn path) ∧
      (s.classify path = none ↔ ¬ b.FoundIn path)) := by
  have hClassify : s.classify path = (r.classify path).or ([b].find? (·.matchesPath path)) := by
    unfold classify
    rw [hBindings, List.find?_append]
  constructor
  · intro c hFound
    rw [hClassify, hFound, Option.some_or]
  · intro hNone
    rw [hClassify, hNone, Option.none_or, ← Binding.matchesPath_iff]
    cases hMatches : b.matchesPath path <;> simp [hMatches]

theorem classify_of_extensionless (r : Registry) {path : String}
    (hNone : ∀ extension, ¬ HasExtension path extension) : r.classify path = none := by
  apply classify_eq_none_iff.mpr
  rintro b - ⟨extension, hExtension, -⟩
  exact hNone extension hExtension

/-- In any directory a name has the same binding. -/
theorem classify_below (r : Registry) {name : String} (hName : Path.StepName name)
    (directory : String) : r.classify (directory ++ "/" ++ name) = r.classify name := by
  unfold classify Binding.matchesPath
  rw [extensionOf?_below hName]

/-- The first of the registered bindings that matches is that of the first registration that is one
and matches. -/
theorem classify_registerAll_iff {entries : List Registration} {path : String} {b : Binding} :
    (registerAll {} entries).classify path = some b ↔
      ∃ earlier entry later, entries = earlier ++ entry :: later ∧ entry.binding? = some b ∧
        b.FoundIn path ∧
        ∀ other ∈ earlier, ∀ c, other.binding? = some c → ¬ c.FoundIn path := by
  have hBindings : (registerAll {} entries).bindings = entries.filterMap Registration.binding? :=
    registerAll_bindings {} entries
  rw [classify_eq_some_iff, hBindings]
  constructor
  · rintro ⟨hFound, before, after, hSplit, hBefore⟩
    obtain ⟨front, rest, rfl, rfl, hRest⟩ := List.filterMap_eq_append_iff.mp hSplit
    obtain ⟨skipped, entry, later, rfl, hSkipped, hEntry, -⟩ := List.filterMap_eq_cons_iff.mp hRest
    refine ⟨front ++ skipped, entry, later, (List.append_assoc _ _ _).symm, hEntry, hFound, ?_⟩
    intro other hOther c hBinding
    rcases List.mem_append.mp hOther with hFront | hNone
    · exact hBefore c (List.mem_filterMap.mpr ⟨other, hFront, hBinding⟩)
    · cases (hSkipped other hNone).symm.trans hBinding
  · rintro ⟨earlier, entry, later, rfl, hEntry, hFound, hEarlier⟩
    refine ⟨hFound, earlier.filterMap Registration.binding?,
      later.filterMap Registration.binding?, ?_, ?_⟩
    · rw [List.filterMap_append, List.filterMap_cons_some hEntry]
    · intro c hBinding
      obtain ⟨other, hOther, hSome⟩ := List.mem_filterMap.mp hBinding
      exact hEarlier other hOther c hSome

theorem classify_registerAll_eq_none_iff {entries : List Registration} {path : String} :
    (registerAll {} entries).classify path = none ↔
      ∀ entry ∈ entries, ∀ c, entry.binding? = some c → ¬ c.FoundIn path := by
  have hBindings : (registerAll {} entries).bindings = entries.filterMap Registration.binding? :=
    registerAll_bindings {} entries
  rw [classify_eq_none_iff, hBindings]
  constructor
  · intro hNone entry hEntry c hBinding
    exact hNone c (List.mem_filterMap.mpr ⟨entry, hEntry, hBinding⟩)
  · intro hNone c hBinding
    obtain ⟨entry, hEntry, hSome⟩ := List.mem_filterMap.mp hBinding
    exact hNone entry hEntry c hSome

/-- Whatever is registered, patterns or not: the binding of a path is that of the first registration
that is one and whose pattern is found in the extension of the path, if there is any.  Registering
what is no pattern fails and leaves the registry as it is; registering a pattern keeps the binding
of each path that has one, and gives the new binding to just those of the other paths in whose
extension the pattern is found.  A path without extension has no binding, and a name has the same
binding in every directory. -/
theorem registerAll_stable :
    (∀ entries path,
      (∀ b, (registerAll {} entries).classify path = some b ↔
        ∃ earlier entry later, entries = earlier ++ entry :: later ∧ entry.binding? = some b ∧
          b.FoundIn path ∧
          ∀ other ∈ earlier, ∀ c, other.binding? = some c → ¬ c.FoundIn path) ∧
      ((registerAll {} entries).classify path = none ↔
        ∀ entry ∈ entries, ∀ c, entry.binding? = some c → ¬ c.FoundIn path)) ∧
    (∀ (r : Registry) (entry : Registration),
      (∀ fault, r.register entry.pattern entry.languageId entry.name entry.ignoreCase = .error fault →
        r.attempt entry = r) ∧
      ∀ s, r.register entry.pattern entry.languageId entry.name entry.ignoreCase = .ok s →
        r.attempt entry = s ∧ ∃ b, entry.binding? = some b ∧ ∀ path,
          (∀ c, r.classify path = some c → s.classify path = some c) ∧
          (r.classify path = none → (s.classify path = some b ↔ b.FoundIn path) ∧
            (s.classify path = none ↔ ¬ b.FoundIn path))) ∧
    (∀ (r : Registry) path, (∀ extension, ¬ HasExtension path extension) → r.classify path = none) ∧
    ∀ (r : Registry) directory name, name ≠ "" → '/' ∉ name.toList → name ≠ "." →
      r.classify (directory ++ "/" ++ name) = r.classify name := by
  refine ⟨?_, ?_, ?_, ?_⟩
  · intro entries path
    exact ⟨fun b => classify_registerAll_iff, classify_registerAll_eq_none_iff⟩
  · intro r entry
    rcases r.register_cases entry with ⟨b, s, hOk, hBinding, hAttempt, hBindings⟩ |
      ⟨fault, hError, -, hAttempt⟩
    · constructor
      · intro fault hError
        cases hOk.symm.trans hError
      · intro t hRegister
        obtain rfl := Except.ok.inj (hOk.symm.trans hRegister)
        exact ⟨hAttempt, b, hBinding, classify_concat hBindings⟩
    · constructor
      · exact fun _ _ => hAttempt
      · intro t hRegister
        cases hError.symm.trans hRegister
  · exact fun r path => r.classify_of_extensionless
  · intro r directory name hSome hSlash hDot
    have hStep : Path.isStep name := by simp [Path.isStep, hSome, hDot]
    exact r.classify_below ⟨hStep, hSlash⟩ directory

/-- Of three registrations the second one is no pattern, and the first one takes the paths that the
third one would have. -/
theorem registerAll_stable_shadowed :
    let first : Registration := ⟨"s$", "rust", "Rust", false⟩
    let lost : Registration := ⟨"(", "lost", "Lost", false⟩
    let entries := [first, lost, ⟨"RS", "go", "Go", true⟩]
    (registerAll {} [first]).attempt lost = registerAll {} [first] ∧
      (∃ b, (registerAll {} entries).classify "a..b/../.x.rs" = some b ∧ b.name = "Rust" ∧
        (registerAll {} entries).classify ".x.rs" = some b) ∧
      (registerAll {} entries).classify "a.rs/.rs" = none := by
  intro first lost entries
  obtain ⟨hFirst, hStep, hBare, hBelow⟩ := registerAll_stable
  obtain ⟨fault, hRegister⟩ : ∃ fault, (registerAll {} [first]).register lost.pattern
      lost.languageId lost.name lost.ignoreCase = .error fault := by
    have hNone : lost.binding? = none := by decide
    rcases (registerAll {} [first]).register_cases lost with ⟨b, -, -, hSome, -⟩ | ⟨fault, hError, -⟩
    · cases hNone.symm.trans hSome
    · exact ⟨fault, hError⟩
  refine ⟨(hStep _ lost).1 fault hRegister, ?_, ?_⟩
  · have hAny : first.binding?.any (fun b => b.name == "Rust" && b.matchesPath ".x.rs") := by
      decide
    obtain ⟨b, hBinding, hBoth⟩ := (Option.any_eq_true _ _).mp hAny
    obtain ⟨hName, hMatches⟩ := Bool.and_eq_true_iff.mp hBoth
    have hClassify : (registerAll {} entries).classify ".x.rs" = some b :=
      ((hFirst entries ".x.rs").1 b).mpr ⟨[], first, _, rfl, hBinding,
        Binding.matchesPath_iff.mp hMatches, by simp⟩
    have hSame : (registerAll {} entries).classify "a..b/../.x.rs"
        = (registerAll {} entries).classify ".x.rs" :=
      hBelow _ "a..b/.." ".x.rs" (by decide) (by decide) (by decide)
    exact ⟨b, hSame.trans hClassify, beq_iff_eq.mp hName, hClassify⟩
  · exact hBare _ "a.rs/.rs" (extensionOf?_eq_none_iff.mp (by decide))

end Registry

end TreeDump
