import Mathlib.Data.List.Forall2
import TreeDump.Proofs.Languages.Builtin
import TreeDump.Settings.Run

/-!
# Further patterns for languages

A settings file can give further patterns to the built-in languages, but none to others.  They are
registered after the built-in ones, under the names of the languages that they are for, so neither can
they take a path from a built-in language, nor can a name mean another language once they are
registered.

* `Registry.Knows.findByName_eq`: further bindings do not change what a name means.
* `RunSettings.addLanguages_spec`: a row of further patterns is registered just if each of them is a
  pattern and is for a built-in language.
* `RunSettings.registry_extends`: the registry of settings, and which settings have one.
-/

namespace TreeDump

namespace Language

/-- That a name means a language: it is the name that is shown or that of the grammar, in upper or
lower case. -/
def IsCalled (l : Language) (name : String) : Prop :=
  CharClass.lowercase name = CharClass.lowercase l.name ∨
    CharClass.lowercase name = CharClass.lowercase l.id

theorem lowercase_id {l : Language} (h : l ∈ builtin) : CharClass.lowercase l.id = l.id := by
  have hAll : (builtin.all fun l => CharClass.lowercase l.id == l.id) = true := by decide
  exact beq_iff_eq.mp (List.all_eq_true.mp hAll l h)

/-- A name means one built-in language at most. -/
theorem builtin_eq_of_isCalled {a b : Language} {name : String} (hA : a ∈ builtin)
    (hB : b ∈ builtin) (hNameA : a.IsCalled name) (hNameB : b.IsCalled name) : a = b := by
  have hAll : (builtin.all fun a => builtin.all fun b => a == b ||
      [a.name, a.id].all fun x => [b.name, b.id].all fun y =>
        CharClass.lowercase x != CharClass.lowercase y) = true := by decide
  simp only [List.all_eq_true, Bool.or_eq_true, beq_iff_eq, bne_iff_ne, List.mem_cons,
    List.not_mem_nil, or_false, forall_eq_or_imp, forall_eq] at hAll
  refine (hAll a hA b hB).resolve_right ?_
  rintro ⟨⟨hNames, hNameId⟩, hIdName, hIds⟩
  rcases hNameA with hA | hA <;> rcases hNameB with hB | hB
  · exact hNames (hA.symm.trans hB)
  · exact hNameId (hA.symm.trans hB)
  · exact hIdName (hA.symm.trans hB)
  · exact hIds (hA.symm.trans hB)

end Language

/-- That a binding goes by the names of a language. -/
def Binding.BelongsTo (b : Binding) (l : Language) : Prop := b.languageId = l.id ∧ b.name = l.name

namespace Registry

/-- Whether a binding is found under a name. -/
def answersTo (name : String) (b : Binding) : Bool :=
  CharClass.lowercase b.name == CharClass.lowercase name
    || b.languageId == CharClass.lowercase name

theorem findByName_eq (r : Registry) (name : String) :
    r.findByName name = r.bindings.find? (answersTo name) := rfl

theorem answersTo_iff {b : Binding} {l : Language} {name : String} (hBuiltin : l ∈ Language.builtin)
    (hBelongs : b.BelongsTo l) : answersTo name b ↔ l.IsCalled name := by
  obtain ⟨hId, hName⟩ := hBelongs
  rw [answersTo, Language.IsCalled, hId, hName, Language.lowercase_id hBuiltin, Bool.or_eq_true,
    beq_iff_eq, beq_iff_eq]
  exact or_congr eq_comm eq_comm

theorem default_findByName_eq_some {name : String} {b : Binding}
    (h : Registry.default.findByName name = some b) :
    ∃ l ∈ Language.builtin, l.IsCalled name ∧ b.BelongsTo l := by
  rw [findByName_eq, default_bindings] at h
  obtain ⟨l, hBuiltin, rfl⟩ := List.mem_map.mp (List.mem_of_find?_eq_some h)
  have hCalled := (answersTo_iff hBuiltin ⟨rfl, rfl⟩).mp (List.find?_some h)
  exact ⟨l, hBuiltin, hCalled, rfl, rfl⟩

theorem default_findByName_eq_none_iff {name : String} :
    Registry.default.findByName name = none ↔ ∀ l ∈ Language.builtin, ¬ l.IsCalled name := by
  rw [findByName_eq, default_bindings, List.find?_eq_none, List.forall_mem_map]
  refine forall_congr' fun l => forall_congr' fun hBuiltin => not_congr ?_
  exact answersTo_iff hBuiltin ⟨rfl, rfl⟩

/-- That a registry has bindings of built-in languages only, of which the built-in ones come
first. -/
def Knows (r : Registry) : Prop :=
  ∃ added, r.bindings = Registry.default.bindings ++ added ∧
    ∀ b ∈ added, ∃ l ∈ Language.builtin, b.BelongsTo l

theorem default_knows : Registry.default.Knows :=
  ⟨[], (List.append_nil _).symm, fun _ hNone => (List.not_mem_nil hNone).elim⟩

theorem Knows.append {r s : Registry} {added : List Binding} (hKnows : r.Knows)
    (hBindings : s.bindings = r.bindings ++ added)
    (hAdded : ∀ b ∈ added, ∃ l ∈ Language.builtin, b.BelongsTo l) : s.Knows := by
  obtain ⟨earlier, hEarlier, hAll⟩ := hKnows
  refine ⟨earlier ++ added, ?_, List.forall_mem_append.mpr ⟨hAll, hAdded⟩⟩
  rw [hBindings, hEarlier, List.append_assoc]

/-- Whatever is found under a name is found among the built-in bindings. -/
theorem Knows.findByName_eq {r : Registry} (h : r.Knows) (name : String) :
    r.findByName name = Registry.default.findByName name := by
  obtain ⟨added, hBindings, hAdded⟩ := h
  have hAppend : r.findByName name = (Registry.default.findByName name).or
      (added.find? (answersTo name)) := by
    rw [Registry.findByName_eq, hBindings, List.find?_append]
    rfl
  rw [hAppend]
  cases hDefault : Registry.default.findByName name with
  | some b => rfl
  | none =>
    -- an added binding that answers to the name belongs to a language that is called so
    rw [Option.none_or, List.find?_eq_none]
    intro b hMember hAnswers
    obtain ⟨l, hBuiltin, hBelongs⟩ := hAdded b hMember
    exact default_findByName_eq_none_iff.mp hDefault l hBuiltin
      ((answersTo_iff hBuiltin hBelongs).mp hAnswers)

theorem register_eq_ok_iff {r s : Registry} {text id name : String} {ignoreCase : Bool} :
    r.register text id name ignoreCase = .ok s ↔
      ∃ pattern, Pattern.compile ignoreCase text = .ok pattern ∧
        s = ⟨r.bindings ++ [⟨pattern, id, name⟩]⟩ := by
  rw [register]
  cases Pattern.compile ignoreCase text with
  | ok pattern => simp [eq_comm]
  | error fault => simp

end Registry

namespace RunSettings

/-- The further patterns in the order of the settings, each with the name of its language. -/
def furtherPatterns (patterns : List (String × List String)) : List (String × String) :=
  patterns.flatMap fun entry => entry.2.map fun text => (entry.1, text)

/-- That a binding is that of a further pattern for the language that is called by a name. -/
def Registers (entry : String × String) (b : Binding) : Prop :=
  Pattern.compile false entry.2 = .ok b.pattern ∧
    ∃ l ∈ Language.builtin, l.IsCalled entry.1 ∧ b.BelongsTo l

variable {r s : Registry} {name : String} {binding : Binding} {l : Language}

/-- Further patterns for one language are registered if they all are patterns. -/
theorem addPatterns_spec {texts : List String} (hBuiltin : l ∈ Language.builtin)
    (hCalled : l.IsCalled name) (hBelongs : binding.BelongsTo l) :
    addPatterns name binding r texts = .ok s ↔
      ∃ added, s.bindings = r.bindings ++ added ∧
        List.Forall₂ Registers (texts.map fun text => (name, text)) added := by
  induction texts generalizing r with
  | nil =>
    obtain ⟨given⟩ := r
    obtain ⟨reached⟩ := s
    simp [addPatterns, eq_comm]
  | cons text rest ih =>
    have hStep : addPatterns name binding r (text :: rest) = .ok s ↔
        ∃ next, r.register text binding.languageId binding.name false = .ok next ∧
          addPatterns name binding next rest = .ok s := by
      rw [addPatterns]
      cases r.register text binding.languageId binding.name false with
      | ok next => simp
      | error fault => simp
    rw [hStep]
    constructor
    · rintro ⟨next, hRegister, hRest⟩
      obtain ⟨pattern, hCompile, rfl⟩ := Registry.register_eq_ok_iff.mp hRegister
      obtain ⟨added, hBindings, hAll⟩ := ih.mp hRest
      refine ⟨⟨pattern, binding.languageId, binding.name⟩ :: added, ?_, ?_⟩
      · rw [hBindings, List.append_assoc, List.singleton_append]
      · exact .cons ⟨hCompile, l, hBuiltin, hCalled, hBelongs⟩ hAll
    · rintro ⟨added, hBindings, hAll⟩
      rw [List.map_cons, List.forall₂_cons_left_iff] at hAll
      obtain ⟨b, others, ⟨hCompile, other, hOther, hOtherCalled, hId, hName⟩, hOthers, rfl⟩ := hAll
      obtain rfl := Language.builtin_eq_of_isCalled hOther hBuiltin hOtherCalled hCalled
      have hSame : b = ⟨b.pattern, binding.languageId, binding.name⟩ := by
        rw [hBelongs.1, hBelongs.2, ← hId, ← hName]
      refine ⟨⟨r.bindings ++ [b]⟩, ?_, ih.mpr ⟨others, ?_, hOthers⟩⟩
      · exact Registry.register_eq_ok_iff.mpr ⟨b.pattern, hCompile, by rw [← hSame]⟩
      · rw [hBindings, List.append_assoc, List.singleton_append]

/-- A row of further patterns can be registered if each one can. -/
theorem exists_registers_iff {entries : List (String × String)} :
    (∃ added, List.Forall₂ Registers entries added) ↔ ∀ entry ∈ entries, ∃ b, Registers entry b := by
  induction entries with
  | nil => simp
  | cons entry rest ih =>
    simp only [List.forall₂_cons_left_iff, List.forall_mem_cons, ← ih]
    constructor
    · rintro ⟨added, b, others, hFirst, hRest, rfl⟩
      exact ⟨⟨b, hFirst⟩, others, hRest⟩
    · rintro ⟨⟨b, hFirst⟩, others, hRest⟩
      exact ⟨_, b, others, hFirst, hRest, rfl⟩

theorem registers_known {entries : List (String × String)} {added : List Binding}
    (h : List.Forall₂ Registers entries added) :
    ∀ b ∈ added, ∃ l ∈ Language.builtin, b.BelongsTo l := by
  induction h with
  | nil => simp
  | cons hFirst _ ih =>
    obtain ⟨-, l, hBuiltin, -, hBelongs⟩ := hFirst
    exact List.forall_mem_cons.mpr ⟨⟨l, hBuiltin, hBelongs⟩, ih⟩

/-- A row of further patterns is registered if each name in it means a built-in language, and each
pattern is one. -/
theorem addLanguages_spec {patterns : List (String × List String)} (hKnows : r.Knows) :
    addLanguages r patterns = .ok s ↔
      (∀ entry ∈ patterns, ∃ l ∈ Language.builtin, l.IsCalled entry.1) ∧
        ∃ added, s.bindings = r.bindings ++ added ∧
          List.Forall₂ Registers (furtherPatterns patterns) added := by
  induction patterns generalizing r with
  | nil =>
    obtain ⟨given⟩ := r
    obtain ⟨reached⟩ := s
    simp [addLanguages, furtherPatterns, eq_comm]
  | cons entry rest ih =>
    obtain ⟨name, texts⟩ := entry
    rw [addLanguages, hKnows.findByName_eq]
    cases hFound : Registry.default.findByName name with
    | none =>
      have hUnknown := Registry.default_findByName_eq_none_iff.mp hFound
      simp only [reduceCtorEq, false_iff]
      rintro ⟨hNames, -⟩
      obtain ⟨l, hBuiltin, hCalled⟩ := hNames (name, texts) List.mem_cons_self
      exact hUnknown l hBuiltin hCalled
    | some binding =>
      obtain ⟨l, hBuiltin, hCalled, hBelongs⟩ := Registry.default_findByName_eq_some hFound
      have hFurther : furtherPatterns ((name, texts) :: rest)
          = (texts.map fun text => (name, text)) ++ furtherPatterns rest := rfl
      simp only [Raised.bind_eq_ok, List.forall_mem_cons, hFurther]
      constructor
      · rintro ⟨next, hTexts, hRest⟩
        obtain ⟨first, hFirst, hAll⟩ := (addPatterns_spec hBuiltin hCalled hBelongs).mp hTexts
        have hNext := hKnows.append hFirst (registers_known hAll)
        obtain ⟨hNames, others, hOthers, hOtherAll⟩ := (ih hNext).mp hRest
        refine ⟨⟨⟨l, hBuiltin, hCalled⟩, hNames⟩, first ++ others, ?_, ?_⟩
        · rw [hOthers, hFirst, List.append_assoc]
        · exact List.rel_append hAll hOtherAll
      · rintro ⟨⟨-, hNames⟩, added, hAdded, hAll⟩
        have hFirst := (List.forall₂_take_append _ _ _ hAll.flip).flip
        have hOthers := (List.forall₂_drop_append _ _ _ hAll.flip).flip
        have hTexts : addPatterns name binding r texts
            = .ok ⟨r.bindings ++ added.take (texts.map fun text => (name, text)).length⟩ :=
          (addPatterns_spec hBuiltin hCalled hBelongs).mpr ⟨_, rfl, hFirst⟩
        have hNext := hKnows.append (s := ⟨_⟩) rfl (registers_known hFirst)
        refine ⟨_, hTexts, (ih hNext).mpr ⟨hNames, _, ?_, hOthers⟩⟩
        rw [hAdded, List.append_assoc, List.take_append_drop]

/-- The registry of settings has the built-in bindings in their order, and then one binding for each
further pattern, in the order of the settings and under the names of the one built-in language that
the settings call it for.  A path that belongs to a built-in language still does, and any other path
has the first further binding that matches it.  There is such a registry just if every name in the
settings means a built-in language and every further pattern is a pattern. -/
theorem registry_extends (s : RunSettings) :
    (∀ r, s.registry = .ok r →
      ∃ added, r.bindings = Registry.default.bindings ++ added ∧
        List.Forall₂ Registers (furtherPatterns s.patterns) added ∧
        ∀ path,
          (∀ b, Registry.default.classify path = some b → r.classify path = some b) ∧
          (Registry.default.classify path = none →
            r.classify path = added.find? (·.matchesPath path))) ∧
    ((∃ r, s.registry = .ok r) ↔
      (∀ entry ∈ s.patterns, ∃ l ∈ Language.builtin, l.IsCalled entry.1) ∧
        ∀ entry ∈ furtherPatterns s.patterns,
          ∃ pattern, Pattern.compile false entry.2 = .ok pattern) ∧
    ∀ name, ∀ a ∈ Language.builtin, ∀ b ∈ Language.builtin,
      a.IsCalled name → b.IsCalled name → a = b := by
  have hSpec : ∀ r, s.registry = .ok r ↔
      (∀ entry ∈ s.patterns, ∃ l ∈ Language.builtin, l.IsCalled entry.1) ∧
        ∃ added, r.bindings = Registry.default.bindings ++ added ∧
          List.Forall₂ Registers (furtherPatterns s.patterns) added := fun r =>
    addLanguages_spec Registry.default_knows
  refine ⟨?_, ?_, ?_⟩
  · intro r hRegistry
    obtain ⟨-, added, hBindings, hAll⟩ := (hSpec r).mp hRegistry
    refine ⟨added, hBindings, hAll, fun path => ?_⟩
    have hClassify : r.classify path
        = (Registry.default.classify path).or (added.find? (·.matchesPath path)) := by
      rw [Registry.classify, hBindings, List.find?_append]
      rfl
    constructor
    · intro b hDefault
      rw [hClassify, hDefault, Option.some_or]
    · intro hDefault
      rw [hClassify, hDefault, Option.none_or]
  · constructor
    · rintro ⟨r, hRegistry⟩
      obtain ⟨hNames, added, -, hAll⟩ := (hSpec r).mp hRegistry
      refine ⟨hNames, fun entry hEntry => ?_⟩
      obtain ⟨b, hCompile, -⟩ := exists_registers_iff.mp ⟨added, hAll⟩ entry hEntry
      exact ⟨b.pattern, hCompile⟩
    · rintro ⟨hNames, hPatterns⟩
      have hEach : ∀ entry ∈ furtherPatterns s.patterns, ∃ b, Registers entry b := by
        intro entry hEntry
        obtain ⟨pattern, hCompile⟩ := hPatterns entry hEntry
        obtain ⟨given, hGiven, hText⟩ := List.mem_flatMap.mp hEntry
        obtain ⟨text, -, rfl⟩ := List.mem_map.mp hText
        obtain ⟨l, hBuiltin, hCalled⟩ := hNames given hGiven
        exact ⟨⟨pattern, l.id, l.name⟩, hCompile, l, hBuiltin, hCalled, rfl, rfl⟩
      obtain ⟨added, hAll⟩ := exists_registers_iff.mpr hEach
      exact ⟨⟨Registry.default.bindings ++ added⟩, (hSpec _).mpr ⟨hNames, added, rfl, hAll⟩⟩
  · intro name a hA b hB hNameA hNameB
    exact Language.builtin_eq_of_isCalled hA hB hNameA hNameB

/-- Two spellings of one language, around another language: no further pattern takes a path from a
built-in language, and of those that match another path, the first one has it. -/
theorem registry_extends_spellings :
    let s : RunSettings :=
      { patterns := [("PYTHON", ["pyi$"]), ("c#", [".s"]), ("Python", ["x", "pyi"])] }
    ∃ r, s.registry = .ok r ∧ Registry.default.classify "main.rs" ≠ none ∧
      r.classify "main.rs" = Registry.default.classify "main.rs" ∧
      (r.classify "a.xss").map (·.pattern.text) = some ".s" := by
  intro s
  have hNames : ∀ entry ∈ s.patterns, ∃ l ∈ Language.builtin, l.IsCalled entry.1 := by
    have hPython : ∀ name, CharClass.lowercase name = "python" →
        ∃ l ∈ Language.builtin, l.IsCalled name := fun name hName =>
      ⟨⟨"py", "python", "Python"⟩, by decide, Or.inl (hName.trans (by decide))⟩
    have hSharp : ∃ l ∈ Language.builtin, l.IsCalled "c#" :=
      ⟨⟨"cs", "csharp", "C#"⟩, by decide, Or.inl (by decide)⟩
    simpa [s] using ⟨hPython "PYTHON" (by decide), hSharp, hPython "Python" (by decide)⟩
  have hPatterns : ∀ entry ∈ furtherPatterns s.patterns,
      ∃ pattern, Pattern.compile false entry.2 = .ok pattern := by
    simp only [s, furtherPatterns, List.flatMap_cons, List.map_cons, List.map_nil,
      List.flatMap_nil, List.cons_append, List.nil_append, List.forall_mem_cons]
    exact ⟨⟨_, rfl⟩, ⟨_, rfl⟩, ⟨_, rfl⟩, ⟨_, rfl⟩, by simp⟩
  obtain ⟨hBindings, hExists, -⟩ := registry_extends s
  obtain ⟨r, hRegistry⟩ := hExists.mpr ⟨hNames, hPatterns⟩
  obtain ⟨added, -, -, hPaths⟩ := hBindings r hRegistry
  have hRust : Registry.default.classify "main.rs" ≠ none := by decide
  refine ⟨r, hRegistry, hRust, ?_, ?_⟩
  · cases hFound : Registry.default.classify "main.rs" with
    | some b => exact (hPaths "main.rs").1 b hFound
    | none => exact absurd hFound hRust
  · have hFirst : (s.registry.toOption.bind (·.classify "a.xss")).map (·.pattern.text) = some ".s" := by
      decide
    rw [hRegistry] at hFirst
    exact hFirst

end RunSettings

end TreeDump
