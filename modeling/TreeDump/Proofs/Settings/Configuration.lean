import TreeDump.CommandLine.Perform
import TreeDump.Proofs.Files.Place

/-!
# What the settings of a run can fail with

The settings of a run come from a settings file and from values by name, and then further patterns
are registered.  Nearly everything that can be wrong with them is an error of configuration.  What
is not is known exactly.

* `RunSettings.Allowed`, `RunSettings.check_ok_iff`: the rules for settings, and that nothing else is
  checked.
* `FileSettings.load_error`, `RunSettings.registry_error`, `Request.ofLayer_error`: what one layer
  fails with.
* `Settings.settle_eq_configure`: commands settle their settings in this way.
* `Settings.Escape`: whatever else than an error of configuration can come up, and why.
* `Settings.configure_ends`: settings that are answered keep to the rules, and their patterns make a
  registry; what comes up otherwise is an error of configuration, or a known exception.
* `Settings.not_isConfiguration_undecodable`: a settings file that fails with something else.
-/

namespace TreeDump

/-- Errors that are reported as errors of configuration. -/
def Raised.IsConfiguration (raised : Raised) : Prop :=
  ∃ reason, raised = .error (.configuration reason)

/-! ## Rules for settings -/

namespace RunSettings

/-- The rules for the numbers and flags among settings. -/
structure InRange (s : RunSettings) : Prop where
  threads : ∀ n, s.threads = some n → 1 ≤ n ∧ n ≤ maxThreads
  megabytes : 1 ≤ s.maxFileMegabytes ∧ s.maxFileMegabytes ≤ maxFileMegabytesLimit
  depth : 1 ≤ s.maxDepth
  truncate : ∀ n, s.truncate = some n → 1 ≤ n
  pool : 1 ≤ s.poolSize
  flags : ¬ (s.verbose = true ∧ s.quiet = true)

/-- All rules for settings: further, the directory of the output is there, and no pattern is empty. -/
structure Allowed (fs : FileSystem) (s : RunSettings) : Prop extends InRange s where
  output : ∀ path, s.output = some path → fs.isPresent path.parent.text = .ok true
  included : "" ∉ s.included
  excluded : "" ∉ s.excluded

theorem ite_some_eq_none_iff {α : Type} {p : Prop} [Decidable p] {a : α} {o : Option α} :
    (if p then some a else o) = none ↔ ¬ p ∧ o = none := by
  split <;> simp [*]

theorem rangeFault?_eq_none_iff {s : RunSettings} : s.rangeFault? = none ↔ s.InRange := by
  simp only [rangeFault?, ite_some_eq_none_iff, Bool.not_eq_true, Option.any_eq_false,
    decide_eq_false_iff_not, Int.not_lt]
  constructor
  · rintro ⟨hLeast, hMost, hMegabyte, hMegabytes, hDepth, hTruncate, hPool, hFlags, -⟩
    exact ⟨fun n hThreads => ⟨hLeast n hThreads, hMost n hThreads⟩, ⟨hMegabyte, hMegabytes⟩,
      hDepth, hTruncate, hPool, by simpa using hFlags⟩
  · rintro ⟨hThreads, ⟨hMegabyte, hMegabytes⟩, hDepth, hTruncate, hPool, hFlags⟩
    exact ⟨fun n hSome => (hThreads n hSome).1, fun n hSome => (hThreads n hSome).2, hMegabyte,
      hMegabytes, hDepth, hTruncate, hPool, by simpa using hFlags, trivial⟩

variable {fs : FileSystem} {s : RunSettings}

theorem patternFault?_eq_none_iff : s.patternFault? = none ↔ "" ∉ s.included ∧ "" ∉ s.excluded := by
  simp only [patternFault?, ite_some_eq_none_iff, List.contains_iff_mem, and_true]

theorem outputFault?_eq_none_iff : s.outputFault? fs = .ok none ↔
    ∀ path, s.output = some path → fs.isPresent path.parent.text = .ok true := by
  rw [outputFault?]
  cases s.output with
  | none => simp
  | some path =>
    cases hPresent : fs.isPresent path.parent.text with
    | error refusal => simp [hPresent]
    | ok present => cases present <;> simp [hPresent]

theorem outputFault?_eq_error_iff {raised : Raised} : s.outputFault? fs = .error raised ↔
    ∃ path refusal, s.output = some path ∧ fs.isPresent path.parent.text = .error refusal ∧
      raised = .refused refusal path.parent.text := by
  rw [outputFault?]
  cases s.output with
  | none => simp
  | some path =>
    cases hPresent : fs.isPresent path.parent.text with
    | error refusal => simp [hPresent, eq_comm]
    | ok present => cases present <;> simp [hPresent]

/-- That it cannot be told whether the directory of the output is there. -/
structure OutputUnknown (fs : FileSystem) (s : RunSettings) (path : Path) (refusal : Refusal) :
    Prop where
  inRange : s.InRange
  output : s.output = some path
  refused : fs.isPresent path.parent.text = .error refusal

theorem Allowed.check_eq (h : s.Allowed fs) : s.check fs = .ok s := by
  rw [check, fault?, rangeFault?_eq_none_iff.mpr h.toInRange,
    outputFault?_eq_none_iff.mpr h.output]
  dsimp only
  rw [patternFault?_eq_none_iff.mpr ⟨h.included, h.excluded⟩]

theorem OutputUnknown.check_eq {path : Path} {refusal : Refusal}
    (h : s.OutputUnknown fs path refusal) :
    s.check fs = .error (.refused refusal path.parent.text) := by
  have hOutput : s.outputFault? fs = .error (.refused refusal path.parent.text) :=
    outputFault?_eq_error_iff.mpr ⟨path, refusal, h.output, h.refused, rfl⟩
  rw [check, fault?, rangeFault?_eq_none_iff.mpr h.inRange, hOutput]

/-- Settings are allowed, or they are not, or their output keeps that from being told. -/
theorem check_spec (fs : FileSystem) (s : RunSettings) :
    (s.check fs = .ok s ∧ s.Allowed fs) ∨
      (∃ fault : Fault, s.check fs = .error (.error (.configuration fault.text)) ∧
        ¬ s.Allowed fs) ∨
      ∃ path refusal, s.check fs = .error (.refused refusal path.parent.text) ∧
        s.OutputUnknown fs path refusal := by
  -- The faults are looked for in this order; only the one of the output can be kept from being told.
  rw [check, fault?]
  cases hRange : s.rangeFault? with
  | some fault =>
    refine Or.inr (Or.inl ⟨fault, rfl, fun hAllowed => ?_⟩)
    cases hRange.symm.trans (rangeFault?_eq_none_iff.mpr hAllowed.toInRange)
  | none =>
    have hInRange := rangeFault?_eq_none_iff.mp hRange
    cases hOutput : s.outputFault? fs with
    | error raised =>
      obtain ⟨path, refusal, hPath, hRefused, rfl⟩ := outputFault?_eq_error_iff.mp hOutput
      exact Or.inr (Or.inr ⟨path, refusal, rfl, hInRange, hPath, hRefused⟩)
    | ok missing =>
      cases missing with
      | some fault =>
        refine Or.inr (Or.inl ⟨fault, rfl, fun hAllowed => ?_⟩)
        cases hOutput.symm.trans (outputFault?_eq_none_iff.mpr hAllowed.output)
      | none =>
        cases hPattern : s.patternFault? with
        | some fault =>
          refine Or.inr (Or.inl ⟨fault, rfl, fun hAllowed => ?_⟩)
          cases hPattern.symm.trans
            (patternFault?_eq_none_iff.mpr ⟨hAllowed.included, hAllowed.excluded⟩)
        | none =>
          obtain ⟨hIncluded, hExcluded⟩ := patternFault?_eq_none_iff.mp hPattern
          exact Or.inl ⟨rfl, hInRange, outputFault?_eq_none_iff.mp hOutput, hIncluded, hExcluded⟩

theorem check_ok_iff {checked : RunSettings} :
    s.check fs = .ok checked ↔ checked = s ∧ s.Allowed fs := by
  constructor
  · intro h
    rcases check_spec fs s with ⟨hCheck, hAllowed⟩ | ⟨fault, hCheck, -⟩ | ⟨path, refusal, hCheck, -⟩
    · exact ⟨Except.ok.inj (h.symm.trans hCheck), hAllowed⟩
    · cases h.symm.trans hCheck
    · cases h.symm.trans hCheck
  · rintro ⟨rfl, hAllowed⟩
    exact hAllowed.check_eq

theorem check_error {raised : Raised} (h : s.check fs = .error raised) :
    raised.IsConfiguration ∨ ∃ path, s.OutputUnknown fs path .nameTooLong ∧
      raised = .refused .nameTooLong path.parent.text := by
  rcases check_spec fs s with
    ⟨hCheck, -⟩ | ⟨fault, hCheck, -⟩ | ⟨path, refusal, hCheck, hOutput⟩
  · cases h.symm.trans hCheck
  · exact Or.inl ⟨fault.text, Except.error.inj (h.symm.trans hCheck)⟩
  · obtain rfl := FileSystem.isPresent_error hOutput.refused
    exact Or.inr ⟨path, hOutput, Except.error.inj (h.symm.trans hCheck)⟩

/-! ## Further patterns -/

/-- Faults that are no faults of the pattern as such: a number of repetitions that is not read, or
flags that exclude each other. -/
inductive Foreign : PatternFault → Prop where
  | hugeRepeat : Foreign .hugeRepeat
  | longRepeat (digits : Nat) : Foreign (.longRepeat digits)
  | conflictingFlags : Foreign .conflictingFlags

/-- That one of some further patterns has a fault that is no fault of the pattern as such. -/
def PatternEscape (patterns : List (String × List String)) (fault : PatternFault) : Prop :=
  Foreign fault ∧ ∃ language texts, (language, texts) ∈ patterns ∧
    ∃ text ∈ texts, Pattern.compile false text = .error fault

theorem invalidPattern_cases (language text : String) (fault : PatternFault) :
    (invalidPattern language text fault).IsConfiguration ∨
      Foreign fault ∧ invalidPattern language text fault = .pattern fault := by
  unfold invalidPattern
  split
  · exact Or.inr ⟨.hugeRepeat, rfl⟩
  · exact Or.inr ⟨.longRepeat _, rfl⟩
  · exact Or.inr ⟨.conflictingFlags, rfl⟩
  · exact Or.inl ⟨_, rfl⟩

theorem addPatterns_error {language : String} {binding : Binding} {r : Registry}
    {texts : List String} {raised : Raised}
    (h : addPatterns language binding r texts = .error raised) :
    raised.IsConfiguration ∨ ∃ fault, raised = .pattern fault ∧ Foreign fault ∧
      ∃ text ∈ texts, Pattern.compile false text = .error fault := by
  induction texts generalizing r with
  | nil => cases h
  | cons text rest ih =>
    rw [addPatterns] at h
    split at h
    · rcases ih h with hConfiguration | ⟨fault, rfl, hFault, other, hOther, hCompile⟩
      · exact Or.inl hConfiguration
      · exact Or.inr ⟨fault, rfl, hFault, other, List.mem_cons_of_mem _ hOther, hCompile⟩
    · rename_i fault hRegister
      obtain rfl := Except.error.inj h
      have hCompile : Pattern.compile false text = .error fault := by
        rw [Registry.register] at hRegister
        split at hRegister
        · cases hRegister
        · rename_i other hCompile
          obtain rfl := Except.error.inj hRegister
          exact hCompile
      rcases invalidPattern_cases language text fault with hConfiguration | ⟨hFault, hRaised⟩
      · exact Or.inl hConfiguration
      · exact Or.inr ⟨fault, hRaised, hFault, text, List.mem_cons_self, hCompile⟩

theorem addLanguages_error {r : Registry} {patterns : List (String × List String)}
    {raised : Raised} (h : addLanguages r patterns = .error raised) :
    raised.IsConfiguration ∨ ∃ fault, raised = .pattern fault ∧ PatternEscape patterns fault := by
  induction patterns generalizing r with
  | nil => cases h
  | cons entry rest ih =>
    obtain ⟨language, texts⟩ := entry
    rw [addLanguages] at h
    split at h
    · obtain rfl := Except.error.inj h
      exact Or.inl ⟨_, rfl⟩
    rcases Raised.bind_eq_error.mp h with hTexts | ⟨next, -, hRest⟩
    · rcases addPatterns_error hTexts with hConfiguration | ⟨fault, rfl, hFault, hText⟩
      · exact Or.inl hConfiguration
      · exact Or.inr ⟨fault, rfl, hFault, language, texts, List.mem_cons_self, hText⟩
    · rcases ih hRest with hConfiguration | ⟨fault, rfl, hFault, other, others, hOther, hText⟩
      · exact Or.inl hConfiguration
      · exact Or.inr ⟨fault, rfl, hFault, other, others, List.mem_cons_of_mem _ hOther, hText⟩

/-- A registry fails with an error of configuration or with a fault of one of the patterns. -/
theorem registry_error {s : RunSettings} {raised : Raised} (h : s.registry = .error raised) :
    raised.IsConfiguration ∨ ∃ fault, raised = .pattern fault ∧ PatternEscape s.patterns fault :=
  addLanguages_error h

end RunSettings

/-! ## Settings files -/

namespace FileSettings

/-- What else than an error of configuration a settings file can fail with. -/
inductive Escape (fs : FileSystem) (path : Path) : Raised → Prop where
  | nulByte (hNul : path.text.contains '\x00') : Escape fs path (.refused .nulByte path.text)
  /-- The bytes of the file are no text. -/
  | undecodable {bytes : ByteArray} {fault : Utf8.Fault} (hRead : fs.read path.text = .ok bytes)
      (hDecode : Utf8.decode bytes = .error fault) : Escape fs path (.undecodable fault)
  /-- A number in the file has more digits than are read. -/
  | longNumeral {bytes : ByteArray} {text : String} {digits : Nat}
      (hRead : fs.read path.text = .ok bytes) (hDecode : Utf8.decode bytes = .ok text)
      (hParse : Toml.parse (Toml.joinLineEnds text.toList) = .error (.longNumeral digits)) :
      Escape fs path (.longNumeral digits)

variable {fs : FileSystem} {path : Path} {raised : Raised}

theorem Escape.not_isConfiguration (h : Escape fs path raised) : ¬ raised.IsConfiguration := by
  rintro ⟨reason, rfl⟩
  cases h

theorem Escape.load_eq (h : Escape fs path raised) : load fs path = .error raised := by
  cases h with
  | nulByte hNul =>
    have hStat : fs.read path.text = .error .nulByte := by
      simp [FileSystem.read, FileSystem.stat, FileSystem.locate, FileSystem.resolve, hNul]
    rw [load, hStat]
  | undecodable hRead hDecode => simp [load, hRead, ofBytes, hDecode]
  | longNumeral hRead hDecode hParse => simp [load, hRead, ofBytes, hDecode, ofText, hParse]

theorem ofText_error {text : String} (h : ofText path text = .error raised) :
    raised.IsConfiguration ∨ ∃ digits, raised = .longNumeral digits ∧
      Toml.parse (Toml.joinLineEnds text.toList) = .error (.longNumeral digits) := by
  rw [ofText] at h
  split at h
  · rename_i digits hParse
    obtain rfl := Except.error.inj h
    exact Or.inr ⟨digits, rfl, hParse⟩
  · obtain rfl := Except.error.inj h
    exact Or.inl ⟨_, rfl⟩
  · split at h
    · cases h
    · obtain rfl := Except.error.inj h
      exact Or.inl ⟨_, rfl⟩

/-- A settings file fails with an error of configuration, unless its path cannot be asked for, its
bytes are no text or a number in it is too long. -/
theorem load_error (h : load fs path = .error raised) :
    raised.IsConfiguration ∨ Escape fs path raised := by
  rw [load] at h
  split at h
  · rename_i bytes hRead
    rw [ofBytes] at h
    split at h
    · rename_i text hDecode
      rcases ofText_error h with hConfiguration | ⟨digits, rfl, hParse⟩
      · exact Or.inl hConfiguration
      · exact Or.inr (.longNumeral hRead hDecode hParse)
    · rename_i fault hDecode
      obtain rfl := Except.error.inj h
      exact Or.inr (.undecodable hRead hDecode)
  · rename_i hRead
    obtain rfl := Except.error.inj h
    rw [FileSystem.read] at hRead
    split at hRead
    · cases hRead
    · cases hRead
    · rename_i refusal hStat
      obtain rfl := Except.error.inj hRead
      exact Or.inr (.nulByte (FileSystem.contains_of_stat hStat))
  · obtain rfl := Except.error.inj h
    exact Or.inl ⟨_, rfl⟩

/-- Looking for a settings file fails only because a path is too long. -/
theorem firstFile?_error {paths : List Path} (h : firstFile? fs paths = .error raised) :
    ∃ path ∈ paths, raised = .refused .nameTooLong path.text := by
  induction paths with
  | nil => cases h
  | cons path rest ih =>
    rw [firstFile?] at h
    split at h
    · cases h
    · obtain ⟨other, hOther, hRaised⟩ := ih h
      exact ⟨other, List.mem_cons_of_mem _ hOther, hRaised⟩
    · rename_i refusal hFile
      obtain rfl := Except.error.inj h
      rw [FileSystem.isFile_error hFile]
      exact ⟨path, List.mem_cons_self, rfl⟩

end FileSettings

/-! ## Values by name -/

namespace Request

variable {layer : List (String × Value)} {raised : Raised}

/-- The request of some fields, or an error of configuration. -/
def fitted (fields : List (String × Value)) (excluded : List Value) : Except Raised Request :=
  match ofFields fields excluded with
  | .ok request => pure request
  | .error fault => throw (.error (.configuration fault.text))

theorem ofLayer_eq : ofLayer layer = match (given layer).lookup "exclude" with
    | some value => parts value >>= fitted (given layer)
    | none => fitted (given layer) [] := by
  rw [ofLayer]
  cases (given layer).lookup "exclude" <;> rfl

theorem fitted_error {fields : List (String × Value)} {excluded : List Value}
    (h : fitted fields excluded = .error raised) : raised.IsConfiguration := by
  rw [fitted] at h
  split at h
  · cases h
  · exact ⟨_, (Except.error.inj h).symm⟩

theorem parts_error {value : Value} (h : parts value = .error raised) :
    raised = .notIterable (kindName value) := by
  cases value with
  | list items => cases h
  | text s => cases h
  | table fields => cases h
  | _ => exact (Except.error.inj h).symm

/-- Values by name fail with an error of configuration, unless what is to be excluded is of a kind
that holds no list. -/
theorem ofLayer_error (h : ofLayer layer = .error raised) :
    raised.IsConfiguration ∨ ∃ value, (given layer).lookup "exclude" = some value ∧
      parts value = .error raised ∧ raised = .notIterable (kindName value) := by
  rw [ofLayer_eq] at h
  split at h
  · rename_i value hExclude
    rcases Raised.bind_eq_error.mp h with hParts | ⟨items, -, hFitted⟩
    · exact Or.inr ⟨value, hExclude, hParts, parts_error hParts⟩
    · exact Or.inl (fitted_error hFitted)
  · exact Or.inl (fitted_error h)

end Request

/-! ## Settings of a run -/

namespace Settings

section

variable (around : Surroundings) (config : Option Path)

/-- The settings file of a run: the one that is named, or the one that is found. -/
def settingsPath : Except Raised (Option Path) :=
  match config with
  | some path => .ok (some path)
  | none => FileSettings.findDefault around.files around.home

/-- What the settings file of a run says. -/
def settingsFile : Except Raised FileSettings :=
  match config with
  | some path => FileSettings.load around.files path
  | none => FileSettings.loadDefault around.files around.home

/-- The settings and the registry that a settings file and values by name make. -/
def configure (layer : List (String × Value)) : Except Raised (RunSettings × Registry) := do
  let file ← settingsFile around config
  let settings ← RunSettings.resolve around.files file (← Request.ofLayer layer)
  return (settings, ← settings.registry)

end

/-- A command settles its settings with its own request. -/
theorem settle_eq (around : Surroundings) (command : RunCommand) :
    command.settle around = (do
      let file ← settingsFile around command.config
      let settings ← RunSettings.resolve around.files file command.request
      return (settings, ← settings.registry)) := by
  unfold RunCommand.settle settingsFile
  cases command.config <;> rfl

/-- A command settles what the values by name make that make its request. -/
theorem settle_eq_configure (around : Surroundings) {command : RunCommand}
    {layer : List (String × Value)} (hLayer : Request.ofLayer layer = .ok command.request) :
    command.settle around = configure around command.config layer := by
  rw [settle_eq, configure, hLayer]
  rfl

/-- Whatever else than an error of configuration can come up, and why. -/
inductive Escape (around : Surroundings) (config : Option Path) (layer : List (String × Value)) :
    Raised → Prop where
  /-- No settings file is named, and none can be looked for. -/
  | lookup {path : Path} (hNone : config = none)
      (hPath : path ∈ FileSettings.defaultPaths around.files around.home)
      (hLookup : settingsPath around config = .error (.refused .nameTooLong path.text)) :
      Escape around config layer (.refused .nameTooLong path.text)
  | file {path : Path} {raised : Raised} (hPath : settingsPath around config = .ok (some path))
      (hFile : FileSettings.Escape around.files path raised) : Escape around config layer raised
  /-- What is to be excluded is of a kind that holds no list. -/
  | exclude {file : FileSettings} {value : Value} (hFile : settingsFile around config = .ok file)
      (hExclude : (Request.given layer).lookup "exclude" = some value)
      (hParts : Request.parts value = .error (.notIterable (Request.kindName value))) :
      Escape around config layer (.notIterable (Request.kindName value))
  /-- It cannot be told whether the directory of the output is there. -/
  | output {file : FileSettings} {request : Request} {path : Path}
      (hFile : settingsFile around config = .ok file)
      (hRequest : Request.ofLayer layer = .ok request)
      (hOutput : (RunSettings.merge file request).OutputUnknown around.files path .nameTooLong) :
      Escape around config layer (.refused .nameTooLong path.parent.text)
  /-- A further pattern has a fault that is no fault of the pattern as such. -/
  | pattern {file : FileSettings} {request : Request} {fault : PatternFault}
      (hFile : settingsFile around config = .ok file)
      (hRequest : Request.ofLayer layer = .ok request)
      (hAllowed : (RunSettings.merge file request).Allowed around.files)
      (hPattern : RunSettings.PatternEscape file.patterns fault)
      (hRegistry : (RunSettings.merge file request).registry = .error (.pattern fault)) :
      Escape around config layer (.pattern fault)

section

variable {around : Surroundings} {config : Option Path} {layer : List (String × Value)}
  {raised : Raised}

theorem settingsFile_eq : settingsFile around config = settingsPath around config >>= fun
    | some path => FileSettings.load around.files path
    | none => return {} := by
  cases config <;> rfl

theorem Escape.not_isConfiguration (h : Escape around config layer raised) :
    ¬ raised.IsConfiguration := by
  rintro ⟨reason, rfl⟩
  cases h with
  | file hPath hFile => exact hFile.not_isConfiguration ⟨reason, rfl⟩

theorem settingsFile_error (h : settingsFile around config = .error raised) :
    raised.IsConfiguration ∨ Escape around config layer raised := by
  rw [settingsFile_eq] at h
  rcases Raised.bind_eq_error.mp h with hPath | ⟨found, hPath, hLoad⟩
  · cases hConfig : config with
    | some path =>
      subst hConfig
      cases hPath
    | none =>
      subst hConfig
      obtain ⟨path, hMem, rfl⟩ := FileSettings.firstFile?_error hPath
      exact Or.inr (.lookup rfl hMem hPath)
  · cases found with
    | none => cases hLoad
    | some path => exact (FileSettings.load_error hLoad).imp_right (.file hPath)

/-- What a configuration fails with is an error of configuration, or a known exception. -/
theorem configure_error (h : configure around config layer = .error raised) :
    raised.IsConfiguration ∨ Escape around config layer raised := by
  -- Stage by stage: the file, the request, the check, the registry.
  rw [configure] at h
  rcases Raised.bind_eq_error.mp h with hFile | ⟨file, hFile, h⟩
  · exact settingsFile_error hFile
  rcases Raised.bind_eq_error.mp h with hRequest | ⟨request, hRequest, h⟩
  · rcases Request.ofLayer_error hRequest with hConfiguration | ⟨value, hExclude, hParts, rfl⟩
    · exact Or.inl hConfiguration
    · exact Or.inr (.exclude hFile hExclude hParts)
  rcases Raised.bind_eq_error.mp h with hCheck | ⟨settings, hCheck, h⟩
  · rcases RunSettings.check_error hCheck with hConfiguration | ⟨path, hOutput, rfl⟩
    · exact Or.inl hConfiguration
    · exact Or.inr (.output hFile hRequest hOutput)
  obtain ⟨rfl, hAllowed⟩ := RunSettings.check_ok_iff.mp hCheck
  rcases Raised.bind_eq_error.mp h with hRegistry | ⟨registry, -, h⟩
  · rcases RunSettings.registry_error hRegistry with hConfiguration | ⟨fault, rfl, hPattern⟩
    · exact Or.inl hConfiguration
    · exact Or.inr (.pattern hFile hRequest hAllowed hPattern hRegistry)
  · cases h

theorem Escape.configure_eq (h : Escape around config layer raised) :
    configure around config layer = .error raised := by
  rw [configure]
  cases h with
  | lookup hNone hPath hLookup =>
    rw [settingsFile_eq]
    exact Raised.bind_of_error (Raised.bind_of_error hLookup)
  | file hPath hFile =>
    rw [settingsFile_eq, Raised.bind_of_ok hPath]
    exact Raised.bind_of_error hFile.load_eq
  | @exclude file value hFile hExclude hParts =>
    have hLayer : Request.ofLayer layer = .error (.notIterable (Request.kindName value)) := by
      rw [Request.ofLayer_eq, hExclude]
      exact Raised.bind_of_error hParts
    rw [Raised.bind_of_ok hFile, Raised.bind_of_error hLayer]
  | output hFile hRequest hOutput =>
    rw [Raised.bind_of_ok hFile, Raised.bind_of_ok hRequest, RunSettings.resolve,
      Raised.bind_of_error hOutput.check_eq]
  | pattern hFile hRequest hAllowed hPattern hRegistry =>
    rw [Raised.bind_of_ok hFile, Raised.bind_of_ok hRequest, RunSettings.resolve,
      Raised.bind_of_ok hAllowed.check_eq, Raised.bind_of_error hRegistry]

theorem configure_ok_iff {settings : RunSettings} {registry : Registry} :
    configure around config layer = .ok (settings, registry) ↔ ∃ file request,
      settingsFile around config = .ok file ∧ Request.ofLayer layer = .ok request ∧
      settings = RunSettings.merge file request ∧ settings.Allowed around.files ∧
      settings.registry = .ok registry := by
  rw [configure]
  constructor
  · intro h
    obtain ⟨file, hFile, h⟩ := Raised.bind_eq_ok.mp h
    obtain ⟨request, hRequest, h⟩ := Raised.bind_eq_ok.mp h
    obtain ⟨checked, hCheck, h⟩ := Raised.bind_eq_ok.mp h
    obtain ⟨registered, hRegistry, h⟩ := Raised.bind_eq_ok.mp h
    obtain ⟨rfl, rfl⟩ := Prod.mk.inj (Except.ok.inj h)
    obtain ⟨rfl, hAllowed⟩ := RunSettings.check_ok_iff.mp hCheck
    exact ⟨file, request, hFile, hRequest, rfl, hAllowed, hRegistry⟩
  · rintro ⟨file, request, hFile, hRequest, rfl, hAllowed, hRegistry⟩
    rw [Raised.bind_of_ok hFile, Raised.bind_of_ok hRequest, RunSettings.resolve,
      Raised.bind_of_ok hAllowed.check_eq, Raised.bind_of_ok hRegistry]
    rfl

/-- The settings that are answered are those of the layers put together, they keep to all rules, and
their patterns make the registry.  What comes up otherwise is an error of configuration, unless a
path is too long or cannot be asked for, the bytes of the settings file are no text, a number in it
has too many digits, what is to be excluded is no list, or a pattern repeats too often or has flags
that exclude each other. -/
theorem configure_ends (around : Surroundings) (config : Option Path)
    (layer : List (String × Value)) :
    (∀ settings registry, configure around config layer = .ok (settings, registry) ↔
      ∃ file request, settingsFile around config = .ok file ∧
        Request.ofLayer layer = .ok request ∧ settings = RunSettings.merge file request ∧
        settings.Allowed around.files ∧ settings.registry = .ok registry) ∧
    ∀ raised, Escape around config layer raised ↔
      configure around config layer = .error raised ∧ ¬ raised.IsConfiguration := by
  refine ⟨fun settings registry => configure_ok_iff, fun raised => ⟨?_, ?_⟩⟩
  · intro hEscape
    exact ⟨hEscape.configure_eq, hEscape.not_isConfiguration⟩
  · rintro ⟨hError, hOther⟩
    exact (configure_error hError).resolve_left hOther

end

/-! ## A settings file that is no text -/

/-- A directory with a file whose last byte begins no character, and no grammars. -/
def undecodable : Surroundings where
  files := ⟨.directory [("c", .file ⟨#[0x61, 0x20, 0x3d, 0x20, 0xff]⟩)], []⟩
  home := {}
  grammars := fun name => .error (.foreign "LookupError" name)

theorem read_undecodable :
    undecodable.files.read "c" = .ok ⟨#[0x61, 0x20, 0x3d, 0x20, 0xff]⟩ := by
  have hStat : undecodable.files.stat "c" = .ok (.file ⟨#[0x61, 0x20, 0x3d, 0x20, 0xff]⟩) :=
    FileSystem.stat_of_along rfl (by decide) rfl
  rw [FileSystem.read, hStat]

theorem decode_undecodable :
    Utf8.decode ⟨#[0x61, 0x20, 0x3d, 0x20, 0xff]⟩ = .error ⟨4, 0, 0xff, .startByte⟩ := by
  have hBytes : (⟨#[0x61, 0x20, 0x3d, 0x20, 0xff]⟩ : ByteArray).toList
      = [0x61, 0x20, 0x3d, 0x20, 0xff] := by decide +kernel
  have hLetter : ∀ rest, Utf8.first 0x61 rest = .ok ('a', 0) := fun _ => rfl
  have hBlank : ∀ rest, Utf8.first 0x20 rest = .ok (' ', 0) := fun _ => rfl
  have hSign : ∀ rest, Utf8.first 0x3d rest = .ok ('=', 0) := fun _ => rfl
  have hNone : ∀ rest, Utf8.first 0xff rest = .error (.startByte, 0) := fun _ => rfl
  rw [Utf8.decode, hBytes]
  simp [Utf8.decodeFrom, hLetter, hBlank, hSign, hNone]

/-- There is a settings file that fails with no error of configuration. -/
theorem not_isConfiguration_undecodable :
    ¬ ∀ raised, configure undecodable (some (.ofString "c")) [] = .error raised →
      raised.IsConfiguration := by
  intro hAll
  have hText : (Path.ofString "c").text = "c" := by decide
  have hFile : FileSettings.Escape undecodable.files (.ofString "c")
      (.undecodable ⟨4, 0, 0xff, .startByte⟩) :=
    .undecodable (hText ▸ read_undecodable) decode_undecodable
  have hEscape : Escape undecodable (some (.ofString "c")) []
      (.undecodable ⟨4, 0, 0xff, .startByte⟩) := .file rfl hFile
  exact hEscape.not_isConfiguration (hAll _ hEscape.configure_eq)

end Settings

end TreeDump
