import TreeDump.Proofs.Settings.Configuration

/-!
# Settings from layers

Each value of the settings of a run comes from the request, from the settings file or from the
defaults, and the rules for settings are about the values that come out of that.  What is asked for is
told from what is not by whether it is there, and not by what it says: zero, the empty text and the
empty list are values like any other.

* `Request.Asked`: the values that a request can be made of.
* `Request.ofLayer_eq_request`: values by name make the request that they ask for.
* `RunSettings.Layered`: where the values of settings come from.
* `RunSettings.resolve_layered`: settings are resolved to those of the layers, if these keep to all
  rules, and fail with an error of configuration otherwise.
-/

namespace TreeDump

namespace Request

open Settings

/-! ## What is asked for -/

/-- The values that a request can be made of, each of which may be missing.  Paths are as they are
written. -/
structure Asked where
  files : Option (List String) := none
  format : Option OutputFormat := none
  truncate : Option Int := none
  verbose : Option Bool := none
  quiet : Option Bool := none
  threads : Option Int := none
  dryRun : Option Bool := none
  maxFileMegabytes : Option Int := none
  followLinks : Option Bool := none
  maxDepth : Option Int := none
  included : Option (List String) := none
  excluded : Option (List String) := none
  output : Option String := none
  progress : Option Bool := none
  strict : Option Bool := none
  poolSize : Option Int := none

/-- The value under a name, unless there is none or the value is nothing. -/
def said (layer : List (String × Value)) (name : String) : Option Value :=
  match layer.lookup name with
  | some .nothing => none
  | value => value

def texts (items : List String) : Value := .list (items.map .text)

/-- That values by name say what is asked.  They may be in any order, and there may be others. -/
structure Asked.WrittenIn (asked : Asked) (layer : List (String × Value)) : Prop where
  distinct : (layer.map Prod.fst).Nodup
  files : said layer "files" = asked.files.map texts
  format : said layer "output_format" = asked.format.map fun format => .text format.name
  truncate : said layer "truncate" = asked.truncate.map .whole
  verbose : said layer "verbose" = asked.verbose.map .flag
  quiet : said layer "quiet" = asked.quiet.map .flag
  threads : said layer "threads" = asked.threads.map .whole
  dryRun : said layer "dry_run" = asked.dryRun.map .flag
  maxFileMegabytes : said layer "max_file_size_mb" = asked.maxFileMegabytes.map .whole
  followLinks : said layer "follow_links" = asked.followLinks.map .flag
  maxDepth : said layer "max_depth" = asked.maxDepth.map .whole
  included : said layer "include" = asked.included.map texts
  excluded : said layer "exclude" = asked.excluded.map texts
  output : said layer "output" = asked.output.map .text
  progress : said layer "progress" = asked.progress.map .flag
  strict : said layer "strict" = asked.strict.map .flag
  poolSize : said layer "parser_pool_size" = asked.poolSize.map .whole

/-- The request for what is asked.  Only flags and lists have values that they take when they are
missing. -/
def Asked.request (asked : Asked) : Request where
  files := (asked.files.map (List.map Path.ofString)).getD []
  format := asked.format
  truncate := asked.truncate
  verbose := asked.verbose.getD false
  quiet := asked.quiet.getD false
  threads := asked.threads
  dryRun := asked.dryRun.getD false
  maxFileMegabytes := asked.maxFileMegabytes
  followLinks := asked.followLinks.getD false
  maxDepth := asked.maxDepth
  included := asked.included.getD []
  excluded := asked.excluded.getD []
  output := asked.output.map Path.ofString
  progress := asked.progress.getD false
  strict := asked.strict.getD false
  poolSize := asked.poolSize

/-! ## Fitting what is asked -/

/-- The values that are given are those that are said. -/
theorem lookup_given {layer : List (String × Value)} (hDistinct : (layer.map Prod.fst).Nodup)
    (name : String) : (given layer).lookup name = said layer name := by
  induction layer with
  | nil => rfl
  | cons field rest ih =>
    obtain ⟨key, value⟩ := field
    rw [List.map_cons, List.nodup_cons] at hDistinct
    have hRest := ih hDistinct.2
    by_cases hKey : name = key
    · subst hKey
      have hNone : rest.lookup name = none := by
        rw [List.lookup_eq_none_iff]
        intro other hOther
        rw [bne_iff_ne]
        intro hSame
        exact hDistinct.1 (List.mem_map.mpr ⟨other, hOther, hSame.symm⟩)
      cases value with
      | nothing => simpa [given, said, hNone] using hRest
      | _ => simp [given, said]
    · have hOther : (name == key) = false := beq_false_of_ne hKey
      cases value with
      | nothing => simpa [given, said, List.lookup_cons, hOther] using hRest
      | _ => simpa [given, said, List.lookup_cons, hOther] using hRest

section

variable {fields : List (String × Value)} {name : String}

theorem fitField_eq {α β : Type} {fit : Value → Fit β} {encode : α → Value} {read : α → β}
    {asked : Option α} (hFit : ∀ a, fit (encode a) = .ok (read a))
    (h : fields.lookup name = asked.map encode) (absent : β) :
    fitField fields name fit absent = .ok ((asked.map read).getD absent) := by
  rw [fitField, h]
  cases asked with
  | none => rfl
  | some a =>
    show within name (fit (encode a)) = _
    rw [hFit]
    rfl

theorem fitOptional_eq {α β : Type} {fit : Value → Fit β} {encode : α → Value} {read : α → β}
    {asked : Option α} (hFit : ∀ a, fit (encode a) = .ok (read a))
    (h : fields.lookup name = asked.map encode) :
    fitOptional fields name fit = .ok (asked.map read) := by
  have hSome : ∀ a, (some <$> fit (encode a) : Fit (Option β)) = .ok (some (read a)) := by
    intro a
    rw [hFit]
    rfl
  rw [fitOptional, fitField_eq hSome h]
  cases asked <;> rfl

theorem fitItems_texts {β : Type} {fit : Value → Fit β} {read : String → β}
    (hFit : ∀ s, fit (.text s) = .ok (read s)) (number : Nat) (items : List String) :
    fitItems fit number (items.map .text) = .ok (items.map read) := by
  induction items generalizing number with
  | nil => rfl
  | cons item items ih =>
    rw [List.map_cons, fitItems, hFit, ih]
    rfl

theorem fitWhole_eq {asked : Option Int} (h : fields.lookup name = asked.map .whole) :
    fitOptional fields name fitWhole = .ok asked := by
  have hFit : ∀ n, fitWhole (.whole n) = .ok n := fun _ => rfl
  rw [fitOptional_eq hFit h, Option.map_id']

theorem fitFlag_eq {asked : Option Bool} (h : fields.lookup name = asked.map .flag) :
    fitField fields name fitFlag false = .ok (asked.getD false) := by
  have hFit : ∀ b, fitFlag (.flag b) = .ok b := fun _ => rfl
  rw [fitField_eq hFit h, Option.map_id']

theorem fitItems_text (number : Nat) (items : List String) :
    fitItems fitText number (items.map .text) = .ok items := by
  have hFit : ∀ s, fitText (.text s) = .ok s := fun _ => rfl
  rw [fitItems_texts hFit, List.map_id']

theorem fitTexts_eq {asked : Option (List String)} (h : fields.lookup name = asked.map texts) :
    fitField fields name (fitList fitText) [] = .ok (asked.getD []) := by
  have hFit : ∀ items, fitList fitText (texts items) = .ok items := fitItems_text 0
  rw [fitField_eq hFit h, Option.map_id']

theorem fitPath_eq {asked : Option String} (h : fields.lookup name = asked.map .text) :
    fitOptional fields name fitPath = .ok (asked.map Path.ofString) := by
  have hFit : ∀ s, fitPath (.text s) = .ok (Path.ofString s) := fun _ => rfl
  exact fitOptional_eq hFit h

theorem fitPaths_eq {asked : Option (List String)} (h : fields.lookup name = asked.map texts) :
    fitField fields name (fitList fitPath) []
      = .ok ((asked.map (List.map Path.ofString)).getD []) := by
  have hFit : ∀ s, fitPath (.text s) = .ok (Path.ofString s) := fun _ => rfl
  have hItems : ∀ items, fitList fitPath (texts items) = .ok (items.map Path.ofString) :=
    fitItems_texts hFit 0
  exact fitField_eq hItems h []

end

variable {asked : Asked} {layer : List (String × Value)}

theorem ofFields_eq (h : asked.WrittenIn layer) :
    ofFields (given layer) ((asked.excluded.getD []).map .text) = .ok asked.request := by
  have hSaid : ∀ {name : String} {value : Option Value}, said layer name = value →
      (given layer).lookup name = value := fun hSaid => (lookup_given h.distinct _).trans hSaid
  have hFormat := hSaid h.format
  simp only [ofFields, fitPaths_eq (hSaid h.files), fitWhole_eq (hSaid h.truncate),
    fitFlag_eq (hSaid h.verbose), fitFlag_eq (hSaid h.quiet), fitWhole_eq (hSaid h.threads),
    fitFlag_eq (hSaid h.dryRun), fitWhole_eq (hSaid h.maxFileMegabytes),
    fitFlag_eq (hSaid h.followLinks), fitWhole_eq (hSaid h.maxDepth),
    fitTexts_eq (hSaid h.included), fitItems_text, fitPath_eq (hSaid h.output),
    fitFlag_eq (hSaid h.progress), fitFlag_eq (hSaid h.strict), fitWhole_eq (hSaid h.poolSize),
    bind, Except.bind, pure, Except.pure, within]
  cases hAsked : asked.format with
  | none =>
    simp only [hFormat, hAsked, Option.map_none]
    rw [Asked.request, hAsked]
  | some format =>
    -- No format has an empty name, so none is taken for one that is not asked for.
    have hName : (Value.text format.name).isTruthy = true := by cases format <;> decide
    have hFit : fitFormat (.text format.name) = .ok format := by cases format <;> decide
    simp only [hFormat, hAsked, Option.map_some, hName, hFit]
    rw [Asked.request, hAsked]
    rfl

/-- Values by name make the request that they ask for. -/
theorem ofLayer_eq_request (h : asked.WrittenIn layer) : ofLayer layer = .ok asked.request := by
  have hFitted : fitted (given layer) ((asked.excluded.getD []).map .text) = .ok asked.request := by
    rw [fitted, ofFields_eq h]
    rfl
  rw [ofLayer_eq, lookup_given h.distinct, h.excluded]
  cases hAsked : asked.excluded with
  | none => simpa [hAsked] using hFitted
  | some items =>
    rw [hAsked] at hFitted
    exact hFitted

end Request

namespace RunSettings

/-! ## Where settings come from -/

/-- Where the values of settings come from: each from what is asked, or else from the settings file, or
else from the defaults. -/
structure Layered (file : FileSettings) (asked : Request.Asked) (s : RunSettings) : Prop where
  threads : s.threads = asked.threads.or file.performance.maxThreads
  truncate : s.truncate = asked.truncate.or file.output.truncate
  maxFileMegabytes : s.maxFileMegabytes =
    (asked.maxFileMegabytes.or file.performance.maxFileMegabytes).getD defaultMaxFileMegabytes
  poolSize : s.poolSize = (asked.poolSize.or file.performance.poolSize).getD defaultPoolCapacity
  /-- A settings file that names no format can still hint at one. -/
  format : s.format = (asked.format.or file.output.format).getD
    (if file.output.pretty = some true then .prettyJson else .json)
  /-- What the settings file excludes is excluded as well. -/
  excluded : s.excluded = asked.excluded.getD [] ++ file.ignored.patterns
  ignored : ∀ name, name ∈ s.ignoredDirectories ↔
    name ∈ defaultIgnoredDirectories ∨ name ∈ file.ignored.directories
  files : s.files = (asked.files.map (List.map Path.ofString)).getD []
  verbose : s.verbose = asked.verbose.getD false
  quiet : s.quiet = asked.quiet.getD false
  dryRun : s.dryRun = asked.dryRun.getD false
  followLinks : s.followLinks = asked.followLinks.getD false
  maxDepth : s.maxDepth = asked.maxDepth.getD defaultMaxDepth
  included : s.included = asked.included.getD []
  output : s.output = asked.output.map Path.ofString
  progress : s.progress = asked.progress.getD false
  strict : s.strict = asked.strict.getD false
  patterns : s.patterns = file.patterns
  walk : s.walkOptions =
    { followLinks := s.followLinks, maxDepth := s.maxDepth, filter := ⟨s.included, s.excluded⟩,
      ignoreFileName := some ".astgenignore", ignoredDirectories := s.ignoredDirectories }
  process : s.processOptions =
    { maxBytes := 1000000 * s.maxFileMegabytes, truncate := s.truncate, dryRun := s.dryRun,
      strict := s.strict, format := s.format }

variable {fs : FileSystem} {asked : Request.Asked}
  {layer : List (String × Value)}

theorem mergeFormat_eq (file : OutputSettings) (asked : Option OutputFormat) :
    mergeFormat file asked
      = (asked.or file.format).getD (if file.pretty = some true then .prettyJson else .json) := by
  cases asked with
  | some format => rfl
  | none => cases hFormat : file.format <;> simp [mergeFormat, hFormat]

theorem layered_merge (file : FileSettings) (asked : Request.Asked) :
    Layered file asked (merge file asked.request) where
  threads := Option.orElse_eq_or
  truncate := Option.orElse_eq_or
  maxFileMegabytes := congrArg (Option.getD · _) Option.orElse_eq_or
  poolSize := congrArg (Option.getD · _) Option.orElse_eq_or
  format := mergeFormat_eq file.output asked.format
  excluded := rfl
  ignored := by
    intro name
    rw [merge, List.mem_eraseDups, List.mem_append]
  files := rfl
  verbose := rfl
  quiet := rfl
  dryRun := rfl
  followLinks := rfl
  maxDepth := rfl
  included := rfl
  output := rfl
  progress := rfl
  strict := rfl
  patterns := rfl
  walk := rfl
  process := by
    rw [processOptions, megabytes, Int.mul_comm]
    rfl

/-- Whether the directory of the output is there can be told if nothing else than absence is found
out about the output itself. -/
theorem not_outputUnknown {s : RunSettings} {text : String} (hText : s.output = some (.ofString text))
    (hOutput : ∀ refusal, fs.stat (Path.ofString text).text = .error refusal →
      refusal.meansAbsent = true ∧ refusal ≠ .nulByte) {path : Path} {refusal : Refusal} :
    ¬ s.OutputUnknown fs path refusal := by
  intro hUnknown
  obtain rfl := Option.some.inj (hText.symm.trans hUnknown.output)
  obtain rfl := FileSystem.isPresent_error hUnknown.refused
  have hNul : (Path.ofString text).text.contains '\x00' = false := by
    by_contra hNul
    have hStat : fs.stat (Path.ofString text).text = .error .nulByte := by
      rw [FileSystem.stat, FileSystem.locate, FileSystem.resolve, if_pos (by simpa using hNul)]
    exact (hOutput _ hStat).2 rfl
  have hParent := (FileSystem.stat_of_isPresent hUnknown.refused).1
  have hStat := FileSystem.stat_of_parent_tooLong (Path.written_ofString text) hNul hParent
  exact absurd (hOutput _ hStat).1 (by decide)

/-- Settings are resolved from a settings file and values by name, some of which may be nothing.  If
the values say what is asked, and nothing else than absence is found out about the output, the settings
that the layers have are answered just if they keep to all rules, and it is an error of configuration
if they do not. -/
theorem resolve_layered (file : FileSettings) (hLayer : asked.WrittenIn layer)
    (hOutput : ∀ text refusal, asked.output = some text →
      fs.stat (Path.ofString text).text = .error refusal →
      refusal.meansAbsent = true ∧ refusal ≠ .nulByte) :
    ∃ s, Layered file asked s ∧
      (∀ t, (Request.ofLayer layer >>= resolve fs file) = .ok t ↔ t = s ∧ s.Allowed fs) ∧
      (¬ s.Allowed fs → ∃ raised, (Request.ofLayer layer >>= resolve fs file) = .error raised ∧
        raised.IsConfiguration) := by
  have hResolve : (Request.ofLayer layer >>= resolve fs file)
      = (merge file asked.request).check fs := by
    rw [Raised.bind_of_ok (Request.ofLayer_eq_request hLayer), resolve]
  refine ⟨merge file asked.request, layered_merge file asked, ?_, ?_⟩
  · intro t
    rw [hResolve, check_ok_iff]
  · intro hNot
    rw [hResolve]
    rcases check_spec fs (merge file asked.request) with
      ⟨-, hAllowed⟩ | ⟨fault, hCheck, -⟩ | ⟨path, refusal, -, hUnknown⟩
    · exact absurd hAllowed hNot
    · exact ⟨_, hCheck, fault.text, rfl⟩
    · have hPath : asked.output.map Path.ofString = some path := hUnknown.output
      obtain ⟨text, hText, rfl⟩ := Option.map_eq_some_iff.mp hPath
      exact absurd hUnknown (not_outputUnknown hUnknown.output (hOutput text · hText))

/-- A settings file with a part of its values. -/
def someFile : FileSettings where
  ignored := { patterns := ["gen/*"] }
  output := { pretty := some true }
  performance := { maxThreads := some 8, maxFileMegabytes := some 20 }

/-- Values by name, some of which are nothing and some of which say no more than their absence. -/
def someLayer : List (String × Value) :=
  [("threads", .whole 3), ("verbose", .nothing), ("max_file_size_mb", .nothing),
    ("exclude", .list [.text "*.min.js"]), ("quiet", .flag false), ("output", .text "o")]

theorem writtenIn_someLayer :
    ({ threads := some 3, excluded := some ["*.min.js"], quiet := some false,
       output := some "o" } : Request.Asked).WrittenIn someLayer := by
  constructor <;> simp [Request.said, someLayer, Request.texts, List.lookup_cons]

theorem stat_someLayer :
    FileSystem.stat {} (Path.ofString "o").text = .error .notFound ∧
      FileSystem.isPresent {} (Path.ofString "o").parent.text = .ok true := by
  have hText : (Path.ofString "o").text = "o" := by decide
  have hParent : (Path.ofString "o").parent.text = "." := by decide
  have hRoot : FileSystem.stat {} "." = .ok (.directory []) :=
    FileSystem.stat_of_along rfl (by decide) rfl
  rw [hText, hParent, FileSystem.isPresent, hRoot]
  exact ⟨FileSystem.stat_of_along rfl (by decide) rfl, rfl⟩

theorem resolve_layered_some :
    ∃ s, (Request.ofLayer someLayer >>= resolve {} someFile) = .ok s ∧ s.threads = some 3 ∧
      s.maxFileMegabytes = 20 ∧ s.poolSize = defaultPoolCapacity ∧ s.format = .prettyJson ∧
      s.excluded = ["*.min.js", "gen/*"] := by
  have hOutput : ∀ text refusal, some "o" = some text →
      FileSystem.stat {} (Path.ofString text).text = .error refusal →
      refusal.meansAbsent = true ∧ refusal ≠ .nulByte := by
    intro text refusal hText hStat
    obtain rfl := Option.some.inj hText
    obtain rfl := Except.error.inj (hStat.symm.trans stat_someLayer.1)
    decide
  obtain ⟨s, hLayered, hOk, -⟩ := resolve_layered someFile writtenIn_someLayer hOutput
  have hThreads : s.threads = some 3 := hLayered.threads
  have hTruncate : s.truncate = none := hLayered.truncate
  have hMegabytes : s.maxFileMegabytes = 20 := hLayered.maxFileMegabytes
  have hDepth : s.maxDepth = defaultMaxDepth := hLayered.maxDepth
  have hPool : s.poolSize = defaultPoolCapacity := hLayered.poolSize
  have hQuiet : s.quiet = false := hLayered.quiet
  have hPath : s.output = some (.ofString "o") := hLayered.output
  have hIncluded : s.included = [] := hLayered.included
  have hExcluded : s.excluded = ["*.min.js", "gen/*"] := hLayered.excluded
  have hInRange : s.InRange := by
    refine ⟨?_, ?_, ?_, ?_, ?_, ?_⟩
    · simp [hThreads, maxThreads]
    · simp [hMegabytes, maxFileMegabytesLimit]
    · simp [hDepth, defaultMaxDepth]
    · simp [hTruncate]
    · simp [hPool, defaultPoolCapacity]
    · simp [hQuiet]
  have hAllowed : s.Allowed {} := by
    refine ⟨hInRange, ?_, by simp [hIncluded], by simp [hExcluded]⟩
    intro path hOther
    obtain rfl := Option.some.inj (hPath.symm.trans hOther)
    exact stat_someLayer.2
  exact ⟨s, (hOk s).mpr ⟨rfl, hAllowed⟩, hThreads, hMegabytes, hPool, hLayered.format, hExcluded⟩

end RunSettings

end TreeDump
