import TreeDump.Proofs.Grammar.Pool
import TreeDump.Proofs.Run.Handling

/-!
# The stage that settles an outcome

A path goes through a row of stages, and at each of them the system, the parsers, the export or the
output may interrupt what is being done with it.  All that can be interrupted is done under a guard,
which makes an outcome of whatever is raised, and nothing is asked for that a stage before has made
needless.

* `Processor.handling` is what is done with a path, over any export and any output.
* `Processor.Settles` tells which outcomes there are: one for each stage that may be the first to
  fail, and one for a path that passes them all.
* `Processor.process_settles`: a path always comes to the outcome that its first failing stage has.
-/

namespace TreeDump

/-- How trees are exported and how documents are written.  Either may be interrupted. -/
structure Rendition where
  serialize : ByteArray → SyntaxTree → Except Raised Node
  render : ProcessOptions → Json → Except Raised String

def Rendition.standard : Rendition where
  serialize bytes tree := .ok (Node.ofSource (.bytes bytes) tree)
  render options document := .ok (options.renderDocument document)

namespace Processor

variable (p : Processor) (rendition : Rendition)

/-- The name under which a file is asked for and its document is kept. -/
def filename (path : String) : String := (Path.ofString path).text

/-- The document of a file whose bytes were parsed. -/
def wrapped (path : String) (binding : Binding) (bytes : ByteArray) :
    Except Raised (Option SyntaxTree) → Except Raised Json
  | .error raised => .error raised
  | .ok none => .error (.error (.noTree (filename path)))
  | .ok (some tree) =>
    (rendition.serialize bytes tree).map (document (filename path) binding.name)

/-- The document of a file. -/
def documented (path : String) (binding : Binding) : Handling Json :=
  (Handling.source (filename path) p.options.maxBytes).bind fun bytes =>
    .parse binding.languageId bytes fun tree => .finish (wrapped rendition path binding bytes tree)

/-- The success of a file. -/
def rendered (path : String) (binding : Binding) : Handling Outcome :=
  (p.documented rendition path binding).bind fun document =>
    .finish ((rendition.render p.options document).map
      fun rendered => .success path binding.name rendered (some document) false)

/-- What is done with a path. -/
def handling (path : String) : Handling Outcome :=
  match p.registry.classify path with
  | none => .finish (.ok (p.unsupported path))
  | some binding =>
    if p.options.dryRun then
      .finish (.ok (.success path binding.name (notice path binding) none true))
    else (p.rendered rendition path binding).guarded fun raised => .failed path (raised.asError path)

/-! ## Stages -/

section

variable (host : Host) (pool : Pool) (path : String)

/-- That a path has a language and is to be parsed. -/
structure Found (binding : Binding) : Prop where
  classify_eq : p.registry.classify path = some binding
  not_dry : p.options.dryRun = false

/-- That the file of a path is small enough to be read. -/
structure Measured (binding : Binding) : Prop extends p.Found path binding where
  small : ∃ length, host.size (filename path) = .ok length ∧ (length : Int) ≤ p.options.maxBytes

/-- That the file of a path holds text. -/
structure Loaded (binding : Binding) (bytes : ByteArray) : Prop
    extends p.Measured host path binding where
  bytes_eq : host.bytes (filename path) = .ok bytes
  isValid : Utf8.isValid bytes = true

/-- That parsing the file of a path came to its end, and the parser was put back. -/
structure Parsed (binding : Binding) (bytes : ByteArray) (tree : Option SyntaxTree)
    (after : Pool) : Prop extends p.Loaded host path binding bytes where
  parsed : ∃ parser taken, pool.acquire p.grammars binding.languageId = (.ok parser, taken) ∧
    taken.action p.grammars binding.languageId parser bytes = .ok tree ∧
    after = taken.release binding.languageId parser

/-- That the file of a path has a document. -/
structure Documented (binding : Binding) (doc : Json) (after : Pool) : Prop where
  documented : ∃ bytes tree node, p.Parsed host pool path binding bytes (some tree) after ∧
    rendition.serialize bytes tree = .ok node ∧ doc = document (filename path) binding.name node

/-- What is asked for until a parser is borrowed. -/
def asksAll (binding : Binding) : List Access :=
  [.size (filename path), .bytes (filename path), .parser binding.languageId]

/-- That a stage is interrupted, after all stages before it were passed. -/
inductive Interrupts : Raised → List Access → Pool → Prop
  /-- The path cannot even be asked for, or something else that is no refusal comes up. -/
  | measuring {binding : Binding} {raised : Raised} (h : p.Found path binding)
      (hSize : host.size (filename path) = .error (.other raised)) :
      Interrupts raised [.size (filename path)] pool
  | reading {binding : Binding} {raised : Raised} (h : p.Measured host path binding)
      (hBytes : host.bytes (filename path) = .error (.other raised)) :
      Interrupts raised [.size (filename path), .bytes (filename path)] pool
  /-- No parser is idle, and none can be built. -/
  | building {binding : Binding} {bytes : ByteArray} {raised : Raised}
      (h : p.Loaded host path binding bytes) (hIdle : pool.idleOf binding.languageId = [])
      (hGrammar : p.grammars binding.languageId = .error raised) :
      Interrupts raised (asksAll path binding) pool
  /-- The parser fails, and is not put back. -/
  | parsing {binding : Binding} {bytes : ByteArray} {raised : Raised} {parser : Nat} {taken : Pool}
      (h : p.Loaded host path binding bytes)
      (hAcquire : pool.acquire p.grammars binding.languageId = (.ok parser, taken))
      (hAction : taken.action p.grammars binding.languageId parser bytes = .error raised) :
      Interrupts raised (asksAll path binding) taken
  | serializing {binding : Binding} {bytes : ByteArray} {tree : SyntaxTree} {raised : Raised}
      {after : Pool} (h : p.Parsed host pool path binding bytes (some tree) after)
      (hNode : rendition.serialize bytes tree = .error raised) :
      Interrupts raised (asksAll path binding) after
  | rendering {binding : Binding} {doc : Json} {raised : Raised} {after : Pool}
      (h : p.Documented rendition host pool path binding doc after)
      (hRender : rendition.render p.options doc = .error raised) :
      Interrupts raised (asksAll path binding) after

/-- How something that was raised is reported: an error as it is, and anything else as a failure of
parsing. -/
inductive Reports : Raised → Error → Prop
  | same (error : Error) : Reports (.error error) error
  | foreign {raised : Raised} (h : ∀ error, raised ≠ .error error) :
      Reports raised (.parseFailed path raised.description)

/-- The outcome that a path has by the first of its stages that fails, if any does, with the
requests that were made up to then and the pool that is left. -/
inductive Settles : Outcome → List Access → Pool → Prop
  /-- No language has the path, which is an error only if the path has an extension and files
  without a language are errors. -/
  | skipped (hClass : p.registry.classify path = none)
      (hLenient : p.options.strict = false ∨ extensionOf? path = none) :
      Settles (.skipped path "unsupported") [] pool
  | unsupported {extension : String} (hClass : p.registry.classify path = none)
      (hStrict : p.options.strict = true) (hExtension : extensionOf? path = some extension) :
      Settles (.failed path (.unsupportedLanguage path extension)) [] pool
  /-- In a dry run nothing is asked for. -/
  | noticed {binding : Binding} (hClass : p.registry.classify path = some binding)
      (hDry : p.options.dryRun = true) :
      Settles (.success path binding.name (notice path binding) none true) [] pool
  | unmeasured {binding : Binding} {fault : Fault} (h : p.Found path binding)
      (hSize : host.size (filename path) = .error (.system fault)) :
      Settles (.failed path (.fileAccess (filename path) fault)) [.size (filename path)] pool
  /-- A file that is too large is not read. -/
  | tooLarge {binding : Binding} {length : Nat} (h : p.Found path binding)
      (hSize : host.size (filename path) = .ok length) (hLarge : p.options.maxBytes < length) :
      Settles (.failed path (.fileTooLarge (filename path) length p.options.maxBytes))
        [.size (filename path)] pool
  | unread {binding : Binding} {fault : Fault} (h : p.Measured host path binding)
      (hBytes : host.bytes (filename path) = .error (.system fault)) :
      Settles (.failed path (.fileAccess (filename path) fault))
        [.size (filename path), .bytes (filename path)] pool
  | undecodable {binding : Binding} {bytes : ByteArray} (h : p.Measured host path binding)
      (hBytes : host.bytes (filename path) = .ok bytes) (hText : Utf8.isValid bytes = false) :
      Settles (.failed path (.invalidEncoding (filename path)))
        [.size (filename path), .bytes (filename path)] pool
  | interrupted {raised : Raised} {error : Error} {asked : List Access} {after : Pool}
      (h : p.Interrupts rendition host pool path raised asked after)
      (hReports : Reports path raised error) : Settles (.failed path error) asked after
  /-- The parser gave no tree, which is no failure of its own: it is put back. -/
  | treeless {binding : Binding} {bytes : ByteArray} {after : Pool}
      (h : p.Parsed host pool path binding bytes none after) :
      Settles (.failed path (.noTree (filename path))) (asksAll path binding) after
  | succeeded {binding : Binding} {doc : Json} {rendered : String} {after : Pool}
      (h : p.Documented rendition host pool path binding doc after)
      (hRender : rendition.render p.options doc = .ok rendered) :
      Settles (.success path binding.name rendered (some doc) false) (asksAll path binding) after

end

/-! ## Each stage is done -/

section

variable {p rendition} {host : Host} {grammars : GrammarSource} {pool after : Pool} {path : String}
  {binding : Binding} {bytes : ByteArray} {raised : Raised} {asked : List Access}

theorem reports_iff {error : Error} : Reports path raised error ↔ error = raised.asError path := by
  constructor
  · intro h
    cases h with
    | same => rfl
    | foreign h =>
      cases raised with
      | error e => exact (h e rfl).elim
      | _ => rfl
  · rintro rfl
    cases raised with
    | error e => exact .same e
    | _ => exact .foreign fun e hError => Raised.noConfusion hError

/-! ### The source and the tree -/

theorem Measured.run_source (h : p.Measured host path binding) :
    (Handling.source (filename path) p.options.maxBytes).run host grammars pool
      = ([.size (filename path), .bytes (filename path)],
        Handling.checked (filename path) (host.bytes (filename path)), pool) := by
  obtain ⟨length, hSize, hSmall⟩ := h.small
  exact Handling.run_source_small hSize hSmall

theorem Loaded.run_source (h : p.Loaded host path binding bytes) :
    (Handling.source (filename path) p.options.maxBytes).run host grammars pool
      = ([.size (filename path), .bytes (filename path)], .ok bytes, pool) := by
  rw [h.toMeasured.run_source, h.bytes_eq, Handling.checked, if_pos h.isValid]

theorem Parsed.parse_eq {tree : Option SyntaxTree}
    (h : p.Parsed host pool path binding bytes tree after) :
    pool.parse p.grammars binding.languageId bytes = (.ok tree, after) := by
  obtain ⟨parser, taken, hAcquire, hAction, rfl⟩ := h.parsed
  rw [Pool.parse_of_acquire hAcquire, hAction]

/-! ### The document and the outcome -/

theorem run_documented (rendition : Rendition) (binding : Binding)
    (hSource : (Handling.source (filename path) p.options.maxBytes).run host p.grammars pool
      = (asked, .ok bytes, pool)) :
    (p.documented rendition path binding).run host p.grammars pool
      = (asked ++ [.parser binding.languageId],
        wrapped rendition path binding bytes
          (pool.parse p.grammars binding.languageId bytes).1,
        (pool.parse p.grammars binding.languageId bytes).2) :=
  Handling.run_bind_ok hSource rfl

theorem Loaded.run_documented (h : p.Loaded host path binding bytes)
    {result : Except Raised (Option SyntaxTree)}
    (hParse : pool.parse p.grammars binding.languageId bytes = (result, after)) :
    (p.documented rendition path binding).run host p.grammars pool
      = (asksAll path binding, wrapped rendition path binding bytes result, after) := by
  have hRun : (p.documented rendition path binding).run host p.grammars pool
      = (asksAll path binding,
        wrapped rendition path binding bytes (pool.parse p.grammars binding.languageId bytes).1,
        (pool.parse p.grammars binding.languageId bytes).2) :=
    Processor.run_documented rendition binding h.run_source
  rwa [hParse] at hRun

theorem Documented.run_documented {doc : Json}
    (h : p.Documented rendition host pool path binding doc after) :
    (p.documented rendition path binding).run host p.grammars pool
      = (asksAll path binding, .ok doc, after) := by
  obtain ⟨bytes, tree, node, hParsed, hNode, rfl⟩ := h.documented
  rw [hParsed.toLoaded.run_documented hParsed.parse_eq, wrapped, hNode]
  rfl

theorem Documented.run_rendered {doc : Json}
    (h : p.Documented rendition host pool path binding doc after) :
    (p.rendered rendition path binding).run host p.grammars pool
      = (asksAll path binding, (rendition.render p.options doc).map
        fun rendered => .success path binding.name rendered (some doc) false, after) := by
  rw [← List.append_nil (asksAll path binding)]
  exact Handling.run_bind_ok h.run_documented rfl

theorem Documented.found {doc : Json}
    (h : p.Documented rendition host pool path binding doc after) : p.Found path binding := by
  obtain ⟨bytes, tree, node, hParsed, -⟩ := h.documented
  exact hParsed.toFound

theorem Found.run_handling (h : p.Found path binding) :
    (p.handling rendition path).run host grammars pool
      = ((p.rendered rendition path binding).guarded fun raised =>
          .failed path (raised.asError path)).run host grammars pool := by
  rw [handling, h.classify_eq]
  dsimp only
  rw [h.not_dry, if_neg Bool.false_ne_true]

theorem Found.run_of_documented (h : p.Found path binding)
    (hRun : (p.documented rendition path binding).run host p.grammars pool
      = (asked, .error raised, after)) :
    (p.handling rendition path).run host p.grammars pool
      = (asked, .ok (.failed path (raised.asError path)), after) := by
  rw [h.run_handling]
  exact Handling.run_guarded_error _ (Handling.run_bind_error _ hRun)

theorem Found.run_of_source (h : p.Found path binding)
    (hRun : (Handling.source (filename path) p.options.maxBytes).run host p.grammars pool
      = (asked, .error raised, after)) :
    (p.handling rendition path).run host p.grammars pool
      = (asked, .ok (.failed path (raised.asError path)), after) :=
  h.run_of_documented (Handling.run_bind_error _ hRun)

/-- An error that is about the file comes through the guard as it is. -/
theorem Found.run_of_error (h : p.Found path binding) {error : Error}
    (hRun : (p.documented rendition path binding).run host p.grammars pool
      = (asked, .error (.error error), after)) :
    (p.handling rendition path).run host p.grammars pool
      = (asked, .ok (.failed path error), after) :=
  h.run_of_documented hRun

theorem Interrupts.run_eq (h : p.Interrupts rendition host pool path raised asked after) :
    (p.handling rendition path).run host p.grammars pool
      = (asked, .ok (.failed path (raised.asError path)), after) := by
  cases h with
  | measuring h hSize => exact h.run_of_source (Handling.run_source_unmeasured hSize)
  | reading h hBytes =>
    refine h.toFound.run_of_source ?_
    rw [h.run_source, hBytes]
    rfl
  | building h hIdle hGrammar =>
    exact h.toFound.run_of_documented (h.run_documented (Pool.parse_of_unbuilt hIdle hGrammar))
  | @parsing binding bytes _ parser _ h hAcquire hAction =>
    have hParse : pool.parse p.grammars binding.languageId bytes = (.error raised, after) := by
      rw [Pool.parse_of_acquire hAcquire, hAction]
    exact h.toFound.run_of_documented (h.run_documented hParse)
  | serializing h hNode =>
    refine h.toFound.run_of_documented ?_
    rw [h.toLoaded.run_documented h.parse_eq, wrapped, hNode]
    rfl
  | rendering h hRender =>
    rw [h.found.run_handling]
    refine Handling.run_guarded_error _ ?_
    rw [h.run_rendered, hRender]
    rfl

/-- The outcome that a path has by its first failing stage is the one that it comes to. -/
theorem Settles.run_eq {outcome : Outcome}
    (h : p.Settles rendition host pool path outcome asked after) :
    (p.handling rendition path).run host p.grammars pool = (asked, .ok outcome, after) := by
  cases h with
  | skipped hClass hLenient =>
    rw [handling, hClass]
    dsimp only
    rw [Processor.unsupported]
    rcases hLenient with hLenient | hExtension
    · cases extensionOf? path with
      | none => rfl
      | some extension =>
        dsimp only
        rw [hLenient, if_neg Bool.false_ne_true]
        rfl
    · rw [hExtension]
      rfl
  | unsupported hClass hStrict hExtension =>
    rw [handling, hClass]
    dsimp only
    rw [Processor.unsupported, hExtension]
    dsimp only
    rw [if_pos hStrict]
    rfl
  | noticed hClass hDry =>
    rw [handling, hClass]
    dsimp only
    rw [if_pos hDry]
    rfl
  | unmeasured h hSize => exact h.run_of_source (Handling.run_source_unmeasured hSize)
  | tooLarge h hSize hLarge => exact h.run_of_source (Handling.run_source_tooLarge hSize hLarge)
  | unread h hBytes =>
    refine h.toFound.run_of_error (Handling.run_bind_error _ ?_)
    rw [h.run_source, hBytes]
    rfl
  | undecodable h hBytes hText =>
    refine h.toFound.run_of_error (Handling.run_bind_error _ ?_)
    rw [h.run_source, hBytes, Handling.checked, hText, if_neg Bool.false_ne_true]
  | interrupted h hReports =>
    obtain rfl := reports_iff.mp hReports
    exact h.run_eq
  | treeless h =>
    exact h.toFound.run_of_error (h.toLoaded.run_documented h.parse_eq)
  | succeeded h hRender =>
    rw [h.found.run_handling]
    refine Handling.run_guarded_ok _ ?_
    rw [h.run_rendered, hRender]
    rfl

/-! ## Some stage settles the outcome -/

variable (p rendition host pool path)

/-- A path that has a document comes to an outcome. -/
theorem Documented.settles {doc : Json}
    (h : p.Documented rendition host pool path binding doc after) :
    ∃ outcome asked last, p.Settles rendition host pool path outcome asked last := by
  cases hRender : rendition.render p.options doc with
  | error raised =>
    exact ⟨_, _, _, .interrupted (.rendering h hRender) (reports_iff.mpr rfl)⟩
  | ok rendered => exact ⟨_, _, _, .succeeded h hRender⟩

theorem Parsed.settles {tree : Option SyntaxTree}
    (h : p.Parsed host pool path binding bytes tree after) :
    ∃ outcome asked last, p.Settles rendition host pool path outcome asked last := by
  cases tree with
  | none => exact ⟨_, _, _, .treeless h⟩
  | some tree =>
    cases hNode : rendition.serialize bytes tree with
    | error raised =>
      exact ⟨_, _, _, .interrupted (.serializing h hNode) (reports_iff.mpr rfl)⟩
    | ok node => exact Documented.settles p rendition host pool path ⟨bytes, tree, node, h, hNode, rfl⟩

theorem Loaded.settles (h : p.Loaded host path binding bytes) :
    ∃ outcome asked last, p.Settles rendition host pool path outcome asked last := by
  rcases hAcquire : pool.acquire p.grammars binding.languageId with ⟨raised | parser, taken⟩
  · obtain ⟨hIdle, hGrammar⟩ := Pool.unbuilt_of_acquire hAcquire
    exact ⟨_, _, _, .interrupted (.building h hIdle hGrammar) (reports_iff.mpr rfl)⟩
  · cases hAction : taken.action p.grammars binding.languageId parser bytes with
    | error raised =>
      exact ⟨_, _, _, .interrupted (.parsing h hAcquire hAction) (reports_iff.mpr rfl)⟩
    | ok tree =>
      exact Parsed.settles p rendition host pool path
        ⟨h, parser, taken, hAcquire, hAction, rfl⟩

theorem Measured.settles (h : p.Measured host path binding) :
    ∃ outcome asked last, p.Settles rendition host pool path outcome asked last := by
  cases hBytes : host.bytes (filename path) with
  | error complaint =>
    cases complaint with
    | system fault => exact ⟨_, _, _, .unread h hBytes⟩
    | other raised =>
      exact ⟨_, _, _, .interrupted (.reading h hBytes) (reports_iff.mpr rfl)⟩
  | ok bytes =>
    cases hText : Utf8.isValid bytes with
    | false => exact ⟨_, _, _, .undecodable h hBytes hText⟩
    | true => exact Loaded.settles p rendition host pool path ⟨h, hBytes, hText⟩

theorem Found.settles (h : p.Found path binding) :
    ∃ outcome asked last, p.Settles rendition host pool path outcome asked last := by
  cases hSize : host.size (filename path) with
  | error complaint =>
    cases complaint with
    | system fault => exact ⟨_, _, _, .unmeasured h hSize⟩
    | other raised =>
      exact ⟨_, _, _, .interrupted (.measuring h hSize) (reports_iff.mpr rfl)⟩
  | ok length =>
    by_cases hLarge : p.options.maxBytes < length
    · exact ⟨_, _, _, .tooLarge h hSize hLarge⟩
    · exact Measured.settles p rendition host pool path ⟨h, length, hSize, by omega⟩

theorem exists_settles :
    ∃ outcome asked last, p.Settles rendition host pool path outcome asked last := by
  cases hClass : p.registry.classify path with
  | none =>
    cases hStrict : p.options.strict with
    | false => exact ⟨_, _, _, .skipped hClass (Or.inl hStrict)⟩
    | true =>
      cases hExtension : extensionOf? path with
      | none => exact ⟨_, _, _, .skipped hClass (Or.inr hExtension)⟩
      | some extension => exact ⟨_, _, _, .unsupported hClass hStrict hExtension⟩
  | some binding =>
    cases hDry : p.options.dryRun with
    | true => exact ⟨_, _, _, .noticed hClass hDry⟩
    | false => exact Found.settles p rendition host pool path ⟨hClass, hDry⟩

/-! ## The files of a file system -/

variable {p rendition host pool path}

/-- With the usual export and output, a file that was read comes to the outcome of its parsing. -/
theorem Found.run_standard (h : p.Found path binding)
    (hSource : (Handling.source (filename path) p.options.maxBytes).run host p.grammars pool
      = (asked, .ok bytes, pool)) :
    (p.handling .standard path).run host p.grammars pool
      = (asked ++ [.parser binding.languageId],
        .ok (p.parsedOutcome path binding bytes
          (pool.parse p.grammars binding.languageId bytes).1),
        (pool.parse p.grammars binding.languageId bytes).2) := by
  have hDocumented := run_documented .standard binding hSource
  rcases hParse : pool.parse p.grammars binding.languageId bytes with ⟨raised | _ | tree, last⟩
  · rw [hParse] at hDocumented
    exact h.run_of_documented hDocumented
  · rw [hParse] at hDocumented
    exact h.run_of_documented hDocumented
  · rw [hParse] at hDocumented
    rw [h.run_handling]
    refine Handling.run_guarded_ok _ ?_
    rw [← List.append_nil (asked ++ [Access.parser binding.languageId])]
    exact Handling.run_bind_ok hDocumented rfl

/-- With the usual export and output, a path comes to what it is processed to. -/
theorem run_handling_host (p : Processor) (path : String) (fs : FileSystem) (pool : Pool) :
    ((p.handling .standard path).run fs.host p.grammars pool).2
      = (.ok (p.process fs path pool).1, (p.process fs path pool).2) := by
  rw [process, work]
  cases hClass : p.registry.classify path with
  | none =>
    rw [handling, hClass]
    dsimp only [Handling.run, Work.run, Outcome.ofResult]
  | some binding =>
    cases hDry : p.options.dryRun with
    | true =>
      rw [handling, hClass]
      dsimp only
      rw [hDry, if_pos rfl]
      rfl
    | false =>
      have hFound : p.Found path binding := ⟨hClass, hDry⟩
      have hRead :=
        Handling.run_source_host fs (filename path) p.options.maxBytes p.grammars pool
      rcases hRun : (Handling.source (filename path) p.options.maxBytes).run fs.host p.grammars pool
        with ⟨asked, result, after⟩
      rw [hRun] at hRead
      obtain ⟨rfl, rfl⟩ := Prod.mk.inj hRead
      rw [← filename]
      dsimp only
      rw [if_neg Bool.false_ne_true]
      cases hSource : readSource fs (filename path) p.options.maxBytes with
      | error raised =>
        rw [hSource] at hRun
        rw [hFound.run_of_source hRun]
        rfl
      | ok bytes =>
        rw [hSource] at hRun
        rw [hFound.run_standard hRun]
        rfl

end

/-- A path always comes to the outcome that its first failing stage has, whatever the files, the
parsers, the export and the output do.  So it does when it is processed, and what is not asked for
then does not matter. -/
theorem process_settles (p : Processor) (path : String) :
    (∀ rendition host pool asked result after,
      (p.handling rendition path).run host p.grammars pool = (asked, result, after)
        ↔ ∃ outcome, result = .ok outcome
          ∧ p.Settles rendition host pool path outcome asked after)
    ∧ ∀ fs pool, ∃ asked,
      p.Settles .standard fs.host pool path (p.process fs path pool).1 asked
        (p.process fs path pool).2
      ∧ ∀ other : FileSystem, (∀ access ∈ asked, access.Alike fs.host other.host) →
        p.process other path pool = p.process fs path pool := by
  have hRun : ∀ rendition host pool asked result after,
      (p.handling rendition path).run host p.grammars pool = (asked, result, after)
        ↔ ∃ outcome, result = .ok outcome
          ∧ p.Settles rendition host pool path outcome asked after := by
    intro rendition host pool asked result after
    constructor
    · intro h
      obtain ⟨outcome, made, last, hSettles⟩ := p.exists_settles rendition host pool path
      rw [hSettles.run_eq] at h
      obtain ⟨rfl, rfl, rfl⟩ := h
      exact ⟨outcome, rfl, hSettles⟩
    · rintro ⟨outcome, rfl, hSettles⟩
      exact hSettles.run_eq
  refine ⟨hRun, fun fs pool => ?_⟩
  have hProcess := p.run_handling_host path fs pool
  obtain ⟨asked, hWhole⟩ : ∃ asked, (p.handling .standard path).run fs.host p.grammars pool
      = (asked, .ok (p.process fs path pool).1, (p.process fs path pool).2) :=
    ⟨_, Prod.ext rfl hProcess⟩
  obtain ⟨outcome, hOutcome, hSettles⟩ := (hRun .standard fs.host pool asked _ _).mp hWhole
  obtain rfl := Except.ok.inj hOutcome
  refine ⟨asked, hSettles, fun other hAlike => ?_⟩
  have hOther := p.run_handling_host path other pool
  have hSame : (p.handling .standard path).run other.host p.grammars pool
      = (p.handling .standard path).run fs.host p.grammars pool :=
    Handling.run_congr (by rwa [hWhole])
  rw [hSame, hProcess] at hOther
  obtain ⟨hOutcome, hPool⟩ := Prod.mk.inj hOther
  exact (Prod.ext (Except.ok.inj hOutcome) hPool).symm

end Processor

end TreeDump
