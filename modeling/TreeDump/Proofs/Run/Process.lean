import TreeDump.Proofs.Files.Place
import TreeDump.Proofs.Run.Records
import TreeDump.Run.Process

/-!
# What a file comes to

What a file comes to depends on what is read of it and, if the pool is sound, on nothing else.

* `Processor.Comes`: the outcomes that there are, and which of them have records.
* `Processor.process_congr`, `Processor.process_sound`: what an outcome does not depend on.
* `Processor.leafy`: a processor for small runs.
-/

namespace TreeDump

namespace Processor

variable (p : Processor)

/-- What is read of a file. -/
def source (fs : FileSystem) (path : String) : Except Raised ByteArray :=
  readSource fs (Path.ofString path).text p.options.maxBytes

/-- What a file comes to depends on no more of the file system than what is read of the file. -/
theorem process_congr {fs other : FileSystem} {path : String}
    (hSame : p.source fs path = p.source other path) : p.process fs path = p.process other path := by
  have hWork : p.work fs path = p.work other path := by
    rw [source, source] at hSame
    rw [work, work, hSame]
  funext pool
  rw [process, process, hWork]

/-- What a path can come to. -/
inductive Comes (path : String) : Outcome → Prop where
  | unsupported : Comes path (.skipped path "unsupported")
  | failed (error : Error) : Comes path (.failed path error)
  | noticed (binding : Binding) (hDry : p.options.dryRun = true) :
      Comes path (.success path binding.name (notice path binding) none true)
  | parsed (language : String) (node : Node) (hDry : p.options.dryRun = false) :
      Comes path (.success path language
        (p.options.renderDocument (document (Path.ofString path).text language node))
        (some (document (Path.ofString path).text language node)) false)

theorem process_comes (fs : FileSystem) (path : String) (pool : Pool) :
    p.Comes path (p.process fs path pool).1 := by
  rw [process, work]
  cases hClass : p.registry.classify path with
  | none =>
    simp only [Work.run, Outcome.ofResult]
    rw [Processor.unsupported]
    split
    · split
      · exact .failed _
      · exact .unsupported
    · exact .unsupported
  | some binding =>
    cases hDry : p.options.dryRun with
    | true =>
      simp only [if_true, Work.run, Outcome.ofResult]
      exact .noticed binding hDry
    | false =>
      simp only [Bool.false_eq_true, if_false]
      cases readSource fs (Path.ofString path).text p.options.maxBytes with
      | error raised => exact .failed _
      | ok bytes =>
        simp only [Work.run, Outcome.ofResult]
        generalize (pool.parse p.grammars binding.languageId bytes).1 = parsed
        cases parsed with
        | error raised => exact .failed _
        | ok tree =>
          cases tree with
          | none => exact .failed _
          | some tree => exact .parsed binding.name _ hDry

variable {p}

theorem Comes.path_eq {path : String} {outcome : Outcome} (h : p.Comes path outcome) :
    outcome.path = path := by
  cases h with
  | unsupported => rfl
  | failed error => rfl
  | noticed binding hDry => rfl
  | parsed language node hDry => rfl

/-- A success is a record or not as the options have it. -/
theorem Comes.isRecord_eq {path : String} {outcome : Outcome} (h : p.Comes path outcome)
    (hSuccess : outcome.isSuccess) : outcome.isRecord = !p.options.dryRun := by
  cases h with
  | unsupported => cases hSuccess
  | failed error => cases hSuccess
  | noticed binding hDry => rw [hDry, Outcome.isRecord]
  | parsed language node hDry => rw [hDry, Outcome.isRecord]

/-- Unless files without a language are errors, just these are left out as unsupported. -/
theorem process_unsupported_iff (hStrict : p.options.strict = false) {fs : FileSystem}
    {path : String} {pool : Pool} :
    (p.process fs path pool).1 = .skipped path "unsupported" ↔ p.registry.classify path = none := by
  rw [process, work]
  cases hClass : p.registry.classify path with
  | none =>
    simp only [Work.run, Outcome.ofResult, Processor.unsupported, hStrict]
    cases extensionOf? path <;> simp
  | some binding =>
    simp only [reduceCtorEq, iff_false]
    split
    · exact Outcome.noConfusion
    · cases readSource fs (Path.ofString path).text p.options.maxBytes with
      | error raised => exact Outcome.noConfusion
      | ok bytes =>
        simp only [Work.run, Outcome.ofResult]
        rcases (pool.parse p.grammars binding.languageId bytes).1 with raised | _ | tree
        · exact Outcome.noConfusion
        · exact Outcome.noConfusion
        · exact Outcome.noConfusion

variable (p)

/-- With a sound pool, a file has the outcome that the work on it comes to. -/
theorem process_sound (fs : FileSystem) (path : String) {pool : Pool} (hSound : pool.Sound) :
    (p.process fs path pool).1 = outcomeOf p.grammars (p.work fs) path ∧
      (p.process fs path pool).2.Sound := by
  obtain ⟨hResult, hAfter⟩ := Work.run_spec (p.work fs path) hSound rfl
  exact ⟨congrArg (Outcome.ofResult path) hResult, hAfter⟩

/-! ## A file with one leaf -/

/-- A processor whose parsers find one leaf in every file. -/
def leafy : Processor := { grammars := fun _ => .ok fun _ => .ok (some default) }

/-- An empty source file, and a file with one line. -/
def twoFiles : FileSystem :=
  ⟨.directory [("solo.go", .file .empty), ("out", .file "-\n".toUTF8)], []⟩

theorem stat_twoFiles :
    twoFiles.stat "gone" = .error .notFound ∧ twoFiles.stat "solo.go" = .ok (.file .empty) ∧
      twoFiles.stat "out" = .ok (.file "-\n".toUTF8) :=
  ⟨FileSystem.stat_of_along rfl (by decide) rfl, FileSystem.stat_of_along rfl (by decide) rfl,
    FileSystem.stat_of_along rfl (by decide) rfl⟩

/-- The source file is parsed. -/
theorem leafy_process :
    ∃ language rendered document, (leafy.process twoFiles "solo.go" {}).1
      = .success "solo.go" language rendered (some document) false := by
  have hText : (Path.ofString "solo.go").text = "solo.go" := by decide
  have hRead : readSource twoFiles "solo.go" leafy.options.maxBytes = .ok .empty := by
    have hSmall : ¬ leafy.options.maxBytes < ((Entry.file .empty).size : Int) := by decide
    have hValid : Utf8.isValid .empty := by
      simp [Utf8.isValid, Utf8.decode, Utf8.decodeFrom, Except.toOption]
    simp only [readSource, FileSystem.read, stat_twoFiles.2.1, if_neg hSmall, if_pos hValid]
  obtain ⟨binding, hBinding⟩ := Option.isSome_iff_exists.mp
    (show (leafy.registry.classify "solo.go").isSome by decide)
  rw [process, work, hBinding, hText, hRead]
  exact ⟨_, _, _, rfl⟩

end Processor

end TreeDump
