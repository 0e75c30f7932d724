import TreeDump.Proofs.Grammar.Pool
import TreeDump.Run.Dispatch

/-!
# What work comes to

As long as the pool is sound, it does not matter which parser is borrowed, so work comes to its
result both when it is done in one go and when it is done step by step while others use the pool.

* `Work.run_spec`: work that is done in one go comes to its result.
* `Stage.step_spec`: a step of a worker keeps what its work comes to, and it keeps the parsers of
  all other workers good.
-/

namespace TreeDump

/-- Work that is done in one go comes to its result. -/
theorem Work.run_spec {grammars : GrammarSource} (work : Work) {pool after : Pool}
    {result : Except Raised Outcome} (hSound : pool.Sound)
    (hRun : work.run grammars pool = (result, after)) :
    result = work.result grammars ∧ after.Sound := by
  induction work generalizing pool with
  | finish done =>
    obtain ⟨rfl, rfl⟩ := Prod.mk.inj hRun
    exact ⟨rfl, hSound⟩
  | parse language bytes resume ih =>
    rw [run] at hRun
    split at hRun
    rename_i parsed between hParse
    obtain ⟨rfl, hBetween⟩ := Pool.parse_spec hSound hParse
    exact ih _ hBetween hRun

/-- The number of steps that a worker takes for the rest of its work. -/
def Work.cost (grammars : GrammarSource) : Work → Nat
  | finish _ => 0
  | parse language bytes resume => (resume (grammars.parsed language bytes)).cost grammars + 4

namespace Stage

/-- What the work comes to from where it stands. -/
def result (grammars : GrammarSource) : Stage → Except Raised Outcome
  | working work => work.result grammars
  | building language bytes resume => (resume (grammars.parsed language bytes)).result grammars
  | holding language _ bytes resume => (resume (grammars.parsed language bytes)).result grammars
  | returning _ _ tree resume => (resume (.ok tree)).result grammars

/-- The number of steps from where the work stands. -/
def cost (grammars : GrammarSource) : Stage → Nat
  | working work => work.cost grammars
  | building language bytes resume => (resume (grammars.parsed language bytes)).cost grammars + 3
  | holding language _ bytes resume => (resume (grammars.parsed language bytes)).cost grammars + 2
  | returning _ _ tree resume => (resume (.ok tree)).cost grammars + 1

/-- That the parser in hand, if there is one, was built for the language that it is used for. -/
def Fits (pool : Pool) : Stage → Prop
  | holding language parser _ _ => pool.BuiltFor language parser
  | returning language parser _ _ => pool.BuiltFor language parser
  | _ => True

theorem Fits.of_keeps {stage : Stage} {before after : Pool} (hFits : stage.Fits before)
    (hKeeps : before.Keeps after) : stage.Fits after := by
  cases stage with
  | working work => trivial
  | building language bytes resume => trivial
  | holding language parser bytes resume => exact hKeeps language parser hFits
  | returning language parser tree resume => exact hKeeps language parser hFits

/-- A step of a worker keeps what its work comes to, takes one step off the rest, and leaves a
sound pool in which no parser changed its language. -/
structure Follows (grammars : GrammarSource) (stage : Stage) (pool : Pool) (next : Stage)
    (after : Pool) : Prop where
  result_eq : next.result grammars = stage.result grammars
  cost_lt : next.cost grammars < stage.cost grammars
  fits : next.Fits after
  sound : after.Sound
  keeps : pool.Keeps after

variable {grammars : GrammarSource} {next : Stage} {pool after : Pool} {language : String}
  {bytes : ByteArray} {resume : Except Raised (Option SyntaxTree) → Work}

theorem working_spec (hSound : pool.Sound)
    (hStep : (working (.parse language bytes resume)).step grammars pool = some (next, after)) :
    Follows grammars (working (.parse language bytes resume)) pool next after := by
  rw [step] at hStep
  split at hStep
  · rename_i parser taken hTake
    obtain ⟨rfl, rfl⟩ := Prod.mk.inj (Option.some.inj hStep)
    obtain ⟨hTaken, hKeeps, hBuilt⟩ := Pool.take_spec hSound hTake
    refine ⟨rfl, ?_, hBuilt parser rfl, hTaken, hKeeps⟩
    rw [cost, cost, Work.cost]
    omega
  · rename_i taken hTake
    obtain ⟨rfl, rfl⟩ := Prod.mk.inj (Option.some.inj hStep)
    obtain ⟨hTaken, hKeeps, -⟩ := Pool.take_spec hSound hTake
    refine ⟨rfl, ?_, trivial, hTaken, hKeeps⟩
    rw [cost, cost, Work.cost]
    omega

theorem building_spec (hSound : pool.Sound)
    (hStep : (building language bytes resume).step grammars pool = some (next, after)) :
    Follows grammars (building language bytes resume) pool next after := by
  rw [step] at hStep
  split at hStep
  · rename_i parser built hBuild
    obtain ⟨rfl, rfl⟩ := Prod.mk.inj (Option.some.inj hStep)
    obtain ⟨hAfter, hKeeps, hGranted⟩ := Pool.build_spec hSound hBuild
    refine ⟨rfl, ?_, hGranted, hAfter, hKeeps⟩
    rw [cost, cost]
    omega
  · rename_i raised built hBuild
    obtain ⟨rfl, rfl⟩ := Prod.mk.inj (Option.some.inj hStep)
    obtain ⟨hAfter, hKeeps, hGranted⟩ := Pool.build_spec hSound hBuild
    have hGrammar : grammars language = .error raised := hGranted
    have hParsed : grammars.parsed language bytes = .error raised := by
      rw [GrammarSource.parsed, hGrammar]
    refine ⟨?_, ?_, trivial, hAfter, hKeeps⟩
    · rw [result, result, hParsed]
    · rw [cost, cost, hParsed]
      omega

theorem holding_spec {parser : Nat} (hSound : pool.Sound)
    (hFits : pool.BuiltFor language parser)
    (hStep : (holding language parser bytes resume).step grammars pool = some (next, after)) :
    Follows grammars (holding language parser bytes resume) pool next after := by
  rw [step, Pool.action_eq hFits] at hStep
  split at hStep
  · rename_i tree hParsed
    obtain ⟨rfl, rfl⟩ := Prod.mk.inj (Option.some.inj hStep)
    refine ⟨?_, ?_, hFits, hSound, Pool.Keeps.refl _⟩
    · rw [result, result, hParsed]
    · rw [cost, cost, hParsed]
      omega
  · rename_i raised hParsed
    obtain ⟨rfl, rfl⟩ := Prod.mk.inj (Option.some.inj hStep)
    refine ⟨?_, ?_, trivial, hSound, Pool.Keeps.refl _⟩
    · rw [result, result, hParsed]
    · rw [cost, cost, hParsed]
      omega

theorem step_spec {stage : Stage} (hSound : pool.Sound) (hFits : stage.Fits pool)
    (hStep : stage.step grammars pool = some (next, after)) :
    Follows grammars stage pool next after := by
  cases stage with
  | working work =>
    cases work with
    | finish result => cases hStep
    | parse language bytes resume => exact working_spec hSound hStep
  | building language bytes resume => exact building_spec hSound hStep
  | holding language parser bytes resume => exact holding_spec hSound hFits hStep
  | returning language parser tree resume =>
    rw [step] at hStep
    obtain ⟨rfl, rfl⟩ := Prod.mk.inj (Option.some.inj hStep)
    refine ⟨rfl, ?_, trivial, Pool.release_sound hSound hFits,
      Pool.keeps_release pool language parser⟩
    rw [cost, cost]
    omega

/-- A worker that cannot go on is done with its work. -/
theorem exists_step (grammars : GrammarSource) (stage : Stage) (pool : Pool) :
    (∃ result, stage = .working (.finish result)) ∨
      ∃ next after, stage.step grammars pool = some (next, after) := by
  cases stage with
  | working work =>
    cases work with
    | finish result => exact Or.inl ⟨result, rfl⟩
    | parse language bytes resume =>
      refine Or.inr ?_
      rw [step]
      split
      · exact ⟨_, _, rfl⟩
      · exact ⟨_, _, rfl⟩
  | building language bytes resume =>
    refine Or.inr ?_
    rw [step]
    split
    · exact ⟨_, _, rfl⟩
    · exact ⟨_, _, rfl⟩
  | holding language parser bytes resume =>
    refine Or.inr ?_
    rw [step]
    split
    · exact ⟨_, _, rfl⟩
    · exact ⟨_, _, rfl⟩
  | returning language parser tree resume => exact Or.inr ⟨_, _, rfl⟩

end Stage

end TreeDump
