import Mathlib.Data.List.Perm.Basic
import TreeDump.Proofs.Run.Reporting
import TreeDump.Proofs.Run.Work

/-!
# One file after the other

With a sound pool and ready sinks, a batch of files that are worked on one after the other is told
of in that order, and each file has the outcome that its own work comes to.

* `Counts.ofOutcomes_perm`, `Counts.total_ofOutcomes`: counts do not depend on the order of the
  outcomes, and count every one of them.
* `runBatch_spec`: what such a batch answers and writes.
-/

namespace TreeDump

/-! ## Counts of outcomes -/

namespace Counts

def ofOutcomes (outcomes : List Outcome) : Counts := outcomes.foldl add {}

theorem add_right_comm (counts : Counts) (a b : Outcome) :
    (counts.add a).add b = (counts.add b).add a := by
  simp only [add, merge, mk.injEq]
  omega

theorem ofOutcomes_perm {outcomes others : List Outcome} (hPerm : outcomes.Perm others) :
    ofOutcomes outcomes = ofOutcomes others :=
  hPerm.foldl_eq' (fun _ _ _ _ counts => add_right_comm counts _ _) {}

theorem ofOutcomes_append (outcomes : List Outcome) (outcome : Outcome) :
    ofOutcomes (outcomes ++ [outcome]) = (ofOutcomes outcomes).add outcome := by
  rw [ofOutcomes, ofOutcomes, List.foldl_append]
  rfl

theorem total_add (counts : Counts) (outcome : Outcome) :
    (counts.add outcome).total = counts.total + 1 := by
  cases outcome <;> simp only [add, merge, ofOutcome, total] <;> omega

theorem total_ofOutcomes (outcomes : List Outcome) :
    (ofOutcomes outcomes).total = outcomes.length := by
  have hFold : ∀ counts : Counts,
      (outcomes.foldl add counts).total = counts.total + outcomes.length := by
    induction outcomes with
    | nil =>
      intro counts
      exact (Int.add_zero _).symm
    | cons outcome rest ih =>
      intro counts
      rw [List.foldl_cons, ih, total_add, List.length_cons]
      omega
  rw [ofOutcomes, hFold]
  exact Int.zero_add _

end Counts

/-! ## Files -/

/-- The outcome of a file, as the work on it comes to it. -/
def outcomeOf (grammars : GrammarSource) (work : String → Work) (path : String) : Outcome :=
  .ofResult path ((work path).result grammars)

/-- A task answers what its work comes to, and changes nothing but the pool. -/
theorem Work.task_run {grammars : GrammarSource} {work : String → Work} {path : String}
    {s : Session} {result : Except Raised Outcome} {pool : Pool}
    (hRun : (work path).run grammars s.pool = (result, pool)) :
    (Work.task grammars work path).run.run s = (result, { s with pool }) := by
  rw [Work.task, Run.get_bind, hRun]
  cases result with
  | ok outcome => rfl
  | error raised => rfl

/-- The work on a file comes to its outcome, and leaves a sound pool. -/
theorem isolated_spec (grammars : GrammarSource) (work : String → Work) (path : String)
    {s : Session} (hSound : s.pool.Sound) :
    ∃ pool, (isolated (Work.task grammars work) path).run.run s
        = (.ok (outcomeOf grammars work path), { s with pool }) ∧ pool.Sound := by
  cases hRun : (work path).run grammars s.pool with
  | mk result pool =>
    obtain ⟨hResult, hAfter⟩ := Work.run_spec (work path) hSound hRun
    refine ⟨pool, ?_, hAfter⟩
    have hTask := Work.task_run hRun
    rw [isolated, outcomeOf, ← hResult]
    cases result with
    | ok outcome => exact Run.tryCatch_ok hTask
    | error raised =>
      rw [Run.tryCatch_error hTask]
      rfl

/-- Files that are worked on one after the other are told of in that order. -/
theorem runFiles_spec (grammars : GrammarSource) (work : String → Work) (options : ReportOptions)
    (total : Nat) (files : List String) (counts : Counts) {s : Session}
    (hSound : s.pool.Sound) (hReady : s.toOutputs.Ready) :
    ∃ after, (runFiles options total (Work.task grammars work) counts files).run.run s
        = (.ok ((files.map (outcomeOf grammars work)).foldl Counts.add counts), after) ∧
      Tells options total (files.map (outcomeOf grammars work)) s after := by
  induction files generalizing counts s with
  | nil => exact ⟨s, rfl, Tells.nil options total s⟩
  | cons path rest ih =>
    obtain ⟨pool, hIsolated, hPool⟩ := isolated_spec grammars work path hSound
    obtain ⟨handled, hHandle, hTells, hHandled, hSame⟩ :=
      handle_spec options total (outcomeOf grammars work path) (s := { s with pool }) hReady
    have hHandledSound : handled.pool.Sound := by
      rw [hSame]
      exact hPool
    obtain ⟨after, hRest, hTellsRest⟩ :=
      ih (counts.add (outcomeOf grammars work path)) hHandledSound hHandled
    refine ⟨after, ?_, ?_⟩
    · rw [runFiles, Run.bind_ok hIsolated, Run.bind_ok hHandle, hRest]
      rfl
    · have hFirst : Tells options total [outcomeOf grammars work path] s handled :=
        ⟨hTells.written, hTells.progress⟩
      exact hFirst.append hTellsRest

/-- A batch of files that are worked on one after the other. -/
theorem runBatch_spec (grammars : GrammarSource) (work : String → Work) (options : ReportOptions)
    (files : List String) {s : Session} (hSound : s.pool.Sound) (hReady : s.toOutputs.Ready) :
    ∃ after, (runBatch options (Work.task grammars work) files).run.run s
        = (.ok (Counts.ofOutcomes (files.map (outcomeOf grammars work))), after) ∧
      s.toOutputs.writeAll ((files.map (outcomeOf grammars work)).filterMap
        (Outcome.emission? options)) = .ok after.toOutputs := by
  cases files with
  | nil => exact ⟨s, rfl, rfl⟩
  | cons path rest =>
    obtain ⟨after, hFiles, hTells⟩ := runFiles_spec grammars work options
      (path :: rest).length (path :: rest) {} (s := opened options (path :: rest).length s)
      hSound hReady
    refine ⟨closed options (path :: rest).length
      (Counts.ofOutcomes ((path :: rest).map (outcomeOf grammars work))) after, ?_, ?_⟩
    · have hOpen : (modify (opened options (path :: rest).length) : Run Unit).run.run s
          = (.ok (), opened options (path :: rest).length s) := rfl
      rw [runBatch]
      simp only [List.isEmpty_cons, Bool.false_eq_true, if_false]
      rw [Run.bind_ok hOpen, Run.bind_ok hFiles]
      rfl
    · exact hTells.written

end TreeDump
