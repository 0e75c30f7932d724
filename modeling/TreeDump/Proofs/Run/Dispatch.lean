import Mathlib.Data.List.Perm.Basic
import TreeDump.Proofs.Run.Batch
import TreeDump.Weight

/-!
# Workers do not disturb each other

The steps of workers and coordinator may come in any order.  `Invariant` says what holds in between:
no file is lost or taken twice, each piece of work stands somewhere on the way to the outcome that
the file has by itself, and what was told and counted so far are the outcomes of the files handled.
Every step keeps it and brings the batch nearer to its end.

* `Invariant.step`: the step lemma.
* `exists_step`: as long as not all is done, there is a next step.
* `ends_orderIndependent`: whatever the order, a batch ends, and with the counts, records and
  notices of the files worked on one after the other.
-/

namespace TreeDump.Dispatch

variable {d : Dispatch} {s : Session}

/-- The outcome of a file by itself. -/
def outcome (d : Dispatch) (path : String) : Outcome := outcomeOf d.grammars d.work path

/-- The files that a state knows of, wherever they are. -/
def State.files (state : State) : List String :=
  state.handled.map Prod.fst ++ (state.finished.map Prod.fst
    ++ (state.running.map Job.path ++ state.queue))

/-- What holds of every state that a batch comes to from the session `s`. -/
structure Invariant (d : Dispatch) (s : Session) (state : State) : Prop where
  accounted : state.files.Perm d.files
  told : Tells d.options d.files.length (state.handled.map Prod.snd)
    (opened d.options d.files.length s) state.session
  ready : state.session.toOutputs.Ready
  sound : state.session.pool.Sound
  jobs : ∀ job ∈ state.running, job.stage.Fits state.session.pool ∧
    job.stage.result d.grammars = (d.work job.path).result d.grammars
  outcomes : ∀ entry ∈ state.handled ++ state.finished, entry.2 = d.outcome entry.1
  counts : state.counts = Counts.ofOutcomes (state.handled.map Prod.snd)

/-- A bound on the number of steps that are left. -/
def State.cost (d : Dispatch) (state : State) : Nat :=
  weigh (fun path => (d.work path).cost d.grammars + 3) state.queue
    + weigh (fun job => job.stage.cost d.grammars + 2) state.running + state.finished.length

namespace Invariant

theorem start (d : Dispatch) (hSound : s.pool.Sound) (hReady : s.toOutputs.Ready) :
    Invariant d s (d.start s) where
  accounted := .refl _
  told := Tells.nil _ _ _
  ready := hReady
  sound := hSound
  jobs := by
    intro job hJob
    cases hJob
  outcomes := by
    intro entry hEntry
    cases hEntry
  counts := rfl

/-! ## Steps -/

variable {state : State}

theorem step_start (h : Invariant d s state) {path : String} {rest : List String}
    (hQueue : state.queue = path :: rest) :
    Invariant d s { state with
      queue := rest, running := state.running ++ [⟨path, .working (d.work path)⟩] } := by
  refine ⟨?_, h.told, h.ready, h.sound, ?_, h.outcomes, h.counts⟩
  · have hAccounted := h.accounted
    rw [State.files, hQueue] at hAccounted
    simpa only [State.files, List.map_append, List.map_cons, List.map_nil, List.append_assoc,
      List.singleton_append] using hAccounted
  · intro job hJob
    rcases List.mem_append.mp hJob with hOld | hNew
    · exact h.jobs job hOld
    · obtain rfl := List.mem_singleton.mp hNew
      exact ⟨trivial, rfl⟩

theorem step_work (h : Invariant d s state) {before after : List Job} {job : Job} {stage : Stage}
    {pool : Pool} (hRunning : state.running = before ++ job :: after)
    (hStep : job.stage.step d.grammars state.session.pool = some (stage, pool)) :
    Invariant d s { state with
      running := before ++ ⟨job.path, stage⟩ :: after
      session := { state.session with pool } } := by
  have hJobs := h.jobs
  rw [hRunning, List.forall_mem_append, List.forall_mem_cons] at hJobs
  obtain ⟨hBefore, ⟨hFits, hResult⟩, hAfter⟩ := hJobs
  have hNext := Stage.step_spec h.sound hFits hStep
  refine ⟨?_, ⟨h.told.written, h.told.progress⟩, h.ready, hNext.sound, ?_, h.outcomes, h.counts⟩
  · have hAccounted := h.accounted
    rw [State.files, hRunning] at hAccounted
    simpa only [State.files, List.map_append, List.map_cons] using hAccounted
  · rw [List.forall_mem_append, List.forall_mem_cons]
    refine ⟨?_, ⟨hNext.fits, hNext.result_eq.trans hResult⟩, ?_⟩
    · intro other hOther
      exact ⟨(hBefore other hOther).1.of_keeps hNext.keeps, (hBefore other hOther).2⟩
    · intro other hOther
      exact ⟨(hAfter other hOther).1.of_keeps hNext.keeps, (hAfter other hOther).2⟩

theorem step_finish (h : Invariant d s state) {before after : List Job} {path : String}
    {result : Except Raised Outcome}
    (hRunning : state.running = before ++ ⟨path, .working (.finish result)⟩ :: after) :
    Invariant d s { state with
      running := before ++ after
      finished := state.finished ++ [(path, .ofResult path result)] } := by
  have hJobs := h.jobs
  rw [hRunning, List.forall_mem_append, List.forall_mem_cons] at hJobs
  obtain ⟨hBefore, ⟨-, hResult⟩, hAfter⟩ := hJobs
  refine ⟨?_, h.told, h.ready, h.sound, ?_, ?_, h.counts⟩
  · refine List.Perm.trans ?_ h.accounted
    rw [List.perm_iff_count]
    intro file
    simp only [State.files, hRunning, List.map_append, List.map_cons, List.map_nil,
      List.count_append, List.count_cons, List.count_nil]
    omega
  · exact List.forall_mem_append.mpr ⟨hBefore, hAfter⟩
  · rw [← List.append_assoc, List.forall_mem_append]
    refine ⟨h.outcomes, ?_⟩
    intro entry hEntry
    obtain rfl := List.mem_singleton.mp hEntry
    exact congrArg (Outcome.ofResult path) hResult

theorem step_handle (h : Invariant d s state) {before after : List (String × Outcome)}
    {path : String} {outcome : Outcome} {session : Session}
    (hFinished : state.finished = before ++ (path, outcome) :: after)
    (hHandle : (TreeDump.handle d.options d.files.length outcome).run.run state.session
      = (.ok (), session)) :
    Invariant d s { state with
      session
      finished := before ++ after
      handled := state.handled ++ [(path, outcome)]
      counts := state.counts.add outcome } := by
  obtain ⟨told, hRun, hTells, hReady, hPool⟩ :=
    handle_spec d.options d.files.length outcome h.ready
  rw [hHandle] at hRun
  obtain ⟨-, rfl⟩ := Prod.mk.inj hRun
  have hOutcomes := h.outcomes
  refine ⟨?_, ?_, hReady, ?_, ?_, ?_, ?_⟩
  · refine List.Perm.trans ?_ h.accounted
    rw [List.perm_iff_count]
    intro file
    simp only [State.files, hFinished, List.map_append, List.map_cons, List.map_nil,
      List.count_append, List.count_cons, List.count_nil]
    omega
  · rw [List.map_append]
    exact h.told.append hTells
  · rw [hPool]
    exact h.sound
  · intro job hJob
    rw [hPool]
    exact h.jobs job hJob
  · rw [hFinished] at hOutcomes
    intro entry hEntry
    refine hOutcomes entry ?_
    simp only [List.mem_append, List.mem_cons, List.not_mem_nil, or_false] at hEntry ⊢
    tauto
  · rw [List.map_append, List.map_singleton, Counts.ofOutcomes_append, h.counts]

/-- Every step keeps what holds, and leaves fewer steps to take. -/
theorem step {next : State} (h : Invariant d s state) (hStep : d.Step state next) :
    Invariant d s next ∧ next.cost d < state.cost d := by
  cases hStep with
  | start hQueue hFree =>
    refine ⟨h.step_start hQueue, ?_⟩
    simp only [State.cost, hQueue, weigh_append, weigh, Stage.cost]
    omega
  | work hRunning hStep =>
    refine ⟨h.step_work hRunning hStep, ?_⟩
    rename_i before after job stage pool
    have hJob : job ∈ state.running := by
      rw [hRunning]
      exact List.mem_append_right _ List.mem_cons_self
    have hLess := (Stage.step_spec h.sound (h.jobs job hJob).1 hStep).cost_lt
    simp only [State.cost, hRunning, weigh_append, weigh]
    omega
  | finish hRunning =>
    refine ⟨h.step_finish hRunning, ?_⟩
    simp only [State.cost, hRunning, weigh_append, weigh, List.length_append,
      List.length_singleton]
    omega
  | handle hFinished hHandle =>
    refine ⟨h.step_handle hFinished hHandle, ?_⟩
    simp only [State.cost, hFinished, List.length_append, List.length_cons]
    omega

theorem steps {next : State} (h : Invariant d s state) (hSteps : d.Steps state next) :
    Invariant d s next := by
  induction hSteps with
  | none => exact h
  | more _ hStep ih => exact (ih.step hStep).1

/-- There is no endless row of steps. -/
theorem acc (h : Invariant d s state) : Acc (fun next state => d.Step state next) state := by
  induction hCost : state.cost d using Nat.strongRecOn generalizing state with
  | ind cost ih =>
    refine Acc.intro state fun next hStep => ?_
    obtain ⟨hNext, hLess⟩ := h.step hStep
    exact ih (next.cost d) (hCost ▸ hLess) hNext rfl

/-- As long as not all files were told of, there is a next step. -/
theorem exists_step (h : Invariant d s state) (hThreads : 1 ≤ d.options.threads)
    (hOpen : ¬ state.Done) : ∃ next, d.Step state next := by
  by_cases hFinished : state.finished = []
  · by_cases hRunning : state.running = []
    · -- with no worker busy, the first worker is free for the queue
      cases hQueue : state.queue with
      | nil => exact (hOpen ⟨hQueue, hRunning, hFinished⟩).elim
      | cons path rest =>
        refine ⟨_, .start hQueue ?_⟩
        rw [hRunning, List.length_nil]
        omega
    · obtain ⟨job, rest, hJobs⟩ := List.exists_cons_of_ne_nil hRunning
      obtain ⟨path, stage⟩ := job
      rcases stage.exists_step d.grammars state.session.pool with ⟨result, rfl⟩ | ⟨_, _, hStep⟩
      · have hFirst : state.running = [] ++ ⟨path, .working (.finish result)⟩ :: rest := hJobs
        exact ⟨_, .finish hFirst⟩
      · have hFirst : state.running = [] ++ ⟨path, stage⟩ :: rest := hJobs
        exact ⟨_, .work hFirst hStep⟩
  · obtain ⟨⟨path, outcome⟩, rest, hEntries⟩ := List.exists_cons_of_ne_nil hFinished
    obtain ⟨_, hHandle, -⟩ := handle_spec d.options d.files.length outcome h.ready
    have hFirst : state.finished = [] ++ (path, outcome) :: rest := hEntries
    exact ⟨_, .handle hFirst hHandle⟩

/-- So from every state that a batch comes to, it can be brought to its end. -/
theorem exists_done {first : State} (h : Invariant d s state) (hThreads : 1 ≤ d.options.threads)
    (hSteps : d.Steps first state) : ∃ last, d.Steps first last ∧ last.Done := by
  induction h.acc with
  | intro state _ ih =>
    by_cases hDone : state.Done
    · exact ⟨state, hSteps, hDone⟩
    · obtain ⟨next, hStep⟩ := h.exists_step hThreads hDone
      exact ih next hStep (h.step hStep).1 (.more hSteps hStep)

/-- In the end each file was told of once, with the outcome that it has by itself. -/
theorem handled_perm (h : Invariant d s state) (hDone : state.Done) :
    state.handled.Perm (d.files.map fun path => (path, d.outcome path)) := by
  obtain ⟨hQueue, hRunning, hFinished⟩ := hDone
  have hFiles : (state.handled.map Prod.fst).Perm d.files := by
    have hAccounted := h.accounted
    rw [State.files, hQueue, hRunning, hFinished] at hAccounted
    simpa only [List.map_nil, List.append_nil] using hAccounted
  have hPairs : state.handled
      = (state.handled.map Prod.fst).map fun path => (path, d.outcome path) := by
    rw [List.map_map]
    refine (List.map_id _).symm.trans (List.map_congr_left ?_)
    intro entry hEntry
    exact Prod.ext rfl (h.outcomes entry (List.mem_append_left _ hEntry))
  rw [hPairs]
  exact hFiles.map _

end Invariant

/-! ## The end of a batch -/

/-- What the files of a batch have written, in the order of the files. -/
def emissions (d : Dispatch) : List Emission :=
  (d.files.map d.outcome).filterMap (Outcome.emission? d.options)

/-- The calls on the display of progress between its start and its completion. -/
def Advances (calls : List ProgressCall) (total : Nat) : Prop :=
  calls.length = total ∧ ∀ call ∈ calls, ∃ description, call = .update 1 description

/-- What is shown of a batch of files: nothing, or a display that advances by each file. -/
def ShowsProgress (d : Dispatch) (before after : List ProgressCall) : Prop :=
  if d.files ≠ [] ∧ d.options.showsProgress d.files.length then
    ∃ calls, Advances calls d.files.length ∧
      after = before ++ .start "Processing files" d.files.length :: calls
        ++ [.update 0 (some "Complete")]
  else after = before

theorem advances_progressCalls {options : ReportOptions} {total : Nat}
    (hShown : options.showsProgress total) (outcomes : List Outcome) :
    Advances (outcomes.flatMap fun outcome => progressCalls options total outcome.path)
      outcomes.length := by
  have hOne : ∀ path, ∃ description, progressCalls options total path
      = [.update 1 description] := by
    intro path
    rw [progressCalls, hShown]
    cases options.verbose with
    | true => exact ⟨_, rfl⟩
    | false => exact ⟨_, rfl⟩
  induction outcomes with
  | nil => exact ⟨rfl, fun _ hCall => by cases hCall⟩
  | cons outcome rest ih =>
    obtain ⟨description, hCalls⟩ := hOne outcome.path
    rw [List.flatMap_cons, hCalls]
    refine ⟨?_, ?_⟩
    · rw [List.length_append, ih.1, List.length_cons]
      exact Nat.add_comm _ _
    · intro call hCall
      rcases List.mem_append.mp hCall with hFirst | hRest
      · exact ⟨description, List.mem_singleton.mp hFirst⟩
      · exact ih.2 call hRest

theorem progressCalls_hidden {options : ReportOptions} {total : Nat}
    (hHidden : options.showsProgress total = false) (outcomes : List Outcome) :
    (outcomes.flatMap fun outcome => progressCalls options total outcome.path) = [] := by
  rw [List.flatMap_eq_nil_iff]
  intro outcome _
  rw [progressCalls, hHidden]
  rfl

theorem Invariant.showsProgress {state : State} (h : Invariant d s state) (hDone : state.Done)
    (hFiles : d.files ≠ []) :
    d.ShowsProgress s.progress
      (closed d.options d.files.length state.counts state.session).progress := by
  have hLength : (state.handled.map Prod.snd).length = d.files.length := by
    rw [List.length_map, (h.handled_perm hDone).length_eq, List.length_map]
  have hProgress := h.told.progress
  rw [ShowsProgress]
  cases hShown : d.options.showsProgress d.files.length with
  | true =>
    have hAdvances := advances_progressCalls hShown (state.handled.map Prod.snd)
    rw [hLength] at hAdvances
    rw [if_pos ⟨hFiles, rfl⟩]
    refine ⟨_, hAdvances, ?_⟩
    simp only [closed, opened, hShown, if_true, hProgress, List.append_assoc, List.cons_append,
      List.nil_append]
  | false =>
    rw [if_neg (by simp)]
    rw [progressCalls_hidden hShown] at hProgress
    simp only [closed, hShown, hProgress, opened, Bool.false_eq_true, if_false, List.append_nil]

/-- Whatever order the steps of the workers and of the coordinator come in, a batch goes on until
it ends.  Each file was then told of exactly once, with the outcome that its own work comes to,
which is one failure if the work was interrupted; the counts are those of the files worked on one
after the other, and so are the records and notices that were written, but for their order.  If
progress is shown, it advanced once for each file. -/
theorem ends_orderIndependent (d : Dispatch) (s : Session) (hThreads : 1 ≤ d.options.threads)
    (hSound : s.pool.Sound) (hReady : s.toOutputs.Ready) :
    (∃ one, (runBatch d.options (Work.task d.grammars d.work) d.files).run.run s
        = (.ok (Counts.ofOutcomes (d.files.map d.outcome)), one) ∧
      s.toOutputs.writeAll d.emissions = .ok one.toOutputs) ∧
    (Counts.ofOutcomes (d.files.map d.outcome)).total = d.files.length ∧
    (∀ path raised, (d.work path).result d.grammars = .error raised →
      d.outcome path = .interrupted path raised ∧
      Counts.ofOutcome (d.outcome path) = { error := 1 }) ∧
    Acc (fun next state => d.Step state next) (d.start s) ∧
    (∀ state, d.Steps (d.start s) state → ¬ state.Done → ∃ next, d.Step state next) ∧
    (∃ handled counts after, d.Ends s handled counts after) ∧
    ∀ handled counts after, d.Ends s handled counts after →
      counts = Counts.ofOutcomes (d.files.map d.outcome) ∧
      handled.Perm (d.files.map fun path => (path, d.outcome path)) ∧
      (∃ written, written.Perm d.emissions ∧
        s.toOutputs.writeAll written = .ok after.toOutputs) ∧
      d.ShowsProgress s.progress after.progress ∧ after.pool.Sound := by
  have hStart := Invariant.start d hSound hReady
  refine ⟨?_, ?_, ?_, hStart.acc, ?_, ?_, ?_⟩
  · exact runBatch_spec d.grammars d.work d.options d.files hSound hReady
  · rw [Counts.total_ofOutcomes, List.length_map]
  · intro path raised hRaised
    have hOutcome : d.outcome path = .interrupted path raised :=
      congrArg (Outcome.ofResult path) hRaised
    refine ⟨hOutcome, ?_⟩
    rw [hOutcome]
    rfl
  · intro state hSteps hOpen
    exact (hStart.steps hSteps).exists_step hThreads hOpen
  · by_cases hFiles : d.files = []
    · exact ⟨_, _, _, .nothing hFiles⟩
    · obtain ⟨last, hSteps, hDone⟩ := hStart.exists_done hThreads .none
      exact ⟨_, _, _, .done hFiles hSteps hDone⟩
  · intro handled counts after hEnds
    cases hEnds with
    | nothing hFiles =>
      have hNone : d.files.map d.outcome = [] := by rw [hFiles, List.map_nil]
      have hShown : d.ShowsProgress s.progress s.progress := by
        rw [ShowsProgress, if_neg (fun hSome => hSome.1 hFiles)]
      rw [hNone, hFiles]
      exact ⟨rfl, .refl _, ⟨[], List.nil_perm.mpr (by rw [emissions, hNone]; rfl), rfl⟩, hShown,
        hSound⟩
    | done hFiles hSteps hDone =>
      rename_i state
      have h := hStart.steps hSteps
      have hHandled := h.handled_perm hDone
      have hOutcomes : (state.handled.map Prod.snd).Perm (d.files.map d.outcome) := by
        have hMap := hHandled.map Prod.snd
        rw [List.map_map] at hMap
        exact hMap
      refine ⟨?_, hHandled, ⟨_, hOutcomes.filterMap _, h.told.written⟩,
        h.showsProgress hDone hFiles, h.sound⟩
      rw [h.counts]
      exact Counts.ofOutcomes_perm hOutcomes

/-- Two workers on three files: the work on one file is interrupted, and one file is there
twice. -/
theorem ends_orderIndependent_interrupted :
    let d : Dispatch :=
      { grammars := fun _ => .ok fun _ => .ok none
        work := fun path =>
          if path = "a" then .finish (.error (.foreign "RuntimeError" "boom"))
          else .parse "python" .empty fun _ => .finish (.ok (.skipped path "unsupported"))
        options := { threads := 2 }
        files := ["b", "a", "b"] }
    1 ≤ d.options.threads ∧ ({} : Session).pool.Sound ∧ ({} : Session).toOutputs.Ready ∧
    ∀ handled counts after, d.Ends {} handled counts after → counts = ⟨0, 1, 2⟩ := by
  intro d
  have hSound : ({} : Session).pool.Sound := Pool.sound_empty _ _
  have hReady : ({} : Session).toOutputs.Ready := ⟨Or.inr rfl, Or.inr rfl⟩
  refine ⟨by decide, hSound, hReady, ?_⟩
  intro handled counts after hEnds
  obtain ⟨-, -, -, -, -, -, hAll⟩ := ends_orderIndependent d {} (by decide) hSound hReady
  exact (hAll handled counts after hEnds).1

end TreeDump.Dispatch
