import TreeDump.Run.Batch

/-!
# What a run writes

A sink that is open, or that has no file to open, takes every record.  With such sinks, telling of
an outcome never fails; it writes the record or the notice of the outcome, if it has one, and moves
the display of progress on.

* `handle_spec`: what telling of one outcome changes.
* `Tells`: what telling of several outcomes changes, whatever happens to the pool meanwhile.
-/

namespace TreeDump

/-! ## Sinks that take everything -/

/-- That a sink needs no file to be opened. -/
def Sink.Ready (sink : Sink) : Prop := sink.destination.isSome ∨ sink.path = none

theorem Sink.write?_ready {sink : Sink} (hReady : sink.Ready) (text : String)
    (outlets : Outlets) : ∃ after outlets', sink.write? text outlets = .ok (after, outlets') ∧
      after.Ready := by
  obtain ⟨path, destination, written⟩ := sink
  cases destination with
  | some destination => exact ⟨_, _, rfl, Or.inl rfl⟩
  | none =>
    rcases hReady with hOpen | hPath
    · cases hOpen
    · obtain rfl : path = none := hPath
      exact ⟨_, _, rfl, Or.inl rfl⟩

namespace Outputs

/-- That neither of the sinks needs a file to be opened. -/
def Ready (outputs : Outputs) : Prop := outputs.sink.Ready ∧ outputs.notices.Ready

theorem write?_ready {outputs : Outputs} (hReady : outputs.Ready) (emission : Emission) :
    ∃ after, outputs.write? emission = .ok after ∧ after.Ready := by
  obtain ⟨hSink, hNotices⟩ := hReady
  cases emission with
  | record text =>
    obtain ⟨sink, outlets, hWrite, hAfter⟩ := Sink.write?_ready hSink text outputs.outlets
    exact ⟨{ outputs with sink, outlets }, by rw [write?, hWrite], hAfter, hNotices⟩
  | notice text =>
    obtain ⟨notices, outlets, hWrite, hAfter⟩ := Sink.write?_ready hNotices text outputs.outlets
    exact ⟨{ outputs with notices, outlets }, by rw [write?, hWrite], hSink, hAfter⟩

/-- Writes several texts, one after the other. -/
def writeAll (outputs : Outputs) : List Emission → Except Raised Outputs
  | [] => .ok outputs
  | emission :: rest =>
    match outputs.write? emission with
    | .ok after => after.writeAll rest
    | .error raised => .error raised

theorem writeAll_append {first middle last : Outputs} {earlier later : List Emission}
    (hEarlier : first.writeAll earlier = .ok middle) (hLater : middle.writeAll later = .ok last) :
    first.writeAll (earlier ++ later) = .ok last := by
  induction earlier generalizing first with
  | nil =>
    obtain rfl := Except.ok.inj hEarlier
    exact hLater
  | cons emission rest ih =>
    rw [writeAll] at hEarlier
    rw [List.cons_append, writeAll]
    split at hEarlier
    · exact ih hEarlier
    · cases hEarlier

end Outputs

/-! ## Steps of a run -/

/-- A step of a run that is not interrupted hands on what it answers. -/
theorem Run.bind_ok {α β : Type} {x : Run α} {f : α → Run β} {s after : Session} {a : α}
    (hX : x.run.run s = (.ok a, after)) : (x >>= f).run.run s = (f a).run.run after := by
  have hBind : (x >>= f).run.run s = ((x.run >>= ExceptT.bindCont f).run s) := rfl
  rw [hBind, StateT.run_bind, hX]
  rfl

theorem Run.get_bind {β : Type} (f : Session → Run β) (s : Session) :
    ((get : Run Session) >>= f).run.run s = (f s).run.run s :=
  Run.bind_ok rfl

/-- After an interruption, nothing more is done. -/
theorem Run.bind_error {α β : Type} {x : Run α} {f : α → Run β} {s after : Session}
    {raised : Raised} (hX : x.run.run s = (.error raised, after)) :
    (x >>= f).run.run s = (.error raised, after) := by
  have hBind : (x >>= f).run.run s = ((x.run >>= ExceptT.bindCont f).run s) := rfl
  rw [hBind, StateT.run_bind, hX]
  rfl

/-- Catching leaves alone what is not interrupted. -/
theorem Run.tryCatch_ok {α : Type} {x : Run α} {f : Raised → Run α} {s after : Session} {a : α}
    (hX : x.run.run s = (.ok a, after)) : (tryCatch x f).run.run s = (.ok a, after) := by
  have hState : StateT.run x s = (.ok a, after) := hX
  simp only [tryCatch, tryCatchThe, MonadExceptOf.tryCatch, ExceptT.tryCatch, ExceptT.run_mk,
    StateT.run_bind, hState]
  rfl

/-- After an interruption, catching goes on from where it happened. -/
theorem Run.tryCatch_error {α : Type} {x : Run α} {f : Raised → Run α} {s after : Session}
    {raised : Raised} (hX : x.run.run s = (.error raised, after)) :
    (tryCatch x f).run.run s = (f raised).run.run after := by
  have hState : StateT.run x s = (.error raised, after) := hX
  simp only [tryCatch, tryCatchThe, MonadExceptOf.tryCatch, ExceptT.tryCatch, ExceptT.run_mk,
    StateT.run_bind, hState]
  rfl

/-- What was not interrupted was not interrupted before either. -/
theorem Run.bind_eq_ok {α β : Type} {x : Run α} {f : α → Run β} {s last : Session} {b : β}
    (hBind : (x >>= f).run.run s = (.ok b, last)) :
    ∃ a middle, x.run.run s = (.ok a, middle) ∧ (f a).run.run middle = (.ok b, last) := by
  cases hX : x.run.run s with
  | mk answer middle =>
    cases answer with
    | ok a => exact ⟨a, middle, rfl, (Run.bind_ok hX).symm.trans hBind⟩
    | error raised => cases (Run.bind_error hX).symm.trans hBind

theorem Run.emit_eq {s : Session} {emission : Emission} {outputs : Outputs}
    (hWrite : s.toOutputs.write? emission = .ok outputs) :
    (Run.emit emission).run.run s = (.ok (), { s with toOutputs := outputs }) := by
  rw [Run.emit, Run.get_bind, hWrite]
  rfl

/-! ## Telling of outcomes -/

/-- The text that is written of an outcome, if any is. -/
def Outcome.emission? (options : ReportOptions) : Outcome → Option Emission
  | .success _ _ rendered _ true => if options.quiet then none else some (.notice rendered)
  | .success _ _ rendered _ false => some (.record rendered)
  | .skipped _ _ => none
  | .failed _ _ => none

def Emission.record? : Emission → Option String
  | record text => some text
  | notice _ => none

theorem Outcome.filterMap_emission?_singleton (options : ReportOptions) (outcome : Outcome) :
    [outcome].filterMap (emission? options) = (outcome.emission? options).toList := by
  rw [List.filterMap_cons]
  cases outcome.emission? options <;> rfl

/-- What telling of outcomes, out of `total`, changes: their texts are written, and the display of
progress moves on by each of them. -/
structure Tells (options : ReportOptions) (total : Nat) (outcomes : List Outcome)
    (before after : Session) : Prop where
  written : before.toOutputs.writeAll (outcomes.filterMap (Outcome.emission? options))
    = .ok after.toOutputs
  progress : after.progress = before.progress
    ++ outcomes.flatMap fun outcome => progressCalls options total outcome.path

namespace Tells

variable {options : ReportOptions} {total : Nat} {outcomes others : List Outcome}
  {first middle last : Session}

theorem nil (options : ReportOptions) (total : Nat) (s : Session) :
    Tells options total [] s s := ⟨rfl, (List.append_nil _).symm⟩

theorem append (hEarlier : Tells options total outcomes first middle)
    (hLater : Tells options total others middle last) :
    Tells options total (outcomes ++ others) first last := by
  refine ⟨?_, ?_⟩
  · rw [List.filterMap_append]
    exact Outputs.writeAll_append hEarlier.written hLater.written
  · rw [hLater.progress, hEarlier.progress, List.flatMap_append, List.append_assoc]

end Tells

/-- A line of the log that is written on a condition changes nothing but the log. -/
theorem log_when (condition : Bool) (level : LogLevel) (message : String) (s : Session) :
    ∃ log, (if condition then Run.log level message else pure ()).run.run s
      = (.ok (), { s with log }) := by
  cases condition with
  | true => exact ⟨s.log ++ [⟨level, message⟩], rfl⟩
  | false => exact ⟨s.log, rfl⟩

/-- With ready sinks, a text is written without interruption. -/
theorem emit_spec {s : Session} (hReady : s.toOutputs.Ready) (emission : Emission) :
    ∃ outputs, (Run.emit emission).run.run s = (.ok (), { s with toOutputs := outputs }) ∧
      s.toOutputs.writeAll [emission] = .ok outputs ∧ outputs.Ready := by
  obtain ⟨outputs, hWrite, hAfter⟩ := Outputs.write?_ready hReady emission
  refine ⟨outputs, Run.emit_eq hWrite, ?_, hAfter⟩
  rw [Outputs.writeAll, hWrite]
  rfl

/-- A text that was emitted without interruption was written, and nothing else was done. -/
theorem emit_eq_ok {emission : Emission} {s after : Session}
    (hEmit : (Run.emit emission).run.run s = (.ok (), after)) :
    s.toOutputs.writeAll [emission] = .ok after.toOutputs ∧ after.pool = s.pool := by
  rw [Run.emit, Run.get_bind] at hEmit
  cases hWrite : s.toOutputs.write? emission with
  | ok outputs =>
    rw [hWrite] at hEmit
    obtain ⟨-, rfl⟩ := Prod.mk.inj hEmit
    rw [Outputs.writeAll, hWrite]
    exact ⟨rfl, rfl⟩
  | error raised =>
    rw [hWrite] at hEmit
    cases hEmit

/-- An outcome that was told of without interruption has its text written. -/
theorem report_eq_ok {options : ReportOptions} {outcome : Outcome} {s after : Session}
    (hReport : (report options outcome).run.run s = (.ok (), after)) :
    s.toOutputs.writeAll (outcome.emission? options).toList = .ok after.toOutputs ∧
      after.pool = s.pool := by
  cases outcome with
  | success path language rendered document dryRun =>
    cases dryRun with
    | true =>
      cases hQuiet : options.quiet with
      | true =>
        simp only [report, hQuiet] at hReport
        obtain ⟨-, rfl⟩ := Prod.mk.inj hReport
        rw [Outcome.emission?, hQuiet]
        exact ⟨rfl, rfl⟩
      | false =>
        simp only [report, hQuiet] at hReport
        rw [Outcome.emission?, hQuiet]
        exact emit_eq_ok hReport
    | false =>
      rw [report] at hReport
      obtain ⟨⟨⟩, emitted, hEmit, hLogged⟩ := Run.bind_eq_ok hReport
      obtain ⟨log, hLog⟩ := log_when options.verbose .info ("Parsed file: " ++ path) emitted
      obtain ⟨-, rfl⟩ := Prod.mk.inj (hLog.symm.trans hLogged)
      obtain ⟨hWritten, hPool⟩ := emit_eq_ok hEmit
      exact ⟨hWritten, hPool⟩
  | skipped path reason =>
    obtain ⟨log, hLog⟩ := log_when options.verbose .warning
      ("Skipped " ++ path ++ " (" ++ reason ++ ")") s
    obtain ⟨-, rfl⟩ := Prod.mk.inj (hLog.symm.trans hReport)
    exact ⟨rfl, rfl⟩
  | failed path error =>
    obtain ⟨-, rfl⟩ := Prod.mk.inj hReport
    exact ⟨rfl, rfl⟩

/-- With ready sinks, an outcome is told of without interruption, and its text is written. -/
theorem report_spec (options : ReportOptions) (outcome : Outcome) {s : Session}
    (hReady : s.toOutputs.Ready) :
    ∃ after, (report options outcome).run.run s = (.ok (), after) ∧
      s.toOutputs.writeAll (outcome.emission? options).toList = .ok after.toOutputs ∧
      after.toOutputs.Ready ∧ after.pool = s.pool ∧ after.progress = s.progress := by
  cases outcome with
  | success path language rendered document dryRun =>
    cases dryRun with
    | true =>
      cases hQuiet : options.quiet with
      | true =>
        refine ⟨s, ?_, ?_, hReady, rfl, rfl⟩
        · simp only [report, hQuiet]
          rfl
        · rw [Outcome.emission?, hQuiet]
          rfl
      | false =>
        obtain ⟨outputs, hEmit, hWritten, hAfter⟩ := emit_spec hReady (.notice rendered)
        refine ⟨{ s with toOutputs := outputs }, ?_, ?_, hAfter, rfl, rfl⟩
        · simp only [report, hQuiet]
          exact hEmit
        · rw [Outcome.emission?, hQuiet]
          exact hWritten
    | false =>
      obtain ⟨outputs, hEmit, hWritten, hAfter⟩ := emit_spec hReady (.record rendered)
      obtain ⟨log, hLog⟩ := log_when options.verbose .info ("Parsed file: " ++ path)
        { s with toOutputs := outputs }
      refine ⟨{ s with toOutputs := outputs, log }, ?_, hWritten, hAfter, rfl, rfl⟩
      rw [report, Run.bind_ok hEmit]
      exact hLog
  | skipped path reason =>
    obtain ⟨log, hLog⟩ := log_when options.verbose .warning
      ("Skipped " ++ path ++ " (" ++ reason ++ ")") s
    exact ⟨{ s with log }, hLog, rfl, hReady, rfl, rfl⟩
  | failed path error => exact ⟨_, rfl, rfl, hReady, rfl, rfl⟩

/-- With ready sinks, an outcome is handled without interruption. -/
theorem handle_spec (options : ReportOptions) (total : Nat) (outcome : Outcome) {s : Session}
    (hReady : s.toOutputs.Ready) :
    ∃ after, (handle options total outcome).run.run s = (.ok (), after) ∧
      Tells options total [outcome] s after ∧ after.toOutputs.Ready ∧ after.pool = s.pool := by
  obtain ⟨reported, hReport, hWritten, hAfter, hPool, hProgress⟩ :=
    report_spec options outcome hReady
  refine ⟨{ reported with
    progress := reported.progress ++ progressCalls options total outcome.path }, ?_, ?_, hAfter,
    hPool⟩
  · rw [handle, Run.bind_ok hReport]
    rfl
  · refine ⟨?_, ?_⟩
    · rw [Outcome.filterMap_emission?_singleton]
      exact hWritten
    · rw [List.flatMap_singleton, ← hProgress]

end TreeDump
