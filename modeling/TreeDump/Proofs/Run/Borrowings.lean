import TreeDump.Proofs.Grammar.Ownership
import TreeDump.Proofs.Run.Reporting
import TreeDump.Run.Dispatch

/-!
# Workers as uses of one pool

Whenever work asks for a parser, a use of the pool is opened, and the steps of the worker up to when
the parser is back, or has failed, are the steps of that use.  So what holds of the uses of a pool in
any order holds of the pool that workers share, and of the parsers that they have in hand.

* `Stage.borrows`: a step of a worker is a row of steps of uses, as it may end one use and open the
  next.
* `Dispatch.Steps.borrows`: so is whatever workers and coordinator do.
* `Work.borrows`: and so is work that is done in one go.
* `Dispatch.steps_owned`: who has the parsers while workers are at work.
-/

namespace TreeDump

namespace Borrowing

theorem Run.append {first middle last : State} {events more : List Event}
    (hEarlier : Run first events middle) (hLater : Run middle more last) :
    Run first (events ++ more) last := by
  induction hLater with
  | none =>
    rw [List.append_nil]
    exact hEarlier
  | more _ hStep ih =>
    rw [← List.append_assoc]
    exact ih.more hStep

theorem Step.run {state next : State} {event : Event} (hStep : Step state event next) :
    Run state [event] next := Run.none.more hStep

end Borrowing

open Borrowing (Use Event)

/-! ## One worker -/

namespace Stage

/-- The use of a parser that a worker has open, if it has one. -/
def use? : Stage → Option Use
  | working (.finish _) => none
  | working (.parse language _ _) => some (.asking language)
  | building language _ _ => some (.building language)
  | holding language parser _ _ => some (.holding language parser)
  | returning language parser _ _ => some (.returning language parser)

/-- Work that is begun opens a use, unless it is done. -/
theorem opens (work : Work) (pool : Pool) (before rest : List Use) :
    ∃ events, Borrowing.Run ⟨pool, before ++ rest⟩ events
      ⟨pool, before ++ ((working work).use?.toList ++ rest)⟩ := by
  cases work with
  | finish result => exact ⟨[], .none⟩
  | parse language bytes resume => exact ⟨_, Borrowing.Step.ask.run⟩

/-- A step of a worker is a row of steps of its uses, whatever uses others have open. -/
theorem borrows {grammars : GrammarSource} {stage next : Stage} {pool after : Pool}
    (hStep : stage.step grammars pool = some (next, after)) (before rest : List Use) :
    ∃ events, Borrowing.Run ⟨pool, before ++ (stage.use?.toList ++ rest)⟩ events
      ⟨after, before ++ (next.use?.toList ++ rest)⟩ := by
  cases stage with
  | working work =>
    cases work with
    | finish result => cases hStep
    | parse language bytes resume =>
      rw [step] at hStep
      split at hStep
      · rename_i parser taken hTake
        obtain ⟨rfl, rfl⟩ := Prod.mk.inj (Option.some.inj hStep)
        exact ⟨_, (Borrowing.Step.take hTake).run⟩
      · rename_i taken hTake
        obtain ⟨rfl, rfl⟩ := Prod.mk.inj (Option.some.inj hStep)
        exact ⟨_, (Borrowing.Step.miss hTake).run⟩
  | building language bytes resume =>
    rw [step] at hStep
    split at hStep
    · rename_i parser built hBuild
      obtain ⟨rfl, rfl⟩ := Prod.mk.inj (Option.some.inj hStep)
      exact ⟨_, (Borrowing.Step.build grammars hBuild).run⟩
    · rename_i raised built hBuild
      obtain ⟨rfl, rfl⟩ := Prod.mk.inj (Option.some.inj hStep)
      obtain ⟨events, hOpen⟩ := opens (resume (.error raised)) built before rest
      exact ⟨_, (Borrowing.Step.refuse grammars hBuild).run.append hOpen⟩
  | holding language parser bytes resume =>
    rw [step] at hStep
    split at hStep
    · obtain ⟨rfl, rfl⟩ := Prod.mk.inj (Option.some.inj hStep)
      exact ⟨_, Borrowing.Step.succeed.run⟩
    · rename_i raised hAction
      obtain ⟨rfl, rfl⟩ := Prod.mk.inj (Option.some.inj hStep)
      obtain ⟨events, hOpen⟩ := opens (resume (.error raised)) pool before rest
      exact ⟨_, Borrowing.Step.fail.run.append hOpen⟩
  | returning language parser tree resume =>
    rw [step] at hStep
    obtain ⟨rfl, rfl⟩ := Prod.mk.inj (Option.some.inj hStep)
    obtain ⟨events, hOpen⟩ :=
      opens (resume (.ok tree)) (pool.release language parser) before rest
    exact ⟨_, Borrowing.Step.release.run.append hOpen⟩

end Stage

/-! ## Workers and coordinator -/

namespace Dispatch

variable {d : Dispatch}

/-- The uses that the workers have open. -/
def State.uses (state : State) : List Use := state.running.filterMap (·.stage.use?)

/-- The pool of a state, with the uses that are open. -/
def State.borrowing (state : State) : Borrowing.State := ⟨state.session.pool, state.uses⟩

theorem uses_append (before after : List Job) (job : Job) :
    (before ++ job :: after).filterMap (·.stage.use?)
      = before.filterMap (·.stage.use?)
        ++ (job.stage.use?.toList ++ after.filterMap (·.stage.use?)) := by
  rw [List.filterMap_append, List.filterMap_cons]
  cases job.stage.use? <;> rfl

/-- Telling of an outcome leaves the pool alone. -/
theorem handle_pool {options : ReportOptions} {total : Nat} {outcome : Outcome} {s after : Session}
    (hHandle : (TreeDump.handle options total outcome).run.run s = (.ok (), after)) :
    after.pool = s.pool := by
  rw [TreeDump.handle] at hHandle
  obtain ⟨⟨⟩, reported, hReport, hProgress⟩ := Run.bind_eq_ok hHandle
  obtain ⟨-, rfl⟩ := Prod.mk.inj hProgress
  exact (report_eq_ok hReport).2

theorem Step.borrows {state next : State} (hStep : d.Step state next) :
    ∃ events, Borrowing.Run state.borrowing events next.borrowing := by
  cases hStep with
  | @start path rest hQueue hFree =>
    obtain ⟨events, hOpen⟩ := Stage.opens (d.work path) state.session.pool state.uses []
    refine ⟨events, ?_⟩
    have hUses := uses_append state.running [] ⟨path, .working (d.work path)⟩
    rw [List.append_nil] at hOpen
    rw [State.borrowing, State.borrowing, State.uses, State.uses, hUses]
    exact hOpen
  | @work before after job stage pool hRunning hStep =>
    obtain ⟨events, hRun⟩ := Stage.borrows hStep (before.filterMap (·.stage.use?))
      (after.filterMap (·.stage.use?))
    refine ⟨events, ?_⟩
    rw [State.borrowing, State.borrowing, State.uses, State.uses, hRunning, uses_append, uses_append]
    exact hRun
  | @finish before after path result hRunning =>
    refine ⟨[], ?_⟩
    have hSame : state.uses = (before ++ after).filterMap (·.stage.use?) := by
      rw [State.uses, hRunning, uses_append, List.filterMap_append]
      rfl
    rw [State.borrowing, hSame]
    exact .none
  | handle hFinished hHandle =>
    refine ⟨[], ?_⟩
    rw [State.borrowing, ← handle_pool hHandle]
    exact .none

/-- Whatever workers and coordinator do, to the pool it is a row of steps of uses. -/
theorem Steps.borrows {state last : State} (hSteps : d.Steps state last) :
    ∃ events, Borrowing.Run state.borrowing events last.borrowing := by
  induction hSteps with
  | none => exact ⟨[], .none⟩
  | more _ hStep ih =>
    obtain ⟨events, hRun⟩ := ih
    obtain ⟨more, hMore⟩ := hStep.borrows
    exact ⟨_, hRun.append hMore⟩

/-- While workers share a pool that was not used before, each parser is in one place at a time and
under its own language, and one that failed is not handed out any more. -/
theorem steps_owned {s : Session} {capacity : Int} (hPool : s.pool = { capacity }) {state : State}
    (hSteps : d.Steps (d.start s) state) :
    ∃ events, Borrowing.Owned capacity events state.session.pool state.borrowing.held := by
  obtain ⟨events, hRun⟩ := hSteps.borrows
  have hStart : (d.start s).borrowing = Borrowing.start capacity := by
    rw [Borrowing.start, ← hPool]
    rfl
  rw [hStart] at hRun
  exact ⟨events, Borrowing.Owned.run hRun⟩

end Dispatch

/-! ## Work in one go -/

/-- One parsing is one use, from the question for a parser to when it is back or has failed. -/
theorem Pool.parse_borrows (grammars : GrammarSource) (language : String) (bytes : ByteArray)
    (pool : Pool) (uses : List Use) :
    ∃ events, Borrowing.Run ⟨pool, uses⟩ events
      ⟨(pool.parse grammars language bytes).2, uses⟩ := by
  have hAsk : Borrowing.Run ⟨pool, uses⟩ [.opened language] ⟨pool, .asking language :: uses⟩ :=
    (@Borrowing.Step.ask pool [] uses language).run
  have hBack : ∀ (parser : Nat) (handed : Pool),
      Borrowing.Run ⟨handed, .holding language parser :: uses⟩
        [.succeeded language parser, .released language parser]
        ⟨handed.release language parser, uses⟩ := fun parser handed =>
    (@Borrowing.Step.succeed handed [] uses language parser).run.append
      (@Borrowing.Step.release handed [] uses language parser).run
  rw [parse, borrow, acquire]
  cases hTake : pool.take language with
  | mk found taken =>
    cases found with
    | some parser =>
      have hTaken := hAsk.append (@Borrowing.Step.take _ _ [] uses _ _ hTake).run
      dsimp only
      cases taken.action grammars language parser bytes with
      | ok tree => exact ⟨_, hTaken.append (hBack parser taken)⟩
      | error raised =>
        exact ⟨_, hTaken.append (@Borrowing.Step.fail taken [] uses language parser).run⟩
    | none =>
      have hMiss := hAsk.append (@Borrowing.Step.miss _ _ [] uses _ hTake).run
      dsimp only
      cases hBuild : taken.build grammars language with
      | mk answer built =>
        cases answer with
        | ok parser =>
          have hBuilt := hMiss.append (@Borrowing.Step.build _ _ [] uses _ _ grammars hBuild).run
          dsimp only
          cases built.action grammars language parser bytes with
          | ok tree => exact ⟨_, hBuilt.append (hBack parser built)⟩
          | error raised =>
            exact ⟨_, hBuilt.append (@Borrowing.Step.fail built [] uses language parser).run⟩
        | error raised =>
          exact ⟨_, hMiss.append (@Borrowing.Step.refuse _ _ [] uses _ _ grammars hBuild).run⟩

theorem Work.borrows (grammars : GrammarSource) (work : Work) (pool : Pool) (uses : List Use) :
    ∃ events, Borrowing.Run ⟨pool, uses⟩ events ⟨(work.run grammars pool).2, uses⟩ := by
  induction work generalizing pool with
  | finish result => exact ⟨[], .none⟩
  | parse language bytes resume ih =>
    obtain ⟨events, hParse⟩ := Pool.parse_borrows grammars language bytes pool uses
    rw [run]
    obtain ⟨more, hMore⟩ := ih (pool.parse grammars language bytes).1
      (pool.parse grammars language bytes).2
    exact ⟨_, hParse.append hMore⟩

end TreeDump
