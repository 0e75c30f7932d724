import TreeDump.Proofs.Grammar.Ownership

/-!
# No more parsers than needed

Every parser of a language that was built still idles, or a use has it in hand, or it went to waste:
its use failed, or it was given back while there was no room for it.  So the numbers of parsers that
are built and that go to waste tell how many there are.

Looking for an idle parser and building one are two steps.  Meanwhile other uses may give theirs
back, and then one more parser is built although some idle.  Nevertheless there are never more
parsers than uses that were open at one time: when a use finds no idle parser, all parsers are in
hand, and they and those that are to be built all belong to other uses that are open.

* `Trace`: a row of steps, with the state before each.
* `Step.stock_eq`, `Step.awaited_eq`: what a step does to the numbers of parsers that there are and
  that are to be built; `Trace.balance` adds that up.
* `Step.peak`: what no step exceeds while only so many uses are open.
* `run_conserves`: what both say about every history.
-/

namespace TreeDump

/-- Whether there is no room for one more idle parser of a language. -/
def Pool.isFull (pool : Pool) (language : String) : Bool :=
  decide (pool.capacity ≤ pool.idleCount language)

namespace Borrowing

/-- A row of steps: for each, the state that it was made in and the event that it is. -/
inductive Trace (first : State) : List (State × Event) → State → Prop where
  | none : Trace first [] first
  | more {steps : List (State × Event)} {middle last : State} {event : Event}
      (hTrace : Trace first steps middle) (hStep : Step middle event last) :
      Trace first (steps ++ [(middle, event)]) last

/-- Every row of steps can be looked at step by step. -/
theorem run_iff_trace {first last : State} {events : List Event} :
    Run first events last ↔ ∃ steps, Trace first steps last ∧ steps.map Prod.snd = events := by
  constructor
  · intro hRun
    induction hRun with
    | none => exact ⟨[], .none, rfl⟩
    | @more events middle last event _ hStep ih =>
      obtain ⟨steps, hTrace, rfl⟩ := ih
      exact ⟨steps ++ [(middle, event)], hTrace.more hStep, List.map_append⟩
  · rintro ⟨steps, hTrace, rfl⟩
    induction hTrace with
    | none => exact .none
    | more _ hStep ih =>
      rw [List.map_append]
      exact ih.more hStep

/-! ## What is counted -/

namespace Use

/-- Whether a use is one of a language. -/
def isFor (language : String) : Use → Bool
  | asking other | building other | holding other _ | returning other _ => other == language

/-- Whether a use has a parser of a language in hand. -/
def holds (language : String) : Use → Bool
  | holding other _ | returning other _ => other == language
  | _ => false

/-- Whether a parser of a language is to be built for a use. -/
def awaits (language : String) : Use → Bool
  | building other => other == language
  | _ => false

end Use

namespace State

/-- The number of uses of a language that are open. -/
def openFor (state : State) (language : String) : Nat := state.uses.countP (Use.isFor language)

/-- The number of parsers of a language in hand. -/
def heldFor (state : State) (language : String) : Nat := state.uses.countP (Use.holds language)

/-- The number of parsers of a language that are to be built. -/
def awaited (state : State) (language : String) : Nat := state.uses.countP (Use.awaits language)

/-- The number of parsers of a language that idle or are in hand. -/
def stock (state : State) (language : String) : Nat :=
  state.pool.idleCount language + state.heldFor language

end State

namespace Event

/-- Whether a parser of a language is built. -/
def builds (language : String) : Event → Bool
  | built other _ => other == language
  | _ => false

/-- Whether the grammar source is called for a language. -/
def calls (language : String) : Event → Bool
  | missed other => other == language
  | _ => false

/-- Whether a call of the grammar source for a language comes back, with a parser or without. -/
def answers (language : String) : Event → Bool
  | built other _ | unbuilt other => other == language
  | _ => false

/-- Whether something fails for a language: the use of a parser, or building one. -/
def fails (language : String) : Event → Bool
  | failed other _ | unbuilt other => other == language
  | _ => false

end Event

/-- Whether a parser of a language goes to waste in a step: its use fails, or there is no room for
it when it is given back. -/
def wastes (language : String) : State × Event → Bool
  | (_, .failed other _) => other == language
  | (state, .released other _) => other == language && state.pool.isFull language
  | _ => false

/-! ## Steps on the pool -/

section

variable {pool after : Pool} {language : String} {parser : Nat}

theorem idleCount_take (hTake : pool.take language = (some parser, after)) (other : String) :
    after.idleCount other + (language == other).toNat = pool.idleCount other := by
  obtain ⟨rest, hIdle, rfl⟩ := take_some hTake
  unfold Pool.idleCount
  by_cases hOther : other = language
  · subst hOther
    rw [Pool.idleOf_withIdle_self, hIdle, beq_self_eq_true]
    rfl
  · rw [Pool.idleOf_withIdle_ne hOther, beq_false_of_ne (Ne.symm hOther)]
    rfl

theorem idleCount_of_take_none (hTake : pool.take language = (none, after)) :
    pool.idleCount language = 0 := by
  unfold Pool.take at hTake
  split at hTake
  · cases hTake
  · rename_i hIdle
    rw [Pool.idleCount, hIdle, List.length_nil]

/-- A parser that is given back idles or goes to waste. -/
theorem idleCount_release (pool : Pool) (language other : String) (parser : Nat) :
    (pool.release language parser).idleCount other
        + (language == other && pool.isFull other).toNat
      = pool.idleCount other + (language == other).toNat := by
  unfold Pool.release Pool.isFull Pool.idleCount
  dsimp only
  split
  · rename_i hRoom
    by_cases hOther : other = language
    · subst hOther
      rw [Pool.idleOf_withIdle_self, beq_self_eq_true, decide_eq_false (by omega)]
      rfl
    · rw [Pool.idleOf_withIdle_ne hOther, beq_false_of_ne (Ne.symm hOther), Bool.false_and]
  · rename_i hFull
    by_cases hOther : other = language
    · subst hOther
      rw [decide_eq_true (by omega), Bool.and_true]
    · rw [beq_false_of_ne (Ne.symm hOther), Bool.false_and]

theorem capacity_release (pool : Pool) (language : String) (parser : Nat) :
    (pool.release language parser).capacity = pool.capacity := by
  unfold Pool.release
  dsimp only
  split <;> rfl

end

/-! ## What a step does to the numbers -/

/-- What is counted of the uses is counted of one of them and of the others. -/
theorem countP_middle (p : Use → Bool) (before rest : List Use) (use : Use) :
    (before ++ use :: rest).countP p = (before ++ rest).countP p + (p use).toNat := by
  simp only [List.countP_append, List.countP_cons]
  cases p use <;> simp [Nat.add_assoc]

/-- Uses that have a parser in hand, or for which one is to be built, are open. -/
theorem busy_le (uses : List Use) (language : String) :
    uses.countP (Use.holds language) + uses.countP (Use.awaits language)
      ≤ uses.countP (Use.isFor language) := by
  induction uses with
  | nil => exact Nat.le_refl 0
  | cons use rest ih =>
    have hUse : (use.holds language).toNat + (use.awaits language).toNat
        ≤ (use.isFor language).toNat := by
      cases use <;> simp [Use.holds, Use.awaits, Use.isFor]
    have hMore := fun p => countP_middle p [] rest use
    simp only [List.nil_append] at hMore
    rw [hMore, hMore, hMore]
    omega

section

variable {state next : State} {event : Event}

/-- A step changes the number of parsers by what is built and what goes to waste. -/
theorem Step.stock_eq (hStep : Step state event next) (language : String) :
    next.stock language + (wastes language (state, event)).toNat
      = state.stock language + (event.builds language).toNat := by
  unfold State.stock State.heldFor
  cases hStep with
  | take hTake =>
    have hIdle := idleCount_take hTake language
    simp only [countP_middle, Use.holds, wastes, Event.builds, Bool.toNat_false]
    omega
  | miss hTake =>
    obtain rfl := take_none hTake
    simp only [countP_middle, Use.holds, wastes, Event.builds, Bool.toNat_false]
  | build grammars hBuild =>
    obtain ⟨-, rfl⟩ := build_ok hBuild
    simp only [countP_middle, Use.holds, wastes, Event.builds, Bool.toNat_false,
      Pool.idleCount, Pool.idleOf]
    omega
  | refuse grammars hBuild =>
    obtain rfl := build_error hBuild
    simp only [countP_middle, Use.holds, wastes, Event.builds, Bool.toNat_false]
    omega
  | @release pool before rest other parser =>
    have hIdle := idleCount_release pool other language parser
    simp only [countP_middle, Use.holds, wastes, Event.builds, Bool.toNat_false]
    omega
  | ask =>
    simp only [countP_middle, Use.holds, wastes, Event.builds, Bool.toNat_false, Nat.add_zero]
  | succeed => simp only [countP_middle, Use.holds, wastes, Event.builds]
  | fail =>
    simp only [countP_middle, Use.holds, wastes, Event.builds, Bool.toNat_false]
    omega

/-- A step changes the number of parsers that are to be built by the calls of the grammar source. -/
theorem Step.awaited_eq (hStep : Step state event next) (language : String) :
    next.awaited language + (event.answers language).toNat
      = state.awaited language + (event.calls language).toNat := by
  unfold State.awaited
  cases hStep <;>
    simp only [countP_middle, Use.awaits, Event.answers, Event.calls, Bool.toNat_false,
      Nat.add_zero]

theorem Step.capacity_eq (hStep : Step state event next) :
    next.pool.capacity = state.pool.capacity := by
  cases hStep with
  | take hTake =>
    obtain ⟨rest, -, rfl⟩ := take_some hTake
    rfl
  | miss hTake => rw [take_none hTake]
  | build grammars hBuild =>
    obtain ⟨-, rfl⟩ := build_ok hBuild
    rfl
  | refuse grammars hBuild => rw [build_error hBuild]
  | release => exact capacity_release _ _ _
  | _ => rfl

/-- When the grammar source is called, all parsers belong to other uses that are open. -/
theorem Step.calls_le (hStep : Step state event next) {language : String}
    (hCalls : event.calls language) :
    state.stock language + state.awaited language + 1 ≤ state.openFor language := by
  cases hStep with
  | @miss pool after before rest other hTake =>
    obtain rfl : other = language := beq_iff_eq.mp hCalls
    have hBusy := busy_le (before ++ rest) other
    unfold State.stock State.heldFor State.awaited State.openFor
    rw [idleCount_of_take_none hTake]
    simp only [countP_middle, Use.holds, Use.awaits, Use.isFor, beq_self_eq_true]
    simp only [Bool.toNat_false, Bool.toNat_true]
    omega
  | _ => cases hCalls

/-- A parser that goes to waste was in hand, and its use failed or there was no room for it. -/
theorem Step.wasted (hStep : Step state event next) {language : String}
    (hWasted : wastes language (state, event)) :
    event.fails language ∨ state.pool.capacity < state.stock language := by
  cases hStep with
  | fail => exact Or.inl hWasted
  | @release pool before rest other parser =>
    right
    obtain ⟨hOther, hFull⟩ : other == language ∧ pool.isFull language :=
      Bool.and_eq_true_iff.mp hWasted
    have hCapacity := of_decide_eq_true hFull
    unfold State.stock State.heldFor
    simp only [countP_middle, Use.holds, hOther, Bool.toNat_true]
    omega
  | _ => cases hWasted

/-- Where nothing fails, a call of the grammar source comes back with a parser. -/
theorem Event.answers_eq_builds {language : String} (hFine : event.fails language = false) :
    event.answers language = event.builds language := by
  cases event with
  | unbuilt other => exact hFine
  | _ => rfl

/-- While at most `k` uses of a language are open and nothing fails, there are at most `k` parsers,
those included that are to be built.  If the pool has room for as many, none goes to waste. -/
theorem Step.peak (hStep : Step state event next) {language : String} {k : Nat}
    (hStock : state.stock language + state.awaited language ≤ k)
    (hOpen : state.openFor language ≤ k) (hRoom : (k : Int) ≤ state.pool.capacity)
    (hFine : event.fails language = false) :
    next.stock language + next.awaited language ≤ k ∧ wastes language (state, event) = false := by
  have hStockEq := hStep.stock_eq language
  have hAwaitedEq := hStep.awaited_eq language
  constructor
  · have hAnswers : (event.builds language).toNat ≤ (event.answers language).toNat := by
      cases event <;> simp [Event.builds, Event.answers]
    cases hCalls : event.calls language with
    | true =>
      have hLe := hStep.calls_le hCalls
      rw [hCalls, Bool.toNat_true] at hAwaitedEq
      omega
    | false =>
      rw [hCalls, Bool.toNat_false] at hAwaitedEq
      omega
  · by_contra hWasted
    rcases hStep.wasted (eq_true_of_ne_false hWasted) with hFails | hFull
    · rw [hFine] at hFails
      cases hFails
    · omega

end

/-! ## Rows of steps -/

namespace Trace

variable {first last : State} {steps : List (State × Event)}

/-- What each step adds to a number and takes from it adds up. -/
theorem balance (measure : State → Nat) (gains losses : State × Event → Bool)
    (hStep : ∀ {state next : State} {event : Event}, Step state event next →
      measure next + (losses (state, event)).toNat = measure state + (gains (state, event)).toNat)
    (hTrace : Trace first steps last) :
    measure last + steps.countP losses = measure first + steps.countP gains := by
  induction hTrace with
  | none => rfl
  | @more steps middle last event _ hLast ih =>
    have hMore := hStep hLast
    simp only [List.countP_append, List.countP_singleton]
    cases hGains : gains (middle, event) <;> cases hLosses : losses (middle, event) <;>
      simp [hGains, hLosses] at hMore ⊢ <;> omega

/-- So there are never more, and all steps leave the pool as much room. -/
theorem peak (hTrace : Trace first steps last) {language : String} {k : Nat}
    (hStock : first.stock language + first.awaited language ≤ k)
    (hRoom : (k : Int) ≤ first.pool.capacity)
    (hOpen : ∀ step ∈ steps, step.1.openFor language ≤ k)
    (hFine : ∀ step ∈ steps, step.2.fails language = false) :
    last.stock language + last.awaited language ≤ k ∧ steps.countP (wastes language) = 0 ∧
      last.pool.capacity = first.pool.capacity := by
  induction hTrace with
  | none => exact ⟨hStock, rfl, rfl⟩
  | @more steps middle last event _ hLast ih =>
    rw [List.forall_mem_append, List.forall_mem_singleton] at hOpen hFine
    obtain ⟨hMiddle, hNone, hCapacity⟩ := ih hOpen.1 hFine.1
    have hRoomHere : (k : Int) ≤ middle.pool.capacity := by rw [hCapacity]; exact hRoom
    obtain ⟨hPeak, hKept⟩ := hLast.peak hMiddle hOpen.2 hRoomHere hFine.2
    refine ⟨hPeak, ?_, hLast.capacity_eq.trans hCapacity⟩
    rw [List.countP_append, hNone, List.countP_singleton, hKept]
    rfl

end Trace

/-- However many uses are open, and in whatever order their steps come: as many parsers of a
language were built as idle, are in hand, and went to waste, because their use failed or because
there was no room for them when they were given back; and the grammar source was called once for
each parser that it built or failed to build, and for each that is to be built still.  If at most
`k` uses of the language are open at any time, the pool has room for `k` parsers, and no use and no
building fails, then the grammar source is called at most `k` times, and no parser goes to waste. -/
theorem run_conserves {capacity : Int} {events : List Event} {last : State}
    (hRun : Run (start capacity) events last) (language : String) :
    (∃ steps, Trace (start capacity) steps last ∧ steps.map Prod.snd = events) ∧
    ∀ steps, Trace (start capacity) steps last → steps.map Prod.snd = events →
      events.countP (Event.builds language)
        = last.pool.idleCount language + last.heldFor language + steps.countP (wastes language) ∧
      events.countP (Event.calls language)
        = events.countP (Event.answers language) + last.awaited language ∧
      ∀ k : Nat, (k : Int) ≤ capacity →
        (∀ step ∈ steps, step.1.openFor language ≤ k) →
        (∀ event ∈ events, event.fails language = false) →
        events.countP (Event.calls language) ≤ k ∧ steps.countP (wastes language) = 0 := by
  refine ⟨run_iff_trace.mp hRun, ?_⟩
  rintro steps hTrace rfl
  have hNoStock : (start capacity).stock language = 0 := rfl
  have hNoneAwaited : (start capacity).awaited language = 0 := rfl
  have hStock := hTrace.balance (·.stock language) (·.2.builds language) (wastes language)
    fun hStep => hStep.stock_eq language
  have hAwaited := hTrace.balance (·.awaited language) (·.2.calls language)
    (·.2.answers language) fun hStep => hStep.awaited_eq language
  have hBuilds : (steps.map Prod.snd).countP (Event.builds language)
      = steps.countP fun step => step.2.builds language := List.countP_map
  have hCalls : (steps.map Prod.snd).countP (Event.calls language)
      = steps.countP fun step => step.2.calls language := List.countP_map
  have hAnswers : (steps.map Prod.snd).countP (Event.answers language)
      = steps.countP fun step => step.2.answers language := List.countP_map
  refine ⟨?_, ?_, ?_⟩
  · unfold State.stock at hStock hNoStock
    omega
  · omega
  · intro k hRoom hOpen hFine
    rw [List.forall_mem_map] at hFine
    obtain ⟨hPeak, hNone, -⟩ := hTrace.peak (by omega) hRoom hOpen hFine
    refine ⟨?_, hNone⟩
    -- Without failures every call that came back built a parser, and none of these is gone.
    have hBuilt : (steps.countP fun step => step.2.answers language)
        = steps.countP fun step => step.2.builds language := by
      apply List.countP_congr
      intro step hStep
      rw [Event.answers_eq_builds (hFine step hStep)]
    omega

/-- Two uses that cross: while a parser is built for the second one, that of the first one is given
back, and it is handed out again. -/
theorem run_conserves_crossing :
    let steps : List (State × Event) := [
      (⟨{ capacity := 2 }, []⟩, .opened "go"),
      (⟨{ capacity := 2 }, [.asking "go"]⟩, .missed "go"),
      (⟨{ capacity := 2 }, [.building "go"]⟩, .built "go" 0),
      (⟨⟨2, [], ["go"]⟩, [.holding "go" 0]⟩, .opened "go"),
      (⟨⟨2, [], ["go"]⟩, [.holding "go" 0, .asking "go"]⟩, .missed "go"),
      (⟨⟨2, [], ["go"]⟩, [.holding "go" 0, .building "go"]⟩, .succeeded "go" 0),
      (⟨⟨2, [], ["go"]⟩, [.returning "go" 0, .building "go"]⟩, .released "go" 0),
      (⟨⟨2, [("go", [0])], ["go"]⟩, [.building "go"]⟩, .built "go" 1),
      (⟨⟨2, [("go", [0])], ["go", "go"]⟩, [.holding "go" 1]⟩, .opened "go"),
      (⟨⟨2, [("go", [0])], ["go", "go"]⟩, [.holding "go" 1, .asking "go"]⟩, .taken "go" 0)]
    let last : State := ⟨⟨2, [("go", [])], ["go", "go"]⟩, [.holding "go" 1, .holding "go" 0]⟩
    Run (start 2) (steps.map Prod.snd) last ∧ Trace (start 2) steps last ∧
      (∀ step ∈ steps, step.1.openFor "go" ≤ 2) ∧
      (∀ event ∈ steps.map Prod.snd, event.fails "go" = false) ∧
      (steps.map Prod.snd).countP (Event.calls "go") ≤ 2 ∧ steps.countP (wastes "go") = 0 := by
  intro steps last
  let grammars : GrammarSource := fun _ => .ok fun _ => .ok none
  have hFirst : Trace (start 2) (steps.take 3) ⟨⟨2, [], ["go"]⟩, [.holding "go" 0]⟩ :=
    .more (.more (.more .none (@Step.ask _ [] [] _)) (@Step.miss _ _ [] [] _ rfl))
      (@Step.build _ _ [] [] _ _ grammars rfl)
  have hSecond : Trace (start 2) (steps.take 6)
      ⟨⟨2, [], ["go"]⟩, [.returning "go" 0, .building "go"]⟩ :=
    .more (.more (.more hFirst (@Step.ask _ [.holding "go" 0] [] _))
      (@Step.miss _ _ [.holding "go" 0] [] _ rfl)) (@Step.succeed _ [] [.building "go"] _ _)
  have hTrace : Trace (start 2) steps last :=
    .more (.more (.more (.more hSecond (@Step.release _ [] [.building "go"] _ _))
      (@Step.build _ _ [] [] _ _ grammars rfl)) (@Step.ask _ [.holding "go" 1] [] _))
      (@Step.take _ _ [.holding "go" 1] [] _ _ rfl)
  have hRun : Run (start 2) (steps.map Prod.snd) last := run_iff_trace.mpr ⟨steps, hTrace, rfl⟩
  have hOpen : ∀ step ∈ steps, step.1.openFor "go" ≤ 2 := by decide
  have hFine : ∀ event ∈ steps.map Prod.snd, event.fails "go" = false := by decide
  obtain ⟨-, -, hPeak⟩ := (run_conserves hRun "go").2 steps hTrace rfl
  exact ⟨hRun, hTrace, hOpen, hFine, hPeak 2 (by decide) hOpen hFine⟩

end Borrowing

end TreeDump
