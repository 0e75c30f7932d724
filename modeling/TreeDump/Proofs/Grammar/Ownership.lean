import Mathlib.Data.List.Nodup
import TreeDump.Grammar.Borrowing
import TreeDump.Proofs.Grammar.Pool

/-!
# Who has a parser

However many uses of a pool are open, and in whatever order their steps come, a parser is in one
place at a time: it idles under the language that it was built for, or one use has it in hand, or it
is gone.  A parser whose use failed is gone for good.

* `Owned`: what holds after every row of steps; `Owned.step` is the step lemma.
* `run_owned`: what that says about the parsers that idle, are in hand or were handed out.
-/

namespace TreeDump.Borrowing

/-! ## What the steps do to a pool -/

section

variable {pool after : Pool} {language : String} {parser : Nat}

theorem take_some (hTake : pool.take language = (some parser, after)) :
    ∃ rest, pool.idleOf language = parser :: rest ∧ after = pool.withIdle language rest := by
  rw [Pool.take] at hTake
  split at hTake
  · rename_i head rest hIdle
    obtain ⟨hHead, rfl⟩ := Prod.mk.inj hTake
    obtain rfl := Option.some.inj hHead
    exact ⟨rest, hIdle, rfl⟩
  · cases hTake

theorem take_none (hTake : pool.take language = (none, after)) : after = pool := by
  rw [Pool.take] at hTake
  split at hTake
  · cases hTake
  · exact (Prod.mk.inj hTake).2.symm

theorem build_ok {grammars : GrammarSource}
    (hBuild : pool.build grammars language = (.ok parser, after)) :
    parser = pool.built.length ∧ after = { pool with built := pool.built ++ [language] } := by
  rw [Pool.build] at hBuild
  split at hBuild
  · obtain ⟨hParser, hAfter⟩ := Prod.mk.inj hBuild
    exact ⟨(Except.ok.inj hParser).symm, hAfter.symm⟩
  · cases hBuild

theorem build_error {grammars : GrammarSource} {raised : Raised}
    (hBuild : pool.build grammars language = (.error raised, after)) : after = pool := by
  rw [Pool.build] at hBuild
  split at hBuild
  · cases hBuild
  · exact (Prod.mk.inj hBuild).2.symm

/-- With one more parser, the parsers are the old ones and the new one. -/
theorem builtFor_built {other : String}
    (hBuilt : ({ pool with built := pool.built ++ [language] } : Pool).BuiltFor other parser) :
    pool.BuiltFor other parser ∨ other = language ∧ parser = pool.built.length := by
  have hGet : (pool.built ++ [language])[parser]? = some other := hBuilt
  rcases Nat.lt_or_ge parser pool.built.length with hOld | hNew
  · rw [List.getElem?_append_left hOld] at hGet
    exact Or.inl hGet
  · rw [List.getElem?_append_right hNew] at hGet
    obtain ⟨hLast, hLanguage⟩ := List.getElem?_eq_some_iff.mp hGet
    have hLength : parser = pool.built.length := by
      rw [List.length_singleton] at hLast
      omega
    subst hLength
    simp only [Nat.sub_self, List.getElem_cons_zero] at hLanguage
    exact Or.inr ⟨hLanguage.symm, rfl⟩

theorem lt_of_builtFor (hBuilt : pool.BuiltFor language parser) : parser < pool.built.length :=
  (List.getElem?_eq_some_iff.mp hBuilt).1

end

/-! ## The invariant -/

/-- The parser whose use fails in an event. -/
def Event.spoiled? : Event → Option Nat
  | failed _ parser => some parser
  | _ => none

/-- The parsers whose uses failed. -/
def spoiled (events : List Event) : List Nat := events.filterMap Event.spoiled?

theorem mem_spoiled {events : List Event} {language : String} {parser : Nat}
    (h : .failed language parser ∈ events) : parser ∈ spoiled events :=
  List.mem_filterMap.mpr ⟨_, h, rfl⟩

/-- In how many places a parser is, of those that idle under a language, those in hand and those
whose uses failed. -/
def places (events : List Event) (pool : Pool) (held : List (String × Nat)) (language : String)
    (parser : Nat) : Nat :=
  (pool.idleOf language).count parser + (held.map Prod.snd).count parser
    + (spoiled events).count parser

theorem places_held (events : List Event) (pool : Pool) (held : List (String × Nat))
    (language other : String) (parser known : Nat) :
    places events pool ((other, parser) :: held) language known
      = places events pool held language known + if parser = known then 1 else 0 := by
  simp only [places, List.map_cons, List.count_cons, beq_iff_eq]
  omega

/-- What holds of the events, of the pool and of the parsers in hand after every row of steps. -/
structure Owned (capacity : Int) (events : List Event) (pool : Pool)
    (held : List (String × Nat)) : Prop where
  capacity_eq : pool.capacity = capacity
  sound : pool.Sound
  /-- Parsers in hand were built for the languages that they are had for. -/
  fits : ∀ entry ∈ held, pool.BuiltFor entry.1 entry.2
  handed : ∀ entry ∈ events.filterMap Event.handed?, pool.BuiltFor entry.1 entry.2
  made : ∀ language parser, pool.BuiltFor language parser → .built language parser ∈ events
  known : ∀ parser ∈ spoiled events, parser < pool.built.length
  once : ∀ language parser, places events pool held language parser ≤ 1
  room : ∀ language, (pool.idleCount language : Int) ≤ max 0 capacity
  /-- A parser whose use failed is not handed out later. -/
  gone : events.Pairwise fun earlier later =>
    ∀ language other parser, earlier = .failed language parser →
      later.handed? ≠ some (other, parser)

namespace Owned

variable {capacity : Int} {events : List Event} {pool after : Pool} {held : List (String × Nat)}
  {language : String} {parser : Nat}

theorem start (capacity : Int) : Owned capacity [] { capacity } [] where
  capacity_eq := rfl
  sound := Pool.sound_empty capacity []
  fits := fun _ hEntry => by cases hEntry
  handed := fun _ hEntry => by cases hEntry
  made := fun _ _ hBuilt => by cases hBuilt
  known := fun _ hSpoiled => by cases hSpoiled
  once := fun _ _ => Nat.zero_le 1
  room := fun _ => Int.le_max_left 0 capacity
  gone := .nil

theorem perm {others : List (String × Nat)} (h : Owned capacity events pool held)
    (hPerm : held.Perm others) : Owned capacity events pool others := by
  refine { h with
    fits := fun entry hEntry => h.fits entry (hPerm.mem_iff.mpr hEntry)
    once := ?_ }
  intro language parser
  have hOnce := h.once language parser
  rw [places, (hPerm.map Prod.snd).count_eq] at hOnce
  exact hOnce

/-- The events with one more, in which no parser is handed out whose use failed. -/
theorem gone_append (h : Owned capacity events pool held) (event : Event)
    (hGone : ∀ entry ∈ event.handed?, entry.2 ∉ spoiled events) :
    (events ++ [event]).Pairwise fun earlier later =>
      ∀ language other parser, earlier = .failed language parser →
        later.handed? ≠ some (other, parser) := by
  rw [List.pairwise_append]
  refine ⟨h.gone, List.pairwise_singleton _ _, ?_⟩
  intro earlier hEarlier later hLater language other parser hFailed hHanded
  obtain rfl := List.mem_singleton.mp hLater
  subst hFailed
  exact hGone (other, parser) hHanded (mem_spoiled hEarlier)

/-- The events with one more, in which a parser is handed out for its language or none is. -/
theorem handed_append (h : Owned capacity events pool held) (event : Event)
    (hKeeps : pool.Keeps after) (hHanded : ∀ entry ∈ event.handed?, after.BuiltFor entry.1 entry.2) :
    ∀ entry ∈ (events ++ [event]).filterMap Event.handed?, after.BuiltFor entry.1 entry.2 := by
  intro entry hEntry
  rw [List.filterMap_append, List.mem_append] at hEntry
  rcases hEntry with hOld | hNew
  · exact hKeeps _ _ (h.handed entry hOld)
  · obtain ⟨last, hLast, hSome⟩ := List.mem_filterMap.mp hNew
    obtain rfl := List.mem_singleton.mp hLast
    exact hHanded entry hSome

theorem spoiled_append {event : Event} (hSpoiled : event.spoiled? = none) :
    spoiled (events ++ [event]) = spoiled events := by
  rw [spoiled, List.filterMap_append, List.filterMap_cons, hSpoiled]
  exact List.append_nil _

/-- An event in which no parser is handed out or goes, and nothing changes place. -/
theorem quiet (h : Owned capacity events pool held) {event : Event}
    (hHanded : event.handed? = none) (hSpoiled : event.spoiled? = none) :
    Owned capacity (events ++ [event]) pool held where
  capacity_eq := h.capacity_eq
  sound := h.sound
  fits := h.fits
  handed := h.handed_append _ (Pool.Keeps.refl pool) (by simp [hHanded])
  made := fun language parser hBuilt => List.mem_append_left _ (h.made language parser hBuilt)
  known := by
    rw [spoiled_append hSpoiled]
    exact h.known
  once := by
    intro language parser
    rw [places, spoiled_append hSpoiled]
    exact h.once language parser
  room := h.room
  gone := h.gone_append _ (by simp [hHanded])

/-! ## Steps -/

/-- A parser that idles under a language idles under no other. -/
theorem eq_of_mem_idleOf (h : Owned capacity events pool held) {other : String}
    (hParser : parser ∈ pool.idleOf language) (hOther : parser ∈ pool.idleOf other) :
    other = language := by
  have hFirst : pool.built[parser]? = some language := h.sound language parser hParser
  have hSecond : pool.built[parser]? = some other := h.sound other parser hOther
  exact Option.some.inj (hSecond.symm.trans hFirst)

theorem take (h : Owned capacity events pool held)
    (hTake : pool.take language = (some parser, after)) :
    Owned capacity (events ++ [.taken language parser]) after ((language, parser) :: held) := by
  obtain ⟨hSound, hKeeps, hBuilt⟩ := Pool.take_spec h.sound hTake
  obtain ⟨rest, hIdle, rfl⟩ := take_some hTake
  have hMem : parser ∈ pool.idleOf language := by
    rw [hIdle]
    exact List.mem_cons_self
  have hSame : spoiled (events ++ [.taken language parser]) = spoiled events := spoiled_append rfl
  refine ⟨h.capacity_eq, hSound, ?_, ?_, ?_, ?_, ?_, ?_, ?_⟩
  · rw [List.forall_mem_cons]
    exact ⟨hBuilt parser rfl, fun entry hEntry => hKeeps _ _ (h.fits entry hEntry)⟩
  · refine h.handed_append _ hKeeps fun entry hEntry => ?_
    obtain rfl := Option.some.inj hEntry
    exact hBuilt parser rfl
  · intro other known hKnown
    exact List.mem_append_left _ (h.made other known hKnown)
  · rw [hSame]
    exact h.known
  · intro other known
    have hOnce := h.once other known
    rw [places_held]
    rw [places] at hOnce ⊢
    rw [hSame]
    by_cases hOther : other = language
    · subst hOther
      rw [hIdle, List.count_cons] at hOnce
      simp only [beq_iff_eq] at hOnce
      rw [Pool.idleOf_withIdle_self]
      omega
    · rw [Pool.idleOf_withIdle_ne hOther]
      by_cases hKnown : parser = known
      · -- The parser left the places under its own language, and was never under another one.
        subst hKnown
        have hNone : (pool.idleOf other).count parser = 0 :=
          List.count_eq_zero.mpr fun hParser => hOther (h.eq_of_mem_idleOf hMem hParser)
        have hOwn := h.once language parser
        rw [places, hIdle, List.count_cons_self] at hOwn
        rw [hNone, if_pos rfl]
        omega
      · rw [if_neg hKnown]
        exact hOnce
  · intro other
    have hRoom := h.room other
    rw [Pool.idleCount] at hRoom ⊢
    by_cases hOther : other = language
    · subst hOther
      rw [hIdle, List.length_cons] at hRoom
      rw [Pool.idleOf_withIdle_self]
      omega
    · rw [Pool.idleOf_withIdle_ne hOther]
      exact hRoom
  · refine h.gone_append _ fun entry hEntry => ?_
    obtain rfl := Option.some.inj hEntry
    -- A parser that idles is not among those whose uses failed.
    have hOwn := h.once language parser
    rw [places, hIdle, List.count_cons_self] at hOwn
    have hNone : (spoiled events).count parser = 0 := by omega
    exact List.count_eq_zero.mp hNone

theorem build (h : Owned capacity events pool held) {grammars : GrammarSource}
    (hBuild : pool.build grammars language = (.ok parser, after)) :
    Owned capacity (events ++ [.built language parser]) after ((language, parser) :: held) := by
  obtain ⟨hSound, hKeeps, hGranted⟩ := Pool.build_spec h.sound hBuild
  obtain ⟨rfl, rfl⟩ := build_ok hBuild
  have hSame : spoiled (events ++ [.built language pool.built.length]) = spoiled events :=
    spoiled_append rfl
  refine ⟨h.capacity_eq, hSound, ?_, ?_, ?_, ?_, ?_, h.room, ?_⟩
  · rw [List.forall_mem_cons]
    exact ⟨hGranted, fun entry hEntry => hKeeps _ _ (h.fits entry hEntry)⟩
  · refine h.handed_append _ hKeeps fun entry hEntry => ?_
    obtain rfl := Option.some.inj hEntry
    exact hGranted
  · intro other known hKnown
    rcases builtFor_built hKnown with hOld | ⟨rfl, rfl⟩
    · exact List.mem_append_left _ (h.made other known hOld)
    · exact List.mem_append_right _ List.mem_cons_self
  · rw [hSame]
    intro other hOther
    have hLt := h.known other hOther
    simp only [List.length_append, List.length_singleton]
    omega
  · intro other known
    have hOnce := h.once other known
    have hUnchanged : ({ pool with built := pool.built ++ [language] } : Pool).idleOf other
        = pool.idleOf other := rfl
    rw [places_held]
    rw [places] at hOnce ⊢
    rw [hSame, hUnchanged]
    by_cases hKnown : pool.built.length = known
    · -- The new parser was nowhere before, since all places hold parsers that were built already.
      subst hKnown
      have hIdle : (pool.idleOf other).count pool.built.length = 0 :=
        List.count_eq_zero.mpr fun hParser =>
          Nat.lt_irrefl _ (lt_of_builtFor (h.sound other _ hParser))
      have hHeld : (held.map Prod.snd).count pool.built.length = 0 := by
        refine List.count_eq_zero.mpr fun hParser => ?_
        obtain ⟨entry, hEntry, hNumber⟩ := List.mem_map.mp hParser
        have hLt := lt_of_builtFor (h.fits entry hEntry)
        omega
      have hSpoiled : (spoiled events).count pool.built.length = 0 :=
        List.count_eq_zero.mpr fun hParser => Nat.lt_irrefl _ (h.known _ hParser)
      rw [if_pos rfl]
      omega
    · rw [if_neg hKnown]
      exact hOnce
  · refine h.gone_append _ fun entry hEntry hSpoiled => ?_
    obtain rfl := Option.some.inj hEntry
    exact Nat.lt_irrefl _ (h.known _ hSpoiled)

theorem fail (h : Owned capacity events pool ((language, parser) :: held)) :
    Owned capacity (events ++ [.failed language parser]) pool held := by
  have hFits := h.fits
  rw [List.forall_mem_cons] at hFits
  have hMore : spoiled (events ++ [.failed language parser]) = spoiled events ++ [parser] := by
    rw [spoiled, spoiled, List.filterMap_append]
    rfl
  have hHanded := h.handed_append (.failed language parser) (Pool.Keeps.refl pool)
    fun entry hEntry => by cases hEntry
  refine ⟨h.capacity_eq, h.sound, hFits.2, hHanded, ?_, ?_, ?_, h.room, ?_⟩
  · intro other known hKnown
    exact List.mem_append_left _ (h.made other known hKnown)
  · rw [hMore, List.forall_mem_append]
    refine ⟨h.known, ?_⟩
    intro other hOther
    obtain rfl := List.mem_singleton.mp hOther
    exact lt_of_builtFor hFits.1
  · intro other known
    have hOnce := h.once other known
    rw [places_held, places] at hOnce
    rw [places, hMore, List.count_append, List.count_singleton]
    simp only [beq_iff_eq]
    omega
  · exact h.gone_append _ fun entry hEntry => by cases hEntry

/-- A parser that is given back goes to the idle ones, or it is dropped. -/
theorem release (h : Owned capacity events pool ((language, parser) :: held)) :
    Owned capacity (events ++ [.released language parser]) (pool.release language parser)
      held := by
  have hFits := h.fits
  rw [List.forall_mem_cons] at hFits
  have hSame : spoiled (events ++ [.released language parser]) = spoiled events :=
    spoiled_append rfl
  have hSound := Pool.release_sound h.sound hFits.1
  have hHanded := h.handed_append (.released language parser)
    (Pool.keeps_release pool language parser) fun entry hEntry => by cases hEntry
  have hGone := h.gone_append (.released language parser)
    fun entry hEntry => by cases hEntry
  rw [Pool.release] at hSound hHanded ⊢
  dsimp only at hSound hHanded ⊢
  split at hSound
  · rename_i hRoom
    rw [if_pos hRoom] at hHanded ⊢
    refine ⟨h.capacity_eq, hSound, hFits.2, hHanded, ?_, ?_, ?_, ?_, hGone⟩
    · intro other known hKnown
      exact List.mem_append_left _ (h.made other known hKnown)
    · rw [hSame]
      exact h.known
    · intro other known
      have hOnce := h.once other known
      rw [places_held, places] at hOnce
      rw [places, hSame]
      by_cases hOther : other = language
      · subst hOther
        rw [Pool.idleOf_withIdle_self, List.count_cons]
        simp only [beq_iff_eq]
        omega
      · rw [Pool.idleOf_withIdle_ne hOther]
        omega
    · intro other
      have hOld := h.room other
      rw [Pool.idleCount] at hOld ⊢
      by_cases hOther : other = language
      · subst hOther
        rw [Pool.idleOf_withIdle_self, List.length_cons]
        rw [h.capacity_eq] at hRoom
        omega
      · rw [Pool.idleOf_withIdle_ne hOther]
        exact hOld
  · rename_i hFull
    rw [if_neg hFull] at hHanded ⊢
    refine ⟨h.capacity_eq, h.sound, hFits.2, hHanded, ?_, ?_, ?_, h.room, hGone⟩
    · intro other known hKnown
      exact List.mem_append_left _ (h.made other known hKnown)
    · rw [hSame]
      exact h.known
    · intro other known
      have hOnce := h.once other known
      rw [places_held, places] at hOnce
      rw [places, hSame]
      omega

/-- The parsers in hand are that of one use, if it has one, and those of the other uses. -/
theorem held_perm (pool after : Pool) (before rest : List Use) (use : Use) :
    (State.mk pool (before ++ use :: rest)).held.Perm
      (use.held?.toList ++ (State.mk after (before ++ rest)).held) := by
  have hMiddle : (use :: rest).filterMap Use.held?
      = use.held?.toList ++ rest.filterMap Use.held? := by
    rw [List.filterMap_cons]
    cases use.held? <;> rfl
  rw [State.held, State.held, List.filterMap_append, List.filterMap_append, hMiddle]
  exact List.perm_append_comm_assoc _ _ _

/-- Each step of a use keeps what holds. -/
theorem step {state next : State} {event : Event}
    (h : Owned capacity events state.pool state.held) (hStep : Step state event next) :
    Owned capacity (events ++ [event]) next.pool next.held := by
  cases hStep with
  | @ask pool before rest language =>
    exact (h.quiet rfl rfl).perm (held_perm pool pool before rest (.asking language)).symm
  | @take pool after before rest language parser hTake =>
    have hIdle := h.perm (held_perm pool after before rest (.asking language))
    exact (hIdle.take hTake).perm (held_perm after after before rest (.holding language parser)).symm
  | @miss pool after before rest language hTake =>
    obtain rfl := take_none hTake
    have hNone := h.perm (held_perm after after before rest (.asking language))
    exact (hNone.quiet rfl rfl).perm
      (held_perm after after before rest (.building language)).symm
  | @build pool after before rest language parser grammars hBuild =>
    have hNone := h.perm (held_perm pool after before rest (.building language))
    exact (hNone.build hBuild).perm
      (held_perm after after before rest (.holding language parser)).symm
  | @refuse pool after before rest language raised grammars hBuild =>
    obtain rfl := build_error hBuild
    exact (h.perm (held_perm after after before rest (.building language))).quiet rfl rfl
  | @succeed pool before rest language parser =>
    have hHeld := h.perm (held_perm pool pool before rest (.holding language parser))
    exact (hHeld.quiet rfl rfl).perm
      (held_perm pool pool before rest (.returning language parser)).symm
  | @fail pool before rest language parser =>
    exact (h.perm (held_perm pool pool before rest (.holding language parser))).fail
  | @release pool before rest language parser =>
    exact (h.perm (held_perm pool (pool.release language parser) before rest
      (.returning language parser))).release

theorem run {state : State} (hRun : Run (Borrowing.start capacity) events state) :
    Owned capacity events state.pool state.held := by
  induction hRun with
  | none => exact Owned.start capacity
  | more _ hStep ih => exact ih.step hStep

end Owned

/-! ## Every row of steps -/

/-- However many uses, of however many languages, are open, and in whatever order their steps come,
while any use and any building of a parser may fail: no two uses have the same parser in hand; no
parser is both in hand and idle, or idle twice; all parsers that idle or are handed out under a
language were built for it; there are never more idle parsers of a language than the pool has room
for; and no parser is handed out any more whose use failed. -/
theorem run_owned {capacity : Int} (hCapacity : 0 ≤ capacity) {events : List Event} {state : State}
    (hRun : Run (start capacity) events state) :
    (state.held.map Prod.snd).Nodup ∧
    (∀ language, (state.pool.idleOf language).Nodup) ∧
    (∀ language, ∀ parser ∈ state.pool.idleOf language,
      parser ∉ state.held.map Prod.snd ∧
        ∀ other, parser ∈ state.pool.idleOf other → other = language) ∧
    (∀ language parser,
      parser ∈ state.pool.idleOf language ∨ (language, parser) ∈ state.held ∨
          (∃ event ∈ events, event.handed? = some (language, parser)) →
        .built language parser ∈ events) ∧
    (∀ language, (state.pool.idleCount language : Int) ≤ capacity) ∧
    events.Pairwise fun earlier later =>
      ∀ language other parser, earlier = .failed language parser →
        later.handed? ≠ some (other, parser) := by
  have h := Owned.run hRun
  have hOnce := h.once
  simp only [places] at hOnce
  refine ⟨?_, ?_, ?_, ?_, ?_, h.gone⟩
  · rw [List.nodup_iff_count_le_one]
    intro parser
    have hParser := hOnce "" parser
    omega
  · intro language
    rw [List.nodup_iff_count_le_one]
    intro parser
    have hParser := hOnce language parser
    omega
  · intro language parser hIdle
    refine ⟨fun hHeld => ?_, fun other hOther => h.eq_of_mem_idleOf hIdle hOther⟩
    have hParser := hOnce language parser
    have hIdleCount := List.count_pos_iff.mpr hIdle
    have hHeldCount := List.count_pos_iff.mpr hHeld
    omega
  · intro language parser hParser
    refine h.made language parser ?_
    rcases hParser with hIdle | hHeld | ⟨event, hEvent, hHanded⟩
    · exact h.sound language parser hIdle
    · exact h.fits (language, parser) hHeld
    · exact h.handed (language, parser) (List.mem_filterMap.mpr ⟨event, hEvent, hHanded⟩)
  · intro language
    have hRoom := h.room language
    omega

/-- Two uses at the same time, of which one fails.  The parser of the other one is kept and handed
out again. -/
theorem run_owned_reused :
    let events : List Event :=
      [.opened "go", .opened "go", .missed "go", .missed "go", .built "go" 0, .built "go" 1,
        .failed "go" 0, .succeeded "go" 1, .released "go" 1, .opened "go", .taken "go" 1]
    let state : State := ⟨⟨1, [("go", [])], ["go", "go"]⟩, [.holding "go" 1]⟩
    (0 : Int) ≤ 1 ∧ Run (start 1) events state ∧ state.held = [("go", 1)] ∧
      (state.held.map Prod.snd).Nodup ∧ (state.pool.idleCount "go" : Int) ≤ 1 := by
  intro events state
  let grammars : GrammarSource := fun _ => .ok fun _ => .ok none
  have hOpened : Run (start 1) [.opened "go", .opened "go"]
      ⟨{ capacity := 1 }, [.asking "go", .asking "go"]⟩ :=
    .more (.more .none (@Step.ask _ [] [] _)) (@Step.ask _ [] [.asking "go"] _)
  have hMissed : Run (start 1) [.opened "go", .opened "go", .missed "go", .missed "go"]
      ⟨{ capacity := 1 }, [.building "go", .building "go"]⟩ :=
    .more (.more hOpened (@Step.miss _ _ [] _ _ rfl)) (@Step.miss _ _ [.building "go"] _ _ rfl)
  have hBuilt := (hMissed.more (@Step.build _ _ [] _ _ _ grammars rfl)).more
    (@Step.build _ _ [.holding "go" 0] _ _ _ grammars rfl)
  have hEnded := ((hBuilt.more (@Step.fail _ [] _ _ _)).more (@Step.succeed _ [] _ _ _)).more
    (@Step.release _ [] _ _ _)
  have hRun : Run (start 1) events state :=
    (hEnded.more (@Step.ask _ [] [] _)).more (@Step.take _ _ [] _ _ _ rfl)
  obtain ⟨hHeld, -, -, -, hRoom, -⟩ := run_owned (by decide) hRun
  exact ⟨by decide, hRun, rfl, hHeld, hRoom "go"⟩

end TreeDump.Borrowing
