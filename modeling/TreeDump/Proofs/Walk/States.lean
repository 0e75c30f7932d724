import TreeDump.Proofs.Walk.Exactness
import TreeDump.Proofs.Walk.Turns

/-!
# States of a walk

Between two turns a walk is in a state: the places that it entered and the stack of the directories
that it is still to read, each with the rules that it was put there with.

* `Step`, `Reached`: the states that a walk comes to.
* `mem_turns_iff`: the turns of a walk are taken at these states, and only there.
* `Reached.walkWith_eq`: what a walk comes to is what comes of any state that it comes to.
-/

namespace TreeDump.Walk

variable {language : RuleLanguage}

/-- What a walk goes on from between two turns: the places that it entered, and the stack of the
directories that it is to read. -/
structure State (language : RuleLanguage) where
  visited : List Place
  stack : List (Pending language)

/-- A turn that nothing interrupts. -/
inductive Step (fs : FileSystem) (options : WalkOptions) :
    State language → State language → Prop where
  | turn {visited : List Place} {top : Pending language} (rest : List (Pending language))
      (hOn : (readDirectory fs options visited top).interruption = none) :
      Step fs options ⟨visited, top :: rest⟩
        ⟨(readDirectory fs options visited top).visited,
          (readDirectory fs options visited top).directories ++ rest⟩

/-- That a walk comes to a state. -/
structure Reached (language : RuleLanguage) (fs : FileSystem) (options : WalkOptions) (root : Path)
    (state : State language) : Prop where
  nameable : ¬ root.text.contains '\x00'
  loads : Loads language fs options root
  steps : Relation.ReflTransGen (Step fs options)
    ⟨[placeOf fs root], [start language fs options root]⟩ state

section

variable {fs : FileSystem} {options : WalkOptions} {root : Path}

/-- The turns in which a stack is read are those of the topmost directories of the states that are
reached from there. -/
theorem mem_turnsFrom_iff {visited : List Place} {stack : List (Pending language)}
    {turn : Turn language} : turn ∈ turnsFrom fs options visited stack ↔
      ∃ before rest, Relation.ReflTransGen (Step fs options) ⟨visited, stack⟩
          ⟨before, turn.directory :: rest⟩ ∧
        turn.found = readDirectory fs options before turn.directory := by
  induction visited, stack using stack_induction fs options with
  | hNil visited =>
    rw [turnsFrom_nil]
    refine iff_of_false List.not_mem_nil ?_
    rintro ⟨before, rest, hSteps, -⟩
    rcases Relation.ReflTransGen.cases_head hSteps with hSame | ⟨next, hStep, -⟩
    · cases hSame
    · cases hStep
  | hStop visited top rest raised hStop =>
    rw [turnsFrom_stop fs options rest hStop, List.mem_singleton]
    constructor
    · rintro rfl
      exact ⟨visited, rest, .refl, rfl⟩
    · rintro ⟨before, others, hSteps, hFound⟩
      rcases Relation.ReflTransGen.cases_head hSteps with hSame | ⟨next, hStep, -⟩
      · cases hSame
        rw [← hFound]
      · cases hStep with
        | turn _ hOn => cases hOn.symm.trans hStop
  | hTurn visited top rest hOn ih =>
    rw [turnsFrom_cons fs options rest hOn, List.mem_cons, ih]
    constructor
    · rintro (rfl | ⟨before, others, hSteps, hFound⟩)
      · exact ⟨visited, rest, .refl, rfl⟩
      · exact ⟨before, others, .head (.turn rest hOn) hSteps, hFound⟩
    · rintro ⟨before, others, hSteps, hFound⟩
      rcases Relation.ReflTransGen.cases_head hSteps with hSame | ⟨next, hStep, hRest⟩
      · cases hSame
        left
        rw [← hFound]
      · cases hStep
        exact Or.inr ⟨before, others, hRest, hFound⟩

/-- The turns of a walk are those of the topmost directories of the states that it comes to. -/
theorem mem_turns_iff {turn : Turn language} : turn ∈ turns language fs options root ↔
    ∃ before rest, Reached language fs options root ⟨before, turn.directory :: rest⟩ ∧
      turn.found = readDirectory fs options before turn.directory := by
  rw [turns]
  split
  · rename_i hNul
    refine iff_of_false List.not_mem_nil ?_
    rintro ⟨before, rest, hReached, -⟩
    exact hReached.nameable hNul
  · rename_i hClear
    cases hLoad : loadScope language fs options root with
    | error raised =>
      refine iff_of_false List.not_mem_nil ?_
      rintro ⟨before, rest, hReached, -⟩
      obtain ⟨scope, hScope⟩ := hReached.loads
      cases hLoad.symm.trans hScope
    | ok scope =>
      dsimp only
      rw [mem_turnsFrom_iff]
      constructor
      · rintro ⟨before, rest, hSteps, hFound⟩
        exact ⟨before, rest, ⟨hClear, ⟨scope, hLoad⟩, hSteps⟩, hFound⟩
      · rintro ⟨before, rest, hReached, hFound⟩
        exact ⟨before, rest, hReached.steps, hFound⟩

/-- A walk lists and reports what it did before a state, and then what comes of the stack there. -/
theorem Reached.walkWith_eq {state : State language}
    (hReached : Reached language fs options root state) :
    ∃ files log, walkWith language fs options root
      = readStack fs options files log state.visited state.stack := by
  obtain ⟨hClear, ⟨scope, hLoad⟩, hSteps⟩ := hReached
  induction hSteps with
  | refl =>
    have hStart : start language fs options root = ⟨root, 0, scope.toList⟩ := by
      rw [start, ownScopes, hLoad]
    refine ⟨[], [], ?_⟩
    rw [walkWith, if_neg hClear, hLoad, hStart]
  | tail _ hStep ih =>
    obtain ⟨files, log, hWalk⟩ := ih
    cases hStep with
    | @turn visited top rest hOn =>
      refine ⟨files ++ (readDirectory fs options visited top).files,
        log ++ (readDirectory fs options visited top).log, ?_⟩
      rw [hWalk, readStack]
      simp only [hOn]

end

end TreeDump.Walk
