import Mathlib.Data.List.Perm.Subperm
import TreeDump.Proofs.Walk.Recursion

/-!
# Turns of a walk

A walk takes one directory off its stack in each turn, reads it, and puts the directories that it
found there on top.  All that a walk lists, reports and enters is what it found in its turns.

* `Visit`, `visitEntry_visit`: what an entry can add to what was found before it.
* `readStack_eq_turns`: the result of a walk is what was found in its turns.
* `directories_turnsFrom`: the directories that are read are those that were put on the stack, less
  those that an interruption leaves there.
-/

namespace TreeDump.Walk

variable {language : RuleLanguage}

/-! ## Entries -/

/-- The place of a directory that is to be read. -/
def Pending.place (fs : FileSystem) (pending : Pending language) : Place :=
  placeOf fs pending.directory

/-- Why an entry is passed over, after `found`. -/
inductive PassedOver (fs : FileSystem) (options : WalkOptions) (parent : Pending language)
    (found : Found language) (name : String) : Kind → Prop where
  | neither : PassedOver fs options parent found name .neither
  | unlisted
      (hListed : isListed options parent.scopes (parent.directory.child name) name = false) :
      PassedOver fs options parent found name .file
  | pruned (hPruned : isPruned options parent.scopes (parent.directory.child name) name) :
      PassedOver fs options parent found name .directory
  | deep (hDeep : options.maxDepth ≤ (parent.depth + 1 : Nat)) :
      PassedOver fs options parent found name .directory
  | known (hLinks : options.followLinks)
      (hKnown : placeOf fs (parent.directory.child name) ∈ found.visited) :
      PassedOver fs options parent found name .directory

/-- What comes of an entry, after `found`. -/
inductive Visit (fs : FileSystem) (options : WalkOptions) (parent : Pending language)
    (found : Found language) (name : String) : Kind → Found language → Prop where
  | passed {kind : Kind} (hPassed : PassedOver fs options parent found name kind) :
      Visit fs options parent found name kind found
  | listed (hListed : isListed options parent.scopes (parent.directory.child name) name) :
      Visit fs options parent found name .file
        { found with files := found.files ++ [parent.directory.child name] }
  /-- The directory would be entered, but its ignore file is no good. -/
  | interrupted (raised : Raised)
      (hLoad : loadScope language fs options (parent.directory.child name) = .error raised) :
      Visit fs options parent found name .directory
        { found with
          visited := enter options (placeOf fs (parent.directory.child name)) found.visited
          interruption := some raised }
  | entered (hPruned : isPruned options parent.scopes (parent.directory.child name) name = false)
      (hDeep : (parent.depth + 1 : Nat) < options.maxDepth)
      (hNew : options.followLinks → placeOf fs (parent.directory.child name) ∉ found.visited)
      (hLoads : Loads language fs options (parent.directory.child name)) :
      Visit fs options parent found name .directory
        { found with
          visited := enter options (placeOf fs (parent.directory.child name)) found.visited
          directories := found.directories ++ [pendingOf fs options parent name] }

section

variable (fs : FileSystem) (options : WalkOptions) (parent : Pending language)
  (found : Found language)

theorem visitDirectory_visit (name : String) : Visit fs options parent found name .directory
    (visitDirectory fs options parent found name) := by
  by_cases hPruned : isPruned options parent.scopes (parent.directory.child name) name
  · rw [visitDirectory, if_pos (by simp [hPruned])]
    exact .passed (.pruned hPruned)
  by_cases hDeep : options.maxDepth ≤ (parent.depth + 1 : Nat)
  · rw [visitDirectory, if_pos (by simp only [hDeep, decide_true, Bool.or_true, Bool.true_or])]
    exact .passed (.deep hDeep)
  by_cases hKnown : options.followLinks ∧ placeOf fs (parent.directory.child name) ∈ found.visited
  · rw [visitDirectory, if_pos (by simp [hKnown])]
    exact .passed (.known hKnown.1 hKnown.2)
  have hEnter : ¬ (isPruned options parent.scopes (parent.directory.child name) name
      || options.maxDepth ≤ (parent.depth + 1 : Nat)
      || options.followLinks && found.visited.contains (placeOf fs (parent.directory.child name)))
        = true := by
    simp only [hPruned, hDeep]
    simpa using hKnown
  rw [visitDirectory, if_neg hEnter]
  cases hLoad : loadScope language fs options (parent.directory.child name) with
  | error raised => exact .interrupted raised hLoad
  | ok scope =>
    have hPending : pendingOf fs options parent name
        = ⟨parent.directory.child name, parent.depth + 1, parent.scopes ++ scope.toList⟩ := by
      rw [pendingOf, ownScopes, hLoad]
    dsimp only
    rw [← hPending]
    exact .entered (by simpa using hPruned) (by omega) (fun hLinks hOld => hKnown ⟨hLinks, hOld⟩)
      ⟨scope, hLoad⟩

/-- An entry adds nothing, itself as a file, or itself as a directory to be read later. -/
theorem visitEntry_visit (name : String) (entry : Entry) :
    Visit fs options parent found name
      (kindOf fs options.followLinks (parent.directory.child name) entry)
      (visitEntry fs options parent found (name, entry)) := by
  rw [visitEntry]
  cases kindOf fs options.followLinks (parent.directory.child name) entry with
  | neither => exact .passed .neither
  | directory => exact visitDirectory_visit fs options parent found name
  | file =>
    by_cases hListed : isListed options parent.scopes (parent.directory.child name) name
    · simp only [hListed, if_true]
      exact .listed hListed
    · simp only [hListed]
      exact .passed (.unlisted (by simpa using hListed))

end

/-! ## Turns -/

/-- A directory that was read, and what came of it. -/
structure Turn (language : RuleLanguage) where
  directory : Pending language
  found : Found language

/-- The directories that a turn puts on the stack; none if something interrupted it. -/
def Turn.pushed (turn : Turn language) : List (Pending language) :=
  match turn.found.interruption with
  | some _ => []
  | none => turn.found.directories

theorem Turn.pushed_of_none {turn : Turn language} (hOn : turn.found.interruption = none) :
    turn.pushed = turn.found.directories := by
  rw [pushed, hOn]

/-- The turns in which a stack of directories is read. -/
def turnsFrom (fs : FileSystem) (options : WalkOptions) (visited : List Place)
    (stack : List (Pending language)) : List (Turn language) :=
  match stack with
  | [] => []
  | top :: rest =>
    let found := readDirectory fs options visited top
    match found.interruption with
    | some _ => [⟨top, found⟩]
    | none => ⟨top, found⟩ :: turnsFrom fs options found.visited (found.directories ++ rest)
termination_by weigh (Pending.weight fs.root.entryCount options) stack
decreasing_by exact weigh_readDirectory fs options visited top rest

section

variable (fs : FileSystem) (options : WalkOptions)

theorem turnsFrom_nil (visited : List Place) :
    turnsFrom fs options visited ([] : List (Pending language)) = [] := by
  rw [turnsFrom]

theorem turnsFrom_stop {visited : List Place} {top : Pending language}
    (rest : List (Pending language)) {raised : Raised}
    (hStop : (readDirectory fs options visited top).interruption = some raised) :
    turnsFrom fs options visited (top :: rest)
      = [⟨top, readDirectory fs options visited top⟩] := by
  rw [turnsFrom]
  simp only [hStop]

theorem turnsFrom_cons {visited : List Place} {top : Pending language}
    (rest : List (Pending language))
    (hOn : (readDirectory fs options visited top).interruption = none) :
    turnsFrom fs options visited (top :: rest)
      = ⟨top, readDirectory fs options visited top⟩
        :: turnsFrom fs options (readDirectory fs options visited top).visited
          ((readDirectory fs options visited top).directories ++ rest) := by
  rw [turnsFrom]
  simp only [hOn]

/-- What holds of a stack that is read to its end, or to an interruption, if it holds of the stacks
that are left after each turn. -/
theorem stack_induction {P : List Place → List (Pending language) → Prop}
    (hNil : ∀ visited, P visited [])
    (hStop : ∀ visited top rest raised,
      (readDirectory fs options visited top).interruption = some raised → P visited (top :: rest))
    (hTurn : ∀ visited top rest, (readDirectory fs options visited top).interruption = none →
      P (readDirectory fs options visited top).visited
        ((readDirectory fs options visited top).directories ++ rest) → P visited (top :: rest))
    (visited : List Place) (stack : List (Pending language)) : P visited stack := by
  induction visited, stack using turnsFrom.induct fs options with
  | case1 visited => exact hNil visited
  | case2 visited top rest found raised hRaised => exact hStop visited top rest raised hRaised
  | case3 visited top rest found hOn ih => exact hTurn visited top rest hOn ih

/-- In each turn a directory is read, with the places that were entered until then. -/
theorem exists_readDirectory {visited : List Place} {stack : List (Pending language)}
    {turn : Turn language} (hTurn : turn ∈ turnsFrom fs options visited stack) :
    ∃ before, turn.found = readDirectory fs options before turn.directory := by
  induction visited, stack using stack_induction fs options with
  | hNil visited =>
    rw [turnsFrom_nil] at hTurn
    cases hTurn
  | hStop visited top rest raised hStop =>
    rw [turnsFrom_stop fs options rest hStop, List.mem_singleton] at hTurn
    exact ⟨visited, hTurn ▸ rfl⟩
  | hTurn visited top rest hOn ih =>
    rw [turnsFrom_cons fs options rest hOn, List.mem_cons] at hTurn
    rcases hTurn with rfl | hLater
    · exact ⟨visited, rfl⟩
    · exact ih hLater

/-- What is listed and reported while a stack is read is what was found in the turns. -/
theorem readStack_eq_turns (files : List Path) (log : List LogRecord) (visited : List Place)
    (stack : List (Pending language)) :
    readStack fs options files log visited stack
      = ⟨files ++ (turnsFrom fs options visited stack).flatMap fun turn => turn.found.files,
        log ++ (turnsFrom fs options visited stack).flatMap fun turn => turn.found.log,
        (turnsFrom fs options visited stack).findSome? fun turn => turn.found.interruption⟩ := by
  induction visited, stack using stack_induction fs options generalizing files log with
  | hNil visited => simp [readStack, turnsFrom_nil]
  | hStop visited top rest raised hStop =>
    rw [readStack, turnsFrom_stop fs options rest hStop]
    simp [hStop]
  | hTurn visited top rest hOn ih =>
    rw [readStack, turnsFrom_cons fs options rest hOn]
    simp [hOn, ih]

/-- The directories that stand or are put on the stack are those that are read, and those that an
interruption leaves. -/
theorem directories_turnsFrom (visited : List Place) (stack : List (Pending language)) :
    ∃ left, List.Perm ((turnsFrom fs options visited stack).map Turn.directory ++ left)
        (stack ++ (turnsFrom fs options visited stack).flatMap Turn.pushed) ∧
      ((∀ turn ∈ turnsFrom fs options visited stack, turn.found.interruption = none) →
        left = []) := by
  induction visited, stack using stack_induction fs options with
  | hNil visited => exact ⟨[], by simp [turnsFrom_nil], fun _ => rfl⟩
  | hStop visited top rest raised hStop =>
    -- What is below the interrupted turn is never read.
    rw [turnsFrom_stop fs options rest hStop]
    exact ⟨rest, by simp [Turn.pushed, hStop], by simp [hStop]⟩
  | hTurn visited top rest hOn ih =>
    obtain ⟨left, hPerm, hLeft⟩ := ih
    rw [turnsFrom_cons fs options rest hOn, List.forall_mem_cons]
    refine ⟨left, ?_, fun hAll => hLeft hAll.2⟩
    rw [List.map_cons, List.flatMap_cons, Turn.pushed_of_none hOn, List.cons_append,
      List.cons_append, List.perm_cons, ← List.append_assoc]
    exact hPerm.trans (List.perm_append_comm.append_right _)

end

/-! ## The turns of a walk -/

/-- The turns of a walk; none if its starting directory cannot be entered. -/
def turns (language : RuleLanguage) (fs : FileSystem) (options : WalkOptions) (root : Path) :
    List (Turn language) :=
  if root.text.contains '\x00' then []
  else
    match loadScope language fs options root with
    | .error _ => []
    | .ok _ => turnsFrom fs options [placeOf fs root] [start language fs options root]

/-- The directories that a walk puts on its stack: the starting one, and those that it pushes in its
turns. -/
def entered (language : RuleLanguage) (fs : FileSystem) (options : WalkOptions) (root : Path) :
    List (Pending language) :=
  start language fs options root :: (turns language fs options root).flatMap Turn.pushed

/-- The files that a walk lists are those found in its turns. -/
theorem files_eq_turns (language : RuleLanguage) (fs : FileSystem) (options : WalkOptions)
    (root : Path) : (walkWith language fs options root).files
      = (turns language fs options root).flatMap fun turn => turn.found.files := by
  rw [walkWith, turns]
  split
  · rfl
  · cases hLoad : loadScope language fs options root with
    | error raised => rfl
    | ok scope =>
      have hStart : start language fs options root = ⟨root, 0, scope.toList⟩ := by
        rw [start, ownScopes, hLoad]
      simp only [hStart, readStack_eq_turns, List.nil_append]

theorem exists_readDirectory_turns {language : RuleLanguage} {fs : FileSystem}
    {options : WalkOptions} {root : Path} {turn : Turn language}
    (hTurn : turn ∈ turns language fs options root) :
    ∃ before, turn.found = readDirectory fs options before turn.directory := by
  rw [turns] at hTurn
  split at hTurn
  · cases hTurn
  · split at hTurn
    · cases hTurn
    · exact exists_readDirectory fs options hTurn

/-- Nothing interrupts a walk just when its starting directory can be entered and nothing
interrupts one of its turns. -/
theorem interruption_eq_none_iff {language : RuleLanguage} {fs : FileSystem}
    {options : WalkOptions} {root : Path} :
    (walkWith language fs options root).interruption = none ↔
      (¬ root.text.contains '\x00' ∧ Loads language fs options root) ∧
        ∀ turn ∈ turns language fs options root, turn.found.interruption = none := by
  rw [walkWith, turns]
  split
  · rename_i hNul
    simp [hNul]
  · rename_i hClear
    cases hLoad : loadScope language fs options root with
    | error raised => simp [Loads, hLoad]
    | ok scope =>
      have hStart : start language fs options root = ⟨root, 0, scope.toList⟩ := by
        rw [start, ownScopes, hLoad]
      have hLoads : Loads language fs options root := ⟨scope, hLoad⟩
      simp only [hStart, readStack_eq_turns]
      rw [List.findSome?_eq_none_iff, and_iff_right ⟨hClear, hLoads⟩]

/-- The turns of a walk that nothing interrupts. -/
theorem turns_of_interruption_none {language : RuleLanguage} {fs : FileSystem}
    {options : WalkOptions} {root : Path}
    (hOn : (walkWith language fs options root).interruption = none) :
    turns language fs options root
        = turnsFrom fs options [placeOf fs root] [start language fs options root] ∧
      ∀ turn ∈ turns language fs options root, turn.found.interruption = none := by
  obtain ⟨⟨hClear, scope, hLoad⟩, hTurns⟩ := interruption_eq_none_iff.mp hOn
  refine ⟨?_, hTurns⟩
  rw [turns, if_neg hClear, hLoad]

end TreeDump.Walk
