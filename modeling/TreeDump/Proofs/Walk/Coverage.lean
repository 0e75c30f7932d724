import TreeDump.Proofs.Walk.Links

/-!
# What links take away from a walk

A walk that follows links enters a directory by the first path that leads to it.  By that path the
directory may be deeper, or under other rules, than by the one without links, so that following
links can take files away from a walk.

* `Takes`, `readDirectory_takes`: what becomes of each entry of a directory that is read.
* `directory_covered_or_cut`, `file_covered_or_cut`: where a directory was entered, an entry of it is
  entered or listed too, unless it is cut off there.
* `covered_or_cut`: the same of a file at the end of a way, down the way.
* `walkWith_followLinks_covers`: a file that is listed without links is listed with links, unless a
  directory on its way was entered by another path, under which the way is cut off.
* `not_covers`: a file that is listed without links only.
-/

namespace TreeDump.Walk

variable {language : RuleLanguage}

/-! ## What becomes of an entry -/

section

variable {fs : FileSystem} {options : WalkOptions} {parent : Pending language}

/-- That an entry is listed or entered, unless it is passed over. -/
structure Takes (fs : FileSystem) (options : WalkOptions) (parent : Pending language)
    (found : Found language) (name : String) (kind : Kind) : Prop where
  file : kind = .file → (parent.depth + 1 : Nat) ≤ options.maxDepth →
    isListed options parent.scopes (parent.directory.child name) name →
    parent.directory.child name ∈ found.files
  directory : kind = .directory → (parent.depth + 1 : Nat) < options.maxDepth →
    isPruned options parent.scopes (parent.directory.child name) name = false →
    placeOf fs (parent.directory.child name) ∈ found.visited

theorem Visit.takes (hLinks : options.followLinks = true) {found after : Found language}
    {name : String} {kind : Kind} (hVisit : Visit fs options parent found name kind after) :
    Takes fs options parent after name kind := by
  cases hVisit with
  | passed hPassed =>
    cases hPassed with
    | neither => exact ⟨by simp, by simp⟩
    | unlisted hListed =>
      refine ⟨fun _ _ hIsListed => ?_, by simp⟩
      rw [hListed] at hIsListed
      cases hIsListed
    | pruned hPruned =>
      refine ⟨by simp, fun _ _ hNotPruned => ?_⟩
      rw [hPruned] at hNotPruned
      cases hNotPruned
    | deep hDeep => exact ⟨by simp, fun _ hShallow => absurd hShallow (by omega)⟩
    | known hFollow hKnown => exact ⟨by simp, fun _ _ _ => hKnown⟩
  | listed hListed => exact ⟨fun _ _ _ => by simp, by simp⟩
  | interrupted raised hLoad => exact ⟨by simp, fun _ _ _ => by simp [enter, hLinks]⟩
  | entered hPruned hDeep hNew hLoads => exact ⟨by simp, fun _ _ _ => by simp [enter, hLinks]⟩

/-- Nothing that was found is lost again. -/
structure Keeps (found after : Found language) : Prop where
  files : found.files ⊆ after.files
  visited : found.visited ⊆ after.visited

theorem Visit.keeps {found after : Found language} {name : String} {kind : Kind}
    (hVisit : Visit fs options parent found name kind after) : Keeps found after := by
  have hEnter : ∀ place, found.visited ⊆ enter options place found.visited := by
    intro place
    rw [enter]
    split <;> simp
  cases hVisit with
  | listed hListed => exact ⟨by simp, by simp⟩
  | interrupted raised hLoad => exact ⟨by simp, hEnter _⟩
  | entered hPruned hDeep hNew hLoads => exact ⟨by simp, hEnter _⟩
  | passed hPassed => exact ⟨by simp, by simp⟩

theorem Takes.mono {found after : Found language} {name : String} {kind : Kind}
    (h : Takes fs options parent found name kind) (hKeeps : Keeps found after) :
    Takes fs options parent after name kind :=
  ⟨fun hKind hDepth hListed => hKeeps.files (h.file hKind hDepth hListed),
    fun hKind hDepth hPruned => hKeeps.visited (h.directory hKind hDepth hPruned)⟩

theorem visitEntries_takes (hLinks : options.followLinks = true) {found : Found language}
    {entries : List (String × Entry)} (hNone : found.interruption = none)
    (hOn : (visitEntries fs options parent found entries).interruption = none) :
    Keeps found (visitEntries fs options parent found entries) ∧
      ∀ entry ∈ entries, Takes fs options parent (visitEntries fs options parent found entries)
        entry.1 (kindOf fs options.followLinks (parent.directory.child entry.1) entry.2) := by
  induction entries generalizing found with
  | nil => exact ⟨⟨by simp [visitEntries], by simp [visitEntries]⟩, by simp⟩
  | cons entry rest ih =>
    have hVisit := visitEntry_visit fs options parent found entry.1 entry.2
    cases hStop : (visitEntry fs options parent found entry).interruption with
    | some raised =>
      rw [visitEntries_stop fs parent rest hStop, hStop] at hOn
      cases hOn
    | none =>
      rw [visitEntries_cons fs parent rest hStop] at hOn ⊢
      obtain ⟨hKeeps, hRest⟩ := ih hStop hOn
      refine ⟨⟨?_, ?_⟩, List.forall_mem_cons.mpr ⟨(hVisit.takes hLinks).mono hKeeps, hRest⟩⟩
      · exact List.Subset.trans hVisit.keeps.files hKeeps.files
      · exact List.Subset.trans hVisit.keeps.visited hKeeps.visited

/-- Reading a directory that can be listed lists or enters its entries, unless they are passed
over. -/
theorem readDirectory_takes (hLinks : options.followLinks = true) {visited : List Place}
    (hOn : (readDirectory fs options visited parent).interruption = none) :
    ∀ entry ∈ entriesOf fs parent.directory,
      Takes fs options parent (readDirectory fs options visited parent) entry.1
        (kindOf fs options.followLinks (parent.directory.child entry.1) entry.2) := by
  intro entry hEntry
  rw [readDirectory] at hOn ⊢
  split
  · rename_i hDeep
    exact ⟨fun _ hDepth => absurd hDepth (by omega), fun _ hDepth => absurd hDepth (by omega)⟩
  · rename_i hDepth
    rw [if_neg hDepth] at hOn
    rw [entriesOf] at hEntry
    cases hList : fs.list parent.directory.text with
    | error refusal =>
      rw [hList] at hEntry
      cases hEntry
    | ok entries =>
      rw [hList] at hEntry hOn
      exact (visitEntries_takes hLinks rfl hOn).2 entry hEntry

/-! ## All that is entered -/

/-- A place that counts as entered in a turn that nothing interrupts is that of a directory that was
put on the stack. -/
theorem mem_places_of_visited (hLinks : options.followLinks = true) {visited : List Place}
    {stack : List (Pending language)}
    (hOn : ∀ turn ∈ turnsFrom fs options visited stack, turn.found.interruption = none) :
    ∀ turn ∈ turnsFrom fs options visited stack, ∀ place ∈ turn.found.visited,
      place ∈ visited ∨
        place ∈ ((turnsFrom fs options visited stack).flatMap Turn.pushed).map (Pending.place fs) := by
  induction visited, stack using stack_induction fs options with
  | hNil visited => simp [turnsFrom_nil]
  | hStop visited top rest raised hStop =>
    rw [turnsFrom_stop fs options rest hStop] at hOn
    rw [hOn _ List.mem_cons_self] at hStop
    cases hStop
  | hTurn visited top rest hNone ih =>
    rw [turnsFrom_cons fs options rest hNone] at hOn ⊢
    rw [List.forall_mem_cons] at hOn
    have hEntering := readDirectory_entering hLinks visited hNone
    have hSplit : ∀ place ∈ (readDirectory fs options visited top).visited, place ∈ visited ∨
        place ∈ (readDirectory fs options visited top).directories.map (Pending.place fs) := by
      intro place hPlace
      rw [hEntering.visited_eq, List.mem_append, List.mem_reverse] at hPlace
      exact hPlace.symm
    rw [List.flatMap_cons, Turn.pushed_of_none hNone, List.map_append, List.forall_mem_cons]
    constructor
    · intro place hPlace
      exact (hSplit place hPlace).imp_right (List.mem_append_left _)
    · intro turn hTurn place hPlace
      rcases ih hOn.2 turn hTurn place hPlace with hHere | hLater
      · exact (hSplit place hHere).imp_right (List.mem_append_left _)
      · exact Or.inr (List.mem_append_right _ hLater)

/-- If nothing interrupts a walk, it reads all directories that it puts on its stack. -/
theorem exists_turn {root : Path} (hOn : (walkWith language fs options root).interruption = none)
    {pending : Pending language} (hPending : pending ∈ entered language fs options root) :
    ∃ turn ∈ turns language fs options root, turn.directory = pending := by
  obtain ⟨hTurns, hAll⟩ := turns_of_interruption_none hOn
  rw [hTurns] at hAll
  obtain ⟨left, hPerm, hLeft⟩ := directories_turnsFrom fs options [placeOf fs root]
    [start language fs options root]
  rw [hLeft hAll, List.append_nil] at hPerm
  rw [entered, hTurns] at hPending
  rw [hTurns]
  exact List.mem_map.mp (hPerm.mem_iff.mpr hPending)

/-- If nothing interrupts a walk, the places that count as entered in one of its turns are those of
directories that it put on its stack. -/
theorem exists_entered_of_visited {root : Path} (hLinks : options.followLinks = true)
    (hOn : (walkWith language fs options root).interruption = none) {turn : Turn language}
    (hTurn : turn ∈ turns language fs options root) {place : Place}
    (hPlace : place ∈ turn.found.visited) :
    ∃ pending ∈ entered language fs options root, pending.place fs = place := by
  obtain ⟨hTurns, hAll⟩ := turns_of_interruption_none hOn
  rw [hTurns] at hAll hTurn
  rw [entered, hTurns]
  rcases mem_places_of_visited hLinks hAll turn hTurn place hPlace with hStart | hPushed
  · exact ⟨start language fs options root, List.mem_cons_self, (List.mem_singleton.mp hStart).symm⟩
  · obtain ⟨pending, hPending, hEq⟩ := List.mem_map.mp hPushed
    exact ⟨pending, List.mem_cons_of_mem _ hPending, hEq⟩

/-! ## Ways that are cut off -/

/-- Why an entry of a directory that was entered is neither listed nor entered, though it is not
passed over by its name. -/
inductive Cuts (fs : FileSystem) (options : WalkOptions) (parent : Pending language)
    (name : String) (isDirectory : Bool) : Prop where
  /-- The directory cannot be listed by the path by which it was entered. -/
  | unreadable (refusal : Refusal) (hList : fs.list parent.directory.text = .error refusal)
  | deep (hDeep : options.maxDepth < (parent.depth + (if isDirectory then 2 else 1) : Nat))
  | ignored (hIgnored : isIgnored parent.scopes (parent.directory.child name) isDirectory)
  | rejected (hFile : isDirectory = false)
      (hRejected : options.filter.accepts (parent.directory.child name).text = false)

/-- Two paths to one directory list the same entries, if both can list any. -/
theorem entriesOf_congr {path other : Path} {entries others : List (String × Entry)}
    (hList : fs.list path.text = .ok entries) (hOther : fs.list other.text = .ok others)
    (hSame : placeOf fs path = placeOf fs other) : entriesOf fs path = entriesOf fs other := by
  obtain ⟨place, hTarget, hAt⟩ := FileSystem.target_of_list hList
  obtain ⟨otherPlace, hOtherTarget, hOtherAt⟩ := FileSystem.target_of_list hOther
  rw [placeOf_of_target hTarget, placeOf_of_target hOtherTarget] at hSame
  rw [hSame, hOtherAt] at hAt
  cases hAt
  rw [entriesOf, entriesOf, hList, hOther]

/-- An entry is at its place whatever the path is by which its directory was entered, and there it
is listed or entered unless it is passed over. -/
theorem exists_takes (hSound : fs.Sound) (hLinks : options.followLinks = true)
    {visited : List Place}
    (hOn : (readDirectory fs options visited parent).interruption = none)
    (hParent : parent.directory.Written) {path : Path} (hPath : path.Written)
    (hSame : parent.place fs = placeOf fs path) {name : String} {entry : Entry}
    (hMem : (name, entry) ∈ entriesOf fs path) (hNoLink : entry.isLink = false) :
    (∃ refusal, fs.list parent.directory.text = .error refusal) ∨
      placeOf fs (parent.directory.child name) = placeOf fs (path.child name) ∧
        Takes fs options parent (readDirectory fs options visited parent) name (.ofEntry entry) := by
  cases hList : fs.list parent.directory.text with
  | error refusal => exact Or.inl ⟨refusal, rfl⟩
  | ok entries =>
    right
    cases hOther : fs.list path.text with
    | error refusal =>
      rw [entriesOf, hOther] at hMem
      cases hMem
    | ok others =>
      have hHere : (name, entry) ∈ entriesOf fs parent.directory := by
        rwa [entriesOf_congr hList hOther hSame]
      have hPlace := (placeOf_child hSound hParent hHere hNoLink).1
      have hOtherPlace := (placeOf_child hSound hPath hMem hNoLink).1
      have hTakes := readDirectory_takes hLinks hOn (name, entry) hHere
      rw [kindOf_of_noLink hNoLink] at hTakes
      refine ⟨?_, hTakes⟩
      rw [hPlace, hOtherPlace]
      exact congrArg (· ++ [name]) hSame

variable {root : Path} {way : List String}

/-- What a walk lists and enters without links at the end of a way, it does not cut off when it
comes by that way. -/
theorem not_cuts_pendingAt {name : String} {entry : Entry} {isDirectory : Bool}
    (hMem : (name, entry) ∈ entriesOf fs (root.descend way))
    (hDepth : (way.length + (if isDirectory then 2 else 1) : Nat) ≤ options.maxDepth)
    (hRules : isIgnored (scopesAt language fs options root way)
      (root.descend (way ++ [name])) isDirectory = false)
    (hAccepted : isDirectory = false →
      options.filter.accepts (root.descend (way ++ [name])).text = true) :
    ¬ Cuts fs options (pendingAt language fs options root way) name isDirectory := by
  have hPath : (pendingAt language fs options root way).directory.child name
      = root.descend (way ++ [name]) := Path.descend_descend root way [name]
  intro hCuts
  cases hCuts with
  | unreadable refusal hList =>
    have hNone : entriesOf fs (root.descend way) = [] := by
      rw [entriesOf]
      change fs.list (root.descend way).text = .error refusal at hList
      rw [hList]
    rw [hNone] at hMem
    cases hMem
  | deep hDeep =>
    change options.maxDepth < (way.length + (if isDirectory then 2 else 1) : Nat) at hDeep
    omega
  | ignored hIgnored =>
    rw [hPath] at hIgnored
    exact absurd (hIgnored.symm.trans hRules) (by simp)
  | rejected hFile hRejected =>
    rw [hPath, hAccepted hFile] at hRejected
    cases hRejected

/-! ## Ways that are gone -/

/-- An entry of a directory that was entered, by whatever path, is found there. -/
theorem exists_turn_takes (hSound : fs.Sound) (hRoot : root.Written)
    (hLinks : options.followLinks = true)
    (hOn : (walkWith language fs options root).interruption = none)
    {pending : Pending language} (hPending : pending ∈ entered language fs options root)
    (hNamed : ∀ name ∈ way, EntryName name)
    (hSame : pending.place fs = placeOf fs (root.descend way)) {name : String} {entry : Entry}
    (hMem : (name, entry) ∈ entriesOf fs (root.descend way)) (hNoLink : entry.isLink = false) :
    (∃ refusal, fs.list pending.directory.text = .error refusal) ∨
      ∃ turn ∈ turns language fs options root,
        placeOf fs (pending.directory.child name) = placeOf fs (root.descend (way ++ [name])) ∧
        Takes fs options pending turn.found name (.ofEntry entry) := by
  obtain ⟨turn, hTurn, rfl⟩ := exists_turn hOn hPending
  obtain ⟨before, hRead⟩ := exists_readDirectory_turns hTurn
  obtain ⟨reached, hReaches, -⟩ := exists_reaches hSound hRoot hTurn
  have hTurnOn := (turns_of_interruption_none hOn).2 turn hTurn
  rw [hRead] at hTurnOn
  rcases exists_takes hSound hLinks hTurnOn (hReaches.written hRoot) (written_descend hRoot hNamed)
      hSame hMem hNoLink with hError | ⟨hPlace, hTakes⟩
  · exact Or.inl hError
  · rw [Path.child_eq_descend (root.descend way), Path.descend_descend] at hPlace
    exact Or.inr ⟨turn, hTurn, hPlace, hRead ▸ hTakes⟩

/-- A directory in one that was entered is entered too, by whatever path, or cut off. -/
theorem directory_covered_or_cut (hSound : fs.Sound) (hRoot : root.Written)
    (hLinks : options.followLinks = true)
    (hOn : (walkWith language fs options root).interruption = none)
    {pending : Pending language} (hPending : pending ∈ entered language fs options root)
    (hNamed : ∀ name ∈ way, EntryName name)
    (hSame : pending.place fs = placeOf fs (root.descend way)) {name : String}
    (hEnters : EntersAt language fs options root way name) :
    Cuts fs options pending name true ∨ ∃ next ∈ entered language fs options root,
      next.place fs = placeOf fs (root.descend (way ++ [name])) := by
  obtain ⟨entries, hMem⟩ := hEnters.isDirectory
  rcases exists_turn_takes hSound hRoot hLinks hOn hPending hNamed hSame hMem rfl
    with ⟨refusal, hError⟩ | ⟨turn, hTurn, hPlace, hTakes⟩
  · exact Or.inl (.unreadable refusal hError)
  by_cases hDeep : options.maxDepth < (pending.depth + 2 : Nat)
  · exact Or.inl (.deep hDeep)
  cases hIgnored : isIgnored pending.scopes (pending.directory.child name) true with
  | true => exact Or.inl (.ignored hIgnored)
  | false =>
    right
    have hKept : isPruned options pending.scopes (pending.directory.child name) name = false := by
      rw [isPruned, hIgnored, Bool.or_false]
      simpa using hEnters.notByName
    rw [← hPlace]
    exact exists_entered_of_visited hLinks hOn hTurn (hTakes.directory rfl (by omega) hKept)

/-- A file in a directory that was entered is listed, by whatever path, or cut off. -/
theorem file_covered_or_cut (hSound : fs.Sound) (hRoot : root.Written)
    (hLinks : options.followLinks = true)
    (hOn : (walkWith language fs options root).interruption = none)
    {pending : Pending language} (hPending : pending ∈ entered language fs options root)
    (hNamed : ∀ name ∈ way, EntryName name)
    (hSame : pending.place fs = placeOf fs (root.descend way)) {name : String}
    (hLists : ListsAt language fs options root way name) :
    Cuts fs options pending name false ∨ ∃ path ∈ (walkWith language fs options root).files,
      placeOf fs path = placeOf fs (root.descend (way ++ [name])) := by
  obtain ⟨content, hMem⟩ := hLists.isFile
  rcases exists_turn_takes hSound hRoot hLinks hOn hPending hNamed hSame hMem rfl
    with ⟨refusal, hError⟩ | ⟨turn, hTurn, hPlace, hTakes⟩
  · exact Or.inl (.unreadable refusal hError)
  by_cases hDeep : options.maxDepth < (pending.depth + 1 : Nat)
  · exact Or.inl (.deep hDeep)
  cases hIgnored : isIgnored pending.scopes (pending.directory.child name) false with
  | true => exact Or.inl (.ignored hIgnored)
  | false =>
    cases hAccepted : options.filter.accepts (pending.directory.child name).text with
    | false => exact Or.inl (.rejected rfl hAccepted)
    | true =>
      right
      have hListed : isListed options pending.scopes (pending.directory.child name) name := by
        rw [isListed, hIgnored, hAccepted]
        simpa using hLists.noIgnoreFile
      refine ⟨pending.directory.child name, ?_, hPlace⟩
      rw [files_eq_turns, List.mem_flatMap]
      exact ⟨turn, hTurn, hTakes.file rfl (by omega) hListed⟩

/-- That the directory at the end of a way was entered by another path, where an entry of it is cut
off. -/
structure CutOff (fs : FileSystem) (options : WalkOptions) (root : Path) (way : List String)
    (name : String) (isDirectory : Bool) (pending : Pending language) : Prop where
  sameDirectory : pending.place fs = placeOf fs (root.descend way)
  otherPath : pending.directory ≠ root.descend way
  cuts : Cuts fs options pending name isDirectory

/-- That a file at the end of a way, or a directory on the way, is cut off. -/
def IsCutOff (language : RuleLanguage) (fs : FileSystem) (options : WalkOptions) (root : Path)
    (way : List String) (name : String) : Prop :=
  ∃ pending ∈ entered language fs options root,
    (∃ above next, above ++ [next] <+: way ∧ CutOff fs options root above next true pending) ∨
      CutOff fs options root way name false pending

/-- A directory that is entered by the path of a way is so with the rules of that way. -/
theorem eq_pendingAt (hSound : fs.Sound) (hRoot : root.Written)
    (hOn : (walkWith language fs options root).interruption = none)
    {pending : Pending language} (hPending : pending ∈ entered language fs options root)
    (hPath : pending.directory = root.descend way) :
    pending = pendingAt language fs options root way := by
  obtain ⟨turn, hTurn, rfl⟩ := exists_turn hOn hPending
  obtain ⟨reached, hReaches, -⟩ := exists_reaches hSound hRoot hTurn
  have hWay : reached = way := by
    rw [hReaches.eq] at hPath
    exact Path.descend_inj.mp hPath
  rw [hReaches.eq, hWay]

theorem Open.named (hSound : fs.Sound) (hOpen : Open language fs options root way) :
    ∀ name ∈ way, EntryName name := by
  intro name hName
  obtain ⟨above, below, rfl⟩ := List.append_of_mem hName
  obtain ⟨entries, hMem⟩ := (hOpen above name ⟨below, by simp⟩).isDirectory
  obtain ⟨-, -, -, -, hEntry⟩ := exists_target_of_mem hSound hMem
  exact hEntry

/-- The directory at the end of an open way is entered, by whatever path, or one on the way is cut
off where the directory above it was entered by another path. -/
theorem way_covered_or_cut (hSound : fs.Sound) (hRoot : root.Written)
    (hLinks : options.followLinks = true)
    (hOn : (walkWith language fs options root).interruption = none)
    (hOpen : Open language fs options root way)
    (hDepth : way = [] ∨ way.length < options.maxDepth) :
    (∃ pending ∈ entered language fs options root,
        pending.place fs = placeOf fs (root.descend way)) ∨
      ∃ pending ∈ entered language fs options root, ∃ above name, above ++ [name] <+: way ∧
        CutOff fs options root above name true pending := by
  -- Down the way: once a directory on it was entered, by whatever path, the next name either leads on
  -- from there or is cut off there.
  induction way using List.reverseRecOn with
  | nil =>
    left
    refine ⟨start language fs options root, List.mem_cons_self, ?_⟩
    rw [Path.descend_nil]
    rfl
  | append_singleton way name ih =>
    obtain ⟨hWay, hEnters⟩ := open_append.mp hOpen
    have hLess : (way.length + 1 : Nat) < options.maxDepth := by simpa using hDepth
    rcases ih hWay (Or.inr (by omega)) with ⟨pending, hPending, hSame⟩ | hCut
    · rcases directory_covered_or_cut hSound hRoot hLinks hOn hPending (hWay.named hSound) hSame
        hEnters with hCuts | hNext
      · right
        refine ⟨pending, hPending, way, name, List.prefix_refl _, hSame, ?_, hCuts⟩
        -- By the way itself the rules are those of the walk without links, which entered it.
        intro hPath
        rw [eq_pendingAt hSound hRoot hOn hPending hPath] at hCuts
        obtain ⟨entries, hMem⟩ := hEnters.isDirectory
        refine not_cuts_pendingAt hMem ?_ hEnters.notByRules (by simp) hCuts
        exact Int.add_one_le_iff.mpr hLess
      · exact Or.inl hNext
    · right
      obtain ⟨pending, hPending, above, next, hPrefix, hCutOff⟩ := hCut
      exact ⟨pending, hPending, above, next, hPrefix.trans (List.prefix_append _ _), hCutOff⟩

/-- A file at the end of an open way is listed, by whatever path, unless it or a directory on its
way is cut off. -/
theorem covered_or_cut (hSound : fs.Sound) (hRoot : root.Written)
    (hLinks : options.followLinks = true)
    (hOn : (walkWith language fs options root).interruption = none)
    (hOpen : Open language fs options root way) {name : String}
    (hLists : ListsAt language fs options root way name)
    (hDepth : (way.length + 1 : Nat) ≤ options.maxDepth) :
    (∃ path ∈ (walkWith language fs options root).files,
        placeOf fs path = placeOf fs (root.descend (way ++ [name]))) ∨
      IsCutOff language fs options root way name := by
  rcases way_covered_or_cut hSound hRoot hLinks hOn hOpen (Or.inr (by omega))
    with ⟨pending, hPending, hSame⟩ | ⟨pending, hPending, hAbove⟩
  · rcases file_covered_or_cut hSound hRoot hLinks hOn hPending (hOpen.named hSound) hSame hLists
      with hCuts | hListed
    · right
      refine ⟨pending, hPending, Or.inr ⟨hSame, ?_, hCuts⟩⟩
      intro hPath
      rw [eq_pendingAt hSound hRoot hOn hPending hPath] at hCuts
      obtain ⟨content, hMem⟩ := hLists.isFile
      exact not_cuts_pendingAt hMem (by exact hDepth) hLists.notByRules (fun _ => hLists.accepted)
        hCuts
    · exact Or.inl hListed
  · exact Or.inr ⟨pending, hPending, Or.inl hAbove⟩

end

/-! ## An alias -/

/-- A directory with a file, and a link to it that comes first. -/
def aliased : FileSystem :=
  ⟨.directory [("a", .link "z"), ("z", .directory [("f.rs", .file .empty)])], []⟩

/-- Options under which the files are rejected that the link leads to. -/
def linkRejected : WalkOptions := { filter := { excluded := ["a/"] }, ignoreFileName := none }

theorem target_aliased : aliased.target "." = .ok (.entry []) ∧
    aliased.target "a" = .ok (.entry ["z"]) ∧ aliased.target "z" = .ok (.entry ["z"]) := by
  have hSteps : rawSteps "." = ["."] ∧ rawSteps "a" = ["a"] ∧ rawSteps "z" = ["z"] := by decide
  have hShort : ¬ FileSystem.maxNameBytes < "a".utf8ByteSize ∧
      ¬ FileSystem.maxNameBytes < "z".utf8ByteSize := by decide
  simp [FileSystem.target, FileSystem.startOf, hSteps, hShort, FileSystem.follow,
    FileSystem.isDirectoryAt, Entry.at?, Entry.isDirectory, Entry.child?, List.lookup_cons,
    FileSystem.maxLinks, aliased]

theorem stat_aliased : aliased.stat "." = .ok aliased.root ∧
    aliased.stat "a" = .ok (.directory [("f.rs", .file .empty)]) ∧
    aliased.stat "z" = .ok (.directory [("f.rs", .file .empty)]) := by
  have hShort : ¬ FileSystem.pathLimitBytes ≤ ".".utf8ByteSize ∧
      ¬ FileSystem.pathLimitBytes ≤ "a".utf8ByteSize ∧
      ¬ FileSystem.pathLimitBytes ≤ "z".utf8ByteSize := by decide
  have hResolve : ∀ path ∈ [".", "a", "z"],
      aliased.resolve true path = aliased.target path := by
    simp [FileSystem.resolve, FileSystem.target, FileSystem.startOf, hShort]
  simp only [List.forall_mem_cons, target_aliased] at hResolve
  have hRoot : aliased.root.at? [] = some aliased.root := rfl
  have hDirectory : aliased.root.at? ["z"] = some (.directory [("f.rs", .file .empty)]) := rfl
  simp [FileSystem.stat, FileSystem.locate, hResolve, hRoot, hDirectory]

theorem list_aliased : aliased.list "." = .ok
      [("a", .link "z"), ("z", .directory [("f.rs", .file .empty)])] ∧
    aliased.list "a" = .ok [("f.rs", .file .empty)] ∧
    aliased.list "z" = .ok [("f.rs", .file .empty)] := by
  simp only [FileSystem.list, stat_aliased]
  exact ⟨rfl, trivial, trivial⟩

/-- With links, the directory is entered by the link, and without them by its name. -/
theorem readDirectory_aliased (follow : Bool) :
    readDirectory aliased { linkRejected with followLinks := follow } [[]]
        (⟨⟨.relative, []⟩, 0, []⟩ : Pending .gitignore)
      = if follow then
          { directories := [⟨⟨.relative, ["a"]⟩, 1, []⟩], visited := [["z"], []] }
        else { directories := [⟨⟨.relative, ["z"]⟩, 1, []⟩], visited := [[]] } := by
  have hTexts : Path.text ⟨.relative, []⟩ = "." ∧ Path.text ⟨.relative, ["a"]⟩ = "a" ∧
      Path.text ⟨.relative, ["z"]⟩ = "z" := by decide
  have hRoot : byName [("a", Entry.link "z"), ("z", .directory [("f.rs", .file .empty)])]
      = [("a", Entry.link "z"), ("z", .directory [("f.rs", .file .empty)])] := by
    rw [byName, List.mergeSort_of_pairwise]
    simp
  have hOptions : linkRejected.maxDepth = 100 ∧ linkRejected.ignoreFileName = none ∧
      "a" ∉ linkRejected.ignoredDirectories ∧ "z" ∉ linkRejected.ignoredDirectories := by decide
  cases follow <;>
    simp [readDirectory, hTexts, list_aliased, hRoot, hOptions, visitEntries, visitEntry, kindOf,
      Entry.isLink, stat_aliased, Kind.ofEntry, Entry.isDirectory, Entry.isFile, Path.child,
      visitDirectory, isPruned, isIgnored, placeOf, target_aliased, enter, loadScope]

/-- The files are rejected under the link only. -/
theorem readDirectory_aliased_below (follow : Bool) (visited : List Place) :
    let options := { linkRejected with followLinks := follow }
    readDirectory aliased options visited (⟨⟨.relative, ["a"]⟩, 1, []⟩ : Pending .gitignore)
        = { visited } ∧
      readDirectory aliased options visited (⟨⟨.relative, ["z"]⟩, 1, []⟩ : Pending .gitignore)
        = { files := [⟨.relative, ["z", "f.rs"]⟩], visited } := by
  have hTexts : Path.text ⟨.relative, ["a"]⟩ = "a" ∧ Path.text ⟨.relative, ["z"]⟩ = "z" := by decide
  have hOptions : linkRejected.maxDepth = 100 ∧ linkRejected.ignoreFileName = none := by decide
  have hRejected : linkRejected.filter.accepts (Path.text ⟨.relative, ["a", "f.rs"]⟩) = false := by
    decide
  have hAccepted : linkRejected.filter.accepts (Path.text ⟨.relative, ["z", "f.rs"]⟩) = true := by
    decide
  simp [readDirectory, hTexts, hOptions, list_aliased, byName, List.mergeSort_singleton,
    visitEntries, visitEntry, kindOf, Entry.isLink, Kind.ofEntry, Entry.isDirectory, Entry.isFile,
    Path.child, isListed, isIgnored, hRejected, hAccepted]

theorem walkWith_aliased (follow : Bool) :
    let options := { linkRejected with followLinks := follow }
    (walkWith .gitignore aliased options (.ofString ".")).interruption = none ∧
      (walkWith .gitignore aliased options (.ofString ".")).files
        = if follow then [] else [⟨.relative, ["z", "f.rs"]⟩] := by
  have hPath : Path.ofString "." = ⟨.relative, []⟩ := by decide
  have hText : Path.text ⟨.relative, []⟩ = "." := by decide
  have hPlace : placeOf aliased ⟨.relative, []⟩ = [] := by rw [placeOf, hText, target_aliased.1]
  have hScope : ∀ options : WalkOptions, options.ignoreFileName = none →
      loadScope .gitignore aliased options ⟨.relative, []⟩ = .ok none := by
    intro options hNone
    rw [loadScope, hNone]
  intro options
  rw [walkWith, hPath, hScope options rfl, hPlace, hText, if_neg (by simp)]
  have hRoot := readDirectory_aliased follow
  have hBelow := readDirectory_aliased_below follow
  cases follow <;> simp [readStack, hRoot, hBelow, options]

/-! ## Walks with and without links -/

/-- A file that is listed without links is listed with links too, under a path to the same place,
unless a directory on its way was entered by another path, under which the way is cut off: the
directory cannot be listed by that path, or what is next on the way is too deep there, ignored or
rejected. -/
theorem walkWith_followLinks_covers (language : RuleLanguage) (fs : FileSystem)
    (options : WalkOptions) (root : String) (hSound : fs.Sound)
    (hOn : (walkWith language fs { options with followLinks := true }
      (.ofString root)).interruption = none) :
    ∀ path ∈ (walkWith language fs { options with followLinks := false } (.ofString root)).files,
      ∃ way name, path = (Path.ofString root).descend (way ++ [name]) ∧
        ((∃ other ∈ (walkWith language fs { options with followLinks := true }
            (.ofString root)).files, placeOf fs other = placeOf fs path) ∨
          IsCutOff language fs { options with followLinks := true } (.ofString root) way name) := by
  intro path hPath
  have hRoot := Path.written_ofString root
  have hAgrees : Agrees
      (walkWith language fs { options with followLinks := false } (.ofString root)).files _ _ _ :=
    walkWith_agrees fs rfl _
  obtain ⟨way, name, rfl, hDepth, hOpen, hLists⟩ :=
    mem_recursion_start_iff.mp (hAgrees.isPrefix.subset hPath)
  -- What is on a way, and under which rules, does not depend on whether links are followed.
  have hSameOpen : Open language fs { options with followLinks := true } (.ofString root) way :=
    fun above next hPrefix => ⟨(hOpen above next hPrefix).isDirectory,
      (hOpen above next hPrefix).notByName, (hOpen above next hPrefix).notByRules⟩
  exact ⟨way, name, rfl, covered_or_cut hSound hRoot rfl hOn hSameOpen
    ⟨hLists.isFile, hLists.noIgnoreFile, hLists.notByRules, hLists.accepted⟩ hDepth⟩

/-- The theorem of a directory whose files are rejected under the link by which it is entered. -/
theorem walkWith_followLinks_covers_aliased :
    let without := { linkRejected with followLinks := false }
    let following := { linkRejected with followLinks := true }
    aliased.Sound ∧
      (walkWith .gitignore aliased following (.ofString ".")).interruption = none ∧
      ∀ path ∈ (walkWith .gitignore aliased without (.ofString ".")).files,
        ∃ way name, path = (Path.ofString ".").descend (way ++ [name]) ∧
          ((∃ other ∈ (walkWith .gitignore aliased following (.ofString ".")).files,
              placeOf aliased other = placeOf aliased path) ∨
            IsCutOff .gitignore aliased following (.ofString ".") way name) := by
  intro without following
  have hSound : aliased.Sound := ⟨by decide, by decide⟩
  have hOn := (walkWith_aliased true).1
  exact ⟨hSound, hOn, walkWith_followLinks_covers .gitignore aliased linkRejected "." hSound hOn⟩

/-- There are files that are listed without links only. -/
theorem not_covers :
    ¬ ∀ path ∈ (walk aliased { linkRejected with followLinks := false } (.ofString ".")).files,
      ∃ other ∈ (walk aliased { linkRejected with followLinks := true } (.ofString ".")).files,
        placeOf aliased other = placeOf aliased path := by
  intro hCovers
  rw [walk, (walkWith_aliased false).2, walk, (walkWith_aliased true).2] at hCovers
  simp at hCovers

end TreeDump.Walk
