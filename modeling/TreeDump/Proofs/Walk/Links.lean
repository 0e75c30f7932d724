import TreeDump.Proofs.Files.Place
import TreeDump.Proofs.Walk.Exactness
import TreeDump.Proofs.Walk.Turns

/-!
# Walks that follow links

With links, one directory may stand at the end of any number of ways, and ways may be of any length.
A walk keeps the places of the directories that it entered and enters none of them again, so the
number of its turns is bounded by the size of the file system, however deep it may go.

* `Entering`, `readDirectory_entering`: the directories that a turn enters are at new places.
* `nodup_places_entered`, `length_entered_le`: no directory is entered twice, and there are not more
  of them than entries in the file system.
* `Reaches`, `readDirectory_foundAt`: what is listed and entered is at the end of a way that nothing
  prunes.
* `walkWith_followLinks`: all of this of a whole walk.
-/

namespace TreeDump.Walk

variable {language : RuleLanguage}

/-! ## No place twice -/

section

variable {fs : FileSystem} {options : WalkOptions} {parent : Pending language}

/-- That the directories that were found are at different places, which were not entered before and
now are. -/
structure Entering (fs : FileSystem) (visited : List Place) (found : Found language) : Prop where
  visited_eq : found.visited = (found.directories.map (Pending.place fs)).reverse ++ visited
  nodup : (found.directories.map (Pending.place fs)).Nodup
  fresh : ∀ place ∈ found.directories.map (Pending.place fs), place ∉ visited

theorem Entering.start (fs : FileSystem) (visited : List Place) :
    Entering fs visited ({ visited } : Found language) :=
  ⟨rfl, List.nodup_nil, by simp⟩

theorem Visit.entering (hLinks : options.followLinks = true) {visited : List Place}
    {found after : Found language} {name : String} {kind : Kind}
    (hVisit : Visit fs options parent found name kind after) (h : Entering fs visited found)
    (hOn : after.interruption = none) : Entering fs visited after := by
  cases hVisit with
  | interrupted raised hLoad => cases hOn
  | entered hPruned hDeep hNew hLoads =>
    have hPlace := hNew hLinks
    rw [h.visited_eq, List.mem_append, List.mem_reverse, not_or] at hPlace
    obtain ⟨hOther, hOld⟩ := hPlace
    have hPlaces : (found.directories ++ [pendingOf fs options parent name]).map (Pending.place fs)
        = found.directories.map (Pending.place fs)
          ++ [placeOf fs (parent.directory.child name)] := by
      rw [List.map_append]
      rfl
    refine ⟨?_, ?_, ?_⟩
    · simp [hPlaces, enter, hLinks, h.visited_eq]
    · dsimp only
      rw [hPlaces, List.nodup_append']
      exact ⟨h.nodup, List.nodup_singleton _, by simpa using hOther⟩
    · dsimp only
      rw [hPlaces, List.forall_mem_append]
      exact ⟨h.fresh, by simpa using hOld⟩
  | passed hPassed => exact h
  | listed hListed => exact ⟨h.visited_eq, h.nodup, h.fresh⟩

theorem readDirectory_entering (hLinks : options.followLinks = true) (visited : List Place)
    (hOn : (readDirectory fs options visited parent).interruption = none) :
    Entering fs visited (readDirectory fs options visited parent) := by
  revert hOn
  rw [readDirectory]
  split
  · exact fun _ => .start fs visited
  · split
    · exact fun _ => ⟨rfl, List.nodup_nil, by simp⟩
    · refine visitEntries_induction
        (P := fun found _ => found.interruption = none → Entering fs visited found) ?_ ?_ rfl ?_
      · intro found entry rest hNone hFound hOn
        exact (visitEntry_visit fs options parent found entry.1 entry.2).entering hLinks
          (hFound hNone) hOn
      · intro found rest _ hFound
        exact hFound
      · exact fun _ => .start fs visited

/-- The directories that are pushed while a stack is read are at different places, which were not
entered before. -/
theorem nodup_places_pushed (hLinks : options.followLinks = true) (visited : List Place)
    (stack : List (Pending language)) :
    (((turnsFrom fs options visited stack).flatMap Turn.pushed).map (Pending.place fs)).Nodup ∧
    ∀ place ∈ ((turnsFrom fs options visited stack).flatMap Turn.pushed).map (Pending.place fs),
      place ∉ visited := by
  induction visited, stack using stack_induction fs options with
  | hNil visited => simp [turnsFrom_nil]
  | hStop visited top rest raised hStop =>
    rw [turnsFrom_stop fs options rest hStop]
    simp [Turn.pushed, hStop]
  | hTurn visited top rest hOn ih =>
    obtain ⟨hNodup, hFresh⟩ := ih
    have hEntering := readDirectory_entering hLinks visited hOn
    rw [turnsFrom_cons fs options rest hOn, List.flatMap_cons, Turn.pushed_of_none hOn,
      List.map_append, List.nodup_append', List.forall_mem_append]
    -- Later turns avoid what was visited by then, which is what was visited before this turn and
    -- what it enters itself.
    refine ⟨⟨hEntering.nodup, hNodup, ?_⟩, hEntering.fresh, ?_⟩
    · intro place hHere hLater
      apply hFresh place hLater
      rw [hEntering.visited_eq]
      exact List.mem_append_left _ (List.mem_reverse.mpr hHere)
    · intro place hLater hOld
      apply hFresh place hLater
      rw [hEntering.visited_eq]
      exact List.mem_append_right _ hOld

/-- No directory is put on the stack twice, whatever paths lead to it. -/
theorem nodup_places_entered (hLinks : options.followLinks = true) (root : Path) :
    ((entered language fs options root).map (Pending.place fs)).Nodup := by
  rw [entered, turns]
  split
  · simp
  · split
    · simp
    · obtain ⟨hNodup, hFresh⟩ := nodup_places_pushed hLinks [placeOf fs root]
        [start language fs options root]
      rw [List.map_cons, List.nodup_cons]
      exact ⟨fun hPlace => hFresh _ hPlace List.mem_cons_self, hNodup⟩

/-- Only directories that were put on the stack are read, and each of them once. -/
theorem directories_turns_subperm (root : Path) :
    List.Subperm ((turns language fs options root).map Turn.directory)
      (entered language fs options root) := by
  rw [entered, turns]
  split
  · simp
  · split
    · simp
    · obtain ⟨left, hPerm, -⟩ := directories_turnsFrom fs options [placeOf fs root]
        [start language fs options root]
      exact ((List.sublist_append_left _ left).subperm).trans hPerm.subperm

/-! ## Where entries lead -/

theorem placeOf_of_target {path : Path} {place : Place}
    (h : fs.target path.text = .ok (.entry place)) : placeOf fs path = place := by
  rw [placeOf, h]

/-- An entry of a directory is where the path of the directory and its own name lead. -/
theorem exists_target_of_mem (hSound : fs.Sound) {path : Path} {name : String} {entry : Entry}
    (hMem : (name, entry) ∈ entriesOf fs path) :
    ∃ place, fs.target path.text = .ok (.entry place) ∧ fs.isDirectoryAt place ∧
      fs.root.at? (place ++ [name]) = some entry ∧ EntryName name := by
  rw [entriesOf] at hMem
  cases hList : fs.list path.text with
  | error refusal =>
    rw [hList] at hMem
    cases hMem
  | ok entries =>
    rw [hList] at hMem
    obtain ⟨place, hTarget, hAt⟩ := FileSystem.target_of_list hList
    obtain ⟨hChild, hName⟩ := hSound.child hAt (List.mem_mergeSort.mp hMem)
    exact ⟨place, hTarget, FileSystem.isDirectoryAt_iff.mpr ⟨entries, hAt⟩, hChild, hName⟩

/-- The place of an entry that is no link is below that of its directory. -/
theorem placeOf_child (hSound : fs.Sound) {path : Path} (hWritten : path.Written) {name : String}
    {entry : Entry} (hMem : (name, entry) ∈ entriesOf fs path) (hNoLink : entry.isLink = false) :
    placeOf fs (path.child name) = placeOf fs path ++ [name] ∧
      fs.root.at? (placeOf fs (path.child name)) = some entry := by
  obtain ⟨place, hTarget, hDirectory, hAt, hName⟩ := exists_target_of_mem hSound hMem
  have hChild := FileSystem.target_child hWritten hName hTarget hDirectory hAt hNoLink
  rw [placeOf_of_target hChild, placeOf_of_target hTarget]
  exact ⟨rfl, hAt⟩

theorem kindOf_of_noLink {entry : Entry} (hNoLink : entry.isLink = false) (follow : Bool)
    (path : Path) : kindOf fs follow path entry = .ofEntry entry := by
  simp [kindOf, hNoLink]

/-- An entry that is taken for a file or a directory leads to one. -/
theorem exists_at?_placeOf (hSound : fs.Sound) {path : Path} (hWritten : path.Written)
    {name : String} {entry : Entry} (hMem : (name, entry) ∈ entriesOf fs path) (follow : Bool)
    (hKind : kindOf fs follow (path.child name) entry ≠ .neither) :
    EntryName name ∧ ∃ found, fs.root.at? (placeOf fs (path.child name)) = some found ∧
      Kind.ofEntry found = kindOf fs follow (path.child name) entry := by
  obtain ⟨-, -, -, -, hName⟩ := exists_target_of_mem hSound hMem
  refine ⟨hName, ?_⟩
  cases hLink : entry.isLink with
  | false =>
    rw [kindOf_of_noLink hLink]
    exact ⟨entry, (placeOf_child hSound hWritten hMem hLink).2, rfl⟩
  | true =>
    cases follow with
    | false =>
      cases entry with
      | link target => exact absurd rfl hKind
      | file content => cases hLink
      | directory entries => cases hLink
    | true =>
      rw [kindOf, if_pos (by simp [hLink])] at hKind ⊢
      cases hStat : fs.stat (path.child name).text with
      | error refusal =>
        rw [hStat] at hKind
        exact absurd rfl hKind
      | ok found =>
        obtain ⟨other, hOther, hFound⟩ := FileSystem.target_of_stat hStat
        exact ⟨found, by rw [placeOf_of_target hOther, hFound], rfl⟩

theorem isDirectory_of_kind {entry : Entry} (h : Kind.ofEntry entry = .directory) :
    ∃ entries, entry = .directory entries := by
  cases entry with
  | directory entries => exact ⟨entries, rfl⟩
  | file content => cases h
  | link target => cases h

theorem isFile_of_kind {entry : Entry} (h : Kind.ofEntry entry = .file) :
    ∃ content, entry = .file content := by
  cases entry with
  | file content => exact ⟨content, rfl⟩
  | directory entries => cases h
  | link target => cases h

/-! ## Ways through links -/

/-- That a name leads, at the end of a way, to a directory, and is not pruned. -/
structure LeadsToDirectory (language : RuleLanguage) (fs : FileSystem) (options : WalkOptions)
    (root : Path) (way : List String) (name : String) : Prop where
  isDirectory : fs.isDirectoryAt (placeOf fs (root.descend (way ++ [name])))
  notByName : name ∉ options.ignoredDirectories
  notByRules : isIgnored (scopesAt language fs options root way)
    (root.descend (way ++ [name])) true = false

/-- That a name leads, at the end of a way, to a file, and is not pruned. -/
structure LeadsToFile (language : RuleLanguage) (fs : FileSystem) (options : WalkOptions)
    (root : Path) (way : List String) (name : String) : Prop where
  isFile : ∃ content, fs.root.at? (placeOf fs (root.descend (way ++ [name]))) = some (.file content)
  noIgnoreFile : options.ignoreFileName ≠ some name
  notByRules : isIgnored (scopesAt language fs options root way)
    (root.descend (way ++ [name])) false = false
  accepted : options.filter.accepts (root.descend (way ++ [name])).text

/-- That a directory on the stack is at the end of a way that is not too long and on which nothing
is pruned. -/
structure Reaches (language : RuleLanguage) (fs : FileSystem) (options : WalkOptions) (root : Path)
    (way : List String) (pending : Pending language) : Prop where
  eq : pending = pendingAt language fs options root way
  named : ∀ name ∈ way, EntryName name
  leads : ∀ above name, above ++ [name] <+: way →
    LeadsToDirectory language fs options root above name
  shallow : way = [] ∨ way.length < options.maxDepth

variable {root : Path} {way : List String}

theorem written_descend (hRoot : root.Written) (hNamed : ∀ name ∈ way, EntryName name) :
    (root.descend way).Written := by
  intro name hName
  rcases List.mem_append.mp hName with hOld | hNew
  · exact hRoot name hOld
  · exact (hNamed name hNew).toStepName

theorem Reaches.written (hReaches : Reaches language fs options root way parent)
    (hRoot : root.Written) : parent.directory.Written := by
  rw [hReaches.eq]
  exact written_descend hRoot hReaches.named

theorem Reaches.start : Reaches language fs options root [] (start language fs options root) := by
  refine ⟨start_eq_pendingAt fs options root, by simp, ?_, Or.inl rfl⟩
  intro above name hPrefix
  simp at hPrefix

/-- What a turn lists and enters at the end of a way is one name further. -/
structure FoundAt (language : RuleLanguage) (fs : FileSystem) (options : WalkOptions) (root : Path)
    (way : List String) (found : Found language) : Prop where
  directories : ∀ pending ∈ found.directories,
    ∃ name, Reaches language fs options root (way ++ [name]) pending
  files : ∀ path ∈ found.files, ∃ name, path = root.descend (way ++ [name]) ∧
    LeadsToFile language fs options root way name

/-- What an entry adds is at the end of the way that is longer by its name. -/
theorem Visit.foundAt (hReaches : Reaches language fs options root way parent)
    {found after : Found language} {name : String} {kind : Kind}
    (hVisit : Visit fs options parent found name kind after)
    (hLeads : kind ≠ .neither → EntryName name ∧ ∃ leaf,
      fs.root.at? (placeOf fs (parent.directory.child name)) = some leaf ∧
        Kind.ofEntry leaf = kind)
    (h : FoundAt language fs options root way found) :
    FoundAt language fs options root way after := by
  have hEq := hReaches.eq
  subst hEq
  have hPath : (pendingAt language fs options root way).directory.child name
      = root.descend (way ++ [name]) := Path.descend_descend root way [name]
  rw [hPath] at hLeads
  cases hVisit with
  | listed hListed =>
    obtain ⟨-, leaf, hAt, hLeaf⟩ := hLeads (by simp)
    obtain ⟨content, rfl⟩ := isFile_of_kind hLeaf
    rw [hPath, isListed, Bool.and_eq_true, Bool.and_eq_true, bne_iff_ne, Bool.not_eq_true']
      at hListed
    obtain ⟨⟨hIgnoreFile, hRules⟩, hAccepted⟩ := hListed
    refine ⟨h.directories, List.forall_mem_append.mpr ⟨h.files, ?_⟩⟩
    intro path hNew
    rw [List.mem_singleton.mp hNew, hPath]
    exact ⟨name, rfl, ⟨content, hAt⟩, hIgnoreFile, hRules, hAccepted⟩
  | entered hPruned hDeep hNew hLoads =>
    obtain ⟨hName, leaf, hAt, hLeaf⟩ := hLeads (by simp)
    obtain ⟨entries, rfl⟩ := isDirectory_of_kind hLeaf
    rw [hPath, isPruned, Bool.or_eq_false_iff] at hPruned
    obtain ⟨hByName, hRules⟩ := hPruned
    have hDirectory : LeadsToDirectory language fs options root way name := by
      refine ⟨FileSystem.isDirectoryAt_iff.mpr ⟨entries, hAt⟩, ?_, hRules⟩
      simpa using hByName
    refine ⟨List.forall_mem_append.mpr ⟨h.directories, ?_⟩, h.files⟩
    intro pending hPending
    rw [List.mem_singleton.mp hPending, pendingOf_pendingAt]
    refine ⟨name, rfl, ?_, forall_prefix_concat hReaches.leads hDirectory, Or.inr ?_⟩
    · rw [List.forall_mem_append]
      exact ⟨hReaches.named, by simpa using hName⟩
    · rw [List.length_append, List.length_singleton]
      exact hDeep
  | passed hPassed => exact h
  | interrupted raised hLoad => exact ⟨h.directories, h.files⟩

/-- Reading the directory at the end of a way finds what is one name further. -/
theorem readDirectory_foundAt (hSound : fs.Sound) (hRoot : root.Written)
    (hReaches : Reaches language fs options root way parent) (visited : List Place) :
    FoundAt language fs options root way (readDirectory fs options visited parent) := by
  have hNothing : ∀ log, FoundAt language fs options root way
      ({ visited, log } : Found language) := fun log => ⟨by simp, by simp⟩
  rw [readDirectory]
  split
  · exact hNothing []
  · split
    · exact hNothing _
    · rename_i entries hList
      have hEntries : entriesOf fs parent.directory = byName entries := by rw [entriesOf, hList]
      refine (visitEntries_induction (P := fun found rest =>
        FoundAt language fs options root way found ∧
          ∀ entry ∈ rest, entry ∈ entriesOf fs parent.directory) ?_ ?_ rfl ?_).1
      · intro found entry rest _ h
        obtain ⟨hFound, hRest⟩ := h
        obtain ⟨hEntry, hMore⟩ := List.forall_mem_cons.mp hRest
        have hVisit := visitEntry_visit fs options parent found entry.1 entry.2
        exact ⟨hVisit.foundAt hReaches
          (exists_at?_placeOf hSound (hReaches.written hRoot) hEntry options.followLinks) hFound,
          hMore⟩
      · intro found rest _ h
        exact ⟨h.1, by simp⟩
      · exact ⟨hNothing [], by simp [hEntries]⟩

/-- All directories that are read or pushed are at the end of a way that nothing prunes. -/
theorem turnsFrom_reaches (hSound : fs.Sound) (hRoot : root.Written) (visited : List Place)
    (stack : List (Pending language))
    (hStack : ∀ pending ∈ stack, ∃ way, Reaches language fs options root way pending) :
    ∀ turn ∈ turnsFrom fs options visited stack,
      ∃ way, Reaches language fs options root way turn.directory := by
  induction visited, stack using stack_induction fs options with
  | hNil visited => simp [turnsFrom_nil]
  | hStop visited top rest raised hStop =>
    rw [turnsFrom_stop fs options rest hStop]
    simpa using hStack top List.mem_cons_self
  | hTurn visited top rest hOn ih =>
    obtain ⟨⟨way, hTop⟩, hRest⟩ := List.forall_mem_cons.mp hStack
    rw [turnsFrom_cons fs options rest hOn, List.forall_mem_cons]
    refine ⟨⟨way, hTop⟩, ih (List.forall_mem_append.mpr ⟨?_, hRest⟩)⟩
    intro pending hPending
    obtain ⟨name, hReaches⟩ :=
      (readDirectory_foundAt hSound hRoot hTop visited).directories pending hPending
    exact ⟨way ++ [name], hReaches⟩

/-- Each turn of a walk reads the directory at the end of a way that nothing prunes. -/
theorem exists_reaches (hSound : fs.Sound) (hRoot : root.Written) {turn : Turn language}
    (hTurn : turn ∈ turns language fs options root) :
    ∃ way, Reaches language fs options root way turn.directory ∧
      FoundAt language fs options root way turn.found := by
  rw [turns] at hTurn
  split at hTurn
  · cases hTurn
  · split at hTurn
    · cases hTurn
    · obtain ⟨way, hReaches⟩ := turnsFrom_reaches hSound hRoot _ _
        (by simpa using ⟨[], Reaches.start⟩) turn hTurn
      obtain ⟨before, hFound⟩ := exists_readDirectory fs options hTurn
      refine ⟨way, hReaches, ?_⟩
      rw [hFound]
      exact readDirectory_foundAt hSound hRoot hReaches before

/-! ## The number of turns -/

/-- Nothing is entered below a directory that cannot be listed. -/
theorem pushed_eq_nil_of_error {refusal : Refusal} (hList : fs.list root.text = .error refusal) :
    (turns language fs options root).flatMap Turn.pushed = [] := by
  have hRead : ∀ visited, (readDirectory fs options visited
      (start language fs options root)).interruption = none ∧
      (readDirectory fs options visited (start language fs options root)).directories = [] := by
    intro visited
    rw [readDirectory]
    split
    · exact ⟨rfl, rfl⟩
    · simp [start, hList]
  rw [turns]
  split
  · rfl
  · split
    · rfl
    · obtain ⟨hOn, hNone⟩ := hRead [placeOf fs root]
      rw [turnsFrom_cons fs options [] hOn, hNone, List.append_nil, turnsFrom_nil,
        List.flatMap_singleton, Turn.pushed_of_none hOn, hNone]

theorem place_mem_of_pushed (hSound : fs.Sound) (hRoot : root.Written) {pending : Pending language}
    (hPushed : pending ∈ (turns language fs options root).flatMap Turn.pushed) :
    pending.place fs ∈ fs.root.places := by
  obtain ⟨turn, hTurn, hPending⟩ := List.mem_flatMap.mp hPushed
  obtain ⟨way, -, hFound⟩ := exists_reaches hSound hRoot hTurn
  have hDirectories : pending ∈ turn.found.directories := by
    rw [Turn.pushed] at hPending
    split at hPending
    · cases hPending
    · exact hPending
  obtain ⟨name, hReaches⟩ := hFound.directories pending hDirectories
  obtain ⟨entries, hAt⟩ := FileSystem.isDirectoryAt_iff.mp
    (hReaches.leads way name (List.prefix_refl _)).isDirectory
  rw [hReaches.eq]
  exact Entry.mem_places hAt

/-- However deep a walk may go, it enters no more directories than there are entries. -/
theorem length_entered_le (hSound : fs.Sound) (hRoot : root.Written)
    (hLinks : options.followLinks = true) :
    (entered language fs options root).length ≤ fs.root.entryCount + 1 := by
  -- A starting directory that cannot be listed may stand for a place that is not in the tree, so the
  -- bound by the number of places does not apply to it.
  cases hList : fs.list root.text with
  | error refusal =>
    rw [entered, pushed_eq_nil_of_error hList, List.length_singleton]
    omega
  | ok entries =>
    obtain ⟨place, hTarget, hAt⟩ := FileSystem.target_of_list hList
    have hPlaces : (entered language fs options root).map (Pending.place fs) ⊆ fs.root.places := by
      intro found hFound
      rw [entered, List.map_cons, List.mem_cons] at hFound
      rcases hFound with rfl | hPushed
      · have hPlace : (start language fs options root).place fs = place :=
          placeOf_of_target hTarget
        rw [hPlace]
        exact Entry.mem_places hAt
      · obtain ⟨pending, hPending, rfl⟩ := List.mem_map.mp hPushed
        exact place_mem_of_pushed hSound hRoot hPending
    have hLength := ((nodup_places_entered hLinks root).subperm hPlaces).length_le
    rwa [List.length_map, Entry.length_places] at hLength

/-! ## Files -/

theorem depth_le_of_mem_files {visited : List Place} {path : Path}
    (hPath : path ∈ (readDirectory fs options visited parent).files) :
    (parent.depth + 1 : Nat) ≤ options.maxDepth := by
  rw [readDirectory] at hPath
  split at hPath
  · cases hPath
  · omega

/-- That the files that were found have different names, none of which is still to come. -/
structure Listing (parent : Pending language) (found : Found language) (names : List String) :
    Prop where
  nodup : found.files.Nodup
  named : ∀ path ∈ found.files, ∃ name ∉ names, path = parent.directory.child name

theorem Visit.listing {found after : Found language} {name : String} {names : List String}
    {kind : Kind} (hVisit : Visit fs options parent found name kind after)
    (hName : name ∉ names) (h : Listing parent found (name :: names)) :
    Listing parent after names := by
  have hOld : ∀ path ∈ found.files, ∃ other ∉ names, path = parent.directory.child other := by
    intro path hPath
    obtain ⟨other, hOther, rfl⟩ := h.named path hPath
    exact ⟨other, fun hMem => hOther (List.mem_cons_of_mem _ hMem), rfl⟩
  cases hVisit with
  | listed hListed =>
    refine ⟨List.nodup_append'.mpr ⟨h.nodup, List.nodup_singleton _, ?_⟩,
      List.forall_mem_append.mpr ⟨hOld, by simpa using ⟨name, hName, rfl⟩⟩⟩
    intro path hFound hNew
    obtain ⟨other, hOther, rfl⟩ := h.named path hFound
    have hSame := Path.descend_inj.mp (List.mem_singleton.mp hNew)
    exact hOther (List.mem_cons.mpr (Or.inl (List.singleton_inj.mp hSame)))
  | passed hPassed => exact ⟨h.nodup, hOld⟩
  | interrupted raised hLoad => exact ⟨h.nodup, hOld⟩
  | entered hPruned hDeep hNew hLoads => exact ⟨h.nodup, hOld⟩

/-- The files of a directory are listed once each. -/
theorem readDirectory_listing (hDistinct : fs.root.hasDistinctNames) (visited : List Place) :
    Listing parent (readDirectory fs options visited parent) [] := by
  rw [readDirectory]
  split
  · exact ⟨List.nodup_nil, by simp⟩
  · split
    · exact ⟨List.nodup_nil, by simp⟩
    · rename_i entries hList
      have hNames := nodup_entriesOf hDistinct parent.directory
      rw [entriesOf, hList] at hNames
      refine (visitEntries_induction (P := fun found rest => (rest.map Prod.fst).Nodup ∧
        Listing parent found (rest.map Prod.fst)) ?_ ?_ rfl ?_).2
      · intro found entry rest _ h
        obtain ⟨hNodup, hListing⟩ := h
        rw [List.map_cons, List.nodup_cons] at hNodup
        have hVisit := visitEntry_visit fs options parent found entry.1 entry.2
        exact ⟨hNodup.2, hVisit.listing hNodup.1 hListing⟩
      · intro found rest _ h
        refine ⟨List.nodup_nil, h.2.nodup, ?_⟩
        intro path hPath
        obtain ⟨name, -, rfl⟩ := h.2.named path hPath
        exact ⟨name, by simp, rfl⟩
      · exact ⟨hNames, List.nodup_nil, by simp⟩

/-- Different directories have no files in common. -/
theorem disjoint_files {turn other : Turn language}
    (hTurn : turn ∈ turns language fs options root) (hOther : other ∈ turns language fs options root)
    (hDistinct : fs.root.hasDistinctNames)
    (hPlaces : turn.directory.place fs ≠ other.directory.place fs) :
    List.Disjoint turn.found.files other.found.files := by
  intro path hPath hSame
  obtain ⟨before, hFound⟩ := exists_readDirectory_turns hTurn
  obtain ⟨otherBefore, hOtherFound⟩ := exists_readDirectory_turns hOther
  rw [hFound] at hPath
  rw [hOtherFound] at hSame
  obtain ⟨name, -, hName⟩ := (readDirectory_listing hDistinct before).named path hPath
  obtain ⟨otherName, -, hOtherName⟩ :=
    (readDirectory_listing hDistinct otherBefore).named path hSame
  -- A path that is listed tells the directory that it was listed in.
  apply hPlaces
  rw [Pending.place, Pending.place, (Path.child_inj (hName.symm.trans hOtherName)).1]

/-- No file is listed twice. -/
theorem nodup_files (hDistinct : fs.root.hasDistinctNames) (hLinks : options.followLinks = true)
    (root : Path) : (walkWith language fs options root).files.Nodup := by
  rw [files_eq_turns, List.nodup_flatMap]
  constructor
  · intro turn hTurn
    obtain ⟨before, hFound⟩ := exists_readDirectory_turns hTurn
    rw [hFound]
    exact (readDirectory_listing hDistinct before).nodup
  · have hSubperm : List.Subperm ((turns language fs options root).map Turn.directory)
        (entered language fs options root) := directories_turns_subperm root
    obtain ⟨directories, hPerm, hSublist⟩ := hSubperm
    have hEntered := (nodup_places_entered hLinks root).sublist (hSublist.map (Pending.place fs))
    have hPlaces : (((turns language fs options root).map Turn.directory).map
        (Pending.place fs)).Nodup := (hPerm.map _).nodup_iff.mp hEntered
    rw [List.map_map, List.Nodup, List.pairwise_map] at hPlaces
    exact hPlaces.imp_of_mem fun hTurn hOther hNe => disjoint_files hTurn hOther hDistinct hNe

/-- A way on which no directory is ignored by name may be walked. -/
theorem mayWalk_way (hNamed : ∀ name ∈ way, EntryName name) {ignored : List String}
    (hNames : ∀ name ∈ way, name ∉ ignored) : mayWalk ignored (Path.text ⟨.relative, way⟩) := by
  have hWritten : Path.Written ⟨.relative, way⟩ := fun name hName => (hNamed name hName).toStepName
  rw [mayWalk, hWritten.ofString_text, Bool.not_eq_true', List.any_eq_false]
  simpa [Path.parts] using hNames

end

/-! ## The walk -/

/-- That a path leads to a file at the end of a way below the starting directory, that it is not too
deep, and that neither the file nor a directory on the way is pruned. -/
structure ListedBelow (language : RuleLanguage) (fs : FileSystem) (options : WalkOptions)
    (root : Path) (way : List String) (name : String) (path : Path) : Prop where
  eq : path = root.descend (way ++ [name])
  depth_le : (way ++ [name]).length ≤ options.maxDepth
  leads : ∀ above next, above ++ [next] <+: way →
    LeadsToDirectory language fs options root above next
  mayWalk : mayWalk options.ignoredDirectories (Path.text ⟨.relative, way⟩)
  file : LeadsToFile language fs options root way name

theorem exists_listedBelow {fs : FileSystem} {options : WalkOptions} {root : Path}
    (hSound : fs.Sound) (hRoot : root.Written) {path : Path}
    (hPath : path ∈ (walkWith language fs options root).files) :
    ∃ way name, ListedBelow language fs options root way name path := by
  rw [files_eq_turns, List.mem_flatMap] at hPath
  obtain ⟨turn, hTurn, hFile⟩ := hPath
  obtain ⟨way, hReaches, hFound⟩ := exists_reaches hSound hRoot hTurn
  obtain ⟨name, rfl, hLeads⟩ := hFound.files path hFile
  obtain ⟨before, hRead⟩ := exists_readDirectory_turns hTurn
  have hDepth : (turn.directory.depth + 1 : Nat) ≤ options.maxDepth :=
    depth_le_of_mem_files (hRead ▸ hFile)
  have hNames : ∀ other ∈ way, other ∉ options.ignoredDirectories := by
    intro other hOther
    obtain ⟨above, below, rfl⟩ := List.append_of_mem hOther
    exact (hReaches.leads above other ⟨below, by simp⟩).notByName
  refine ⟨way, name, rfl, ?_, hReaches.leads, mayWalk_way hReaches.named hNames, hLeads⟩
  rw [hReaches.eq] at hDepth
  rw [List.length_append, List.length_singleton]
  exact hDepth

/-- A walk that follows links ends, whatever the links are and however deep it may go: it takes no
more turns than there are entries, and what it lists is what it finds in them.  No two of the
directories that it puts on its stack are at the same place, and no file is listed twice.  Each file
that is listed leads to a file, is not too deep, and neither the file nor a directory on its way is
pruned. -/
theorem walkWith_followLinks (language : RuleLanguage) (fs : FileSystem) (options : WalkOptions)
    (root : String) (hSound : fs.Sound) (hLinks : options.followLinks = true) :
    (walkWith language fs options (.ofString root)).files
      = ((turns language fs options (.ofString root)).flatMap fun turn => turn.found.files) ∧
    (turns language fs options (.ofString root)).length ≤ fs.root.entryCount + 1 ∧
    ((entered language fs options (.ofString root)).map (Pending.place fs)).Nodup ∧
    (walkWith language fs options (.ofString root)).files.Nodup ∧
    ∀ path ∈ (walkWith language fs options (.ofString root)).files, ∃ way name,
      ListedBelow language fs options (.ofString root) way name path := by
  have hRoot := Path.written_ofString root
  have hTurns : (turns language fs options (.ofString root)).length
      ≤ (entered language fs options (.ofString root)).length := by
    simpa using (directories_turns_subperm (.ofString root)).length_le
  refine ⟨files_eq_turns language fs options _, ?_, nodup_places_entered hLinks _,
    nodup_files hSound.distinct hLinks _, fun path hPath => exists_listedBelow hSound hRoot hPath⟩
  exact hTurns.trans (length_entered_le hSound hRoot hLinks)

/-- A directory with a link to the one above it is walked in a few turns, however deep the walk may
go. -/
theorem walkWith_followLinks_cycle :
    let fs : FileSystem :=
      ⟨.directory [("a", .directory [("up", .link ".."), ("f.rs", .file .empty)])], []⟩
    let options : WalkOptions := { followLinks := true, maxDepth := 1000000 }
    fs.Sound ∧ options.followLinks = true ∧
      (turns .gitignore fs options (.ofString ".")).length ≤ 4 := by
  intro fs options
  have hSound : fs.Sound := ⟨by decide, by decide⟩
  exact ⟨hSound, rfl, (walkWith_followLinks .gitignore fs options "." hSound rfl).2.1⟩

end TreeDump.Walk
