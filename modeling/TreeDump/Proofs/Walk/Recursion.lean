import Mathlib.Logic.Relation
import TreeDump.Walk.Directories

/-!
# The walk by recursion

As long as links are not followed, the places that were entered are of no account, and what a
directory adds to a walk depends on its own depth and rules only.  The walk then lists what a
recursion over the directories lists.  The recursion tests the depth once, at the directory that is
listed, whereas the walk also keeps directories off its stack that are too deep to be listed.

* `visitEntries_agrees`, `readDirectory_agrees`: what one directory adds to a walk.
* `readStack_agrees`: from the top of the stack down, the walk lists what the recursion lists, and
  it is interrupted just when some directory that it enters has an ignore file that cannot be made
  sense of.
* `walkWith_agrees`: the same of a whole walk.
-/

namespace TreeDump.Walk

variable {language : RuleLanguage}

/-! ## The recursion -/

/-- The entries of a directory in the order of their names; none if it cannot be read. -/
def entriesOf (fs : FileSystem) (directory : Path) : List (String × Entry) :=
  match fs.list directory.text with
  | .ok entries => byName entries
  | .error _ => []

/-- The scope of a directory's own ignore file, if there is one. -/
def ownScopes (language : RuleLanguage) (fs : FileSystem) (options : WalkOptions)
    (directory : Path) : List (Scope language) :=
  match loadScope language fs options directory with
  | .ok scope => scope.toList
  | .error _ => []

/-- Of the entries of a directory, the names of the files that are listed. -/
def listedNames (options : WalkOptions) (scopes : List (Scope language)) (directory : Path)
    (entries : List (String × Entry)) : List String :=
  (entries.filter fun entry =>
    entry.2.isFile && isListed options scopes (directory.child entry.1) entry.1).map Prod.fst

/-- Of the entries of a directory, the names of the directories that are not pruned. -/
def enteredNames (options : WalkOptions) (scopes : List (Scope language)) (directory : Path)
    (entries : List (String × Entry)) : List String :=
  (entries.filter fun entry =>
    entry.2.isDirectory && !isPruned options scopes (directory.child entry.1) entry.1).map Prod.fst

/-- The files below a directory: its own, and then those below each of its directories, to whose
files the rules of their own ignore file apply as well. -/
def walkRec (fs : FileSystem) (options : WalkOptions) (directory : Path) (depth : Nat)
    (scopes : List (Scope language)) : List Path :=
  if options.maxDepth < depth + 1 then []
  else
    (listedNames options scopes directory (entriesOf fs directory)).map directory.child
      ++ (enteredNames options scopes directory (entriesOf fs directory)).flatMap fun name =>
        walkRec fs options (directory.child name) (depth + 1)
          (scopes ++ ownScopes language fs options (directory.child name))
termination_by (options.maxDepth - depth).toNat
decreasing_by omega

/-! ## Entries -/

/-- That a directory's ignore file, if there is one, can be made sense of. -/
def Loads (language : RuleLanguage) (fs : FileSystem) (options : WalkOptions)
    (directory : Path) : Prop :=
  ∃ scope, loadScope language fs options directory = .ok scope

/-- A directory that stands in another one, as it is put on the stack. -/
def pendingOf (fs : FileSystem) (options : WalkOptions) (parent : Pending language)
    (name : String) : Pending language :=
  ⟨parent.directory.child name, parent.depth + 1,
    parent.scopes ++ ownScopes language fs options (parent.directory.child name)⟩

/-- Of the entries of a directory, those that are put on the stack. -/
def pendingAmong (fs : FileSystem) (options : WalkOptions) (parent : Pending language)
    (entries : List (String × Entry)) : List (Pending language) :=
  if options.maxDepth ≤ (parent.depth + 1 : Nat) then []
  else
    (enteredNames options parent.scopes parent.directory entries).map (pendingOf fs options parent)

theorem listedNames_append (options : WalkOptions) (scopes : List (Scope language))
    (directory : Path) (first rest : List (String × Entry)) :
    listedNames options scopes directory (first ++ rest)
      = listedNames options scopes directory first
        ++ listedNames options scopes directory rest := by
  rw [listedNames, List.filter_append, List.map_append]
  rfl

theorem listedNames_file (options : WalkOptions) (scopes : List (Scope language))
    (directory : Path) (name : String) (content : ByteArray) :
    listedNames options scopes directory [(name, .file content)]
      = if isListed options scopes (directory.child name) name then [name] else [] := by
  simp only [listedNames, List.filter_cons, Entry.isFile, Bool.true_and]
  split <;> rfl

theorem pendingAmong_nil (fs : FileSystem) (options : WalkOptions) (parent : Pending language) :
    pendingAmong fs options parent [] = [] := by
  rw [pendingAmong]
  split <;> rfl

theorem pendingAmong_append (fs : FileSystem) (options : WalkOptions) (parent : Pending language)
    (first rest : List (String × Entry)) :
    pendingAmong fs options parent (first ++ rest)
      = pendingAmong fs options parent first ++ pendingAmong fs options parent rest := by
  unfold pendingAmong
  split
  · rfl
  · rw [enteredNames, List.filter_append, List.map_append, List.map_append]
    rfl

theorem pendingAmong_file (fs : FileSystem) (options : WalkOptions) (parent : Pending language)
    (name : String) (content : ByteArray) :
    pendingAmong fs options parent [(name, .file content)] = [] := by
  rw [pendingAmong]
  split <;> rfl

theorem pendingAmong_link (fs : FileSystem) (options : WalkOptions) (parent : Pending language)
    (name target : String) : pendingAmong fs options parent [(name, .link target)] = [] := by
  rw [pendingAmong]
  split <;> rfl

theorem pendingAmong_directory (fs : FileSystem) (options : WalkOptions)
    (parent : Pending language) (name : String) (entries : List (String × Entry)) :
    pendingAmong fs options parent [(name, .directory entries)]
      = if isPruned options parent.scopes (parent.directory.child name) name
          || options.maxDepth ≤ (parent.depth + 1 : Nat) then []
        else [pendingOf fs options parent name] := by
  unfold pendingAmong
  by_cases hDeep : options.maxDepth ≤ (parent.depth + 1 : Nat)
  · simp only [hDeep, decide_true, Bool.or_true, if_true]
  · simp only [hDeep, decide_false, Bool.or_false, if_false, enteredNames, List.filter_cons,
      Entry.isDirectory, Bool.true_and]
    cases isPruned options parent.scopes (parent.directory.child name) name <;> rfl

section

variable (fs : FileSystem) {options : WalkOptions} (parent : Pending language)

theorem visitEntries_cons {found : Found language} {entry : String × Entry}
    (rest : List (String × Entry))
    (hOn : (visitEntry fs options parent found entry).interruption = none) :
    visitEntries fs options parent found (entry :: rest)
      = visitEntries fs options parent (visitEntry fs options parent found entry) rest := by
  rw [visitEntries]
  simp only [hOn]

theorem visitEntries_stop {found : Found language} {entry : String × Entry} {raised : Raised}
    (rest : List (String × Entry))
    (hStop : (visitEntry fs options parent found entry).interruption = some raised) :
    visitEntries fs options parent found (entry :: rest)
      = visitEntry fs options parent found entry := by
  rw [visitEntries]
  simp only [hStop]

/-- What an entry is taken for if links are not followed. -/
theorem kindOf_noLinks (hLinks : options.followLinks = false) (path : Path) (entry : Entry) :
    kindOf fs options.followLinks path entry = .ofEntry entry := by
  rw [kindOf, hLinks, Bool.and_false]
  rfl

theorem visitEntry_link (hLinks : options.followLinks = false) (found : Found language)
    (name target : String) : visitEntry fs options parent found (name, .link target) = found := by
  rw [visitEntry, kindOf_noLinks fs hLinks]
  rfl

theorem visitEntry_file (hLinks : options.followLinks = false) (found : Found language)
    (name : String) (content : ByteArray) :
    visitEntry fs options parent found (name, .file content)
      = if isListed options parent.scopes (parent.directory.child name) name then
          { found with files := found.files ++ [parent.directory.child name] }
        else found := by
  rw [visitEntry, kindOf_noLinks fs hLinks]
  rfl

/-- A directory that is not pruned is put off, unless its ignore file is no good. -/
theorem visitEntry_directory (hLinks : options.followLinks = false) (found : Found language)
    (name : String) (entries : List (String × Entry)) :
    visitEntry fs options parent found (name, .directory entries)
      = if isPruned options parent.scopes (parent.directory.child name) name
          || options.maxDepth ≤ (parent.depth + 1 : Nat) then found
        else
          match loadScope language fs options (parent.directory.child name) with
          | .error raised => { found with interruption := some raised }
          | .ok _ =>
            { found with
              directories := found.directories ++ [pendingOf fs options parent name] } := by
  rw [visitEntry, kindOf_noLinks fs hLinks]
  simp only [Kind.ofEntry, Entry.isDirectory, if_true, visitDirectory, enter, hLinks,
    Bool.false_and, Bool.or_false, Bool.false_eq_true, if_false, pendingOf, ownScopes]
  cases loadScope language fs options (parent.directory.child name) <;> rfl

/-- Files that were listed, and what interrupted the listing, against the files that there are to
list, when nothing interrupts the listing as long as `Good` holds. -/
structure Agrees (files : List Path) (interruption : Option Raised) (expected : List Path)
    (Good : Prop) : Prop where
  interruption_iff : interruption = none ↔ Good
  eq : interruption = none → files = expected
  isPrefix : files <+: expected

theorem Agrees.settled {files expected : List Path} {interruption : Option Raised} {Good : Prop}
    (hNone : interruption = none) (hFiles : files = expected) (hGood : Good) :
    Agrees files interruption expected Good := by
  refine ⟨?_, fun _ => hFiles, ?_⟩
  · exact iff_of_true hNone hGood
  · exact hFiles ▸ List.prefix_refl files

theorem Agrees.interrupted {files expected : List Path} {Good : Prop} (raised : Raised)
    (hPrefix : files <+: expected) (hBad : ¬ Good) :
    Agrees files (some raised) expected Good := by
  refine ⟨?_, ?_, hPrefix⟩
  · constructor
    · intro hOn
      cases hOn
    · intro hGood
      exact absurd hGood hBad
  · intro hOn
    cases hOn

/-- Without links, an entry adds itself if it is a file that is listed or a directory that is
entered. -/
theorem visitEntry_agrees (hLinks : options.followLinks = false) (entry : String × Entry)
    (found : Found language) (hNone : found.interruption = none) :
    Agrees (visitEntry fs options parent found entry).files
      (visitEntry fs options parent found entry).interruption
      (found.files ++ (listedNames options parent.scopes parent.directory [entry]).map
        parent.directory.child)
      (∀ pending ∈ pendingAmong fs options parent [entry],
        Loads language fs options pending.directory) ∧
    ((visitEntry fs options parent found entry).interruption = none →
      (visitEntry fs options parent found entry).directories
        = found.directories ++ pendingAmong fs options parent [entry]) := by
  have hNothing : ∀ pending ∈ ([] : List (Pending language)),
      Loads language fs options pending.directory := by simp
  obtain ⟨name, entry⟩ := entry
  cases entry with
  | link target =>
    rw [visitEntry_link fs parent hLinks, pendingAmong_link]
    have hFiles : listedNames options parent.scopes parent.directory [(name, .link target)] = [] :=
      rfl
    rw [hFiles, List.map_nil, List.append_nil, List.append_nil]
    exact ⟨.settled hNone rfl hNothing, fun _ => rfl⟩
  | file content =>
    rw [visitEntry_file fs parent hLinks, pendingAmong_file, listedNames_file, List.append_nil]
    split
    · exact ⟨.settled hNone rfl hNothing, fun _ => rfl⟩
    · rw [List.map_nil, List.append_nil]
      exact ⟨.settled hNone rfl hNothing, fun _ => rfl⟩
  | directory entries =>
    have hFiles : listedNames options parent.scopes parent.directory
        [(name, .directory entries)] = [] := rfl
    rw [visitEntry_directory fs parent hLinks, pendingAmong_directory, hFiles, List.map_nil,
      List.append_nil]
    split
    · rw [List.append_nil]
      exact ⟨.settled hNone rfl hNothing, fun _ => rfl⟩
    · cases hLoad : loadScope language fs options (parent.directory.child name) with
      | error raised =>
        refine ⟨.interrupted raised (List.prefix_refl _) ?_, fun hOn => by cases hOn⟩
        intro hLoads
        obtain ⟨scope, hScope⟩ := hLoads _ List.mem_cons_self
        rw [pendingOf, hLoad] at hScope
        cases hScope
      | ok scope =>
        refine ⟨.settled hNone rfl ?_, fun _ => rfl⟩
        intro pending hPending
        rw [List.mem_singleton.mp hPending]
        exact ⟨scope, hLoad⟩

/-- Without links, the entries of a directory add the files among them that are listed, and the
directories among them that are entered. -/
theorem visitEntries_agrees (hLinks : options.followLinks = false)
    (entries : List (String × Entry)) (found : Found language)
    (hNone : found.interruption = none) :
    Agrees (visitEntries fs options parent found entries).files
      (visitEntries fs options parent found entries).interruption
      (found.files ++ (listedNames options parent.scopes parent.directory entries).map
        parent.directory.child)
      (∀ pending ∈ pendingAmong fs options parent entries,
        Loads language fs options pending.directory) ∧
    ((visitEntries fs options parent found entries).interruption = none →
      (visitEntries fs options parent found entries).directories
        = found.directories ++ pendingAmong fs options parent entries) := by
  induction entries generalizing found with
  | nil =>
    rw [visitEntries, pendingAmong_nil, List.append_nil]
    refine ⟨.settled hNone (List.append_nil _).symm ?_, fun _ => rfl⟩
    simp
  | cons entry rest ih =>
    obtain ⟨hOne, hPut⟩ := visitEntry_agrees fs parent hLinks entry found hNone
    rw [← List.singleton_append, listedNames_append, pendingAmong_append, List.map_append,
      ← List.append_assoc, List.singleton_append]
    cases hStop : (visitEntry fs options parent found entry).interruption with
    | some raised =>
      rw [visitEntries_stop fs parent rest hStop, hStop]
      refine ⟨.interrupted raised (hOne.isPrefix.trans (List.prefix_append _ _)) ?_,
        fun hOn => by cases hOn⟩
      intro hLoads
      have hOn := hOne.interruption_iff.mpr fun pending hPending =>
        hLoads pending (List.mem_append_left _ hPending)
      exact Option.some_ne_none raised (hStop.symm.trans hOn)
    | none =>
      obtain ⟨hRest, hPutRest⟩ := ih (visitEntry fs options parent found entry) hStop
      rw [visitEntries_cons fs parent rest hStop, ← hOne.eq hStop, ← List.append_assoc,
        ← hPut hStop]
      refine ⟨⟨?_, hRest.eq, hRest.isPrefix⟩, hPutRest⟩
      rw [hRest.interruption_iff, List.forall_mem_append,
        and_iff_right (hOne.interruption_iff.mp hStop)]

/-- The directories that a directory puts on the stack. -/
def pendingBelow (fs : FileSystem) (options : WalkOptions) (parent : Pending language) :
    List (Pending language) :=
  pendingAmong fs options parent (entriesOf fs parent.directory)

/-- The files of a directory itself that are listed. -/
def ownFiles (fs : FileSystem) (options : WalkOptions) (parent : Pending language) : List Path :=
  if options.maxDepth < parent.depth + 1 then []
  else
    (listedNames options parent.scopes parent.directory (entriesOf fs parent.directory)).map
      parent.directory.child

/-- Without links, reading a directory finds its own files and the directories right below. -/
theorem readDirectory_agrees (hLinks : options.followLinks = false) (visited : List Place) :
    Agrees (readDirectory fs options visited parent).files
      (readDirectory fs options visited parent).interruption (ownFiles fs options parent)
      (∀ pending ∈ pendingBelow fs options parent,
        Loads language fs options pending.directory) ∧
    ((readDirectory fs options visited parent).interruption = none →
      (readDirectory fs options visited parent).directories = pendingBelow fs options parent) := by
  have hNothing : Agrees [] none [] (∀ pending ∈ ([] : List (Pending language)),
      Loads language fs options pending.directory) := .settled rfl rfl (by simp)
  rw [readDirectory, ownFiles, pendingBelow]
  split
  · rename_i hDeep
    have hNone : pendingAmong fs options parent (entriesOf fs parent.directory) = [] := by
      rw [pendingAmong, if_pos (by omega)]
    rw [hNone]
    exact ⟨hNothing, fun _ => rfl⟩
  · cases hList : fs.list parent.directory.text with
    | error refusal =>
      have hEntries : entriesOf fs parent.directory = [] := by rw [entriesOf, hList]
      rw [hEntries, pendingAmong_nil]
      exact ⟨hNothing, fun _ => rfl⟩
    | ok entries =>
      have hEntries : entriesOf fs parent.directory = byName entries := by rw [entriesOf, hList]
      rw [hEntries]
      exact visitEntries_agrees fs parent hLinks _ { visited } rfl

/-! ## The stack -/

/-- What the recursion lists of a directory of the stack. -/
def Pending.recursion (fs : FileSystem) (options : WalkOptions) (pending : Pending language) :
    List Path :=
  walkRec fs options pending.directory pending.depth pending.scopes

theorem Pending.recursion_deep (hDeep : options.maxDepth < parent.depth + 1) :
    parent.recursion fs options = [] := by
  rw [Pending.recursion, walkRec, if_pos hDeep]

/-- The directories that the walk keeps off its stack are those of which the recursion lists
nothing. -/
theorem Pending.recursion_eq : parent.recursion fs options
    = ownFiles fs options parent
      ++ (pendingBelow fs options parent).flatMap (Pending.recursion fs options) := by
  by_cases hDeep : options.maxDepth < parent.depth + 1
  · rw [parent.recursion_deep fs hDeep, ownFiles, if_pos hDeep, pendingBelow, pendingAmong,
      if_pos (by omega)]
    rfl
  · rw [Pending.recursion, walkRec, if_neg hDeep, ownFiles, if_neg hDeep, pendingBelow,
      pendingAmong]
    split
    · rename_i hLast
      have hBelow : ∀ name, walkRec fs options (parent.directory.child name) (parent.depth + 1)
          (parent.scopes ++ ownScopes language fs options (parent.directory.child name)) = [] := by
        intro name
        rw [walkRec, if_pos (by omega)]
      rw [List.flatMap_eq_nil_iff.mpr (fun name _ => hBelow name)]
      rfl
    · rw [List.flatMap_map]
      rfl

/-- A directory that another one puts on the stack. -/
def Below (fs : FileSystem) (options : WalkOptions) (parent pending : Pending language) : Prop :=
  pending ∈ pendingBelow fs options parent

/-- That all directories that are entered from a directory on can be entered. -/
def Settled (fs : FileSystem) (options : WalkOptions) (top : Pending language) : Prop :=
  ∀ parent pending, Relation.ReflTransGen (Below fs options) top parent →
    Below fs options parent pending → Loads language fs options pending.directory

theorem settled_iff {top : Pending language} : Settled fs options top ↔
    (∀ pending ∈ pendingBelow fs options top, Loads language fs options pending.directory) ∧
    ∀ pending ∈ pendingBelow fs options top, Settled fs options pending := by
  constructor
  · intro h
    refine ⟨fun pending hPending => h top pending .refl hPending, ?_⟩
    intro pending hPending parent lower hPath hLower
    exact h parent lower (.head hPending hPath) hLower
  · rintro ⟨hLoads, hSettled⟩ parent pending hPath hPending
    rcases Relation.ReflTransGen.cases_head hPath with rfl | ⟨next, hNext, hRest⟩
    · exact hLoads pending hPending
    · exact hSettled next hNext parent pending hRest hPending

/-- Without links, the walk lists what the recursion lists of the directories of the stack, from the
top down. -/
theorem readStack_agrees (hLinks : options.followLinks = false) (files : List Path)
    (log : List LogRecord) (visited : List Place) (stack : List (Pending language)) :
    Agrees (readStack fs options files log visited stack).files
      (readStack fs options files log visited stack).interruption
      (files ++ stack.flatMap (Pending.recursion fs options))
      (∀ pending ∈ stack, Settled fs options pending) := by
  induction files, log, visited, stack using readStack.induct fs options with
  | case1 files log visited =>
    rw [readStack]
    refine .settled rfl (List.append_nil _).symm ?_
    simp
  | case2 files log visited top rest found raised hRaised =>
    obtain ⟨hAgrees, -⟩ := readDirectory_agrees fs top hLinks visited
    have hStop : readStack fs options files log visited (top :: rest)
        = ⟨files ++ found.files, log ++ found.log, some raised⟩ := by
      rw [readStack]
      simp only [hRaised, found]
    rw [hStop, List.flatMap_cons, top.recursion_eq fs]
    refine .interrupted raised ?_ ?_
    · rw [List.append_assoc, List.prefix_append_right_inj]
      exact hAgrees.isPrefix.trans (List.prefix_append _ _)
    · intro hSettled
      have hLoads := ((settled_iff fs).mp (hSettled top List.mem_cons_self)).1
      rw [← hAgrees.interruption_iff] at hLoads
      exact absurd (hRaised.symm.trans hLoads) (Option.some_ne_none raised)
  | case3 files log visited top rest found hOn ih =>
    obtain ⟨hAgrees, hDirectories⟩ := readDirectory_agrees fs top hLinks visited
    have hNext : readStack fs options files log visited (top :: rest)
        = readStack fs options (files ++ found.files) (log ++ found.log) found.visited
          (found.directories ++ rest) := by
      rw [readStack]
      simp only [hOn, found]
    have hFiles : found.files = ownFiles fs options top := hAgrees.eq hOn
    have hBelow : found.directories = pendingBelow fs options top := hDirectories hOn
    have hExpected : files ++ (top :: rest).flatMap (Pending.recursion fs options)
        = files ++ ownFiles fs options top
          ++ (pendingBelow fs options top ++ rest).flatMap (Pending.recursion fs options) := by
      rw [List.flatMap_cons, top.recursion_eq fs, List.flatMap_append]
      simp only [List.append_assoc]
    rw [hFiles, hBelow] at ih
    rw [hNext, hFiles, hBelow, hExpected]
    refine ⟨?_, ih.eq, ih.isPrefix⟩
    rw [ih.interruption_iff, List.forall_mem_append, List.forall_mem_cons, settled_iff,
      and_iff_right (hAgrees.interruption_iff.mp hOn)]

end

/-! ## The walk -/

/-- The directory in which a walk starts. -/
def start (language : RuleLanguage) (fs : FileSystem) (options : WalkOptions) (root : Path) :
    Pending language :=
  ⟨root, 0, ownScopes language fs options root⟩

/-- Without links, a walk lists what the recursion lists, unless there is something that
interrupts it. -/
theorem walkWith_agrees (fs : FileSystem) {options : WalkOptions}
    (hLinks : options.followLinks = false) (root : Path) :
    Agrees (walkWith language fs options root).files
      (walkWith language fs options root).interruption
      ((start language fs options root).recursion fs options)
      (¬ root.text.contains '\x00' ∧ Loads language fs options root ∧
        Settled fs options (start language fs options root)) := by
  rw [walkWith]
  split
  · rename_i hNul
    refine .interrupted _ List.nil_prefix ?_
    rintro ⟨hClear, -⟩
    exact hClear hNul
  · rename_i hNul
    rw [and_iff_right hNul]
    cases hLoad : loadScope language fs options root with
    | error raised =>
      refine .interrupted raised List.nil_prefix ?_
      rintro ⟨⟨scope, hScope⟩, -⟩
      rw [hLoad] at hScope
      cases hScope
    | ok scope =>
      have hStart : start language fs options root = ⟨root, 0, scope.toList⟩ := by
        rw [start, ownScopes, hLoad]
      have hStack := readStack_agrees fs hLinks [] [] [placeOf fs root] [⟨root, 0, scope.toList⟩]
      rw [hStart, and_iff_right ⟨scope, hLoad⟩]
      simpa using hStack

end TreeDump.Walk
