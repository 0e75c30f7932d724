import TreeDump.Walk.Filter
import TreeDump.Walk.IgnoreRule
import TreeDump.Files.System
import TreeDump.Weight

/-!
# Walking directories

A walk lists the files below a directory: first those of the directory itself in the order of
their names, then, directory by directory in the same order, those further down.  It passes over
directories that are ignored by name, entries that an ignore file rules out, and files that the
filter rejects.  Symbolic links are followed only on demand, and then no directory is entered
twice, whatever paths lead to it.

* `walk` lists the files from a stack of directories that are still to be read, and `walkWith`
  does so with rules of any language.
* `mayWalk` tells whether a path avoids the directories that are ignored by name.
* `Candidate.size` measures a file that a walk came upon when its size is asked for the first time;
  it stays what it was then.
-/

namespace TreeDump

/-- Names of directories that are never entered. -/
def defaultIgnoredDirectories : List String := [".git", "target", "node_modules", ".venv"]

def defaultIgnoreFileName : String := ".astgenignore"

/-- How deep a walk goes unless told otherwise. -/
def defaultMaxDepth : Int := 100

structure WalkOptions where
  followLinks : Bool := false
  /-- The depth of the deepest files; files in the starting directory have depth one. -/
  maxDepth : Int := defaultMaxDepth
  filter : Filter := {}
  ignoreFileName : Option String := some defaultIgnoreFileName
  ignoredDirectories : List String := defaultIgnoredDirectories
deriving Repr, DecidableEq

/-- Whether none of the parts of a path is the name of an ignored directory. -/
def mayWalk (ignoredDirectories : List String) (path : String) : Bool :=
  !(Path.ofString path).parts.any ignoredDirectories.contains

namespace Walk

variable {language : RuleLanguage}

/-! ## Rules in force -/

/-- The rules of an ignore file and the directory that the file is in. -/
structure Scope (language : RuleLanguage) where
  base : Path
  rules : language.Rules

/-- What a scope decides about a path below its directory. -/
def Scope.decide? (scope : Scope language) (path : Path) (isDirectory : Bool) : Option Bool :=
  match path.relativeTo? scope.base with
  | some relative =>
    language.decide? scope.rules (relative.text ++ if isDirectory then "/" else "")
  | none => none

/-- Whether a path is ignored: of the scopes that decide about it, the deepest one has the say.
Scopes are listed from the starting directory down. -/
def isIgnored (scopes : List (Scope language)) (path : Path) (isDirectory : Bool) : Bool :=
  (scopes.reverse.findSome? fun scope => scope.decide? path isDirectory).getD false

/-- The scope of the ignore file of a directory, if the directory has one with a line that
counts. -/
def loadScope (language : RuleLanguage) (fs : FileSystem) (options : WalkOptions)
    (directory : Path) : Except Raised (Option (Scope language)) :=
  match options.ignoreFileName with
  | none | some "" => .ok none
  | some name =>
    let path := (directory.join (Path.ofString name)).text
    match fs.isFile path with
    | .error refusal => .error (.refused refusal path)
    | .ok false => .ok none
    | .ok true =>
      match fs.read path with
      | .error _ => .ok none
      | .ok bytes =>
        match IgnoreRule.ruleLines (Utf8.decodeLossy bytes) with
        | [] => .ok none
        | lines =>
          match language.compile lines with
          | .error raised => .error raised
          | .ok rules => .ok (some ⟨directory, rules⟩)

/-! ## Entries of a directory -/

inductive Kind where
  | directory
  | file
  /-- A link that is not followed or leads nowhere. -/
  | neither
deriving Repr, DecidableEq

/-- What an entry that is followed no further is taken for. -/
def Kind.ofEntry (entry : Entry) : Kind :=
  if entry.isDirectory then directory else if entry.isFile then file else neither

/-- What an entry is taken for, depending on whether links are followed. -/
def kindOf (fs : FileSystem) (followLinks : Bool) (path : Path) (entry : Entry) : Kind :=
  if entry.isLink && followLinks then
    match fs.stat path.text with
    | .ok target => .ofEntry target
    | .error _ => .neither
  else .ofEntry entry

/-- The place of a directory, by which it is recognised however long its path is. -/
def placeOf (fs : FileSystem) (path : Path) : Place :=
  match fs.target path.text with
  | .ok (.entry place) => place
  | _ => fs.working ++ path.names

/-- Whether a directory is passed over, because of its name or because rules say so. -/
def isPruned (options : WalkOptions) (scopes : List (Scope language)) (path : Path)
    (name : String) : Bool :=
  options.ignoredDirectories.contains name || isIgnored scopes path true

/-- Whether a file is listed: it is no ignore file, no rules say otherwise, and the filter takes
it. -/
def isListed (options : WalkOptions) (scopes : List (Scope language)) (path : Path)
    (name : String) : Bool :=
  options.ignoreFileName != some name && !isIgnored scopes path false
    && options.filter.accepts path.text

/-- A directory that is to be read, its depth, and the rules in force in it. -/
structure Pending (language : RuleLanguage) where
  directory : Path
  depth : Nat
  scopes : List (Scope language)

/-- What came of reading a directory: files, directories to read later, the places of all
directories entered so far, what was reported, and what stopped the reading, if anything did. -/
structure Found (language : RuleLanguage) where
  files : List Path := []
  directories : List (Pending language) := []
  visited : List Place := []
  log : List LogRecord := []
  interruption : Option Raised := none

/-- The places entered so far and one more.  They count only if links are followed. -/
def enter (options : WalkOptions) (place : Place) (visited : List Place) : List Place :=
  if options.followLinks then place :: visited else visited

/-- Takes a directory into account that stands in another one. -/
def visitDirectory (fs : FileSystem) (options : WalkOptions) (parent : Pending language)
    (found : Found language) (name : String) : Found language :=
  let path := parent.directory.child name
  let depth := parent.depth + 1
  let place := placeOf fs path
  if isPruned options parent.scopes path name || options.maxDepth ≤ depth
      || options.followLinks && found.visited.contains place then found
  else
    let found := { found with visited := enter options place found.visited }
    match loadScope language fs options path with
    | .error raised => { found with interruption := some raised }
    | .ok scope =>
      let pending : Pending language := ⟨path, depth, parent.scopes ++ scope.toList⟩
      { found with directories := found.directories ++ [pending] }

def visitEntry (fs : FileSystem) (options : WalkOptions) (parent : Pending language)
    (found : Found language) (entry : String × Entry) : Found language :=
  let path := parent.directory.child entry.1
  match kindOf fs options.followLinks path entry.2 with
  | .neither => found
  | .directory => visitDirectory fs options parent found entry.1
  | .file =>
    if isListed options parent.scopes path entry.1 then
      { found with files := found.files ++ [path] }
    else found

/-- Takes the entries of a directory into account, one after the other, as long as nothing
interrupts that. -/
def visitEntries (fs : FileSystem) (options : WalkOptions) (parent : Pending language)
    (found : Found language) : List (String × Entry) → Found language
  | [] => found
  | entry :: rest =>
    let found := visitEntry fs options parent found entry
    match found.interruption with
    | some _ => found
    | none => visitEntries fs options parent found rest

def byName (entries : List (String × Entry)) : List (String × Entry) :=
  entries.mergeSort fun a b => a.1 ≤ b.1

/-- The record of a directory that cannot be read. -/
def unreadable (directory : Path) (refusal : Refusal) : LogRecord :=
  ⟨.warning, "Cannot read directory " ++ directory.text ++ ": "
    ++ (Fault.refused refusal directory.text).text⟩

/-- Reads a directory, unless its files are deeper than the walk goes. -/
def readDirectory (fs : FileSystem) (options : WalkOptions) (visited : List Place)
    (parent : Pending language) : Found language :=
  if options.maxDepth < parent.depth + 1 then { visited }
  else
    match fs.list parent.directory.text with
    | .error refusal => { visited, log := [unreadable parent.directory refusal] }
    | .ok entries => visitEntries fs options parent { visited } (byName entries)

/-- What holds of what was found so far, and of the entries that are left, holds in the end if
each entry keeps it. -/
theorem visitEntries_induction {fs : FileSystem} {options : WalkOptions}
    {parent : Pending language} {P : Found language → List (String × Entry) → Prop}
    (hStep : ∀ found entry rest, found.interruption = none → P found (entry :: rest) →
      P (visitEntry fs options parent found entry) rest)
    (hStop : ∀ found rest, found.interruption ≠ none → P found rest → P found [])
    {found : Found language} {entries : List (String × Entry)} (hNone : found.interruption = none)
    (h : P found entries) : P (visitEntries fs options parent found entries) [] := by
  induction entries generalizing found with
  | nil => exact h
  | cons entry rest ih =>
    have hNext := hStep found entry rest hNone h
    rw [visitEntries]
    split
    · rename_i raised hRaised
      exact hStop _ rest (by rw [hRaised]; exact Option.some_ne_none raised) hNext
    · rename_i hOn
      exact ih hOn hNext

/-! ## The measure -/

/-- The number of levels that a walk goes down from a directory. -/
def Pending.levels (options : WalkOptions) (pending : Pending language) : Nat :=
  (options.maxDepth - pending.depth).toNat

/-- More than `width` directories weigh of which each goes down a level less. -/
def levelWeight (width : Nat) : Nat → Nat
  | 0 => 1
  | levels + 1 => width * levelWeight width levels + 1

/-- The weight of a directory, if no directory has more than `width` entries. -/
def Pending.weight (width : Nat) (options : WalkOptions) (pending : Pending language) : Nat :=
  levelWeight width (pending.levels options)

theorem Pending.weight_pos (width : Nat) (options : WalkOptions) (pending : Pending language) :
    0 < pending.weight width options := by
  rw [weight]
  cases pending.levels options with
  | zero => exact Nat.zero_lt_one
  | succ levels => exact Nat.succ_pos _

/-- A directory that is to be read later stands one level further down, and is not so deep that
its files would not be listed. -/
def Pending.Below (options : WalkOptions) (parent pending : Pending language) : Prop :=
  pending.depth = parent.depth + 1 ∧ pending.depth < options.maxDepth

theorem visitEntry_directories {fs : FileSystem} {options : WalkOptions}
    {parent : Pending language} {found : Found language} {entry : String × Entry}
    (h : ∀ pending ∈ found.directories, parent.Below options pending) :
    (∀ pending ∈ (visitEntry fs options parent found entry).directories,
      parent.Below options pending) ∧
    (visitEntry fs options parent found entry).directories.length
      ≤ found.directories.length + 1 := by
  rw [visitEntry]
  split
  · exact ⟨h, Nat.le_succ _⟩
  · rw [visitDirectory]
    split
    · exact ⟨h, Nat.le_succ _⟩
    · rename_i hEnter
      split
      · exact ⟨h, Nat.le_succ _⟩
      · refine ⟨?_, by simp⟩
        intro pending hPending
        rcases List.mem_append.mp hPending with hOld | hNew
        · exact h pending hOld
        · obtain rfl := List.mem_singleton.mp hNew
          refine ⟨rfl, ?_⟩
          simp only [Bool.or_eq_true, decide_eq_true_eq, not_or] at hEnter
          exact Int.not_le.mp hEnter.1.2
  · split
    · exact ⟨h, Nat.le_succ _⟩
    · exact ⟨h, Nat.le_succ _⟩

theorem readDirectory_directories (fs : FileSystem) (options : WalkOptions) (visited : List Place)
    (parent : Pending language) :
    (∀ pending ∈ (readDirectory fs options visited parent).directories,
      parent.Below options pending) ∧
    (readDirectory fs options visited parent).directories.length ≤ fs.root.entryCount := by
  have hNothing : ∀ pending ∈ ([] : List (Pending language)), parent.Below options pending := by
    intro pending hPending
    cases hPending
  rw [readDirectory]
  split
  · exact ⟨hNothing, Nat.zero_le _⟩
  · split
    · exact ⟨hNothing, Nat.zero_le _⟩
    · rename_i entries hList
      have hWidth : (byName entries).length ≤ fs.root.entryCount := by
        rw [byName, List.length_mergeSort]
        exact FileSystem.length_list_le hList
      refine visitEntries_induction (P := fun found rest =>
        (∀ pending ∈ found.directories, parent.Below options pending) ∧
        found.directories.length + rest.length ≤ fs.root.entryCount) ?_ ?_ rfl ?_
      · intro found entry rest _ h
        obtain ⟨hBelow, hLength⟩ := h
        obtain ⟨hEntry, hOne⟩ := visitEntry_directories hBelow
        rw [List.length_cons] at hLength
        exact ⟨hEntry, by omega⟩
      · intro found rest _ h
        exact ⟨h.1, Nat.le_trans (Nat.le_add_right _ _) h.2⟩
      · exact ⟨hNothing, by simpa using hWidth⟩

/-- A directory weighs more than all directories right below it. -/
theorem weigh_below {width : Nat} {options : WalkOptions} {parent : Pending language}
    {directories : List (Pending language)}
    (hBelow : ∀ pending ∈ directories, parent.Below options pending)
    (hWidth : directories.length ≤ width) :
    weigh (Pending.weight width options) directories < parent.weight width options := by
  cases directories with
  | nil => exact parent.weight_pos width options
  | cons head rest =>
    obtain ⟨levels, hLevels⟩ : ∃ levels, parent.levels options = levels + 1 := by
      obtain ⟨hDepth, hDeep⟩ := hBelow head List.mem_cons_self
      refine ⟨parent.levels options - 1, ?_⟩
      rw [Pending.levels]
      omega
    have hWeight : ∀ pending ∈ head :: rest,
        pending.weight width options = levelWeight width levels := by
      intro pending hPending
      have hDepth := (hBelow pending hPending).1
      have hLess : pending.levels options = levels := by
        rw [Pending.levels] at hLevels ⊢
        omega
      rw [Pending.weight, hLess]
    rw [weigh_of_eq hWeight, Pending.weight, hLevels, levelWeight]
    exact Nat.lt_succ_of_le (Nat.mul_le_mul_right _ hWidth)

/-- Reading a directory takes more weight off the stack than it puts on it. -/
theorem weigh_readDirectory (fs : FileSystem) (options : WalkOptions) (visited : List Place)
    (top : Pending language) (rest : List (Pending language)) :
    weigh (Pending.weight fs.root.entryCount options)
        ((readDirectory fs options visited top).directories ++ rest)
      < weigh (Pending.weight fs.root.entryCount options) (top :: rest) := by
  obtain ⟨hBelow, hWidth⟩ := readDirectory_directories fs options visited top
  rw [weigh_append, weigh]
  exact Nat.add_lt_add_right (weigh_below hBelow hWidth) _

/-! ## The walk -/

/-- What a walk listed and reported, and what interrupted it, if anything did. -/
structure Result where
  files : List Path
  log : List LogRecord
  interruption : Option Raised

/-- Reads the directories of a stack, the topmost one first.  What is to be read later goes on top
of the stack. -/
def readStack (fs : FileSystem) (options : WalkOptions) (files : List Path) (log : List LogRecord)
    (visited : List Place) (stack : List (Pending language)) : Result :=
  match stack with
  | [] => ⟨files, log, none⟩
  | top :: rest =>
    let found := readDirectory fs options visited top
    match found.interruption with
    | some raised => ⟨files ++ found.files, log ++ found.log, some raised⟩
    | none =>
      readStack fs options (files ++ found.files) (log ++ found.log) found.visited
        (found.directories ++ rest)
termination_by weigh (Pending.weight fs.root.entryCount options) stack
decreasing_by exact weigh_readDirectory fs options visited top rest

end Walk

/-- The files below a directory, with rules of a language.  The directory itself is entered
whatever its name is. -/
def walkWith (language : RuleLanguage) (fs : FileSystem) (options : WalkOptions) (root : Path) :
    Walk.Result :=
  if root.text.contains '\x00' then ⟨[], [], some (.refused .nulByte root.text)⟩
  else
    match Walk.loadScope language fs options root with
    | .error raised => ⟨[], [], some raised⟩
    | .ok scope =>
      Walk.readStack fs options [] [] [Walk.placeOf fs root] [⟨root, 0, scope.toList⟩]

def walk (fs : FileSystem) (options : WalkOptions) (root : Path) : Walk.Result :=
  walkWith .gitignore fs options root

/-! ## Candidates -/

/-- A file that a walk came upon, and its size once it has been measured. -/
structure Candidate where
  path : Path
  measured : Option Nat := none
deriving Repr, DecidableEq

/-- The size of a candidate, and the candidate that remembers it. -/
def Candidate.size (candidate : Candidate) (fs : FileSystem) : Except Raised (Nat × Candidate) :=
  match candidate.measured with
  | some size => .ok (size, candidate)
  | none =>
    match fs.stat candidate.path.text with
    | .ok entry => .ok (entry.size, { candidate with measured := some entry.size })
    | .error refusal => .error (.refused refusal candidate.path.text)

end TreeDump
