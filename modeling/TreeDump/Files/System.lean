import TreeDump.Files.Fault
import TreeDump.Files.Path

/-!
# File systems

A file system is a tree of directories, files and symbolic links, together with the place of the
working directory, from which relative paths start.  A place is the list of names on the way
down from the root, with no link among them, so that two paths lead to the same entry exactly
when they lead to the same place.

* `FileSystem.resolve` follows a written path.  It enters directories only, and it follows at
  most forty links, so it always ends.
* `FileSystem.target` does the same with paths that are too long to be asked for.
* `FileSystem.locate`, `stat`, `read` and `list` look at what is there; `append`, `write`,
  `makeDirectories` and `link` change it.
-/

namespace TreeDump

/-! ## Entries and places -/

/-- What stands under a name in a directory. -/
inductive Entry where
  | file (content : ByteArray)
  /-- A symbolic link to a written path. -/
  | link (target : String)
  | directory (entries : List (String × Entry))
deriving Inhabited

/-- The names on the way down from the root. -/
abbrev Place := List String

namespace Entry

def child? (name : String) : Entry → Option Entry
  | directory entries => entries.lookup name
  | _ => none

def at? (entry : Entry) : Place → Option Entry
  | [] => some entry
  | name :: place =>
    match entry.child? name with
    | some child => child.at? place
    | none => none

def isDirectory : Entry → Bool
  | directory _ => true
  | _ => false

def isFile : Entry → Bool
  | file _ => true
  | _ => false

def isLink : Entry → Bool
  | link _ => true
  | _ => false

/-- A directory with an entry put under a name, in place of the one that was there. -/
def insert (name : String) (entry : Entry) (entries : List (String × Entry)) :
    List (String × Entry) :=
  if entries.any (·.1 == name) then
    entries.map fun old => if old.1 == name then (name, entry) else old
  else entries ++ [(name, entry)]

/-- An entry with `new` put at a place below it.  If the directory of the place does not exist,
nothing changes. -/
def put (entry : Entry) (place : Place) (new : Entry) : Entry :=
  match place, entry with
  | [], _ => new
  | [name], directory entries => directory (insert name new entries)
  | name :: place, directory entries =>
    match entries.lookup name with
    | some child => directory (insert name (child.put place new) entries)
    | none => directory entries
  | _, entry => entry

mutual

def entryCount : Entry → Nat
  | directory entries => entryCountIn entries
  | _ => 0

/-- The number of entries in and below the entries of a directory. -/
def entryCountIn : List (String × Entry) → Nat
  | [] => 0
  | (_, entry) :: rest => entry.entryCount + 1 + entryCountIn rest

end

theorem length_le_entryCountIn (entries : List (String × Entry)) :
    entries.length ≤ entryCountIn entries := by
  induction entries with
  | nil => exact Nat.le_refl _
  | cons head rest ih =>
    rw [List.length_cons, entryCountIn]
    omega

theorem entryCount_le_of_lookup {name : String} {entry : Entry} {entries : List (String × Entry)}
    (h : entries.lookup name = some entry) : entry.entryCount ≤ entryCountIn entries := by
  induction entries with
  | nil => cases h
  | cons head rest ih =>
    obtain ⟨key, value⟩ := head
    rw [entryCountIn]
    rw [List.lookup_cons] at h
    split at h
    · obtain rfl := Option.some.inj h
      omega
    · have := ih h
      omega

theorem entryCount_at?_le {entry found : Entry} {place : Place} (h : entry.at? place = some found) :
    found.entryCount ≤ entry.entryCount := by
  induction place generalizing entry with
  | nil =>
    obtain rfl := Option.some.inj h
    exact Nat.le_refl _
  | cons name place ih =>
    rw [at?] at h
    split at h
    · rename_i child hChild
      cases entry with
      | directory entries =>
        rw [entryCount]
        exact Nat.le_trans (ih h) (entryCount_le_of_lookup hChild)
      | file content => cases hChild
      | link target => cases hChild
    · cases h

mutual

/-- Whether no directory at or below an entry holds a name twice. -/
def hasDistinctNames : Entry → Bool
  | directory entries => decide (entries.map Prod.fst).Nodup && haveDistinctNames entries
  | _ => true

/-- Whether no directory among some entries, or below them, holds a name twice. -/
def haveDistinctNames : List (String × Entry) → Bool
  | [] => true
  | (_, entry) :: rest => entry.hasDistinctNames && haveDistinctNames rest

end

theorem hasDistinctNames_of_lookup {name : String} {entry : Entry}
    {entries : List (String × Entry)} (hDistinct : haveDistinctNames entries)
    (h : entries.lookup name = some entry) : entry.hasDistinctNames := by
  induction entries with
  | nil => cases h
  | cons head rest ih =>
    obtain ⟨key, value⟩ := head
    rw [haveDistinctNames, Bool.and_eq_true] at hDistinct
    rw [List.lookup_cons] at h
    split at h
    · obtain rfl := Option.some.inj h
      exact hDistinct.1
    · exact ih hDistinct.2 h

theorem hasDistinctNames_at? {entry found : Entry} {place : Place}
    (hDistinct : entry.hasDistinctNames) (h : entry.at? place = some found) :
    found.hasDistinctNames := by
  induction place generalizing entry with
  | nil =>
    obtain rfl := Option.some.inj h
    exact hDistinct
  | cons name place ih =>
    rw [at?] at h
    split at h
    · rename_i child hChild
      cases entry with
      | directory entries =>
        rw [hasDistinctNames, Bool.and_eq_true] at hDistinct
        exact ih (hasDistinctNames_of_lookup hDistinct.2 hChild) h
      | file content => cases hChild
      | link target => cases hChild
    · cases h

/-- The number of bytes an entry reports as its size. -/
def size : Entry → Nat
  | file content => content.size
  | link target => target.utf8ByteSize
  | directory _ => 4096

end Entry

/-- A tree of entries and the place of the working directory. -/
structure FileSystem where
  root : Entry := .directory []
  working : Place := []
deriving Inhabited

namespace FileSystem

/-! ## Resolution -/

/-- The number of links that one resolution follows at most. -/
def maxLinks : Nat := 40

/-- The longest name of an entry, in bytes. -/
def maxNameBytes : Nat := 255

/-- The length at which a written path is too long, in bytes. -/
def pathLimitBytes : Nat := 4096

/-- Where a path leads. -/
inductive Target where
  | entry (place : Place)
  /-- To nothing yet, under a name of an existing directory. -/
  | vacancy (directory : Place) (name : String)
deriving Repr, DecidableEq

def isDirectoryAt (fs : FileSystem) (place : Place) : Bool :=
  match fs.root.at? place with
  | some entry => entry.isDirectory
  | none => false

/-- Follows the steps of a path from the place `here`, with `links` more links to follow at most.
A link that is the last step is followed only if `followLast` is set. -/
def follow (fs : FileSystem) (followLast : Bool) (links : Nat) (here : Place)
    (steps : List String) : Except Refusal Target :=
  match steps with
  | [] => .ok (.entry here)
  | step :: rest =>
    if !fs.isDirectoryAt here then .error .notDirectory
    else if step == "" || step == "." then fs.follow followLast links here rest
    else if step == ".." then fs.follow followLast links here.dropLast rest
    else if maxNameBytes < step.utf8ByteSize then .error .nameTooLong
    else match fs.root.at? (here ++ [step]) with
      | none => if rest.isEmpty then .ok (.vacancy here step) else .error .notFound
      | some (.link target) =>
        if rest.isEmpty && !followLast then .ok (.entry (here ++ [step]))
        else match links with
          | 0 => .error .tooManyLinks
          | links + 1 =>
            let start := if target.toList.head? == some '/' then [] else here
            fs.follow followLast links start (rawSteps target ++ rest)
      | some _ => fs.follow followLast links (here ++ [step]) rest
termination_by (links, steps.length)

/-- Follows a written path from the working directory, or from the root if it starts there. -/
def resolve (fs : FileSystem) (followLast : Bool) (path : String) : Except Refusal Target :=
  if path.contains '\x00' then .error .nulByte
  else if path == "" then .error .notFound
  else if pathLimitBytes ≤ path.utf8ByteSize then .error .nameTooLong
  else
    let start := if path.toList.head? == some '/' then [] else fs.working
    fs.follow followLast maxLinks start (rawSteps path)

/-- The place in which a written path starts. -/
def startOf (fs : FileSystem) (path : String) : Place :=
  if path.toList.head? == some '/' then [] else fs.working

/-- Where a written path leads if all links are followed, however long its text is. -/
def target (fs : FileSystem) (path : String) : Except Refusal Target :=
  fs.follow true maxLinks (fs.startOf path) (rawSteps path)

def locate (fs : FileSystem) (path : String) : Except Refusal Place :=
  match fs.resolve true path with
  | .ok (.entry place) => .ok place
  | .ok (.vacancy _ _) => .error .notFound
  | .error refusal => .error refusal

/-! ## Looking -/

/-- The entry that a written path leads to. -/
def stat (fs : FileSystem) (path : String) : Except Refusal Entry :=
  match fs.locate path with
  | .ok place =>
    match fs.root.at? place with
    | some entry => .ok entry
    | none => .error .notFound
  | .error refusal => .error refusal

def read (fs : FileSystem) (path : String) : Except Refusal ByteArray :=
  match fs.stat path with
  | .ok (.file content) => .ok content
  | .ok _ => .error .isDirectory
  | .error refusal => .error refusal

def list (fs : FileSystem) (path : String) : Except Refusal (List (String × Entry)) :=
  match fs.stat path with
  | .ok (.directory entries) => .ok entries
  | .ok _ => .error .notDirectory
  | .error refusal => .error refusal

theorem at?_of_list {fs : FileSystem} {path : String} {entries : List (String × Entry)}
    (h : fs.list path = .ok entries) : ∃ place, fs.root.at? place = some (.directory entries) := by
  rw [list] at h
  split at h
  · rename_i listed hStat
    obtain rfl := Except.ok.inj h
    rw [stat] at hStat
    split at hStat
    · rename_i place _
      split at hStat
      · rename_i entry hAt
        obtain rfl := Except.ok.inj hStat
        exact ⟨place, hAt⟩
      · cases hStat
    · cases hStat
  · cases h
  · cases h

/-- No listing has more entries than there are in the file system. -/
theorem length_list_le {fs : FileSystem} {path : String} {entries : List (String × Entry)}
    (h : fs.list path = .ok entries) : entries.length ≤ fs.root.entryCount := by
  obtain ⟨place, hAt⟩ := at?_of_list h
  have hLe := Entry.entryCount_at?_le hAt
  rw [Entry.entryCount] at hLe
  exact Nat.le_trans (Entry.length_le_entryCountIn _) hLe

theorem nodup_list {fs : FileSystem} (hDistinct : fs.root.hasDistinctNames) {path : String}
    {entries : List (String × Entry)} (h : fs.list path = .ok entries) :
    (entries.map Prod.fst).Nodup := by
  obtain ⟨place, hAt⟩ := at?_of_list h
  have hDirectory := Entry.hasDistinctNames_at? hDistinct hAt
  rw [Entry.hasDistinctNames, Bool.and_eq_true] at hDirectory
  exact of_decide_eq_true hDirectory.1

/-- Whether a written path leads to a file.  Only refusals that mean something else than absence
are passed on. -/
def isFile (fs : FileSystem) (path : String) : Except Refusal Bool :=
  match fs.stat path with
  | .ok entry => .ok entry.isFile
  | .error refusal => if refusal.meansAbsent then .ok false else .error refusal

def isPresent (fs : FileSystem) (path : String) : Except Refusal Bool :=
  match fs.stat path with
  | .ok _ => .ok true
  | .error refusal => if refusal.meansAbsent then .ok false else .error refusal

/-! ## Changing -/

def put (fs : FileSystem) (place : Place) (entry : Entry) : FileSystem :=
  { fs with root := fs.root.put place entry }

/-- The place of the file that a written path leads to, which is made if it is missing. -/
def openFile (fs : FileSystem) (path : String) : Except Refusal (Place × FileSystem) :=
  match fs.resolve true path with
  | .ok (.vacancy directory name) =>
    .ok (directory ++ [name], fs.put (directory ++ [name]) (.file .empty))
  | .ok (.entry place) =>
    match fs.root.at? place with
    | some (.file _) => .ok (place, fs)
    | _ => .error .isDirectory
  | .error refusal => .error refusal

def append (fs : FileSystem) (place : Place) (bytes : ByteArray) : FileSystem :=
  match fs.root.at? place with
  | some (.file content) => fs.put place (.file (content ++ bytes))
  | _ => fs

/-- Replaces the content of a file, which is made if it is missing. -/
def write (fs : FileSystem) (path : String) (bytes : ByteArray) : Except Refusal FileSystem :=
  match fs.openFile path with
  | .ok (place, fs) => .ok (fs.put place (.file bytes))
  | .error refusal => .error refusal

/-- Makes a directory at a written path if nothing is there. -/
def makeDirectory (fs : FileSystem) (path : String) : Except Refusal FileSystem :=
  match fs.resolve true path with
  | .ok (.vacancy directory name) => .ok (fs.put (directory ++ [name]) (.directory []))
  | .ok (.entry place) => if fs.isDirectoryAt place then .ok fs else .error .notDirectory
  | .error refusal => .error refusal

/-- Makes directories step by step, from a path on. -/
def makeSteps (fs : FileSystem) (path : Path) : List String → Except Refusal FileSystem
  | [] => .ok fs
  | name :: names =>
    match fs.makeDirectory (path.child name).text with
    | .ok fs => fs.makeSteps (path.child name) names
    | .error refusal => .error refusal

/-- Makes the directories on the way to a path, and the one at its end. -/
def makeDirectories (fs : FileSystem) (path : Path) : Except Refusal FileSystem :=
  fs.makeSteps { path with names := [] } path.names

/-- Makes a symbolic link at a written path where nothing is. -/
def link (fs : FileSystem) (path target : String) : Except Refusal FileSystem :=
  match fs.resolve false path with
  | .ok (.vacancy directory name) => .ok (fs.put (directory ++ [name]) (.link target))
  | .ok (.entry _) => .error .isDirectory
  | .error refusal => .error refusal

end FileSystem

end TreeDump
