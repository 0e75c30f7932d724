import TreeDump.CommandLine.Perform

/-!
# The command

The command takes a copy of the directories that its arguments name, performs what they ask for
on the copy, and writes out what came of it.  No grammar is built in, so a run can tell which
files it would parse, but it parses none.
-/

namespace TreeDump

structure Snapshot where
  files : FileSystem
  /-- Real paths that are copied already. -/
  copied : List String := []
  /-- Real paths that links in the copy lead to. -/
  pending : List String := []

/-- The real path that a path leads to, if it leads to anything. -/
def realPath? (path : String) : IO (Option String) :=
  try return some (← IO.FS.realPath path).toString
  catch _ => return none

/-- Copies what stands under a name of a directory. -/
partial def copyEntry (entry : IO.FS.DirEntry) (pending : List String) :
    IO (Entry × List String) := do
  match (← entry.path.symlinkMetadata).type with
  | .dir =>
    let mut entries := []
    let mut pending := pending
    for child in ← entry.path.readDir do
      let (copy, more) ← copyEntry child pending
      entries := (child.fileName, copy) :: entries
      pending := more
    return (.directory entries.reverse, pending)
  | .symlink =>
    match ← realPath? entry.path.toString with
    | some target => return (.link target, target :: pending)
    | none => return (.link (entry.path.toString ++ ".gone"), pending)
  | .file => return (.file (← IO.FS.readBinFile entry.path), pending)
  | .other => return (.file .empty, pending)

/-- A file system with an entry put where a written path leads, and directories on the way. -/
def placeEntry (fs : FileSystem) (path : Path) (entry : Entry) : FileSystem :=
  let fs := (fs.makeDirectories path.parent).toOption.getD fs
  match fs.resolve true path.text with
  | .ok (.vacancy directory name) => fs.put (directory ++ [name]) entry
  | .ok (.entry place) => fs.put place entry
  | .error _ => fs

/-- Adds what a written path leads to, and all below it, to a copy. -/
def Snapshot.add (s : Snapshot) (path : String) : IO Snapshot := do
  match ← realPath? path with
  | none => return s
  | some real =>
    if s.copied.contains real then return s
    let p := Path.ofString real
    let (entry, pending) ← copyEntry ⟨p.parent.text, p.name⟩ s.pending
    let files := placeEntry s.files (Path.ofString path) entry
    return { files, copied := real :: s.copied, pending }

/-- Adds what links lead to, as long as there is more of it. -/
partial def Snapshot.addPending (s : Snapshot) : IO Snapshot := do
  match s.pending with
  | [] => return s
  | path :: pending => addPending (← Snapshot.add { s with pending } path)

/-- Adds the directory of a path to a copy, without what is in it. -/
def Snapshot.addParent (s : Snapshot) (path : Path) : IO Snapshot := do
  match ← realPath? path.parent.text with
  | none => return s
  | some _ => return { s with files := (s.files.makeDirectories path.parent).toOption.getD s.files }

def RunCommand.paths (command : RunCommand) (working home : Path) : List String :=
  (command.request.files ++ command.config.toList ++ command.request.output.toList
    ++ [working.child FileSettings.defaultName, home.child FileSettings.defaultName]).map Path.text

/-- A copy of all that a run looks at. -/
def RunCommand.copyFiles (command : RunCommand) (working home : Path) : IO FileSystem := do
  let empty : FileSystem := { working := working.names }
  let mut snapshot : Snapshot := { files := (empty.makeDirectories working).toOption.getD empty }
  for path in command.paths working home do
    snapshot ← (← snapshot.add path).addPending
  for path in command.request.output.toList do
    snapshot ← snapshot.addParent path
  return snapshot.files

/-- Writes what a run added to its output file. -/
def RunCommand.writeOutput (command : RunCommand) (before after : FileSystem) : IO Unit := do
  match command.request.output with
  | none => return
  | some path =>
    match after.read path.text with
    | .error _ => return
    | .ok bytes =>
      let size := match before.read path.text with
        | .ok old => old.size
        | .error _ => 0
      let handle ← IO.FS.Handle.mk path.text .append
      handle.write (bytes.extract size bytes.size)

/-- A number of milliseconds in seconds, with two places. -/
def durationText (milliseconds : Nat) : String :=
  let hundredths := milliseconds / 10
  let places := hundredths % 100
  toString (hundredths / 100) ++ "." ++ (if places < 10 then "0" else "") ++ toString places ++ "s"

def noGrammars : GrammarSource := fun language =>
  .error (.foreign "LookupError" ("Could not find language library for " ++ language))

/-- Performs a command on the files of the machine. -/
def performHere (arguments : List String) : IO UInt32 := do
  let begun ← IO.monoMsNow
  let working := Path.ofString (← IO.currentDir).toString
  let home := Path.ofString ((← IO.getEnv "HOME").getD "/")
  let run := match Command.ofArguments arguments with
    | .ok (.run command) => some command
    | _ => none
  let files ← match run with
    | some command => command.copyFiles working home
    | none => pure {}
  let p := perform { files, home, grammars := noGrammars } arguments
  match run with
  | some command => command.writeOutput files p.session.outlets.files
  | none => pure ()
  let output ← IO.getStdout
  output.putStr p.standardOutput
  output.flush
  let duration := durationText ((← IO.monoMsNow) - begun)
  let errors ← IO.getStderr
  errors.putStr (p.standardError duration)
  match p.ending with
  | .escaped raised => errors.putStr (unlines [raised.description])
  | _ => pure ()
  return UInt32.ofNat p.ending.status

end TreeDump

def main (arguments : List String) : IO UInt32 := TreeDump.performHere arguments
