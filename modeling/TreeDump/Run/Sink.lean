import TreeDump.Error
import TreeDump.Files.System

/-!
# Sinks

A sink takes records one after the other and writes each of them as a line: to a file, to a stream
that it was given, or to standard output.

* `Sink.open` settles where the records go, `Sink.write` writes one and `Sink.close` lets go of
  the destination.  Writing to a sink that is not open opens it.
-/

namespace TreeDump

/-- All that sinks can write to. -/
structure Outlets where
  files : FileSystem := {}
  printed : String := ""
  /-- What was written to streams that sinks were given. -/
  streams : List String := []
deriving Inhabited

/-- Where the records of an open sink go. -/
inductive Destination where
  | standardOutput
  | stream (number : Nat)
  /-- To the end of the file at a place. -/
  | file (place : Place)
deriving Repr, DecidableEq

structure Sink where
  /-- The file that opening turns to; without one it is standard output. -/
  path : Option Path := none
  destination : Option Destination := none
  written : Nat := 0
deriving Repr, DecidableEq

/-- Adds a text at the end of what was written to a destination. -/
def Outlets.add (outlets : Outlets) (text : String) : Destination → Outlets
  | .standardOutput => { outlets with printed := outlets.printed ++ text }
  | .stream number =>
    { outlets with streams := outlets.streams.modify number (· ++ text) }
  | .file place => { outlets with files := outlets.files.append place text.toUTF8 }

namespace Sink

/-- Opens a sink that is not open.  A file that does not exist is made. -/
def open? (sink : Sink) (outlets : Outlets) : Except Raised (Sink × Outlets) :=
  match sink.destination, sink.path with
  | some _, _ => .ok (sink, outlets)
  | none, none => .ok ({ sink with destination := some .standardOutput }, outlets)
  | none, some path =>
    match outlets.files.openFile path.text with
    | .ok (place, files) =>
      .ok ({ sink with destination := some (.file place) }, { outlets with files })
    | .error refusal => .error (.refused refusal path.text)

/-- Writes a record and the end of its line. -/
def write? (sink : Sink) (record : String) (outlets : Outlets) :
    Except Raised (Sink × Outlets) :=
  match sink.open? outlets with
  | .error raised => .error raised
  | .ok (sink, outlets) =>
    .ok ({ sink with written := sink.written + 1 },
      match sink.destination with
      | some destination => outlets.add (record ++ "\n") destination
      | none => outlets)

def close (sink : Sink) : Sink := { sink with destination := none }

end Sink

end TreeDump
