import TreeDump.CommandLine.Switch
import TreeDump.Text.Quoted

/-!
# Arguments of the command line

Arguments that begin with a dash are switches, and all others are files.  A value is joined to a
long switch by an equals sign and to a short one directly, or it is the next argument, whatever
that looks like.  Short switches without a value may share a dash.  After two dashes alone there
are files only.

* `Arguments.read` sorts arguments into switches and files.
-/

namespace TreeDump

/-- What is wrong with the arguments, or with what they ask for. -/
inductive UsageFault where
  | unknownSwitch (spelling : String)
  | missingValue (spelling : String)
  | unexpectedValue (spelling : String)
  | notWhole (switch : Switch) (value : String)
  | notFormat (value : String)
  | noFiles
  /-- The settings cannot be used. -/
  | settings (reason : String)
deriving Repr, DecidableEq

/-- Switches with their values, and files. -/
structure Arguments where
  /-- The switches in the order of the arguments; a switch that takes no value has an empty
  one. -/
  switches : List (Switch × String) := []
  files : List String := []
deriving Repr, DecidableEq

namespace Arguments

/-- What one argument gives: switches, and perhaps one whose value is the next argument. -/
structure Given where
  switches : List (Switch × String)
  awaiting : Option (Switch × String)

/-- A switch with a long spelling, and a value if one is joined to it. -/
def readLong (switch : Switch) (spelling : String) (joined : Option String) :
    Except UsageFault Given :=
  match switch.takesValue, joined with
  | true, some value => .ok ⟨[(switch, value)], none⟩
  | true, none => .ok ⟨[], some (switch, spelling)⟩
  | false, some _ => .error (.unexpectedValue spelling)
  | false, none => .ok ⟨[(switch, "")], none⟩

/-- Short switches that share a dash. -/
def readLetters : List Char → Except UsageFault Given
  | [] => .ok ⟨[], none⟩
  | letter :: rest =>
    let spelling := "-" ++ letter.toString
    match Switch.ofLetter? letter with
    | none => .error (.unknownSwitch spelling)
    | some switch =>
      if switch.takesValue then
        if rest.isEmpty then .ok ⟨[], some (switch, spelling)⟩
        else .ok ⟨[(switch, String.ofList rest)], none⟩
      else (readLetters rest).map fun given =>
        { given with switches := (switch, "") :: given.switches }

/-- An argument cut at its first equals sign. -/
def cutValue (argument : List Char) : String × Option String :=
  match argument.span (· != '=') with
  | (name, _ :: value) => (String.ofList name, some (String.ofList value))
  | (name, []) => (String.ofList name, none)

/-- An argument that begins with a dash. -/
def readSwitch (argument : List Char) : Except UsageFault Given :=
  let (name, joined) := cutValue argument
  match Switch.ofLong? name with
  | some switch => readLong switch name joined
  | none =>
    match argument with
    | '-' :: '-' :: _ => .error (.unknownSwitch name)
    | _ => readLetters argument.tail

/-- Whether an argument is a switch: a dash with something after it. -/
def isSwitch : List Char → Bool
  | '-' :: _ :: _ => true
  | _ => false

/-- Sorts arguments after those sorted already; `awaiting` is a switch whose value is next. -/
def sort (sorted : Arguments) (awaiting : Option (Switch × String)) :
    List String → Except UsageFault Arguments
  | [] =>
    match awaiting with
    | some (_, spelling) => .error (.missingValue spelling)
    | none => .ok sorted
  | argument :: rest =>
    match awaiting with
    | some (switch, _) =>
      sort { sorted with switches := sorted.switches ++ [(switch, argument)] } none rest
    | none =>
      if argument == "--" then .ok { sorted with files := sorted.files ++ rest }
      else if isSwitch argument.toList then
        match readSwitch argument.toList with
        | .ok given =>
          sort { sorted with switches := sorted.switches ++ given.switches } given.awaiting rest
        | .error fault => .error fault
      else sort { sorted with files := sorted.files ++ [argument] } none rest

def read (arguments : List String) : Except UsageFault Arguments := sort {} none arguments

/-- The values of a switch, the first one given first. -/
def values (a : Arguments) (switch : Switch) : List String :=
  (a.switches.filter (·.1 == switch)).map (·.2)

/-- The switches that are given, each once, in the order in which they come first. -/
def given (a : Arguments) : List Switch := (a.switches.map (·.1)).eraseDups

end Arguments

end TreeDump
