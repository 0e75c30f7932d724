import TreeDump.CommandLine.Arguments
import TreeDump.Settings.Request
import TreeDump.Text.Numeral
import TreeDump.Walk.Directories

/-!
# Commands

What the arguments ask for: a text to be shown, or a run.  Switches are looked at in the order
in which they come first, but those for help and for the version before all others, and files
come last.

* `Command.ofArguments` answers the command of some arguments.
-/

namespace TreeDump

/-- Why there is nothing to be done. -/
inductive Stop where
  | usage (fault : UsageFault)
  | raised (r : Raised)

structure RunCommand where
  request : Request := { maxDepth := some defaultMaxDepth }
  config : Option Path := none
  /-- Whether the counts are told at the end. -/
  summary : Bool := false
  /-- Whether the languages are listed and nothing is run. -/
  listLanguages : Bool := false
deriving Repr, DecidableEq

inductive Command where
  | showHelp
  | showVersion
  | listLanguages
  | run (command : RunCommand)
deriving Repr, DecidableEq

namespace RunCommand

def readWhole (switch : Switch) (value : String) : Except Stop Int :=
  match Numeral.read? value with
  | some n => .ok n
  | none => .error (.usage (.notWhole switch value))

def readFormat (value : String) : Except Stop OutputFormat :=
  match OutputFormat.ofName? value with
  | some format => .ok format
  | none => .error (.usage (.notFormat value))

/-- A path, which has to be one that can be asked for. -/
def readPath (value : String) : Except Stop Path :=
  if value.contains '\x00' then .error (.raised (.refused .nulByte value))
  else .ok (Path.ofString value)

/-- A run with a switch that was given with some values: the last one counts, or all if the
switch collects them. -/
def set (command : RunCommand) (switch : Switch) (values : List String) :
    Except Stop RunCommand := do
  let value := values.getLastD ""
  let request := command.request
  match switch with
  | .format => return { command with request.format := some (← readFormat value) }
  | .truncate => return { command with request.truncate := some (← readWhole switch value) }
  | .verbose => return { command with request.verbose := true }
  | .quiet => return { command with request.quiet := true }
  | .parallel => return { command with request.threads := some (← readWhole switch value) }
  | .dryRun => return { command with request.dryRun := true }
  | .maxFileSize =>
    return { command with request.maxFileMegabytes := some (← readWhole switch value) }
  | .followLinks => return { command with request.followLinks := true }
  | .maxDepth => return { command with request.maxDepth := some (← readWhole switch value) }
  | .listLanguages => return { command with listLanguages := true }
  | .config => return { command with config := some (← readPath value) }
  | .included => return { command with request := { request with included := values } }
  | .excluded => return { command with request := { request with excluded := values } }
  | .output => return { command with request.output := some (← readPath value) }
  | .progress => return { command with request.progress := true }
  | .strict => return { command with request.strict := true }
  | .summary => return { command with summary := true }
  | .version | .help => return command

def setAll (arguments : Arguments) (command : RunCommand) :
    List Switch → Except Stop RunCommand
  | [] => .ok command
  | switch :: rest => do
    let command ← command.set switch (arguments.values switch)
    setAll arguments command rest

def ofArguments (arguments : Arguments) : Except Stop RunCommand := do
  let command ← setAll arguments {} arguments.given
  let files ← arguments.files.mapM readPath
  return { command with request.files := files }

end RunCommand

namespace Command

def ofSorted (arguments : Arguments) : Except Stop Command :=
  match arguments.given.find? Switch.isEager with
  | some .version => .ok .showVersion
  | some _ => .ok .showHelp
  | none => do
    let command ← RunCommand.ofArguments arguments
    return if command.listLanguages then .listLanguages else .run command

def ofArguments (arguments : List String) : Except Stop Command :=
  match Arguments.read arguments with
  | .ok arguments => ofSorted arguments
  | .error fault => .error (.usage fault)

end Command

end TreeDump
