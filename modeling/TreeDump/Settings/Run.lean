import TreeDump.Language
import TreeDump.Run.Batch
import TreeDump.Run.Process
import TreeDump.Settings.File
import TreeDump.Settings.Request
import TreeDump.Walk.Directories

/-!
# Settings of a run

The settings of a run come from three layers: the request, the settings file and the defaults.
An earlier layer has precedence over a later one, except that patterns and directories to leave
out add up.

* `RunSettings.merge` puts the layers together and `RunSettings.check` rules out what is out of
  range; `RunSettings.resolve` does both.
* `RunSettings.walkOptions`, `processOptions` and `registry` are what a run needs of them.
-/

namespace TreeDump

structure RunSettings where
  files : List Path := []
  format : OutputFormat := .json
  truncate : Option Int := none
  verbose : Bool := false
  quiet : Bool := false
  threads : Option Int := none
  dryRun : Bool := false
  maxFileMegabytes : Int := defaultMaxFileMegabytes
  followLinks : Bool := false
  maxDepth : Int := defaultMaxDepth
  included : List String := []
  excluded : List String := []
  output : Option Path := none
  progress : Bool := false
  strict : Bool := false
  ignoredDirectories : List String := defaultIgnoredDirectories
  poolSize : Int := defaultPoolCapacity
  /-- Names of languages and further patterns for their extensions. -/
  patterns : List (String × List String) := []
deriving Repr, DecidableEq

namespace RunSettings

/-! ## Layers -/

/-- The format: the one asked for, the one of the file, or the one the file hints at. -/
def mergeFormat (file : OutputSettings) (asked : Option OutputFormat) : OutputFormat :=
  match asked, file.format with
  | some format, _ => format
  | none, some format => format
  | none, none => if file.pretty = some true then .prettyJson else .json

/-- The layers put together. -/
def merge (file : FileSettings) (request : Request) : RunSettings where
  files := request.files
  format := mergeFormat file.output request.format
  truncate := request.truncate <|> file.output.truncate
  verbose := request.verbose
  quiet := request.quiet
  threads := request.threads <|> file.performance.maxThreads
  dryRun := request.dryRun
  maxFileMegabytes :=
    (request.maxFileMegabytes <|> file.performance.maxFileMegabytes).getD defaultMaxFileMegabytes
  followLinks := request.followLinks
  maxDepth := request.maxDepth.getD defaultMaxDepth
  included := request.included
  excluded := request.excluded ++ file.ignored.patterns
  output := request.output
  progress := request.progress
  strict := request.strict
  ignoredDirectories := (defaultIgnoredDirectories ++ file.ignored.directories).eraseDups
  poolSize := (request.poolSize <|> file.performance.poolSize).getD defaultPoolCapacity
  patterns := file.patterns

/-! ## Ranges -/

/-- The largest limit for the size of files, in megabytes. -/
def maxFileMegabytesLimit : Int := 1000

inductive Fault where
  | noThread
  | manyThreads
  | noMegabyte
  | manyMegabytes
  | noDepth
  | noTruncation
  | noPool
  | verboseAndQuiet
  | missingDirectory (path : Path)
  | emptyIncluded
  | emptyExcluded
deriving Repr, DecidableEq

def Fault.text : Fault → String
  | noThread => "Thread count must be at least 1. Try using --parallel 1 "
      ++ "or omit the flag to use the default."
  | manyThreads => "Thread count cannot exceed " ++ toString maxThreads
      ++ ". Try using a smaller number like --parallel 8."
  | noMegabyte => "Max file size must be at least 1 MB. Try using --max-file-size 1."
  | manyMegabytes => "Max file size cannot exceed " ++ toString maxFileMegabytesLimit
      ++ " MB. Try using a smaller limit like --max-file-size 100."
  | noDepth => "Max depth must be at least 1. Try using --max-depth 1 "
      ++ "or omit the flag to use the default."
  | noTruncation => "Truncate length must be at least 1."
  | noPool => "Parser pool size must be at least 1."
  | verboseAndQuiet =>
    "Cannot use both --verbose and --quiet flags together. Choose one or neither."
  | missingDirectory path => "Output directory does not exist: " ++ path.text
      ++ ". Create the directory first."
  | emptyIncluded => "Include pattern cannot be empty. Use a valid pattern like '*.rs'."
  | emptyExcluded => "Exclude pattern cannot be empty. Use a valid pattern like 'target/*'."

def rangeFault? (s : RunSettings) : Option Fault :=
  if s.threads.any (· < 1) then some .noThread
  else if s.threads.any (maxThreads < ·) then some .manyThreads
  else if s.maxFileMegabytes < 1 then some .noMegabyte
  else if maxFileMegabytesLimit < s.maxFileMegabytes then some .manyMegabytes
  else if s.maxDepth < 1 then some .noDepth
  else if s.truncate.any (· < 1) then some .noTruncation
  else if s.poolSize < 1 then some .noPool
  else if s.verbose && s.quiet then some .verboseAndQuiet
  else none

/-- Whether the directory of the output is missing.  Only refusals that mean something else than
absence are passed on. -/
def outputFault? (fs : FileSystem) (s : RunSettings) : Except Raised (Option Fault) :=
  match s.output with
  | none => .ok none
  | some path =>
    match fs.isPresent path.parent.text with
    | .ok true => .ok none
    | .ok false => .ok (some (.missingDirectory path.parent))
    | .error refusal => .error (.refused refusal path.parent.text)

def patternFault? (s : RunSettings) : Option Fault :=
  if s.included.contains "" then some .emptyIncluded
  else if s.excluded.contains "" then some .emptyExcluded
  else none

def fault? (fs : FileSystem) (s : RunSettings) : Except Raised (Option Fault) :=
  match s.rangeFault? with
  | some fault => .ok (some fault)
  | none =>
    match s.outputFault? fs with
    | .ok none => .ok s.patternFault?
    | result => result

def check (fs : FileSystem) (s : RunSettings) : Except Raised RunSettings :=
  match s.fault? fs with
  | .ok none => .ok s
  | .ok (some fault) => .error (.error (.configuration fault.text))
  | .error raised => .error raised

/-- The settings of a run, if they can be used. -/
def resolve (fs : FileSystem) (file : FileSettings) (request : Request) :
    Except Raised RunSettings :=
  (merge file request).check fs

/-! ## What a run needs -/

def walkOptions (s : RunSettings) : WalkOptions where
  followLinks := s.followLinks
  maxDepth := s.maxDepth
  filter := ⟨s.included, s.excluded⟩
  ignoredDirectories := s.ignoredDirectories

def processOptions (s : RunSettings) : ProcessOptions where
  maxBytes := megabytes s.maxFileMegabytes
  truncate := s.truncate
  dryRun := s.dryRun
  strict := s.strict
  format := s.format

/-- The error about a further pattern; what is no fault of the pattern as such stays what it
is. -/
def invalidPattern (language pattern : String) (fault : PatternFault) : Raised :=
  match fault with
  | .hugeRepeat | .longRepeat _ | .conflictingFlags => .pattern fault
  | _ => .error (.configuration ("Invalid pattern for " ++ language ++ ": '" ++ pattern ++ "' ("
      ++ fault.text ++ ")"))

/-- A registry with further patterns for the language of a binding, which the settings call
`language`. -/
def addPatterns (language : String) (binding : Binding) (r : Registry) :
    List String → Except Raised Registry
  | [] => .ok r
  | pattern :: rest =>
    match r.register pattern binding.languageId binding.name false with
    | .ok r => addPatterns language binding r rest
    | .error fault => .error (invalidPattern language pattern fault)

/-- A registry with further patterns for languages that it knows. -/
def addLanguages (r : Registry) : List (String × List String) → Except Raised Registry
  | [] => .ok r
  | (language, patterns) :: rest =>
    match r.findByName language with
    | none =>
      .error (.error (.configuration ("Unknown language in [patterns]: '" ++ language ++ "'")))
    | some binding => do
      let r ← addPatterns language binding r patterns
      addLanguages r rest

/-- The built-in languages and the further patterns. -/
def registry (s : RunSettings) : Except Raised Registry := addLanguages .default s.patterns

end RunSettings

end TreeDump
