import TreeDump.Files.System
import TreeDump.Settings.Field
import TreeDump.Toml.Reader

/-!
# Settings files

A settings file has up to four sections, each of which may be absent.

* `FileSettings.ofTable` fits a table to the sections, `FileSettings.load` reads a file, and
  `FileSettings.findDefault` looks for the file that is used when none is named.
-/

namespace TreeDump

structure IgnoreSettings where
  patterns : List String := []
  directories : List String := []
deriving Repr, DecidableEq

structure OutputSettings where
  format : Option OutputFormat := none
  truncate : Option Int := none
  pretty : Option Bool := none
deriving Repr, DecidableEq

structure PerformanceSettings where
  maxThreads : Option Int := none
  maxFileMegabytes : Option Int := none
  poolSize : Option Int := none
deriving Repr, DecidableEq

structure FileSettings where
  /-- Names of languages and further patterns for their extensions. -/
  patterns : List (String × List String) := []
  ignored : IgnoreSettings := {}
  output : OutputSettings := {}
  performance : PerformanceSettings := {}
deriving Repr, DecidableEq

namespace FileSettings

open Settings

def fitIgnored (fields : List (String × Value)) : Fit IgnoreSettings := do
  let patterns ← fitField fields "patterns" (fitList fitText) []
  let directories ← fitField fields "directories" (fitList fitText) []
  noneUnknown fields ["patterns", "directories"]
  return { patterns, directories }

def fitOutput (fields : List (String × Value)) : Fit OutputSettings := do
  let format ← fitOptional fields "format" fitFormat
  let truncate ← fitOptional fields "truncate" fitPositive
  let pretty ← fitOptional fields "pretty" fitFlag
  noneUnknown fields ["format", "truncate", "pretty"]
  return { format, truncate, pretty }

def fitPerformance (fields : List (String × Value)) : Fit PerformanceSettings := do
  let maxThreads ← fitOptional fields "max_threads" fitWhole
  let maxFileMegabytes ← fitOptional fields "max_file_size_mb" fitWhole
  let poolSize ← fitOptional fields "parser_pool_size" fitPositive
  noneUnknown fields ["max_threads", "max_file_size_mb", "parser_pool_size"]
  return { maxThreads, maxFileMegabytes, poolSize }

def ofTable (fields : List (String × Value)) : Fit FileSettings := do
  let patterns ← fitField fields "patterns" (fitTable (fitList fitText)) []
  let ignored ← fitField fields "ignore" (fitSection "IgnoreConfig" fitIgnored) {}
  let output ← fitField fields "output" (fitSection "OutputConfig" fitOutput) {}
  let performance ←
    fitField fields "performance" (fitSection "PerformanceConfig" fitPerformance) {}
  noneUnknown fields ["patterns", "ignore", "output", "performance"]
  return { patterns, ignored, output, performance }

/-- The error about a file that is no settings file. -/
def invalid (path : Path) (reason : String) : Raised :=
  .error (.configuration ("Invalid config file " ++ path.text ++ ": " ++ reason))

/-- What is told along with a fault in the form of a file. -/
def formHint : String := "Check the TOML syntax and ensure all fields are spelled correctly."

/-- The settings that the text of a file writes. -/
def ofText (path : Path) (text : String) : Except Raised FileSettings :=
  let document := Toml.joinLineEnds text.toList
  match Toml.parse document with
  | .error (.longNumeral digits) => .error (.longNumeral digits)
  | .error (.misplaced cause remaining) =>
    .error (invalid path (cause.textAt document remaining ++ "\n\n" ++ formHint))
  | .ok fields =>
    match ofTable fields with
    | .ok settings => .ok settings
    | .error fault => .error (invalid path fault.text)

/-- The settings that the bytes of a file hold. -/
def ofBytes (path : Path) (bytes : ByteArray) : Except Raised FileSettings :=
  match Utf8.decode bytes with
  | .ok text => ofText path text
  | .error fault => .error (.undecodable fault)

def load (fs : FileSystem) (path : Path) : Except Raised FileSettings :=
  match fs.read path.text with
  | .ok bytes => ofBytes path bytes
  | .error .nulByte => .error (.refused .nulByte path.text)
  | .error refusal =>
    .error (.error (.configuration ("Cannot read config file " ++ path.text ++ ": "
      ++ (Fault.refused refusal path.text).text)))

def defaultName : String := ".astgenrc"

/-- The places where the settings file is looked for: the working directory and then the home
directory. -/
def defaultPaths (fs : FileSystem) (home : Path) : List Path :=
  [Path.child ⟨.root, fs.working⟩ defaultName, home.child defaultName]

/-- The first of some paths that leads to a file. -/
def firstFile? (fs : FileSystem) : List Path → Except Raised (Option Path)
  | [] => .ok none
  | path :: rest =>
    match fs.isFile path.text with
    | .ok true => .ok (some path)
    | .ok false => firstFile? fs rest
    | .error refusal => .error (.refused refusal path.text)

/-- The settings file that is used when none is named. -/
def findDefault (fs : FileSystem) (home : Path) : Except Raised (Option Path) :=
  firstFile? fs (defaultPaths fs home)

/-- The settings that are used when no file is named. -/
def loadDefault (fs : FileSystem) (home : Path) : Except Raised FileSettings := do
  match ← findDefault fs home with
  | some path => load fs path
  | none => return {}

end FileSettings

end TreeDump
