import TreeDump.CommandLine.Arguments
import TreeDump.Format
import TreeDump.Language

/-!
# Texts of the command line

The texts that the command shows about itself: how it is used, its version, the languages it
knows, and what is wrong with its arguments.
-/

namespace TreeDump

/-! ## Usage -/

def commandName : String := "astgen"

def commandVersion : String := "0.8.0"

def usageLine : String := "Usage: " ++ commandName ++ " [OPTIONS] [FILES]..."

def helpLines : List String := [
  usageLine,
  "",
  "  Generate abstract syntax trees from source code using tree-sitter.",
  "",
  "  Parses FILES (files or directories) and writes one JSON document per file.",
  "",
  "  Supported languages:",
  "    Rust, Java, C#, Go, Python, TypeScript, TSX, JavaScript, Ruby",
  "",
  "  Examples:",
  "    astgen src/main.rs",
  "    astgen ./project --exclude tests --parallel 8 -o ast.jsonl",
  "    astgen --list-languages",
  "",
  "Options:",
  "  -f, --format [json|pretty-json|yaml]",
  "                                  Output format  [default: json]",
  "  --truncate INTEGER              Truncate JSON output to N characters (preview",
  "                                  only)",
  "  -v, --verbose                   Show detailed processing information",
  "  -q, --quiet                     Suppress progress and warning messages",
  "  --parallel THREADS              Number of worker threads",
  "  --dry-run                       Show files that would be parsed without",
  "                                  parsing them",
  "  --max-file-size INTEGER         Maximum file size to process, in MB  [default:",
  "                                  10]",
  "  --follow-links                  Follow symbolic links when traversing",
  "                                  directories",
  "  --max-depth INTEGER             Maximum depth for directory traversal",
  "                                  [default: 100]",
  "  --list-languages                Display supported languages and exit",
  "  -c, --config PATH               Path to configuration file  [default:",
  "                                  ./.astgenrc or ~/.astgenrc]",
  "  --include PATTERN               Only process paths matching PATTERN",
  "                                  (repeatable)",
  "  --exclude PATTERN               Skip paths matching PATTERN (repeatable)",
  "  -o, --output PATH               Append output to FILE instead of stdout",
  "  --progress                      Always show a progress bar for directories",
  "  --strict                        Treat files with an unsupported extension as",
  "                                  errors",
  "  --summary                       Print aggregate counts to stderr when done",
  "  --version                       Show the version and exit.",
  "  -h, --help                      Show this message and exit."]

/-- Lines as a text, each with its end. -/
def unlines (lines : List String) : String := String.join (lines.map (· ++ "\n"))

def helpText : String := unlines helpLines

def versionText : String := unlines [commandName ++ ", version " ++ commandVersion]

/-! ## Faults -/

namespace UsageFault

/-- The formats in messages, each between apostrophes. -/
def formatChoices : String :=
  ", ".intercalate (OutputFormat.all.map fun format => "'" ++ format.name ++ "'")

def message : UsageFault → String
  | unknownSwitch spelling => "No such option " ++ quoted spelling ++ "."
  | missingValue spelling => "Option " ++ quoted spelling ++ " requires an argument."
  | unexpectedValue spelling => "Option " ++ quoted spelling ++ " does not take a value."
  | notWhole switch value =>
    "Invalid value for " ++ switch.spellings ++ ": " ++ quoted value ++ " is not a valid integer."
  | notFormat value =>
    "Invalid value for " ++ Switch.format.spellings ++ ": " ++ quoted value ++ " is not one of "
      ++ formatChoices ++ "."
  | noFiles => "No input files specified"
  | settings reason => reason

/-- Whether the usage is shown before a fault. -/
def showsUsage : UsageFault → Bool
  | missingValue _ | unexpectedValue _ => false
  | _ => true

def text (fault : UsageFault) : String :=
  let hint := unlines [usageLine, "Try '" ++ commandName ++ " --help' for help.", ""]
  (if fault.showsUsage then hint else "") ++ unlines ["Error: " ++ fault.message]

end UsageFault

/-! ## Languages -/

/-- A table of texts with a title. -/
structure Listing where
  title : String
  header : List String
  rows : List (List String)

namespace Listing

/-- A text with blanks up to a width. -/
def pad (width : Nat) (text : String) : String :=
  text ++ String.ofList (List.replicate (width - text.length) ' ')

/-- The widths of the columns: that of the longest text in each. -/
def widths (t : Listing) : List Nat :=
  t.rows.foldl (fun widths row => List.zipWith max widths (row.map String.length))
    (t.header.map String.length)

/-- A line between rows: a left end, dashes with a joint between columns, and a right end. -/
def rule (left dash joint right : String) (widths : List Nat) : String :=
  left ++ joint.intercalate
    (widths.map fun width => String.join (List.replicate (width + 2) dash)) ++ right

/-- A row between bars. -/
def row (bar : String) (widths : List Nat) (texts : List String) : String :=
  bar ++ bar.intercalate (List.zipWith (fun width text => " " ++ pad width text ++ " ") widths texts)
    ++ bar

def lines (t : Listing) : List String :=
  let widths := t.widths
  let top := rule "┏" "━" "┳" "┓" widths
  [pad top.length t.title, top, row "┃" widths t.header, rule "┡" "━" "╇" "┩" widths]
    ++ t.rows.map (row "│" widths) ++ [rule "└" "─" "┴" "┘" widths]

end Listing

/-- The table of the built-in languages; `version` is that of the grammars, if they are
installed. -/
def languageListing (version : Option String) : Listing where
  title := "Supported Languages"
  header := ["Language", "Extensions", "Grammar", "Grammar Pack Version"]
  rows := Language.builtin.map fun l =>
    [l.name, ", ".intercalate l.extensions, l.id, version.getD "unknown"]

end TreeDump
