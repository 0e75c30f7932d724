/-!
# Switches of the command line

The switches that the command knows, with their spellings.
-/

namespace TreeDump

inductive Switch where
  | format
  | truncate
  | verbose
  | quiet
  | parallel
  | dryRun
  | maxFileSize
  | followLinks
  | maxDepth
  | listLanguages
  | config
  | included
  | excluded
  | output
  | progress
  | strict
  | summary
  | version
  | help
deriving Repr, DecidableEq

namespace Switch

def all : List Switch := [format, truncate, verbose, quiet, parallel, dryRun, maxFileSize,
  followLinks, maxDepth, listLanguages, config, included, excluded, output, progress, strict,
  summary, version, help]

def long : Switch → String
  | format => "--format"
  | truncate => "--truncate"
  | verbose => "--verbose"
  | quiet => "--quiet"
  | parallel => "--parallel"
  | dryRun => "--dry-run"
  | maxFileSize => "--max-file-size"
  | followLinks => "--follow-links"
  | maxDepth => "--max-depth"
  | listLanguages => "--list-languages"
  | config => "--config"
  | included => "--include"
  | excluded => "--exclude"
  | output => "--output"
  | progress => "--progress"
  | strict => "--strict"
  | summary => "--summary"
  | version => "--version"
  | help => "--help"

/-- The letter of the short spelling of a switch. -/
def letter? : Switch → Option Char
  | format => some 'f'
  | verbose => some 'v'
  | quiet => some 'q'
  | config => some 'c'
  | output => some 'o'
  | help => some 'h'
  | _ => none

def takesValue : Switch → Bool
  | format | truncate | parallel | maxFileSize | maxDepth | config | included | excluded
  | output => true
  | _ => false

/-- Whether a switch acts before all others. -/
def isEager : Switch → Bool
  | version | help => true
  | _ => false

def spellings (s : Switch) : String :=
  match s.letter? with
  | some letter => "'-" ++ letter.toString ++ "' / '" ++ s.long ++ "'"
  | none => "'" ++ s.long ++ "'"

def ofLong? (name : String) : Option Switch := all.find? (·.long == name)

def ofLetter? (letter : Char) : Option Switch := all.find? (·.letter? == some letter)

end Switch

end TreeDump
