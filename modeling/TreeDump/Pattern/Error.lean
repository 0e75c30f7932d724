import TreeDump.Text.Numeral
import TreeDump.Text.Quoted

/-!
# Faults of patterns

Why a written pattern is none, and where.

* `PatternFault.text` is the wording, with the position in the pattern if there is one.
-/

namespace TreeDump

namespace Pattern

/-- What is wrong with a pattern. -/
inductive Cause where
  | escapeAtEnd
  | badEscape (written : String)
  | incompleteEscape (written : String)
  | octalRange (written : String)
  | missingBrace
  | unknownCharacter (name : String)
  | openGroup
  | sameLookbehind
  | noSuchGroup (number : Int)
  | badGroupNumber
  | unknownGroup (name : String)
  | badGroupName (name : String)
  | groupNameTwice (name : String) (number first : Nat)
  | missing (what : String)
  | unterminatedName (stop : Char)
  | unterminatedSet
  | badRange (low high : String)
  | nothingToRepeat
  | multipleRepeat
  | emptyRange
  | missingParenthesis
  | unterminatedComment
  | unbalanced
  | unexpectedEnd
  | unknownExtension (written : String)
  | tooManyBranches
  | flagsNotAtStart
  | localeFlag
  | incompatibleFlags
  | unknownFlag
  | globalFlagOn
  | globalFlagOff
  | typeFlagOff
  | flagOnAndOff
  | varyingLookbehind
  | farLookbehind
  /-- A repetition where a flag admits none; `operator` is the name of its kind. -/
  | repeatInTemplate (operator : String)
deriving Repr, DecidableEq

def Cause.text : Cause → String
  | escapeAtEnd => "bad escape (end of pattern)"
  | badEscape written => "bad escape " ++ written
  | incompleteEscape written => "incomplete escape " ++ written
  | octalRange written => "octal escape value " ++ written ++ " outside of range 0-0o377"
  | missingBrace => "missing \x7b"
  | unknownCharacter name => "undefined character name " ++ quoted name
  | openGroup => "cannot refer to an open group"
  | sameLookbehind => "cannot refer to group defined in the same lookbehind subpattern"
  | noSuchGroup number => "invalid group reference " ++ toString number
  | badGroupNumber => "bad group number"
  | unknownGroup name => "unknown group name " ++ quoted name
  | badGroupName name => "bad character in group name " ++ quoted name
  | groupNameTwice name number first =>
    "redefinition of group name " ++ quoted name ++ " as group " ++ toString number
      ++ "; was group " ++ toString first
  | missing what => "missing " ++ what
  | unterminatedName stop => "missing " ++ stop.toString ++ ", unterminated name"
  | unterminatedSet => "unterminated character set"
  | badRange low high => "bad character range " ++ low ++ "-" ++ high
  | nothingToRepeat => "nothing to repeat"
  | multipleRepeat => "multiple repeat"
  | emptyRange => "min repeat greater than max repeat"
  | missingParenthesis => "missing ), unterminated subpattern"
  | unterminatedComment => "missing ), unterminated comment"
  | unbalanced => "unbalanced parenthesis"
  | unexpectedEnd => "unexpected end of pattern"
  | unknownExtension written => "unknown extension ?" ++ written
  | tooManyBranches => "conditional backref with more than two branches"
  | flagsNotAtStart => "global flags not at the start of the expression"
  | localeFlag => "bad inline flags: cannot use 'L' flag with a str pattern"
  | incompatibleFlags => "bad inline flags: flags 'a', 'u' and 'L' are incompatible"
  | unknownFlag => "unknown flag"
  | globalFlagOn => "bad inline flags: cannot turn on global flag"
  | globalFlagOff => "bad inline flags: cannot turn off global flag"
  | typeFlagOff => "bad inline flags: cannot turn off flags 'a', 'u' and 'L'"
  | flagOnAndOff => "bad inline flags: flag turned on and off"
  | varyingLookbehind => "look-behind requires fixed-width pattern"
  | farLookbehind => "looks too much behind"
  | repeatInTemplate operator => "internal: unsupported template operator " ++ operator

end Pattern

/-- Why a text is no pattern. -/
inductive PatternFault where
  /-- Something is wrong at a position of the text. -/
  | at (cause : Pattern.Cause) (position : Nat) (pattern : String)
  /-- Something is wrong with the pattern as a whole. -/
  | overall (cause : Pattern.Cause)
  /-- A number of repetitions is out of reach. -/
  | hugeRepeat
  /-- A number of repetitions has more digits than are read. -/
  | longRepeat (digits : Nat)
  /-- The flags of the whole pattern exclude each other. -/
  | conflictingFlags
deriving Repr, DecidableEq

namespace PatternFault

/-- Line and column of a position, both from one; the column counts from the last line feed
before the position. -/
def lineColumn (position : Nat) (pattern : List Char) : Nat × Nat :=
  let before := pattern.take position
  (before.count '\n' + 1, (before.reverse.takeWhile (· != '\n')).length + 1)

/-- The wording of a fault.  In a pattern of several lines the position is given twice. -/
def text : PatternFault → String
  | .at cause position pattern =>
    let cs := pattern.toList
    let place := cause.text ++ " at position " ++ toString position
    if cs.contains '\n' then
      let (line, column) := lineColumn position cs
      place ++ " (line " ++ toString line ++ ", column " ++ toString column ++ ")"
    else place
  | overall cause => cause.text
  | hugeRepeat => "the repetition number is too large"
  | longRepeat digits => Numeral.tooLong digits
  | conflictingFlags => "ASCII and UNICODE flags are incompatible"

end PatternFault

end TreeDump
