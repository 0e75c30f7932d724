import TreeDump.Error
import TreeDump.Files.Path
import TreeDump.Pattern.Match
import TreeDump.Pattern.Reader
import TreeDump.Text.Lines

/-!
# Rules of ignore files

Each line of an ignore file that is neither blank nor a comment is a rule for paths below the
directory of the file.  A rule is turned into a pattern; a group of the pattern, the directory
mark, takes the slash after the part of a path that the rule names as a directory.

* `IgnoreRule.ofLine?` reads a line, and `IgnoreRule.ofLines` the lines that count.
* `decide?` is what rules say about a path: that it is ignored, that it is not, or nothing.
* `RuleLanguage` is what a walk needs of rules, and `RuleLanguage.gitignore` are those of here.
-/

namespace TreeDump

/-- A rule: the paths it is about, and whether it ignores them or takes them back. -/
structure IgnoreRule where
  pattern : Pattern
  ignores : Bool
deriving Repr, DecidableEq

namespace IgnoreRule

/-! ## Segments of a rule -/

/-- The pattern text of the slash that is the directory mark. -/
def markText : String := "(?P<ps_d>/)"

/-- The number of the group that is the directory mark. -/
def markGroup : Nat := 1

/-- A sign of negation at the start of a bracket expression, and what follows. -/
def bracketSign : List Char → List Char × List Char
  | c :: rest => if c == '!' || c == '^' then ([c], rest) else ([], c :: rest)
  | [] => ([], [])

/-- A closing bracket that is the first character of a bracket expression, and what follows. -/
def bracketFirst : List Char → List Char × List Char
  | ']' :: rest => ([']'], rest)
  | cs => ([], cs)

/-- The characters of a bracket expression, up to its closing bracket, and the rest after it.  A
closing bracket right at the start, or after a sign of negation, is one of the characters. -/
def bracket? (cs : List Char) : Option (List Char × List Char) :=
  let (sign, cs) := bracketSign cs
  let (first, cs) := bracketFirst cs
  match cs.dropWhile (· != ']') with
  | _ :: rest => some (sign ++ first ++ cs.takeWhile (· != ']'), rest)
  | [] => none

theorem bracketSign_length (cs : List Char) : (bracketSign cs).2.length ≤ cs.length := by
  unfold bracketSign
  split
  · split <;> simp
  · simp

theorem bracketFirst_length (cs : List Char) : (bracketFirst cs).2.length ≤ cs.length := by
  unfold bracketFirst
  split <;> simp

/-- Reading a bracket expression takes characters. -/
theorem bracket?_length {cs body rest : List Char} (h : bracket? cs = some (body, rest)) :
    rest.length < cs.length := by
  simp only [bracket?] at h
  split at h
  · rename_i c after hdrop
    obtain ⟨-, rfl⟩ := Prod.mk.inj (Option.some.inj h)
    have hle := (List.dropWhile_sublist (l := (bracketFirst (bracketSign cs).2).2)
      (· != ']')).length_le
    rw [hdrop, List.length_cons] at hle
    have h1 := bracketFirst_length (bracketSign cs).2
    have h2 := bracketSign_length cs
    omega
  · cases h

/-- The pattern text of a bracket expression: either sign negates, and a backslash is a character
like others. -/
def bracketText (body : List Char) : List Char :=
  let double := fun cs : List Char => cs.flatMap fun c => if c == '\\' then ['\\', '\\'] else [c]
  match body with
  | c :: rest =>
    if c == '!' || c == '^' then '[' :: '^' :: double rest ++ [']'] else '[' :: double body ++ [']']
  | [] => ['[', ']']

def literalText (c : Char) : List Char :=
  if "()[]\x7b\x7d?*+-|^$\\.&~# \t\n\r\x0b\x0c".toList.contains c then ['\\', c] else [c]

inductive SegmentFault where
  /-- A bracket is never closed, so that the whole rule counts for nothing. -/
  | openBracket
  /-- A backslash at the end quotes nothing. -/
  | trailingBackslash

/-- The pattern text of a segment, after the text `done`. -/
def segmentText (done : List Char) (cs : List Char) : Except SegmentFault (List Char) :=
  match cs with
  | [] => .ok done
  | ['\\'] => .error .trailingBackslash
  | '\\' :: c :: rest => segmentText (done ++ literalText c) rest
  | '*' :: rest => segmentText (done ++ "[^/]*".toList) rest
  | '?' :: rest => segmentText (done ++ "[^/]".toList) rest
  | '[' :: rest =>
    match h : bracket? rest with
    | some (body, after) =>
      have := bracket?_length h
      segmentText (done ++ bracketText body) after
    | none => .error .openBracket
  | c :: rest => segmentText (done ++ literalText c) rest
termination_by cs.length

/-! ## Whole rules -/

def anyDirectories : List Char := ['*', '*']

/-- Neighbouring segments for any directories, taken together. -/
def collapse : List (List Char) → List (List Char)
  | a :: b :: rest =>
    if a == anyDirectories && b == anyDirectories then collapse (b :: rest)
    else a :: collapse (b :: rest)
  | segments => segments

/-- The segments of a rule and whether it is for directories only; nothing if no segment is
left.  A rule with a slash inside starts at the directory of its file, any other rule anywhere
below. -/
def segments? (rule : List Char) : Option (List (List Char) × Bool) :=
  let parts := splitSlashes [] rule
  let directoryOnly := parts.getLast?.any List.isEmpty
  let parts := match parts with
    | [] :: rest => rest
    | [a] => if a == anyDirectories then [a] else [anyDirectories, a]
    | [a, []] => if a == anyDirectories then [a, []] else [anyDirectories, a, []]
    | parts => parts
  match parts.getLast? with
  | none => none
  | some last =>
    let parts := if last.isEmpty then parts.dropLast ++ [anyDirectories] else parts
    some (collapse parts, directoryOnly)

/-- The pattern text of the segments from one on.  `first` tells whether it is the first one, and
`slash` whether a slash has to come before it. -/
def tailText (directoryOnly : Bool) (first slash : Bool) :
    List (List Char) → Except SegmentFault (List Char)
  | [] => .ok []
  | segment :: rest =>
    if segment == anyDirectories then
      if rest.isEmpty then .ok (if directoryOnly then markText.toList else ['/'])
      else do
        let tail ← tailText directoryOnly false (!first) rest
        return (if first then "^(?:.+/)?" else "(?:/.+)?").toList ++ tail
    else do
      let text ← if segment == ['*'] then pure "[^/]+".toList
        else segmentText [] segment
      let stop := if rest.isEmpty then ("(?:" ++ markText ++ "|$)").toList else []
      let tail ← tailText directoryOnly false true rest
      return (if first then ['^'] else []) ++ (if slash then ['/'] else []) ++ text ++ stop ++ tail

/-- The pattern text of a rule's segments. -/
def patternText (segments : List (List Char)) (directoryOnly : Bool) :
    Except SegmentFault (List Char) :=
  if segments == [anyDirectories] then
    .ok (if directoryOnly then markText.toList else ['.'])
  else if segments == [anyDirectories, ['*']] then .ok ['.']
  else if segments == [anyDirectories, ['*'], anyDirectories] then
    .ok (if directoryOnly then markText.toList else ['/'])
  else tailText directoryOnly true false segments

/-- The blanks at the end of a line count only after a backslash. -/
def trimmed (line : List Char) : List Char :=
  if ['\\', ' '].isSuffixOf line then line else Lines.stripEnd line

/-- The rule of a line, unless the line counts for nothing. -/
def ofLine? (line : List Char) : Except Raised (Option IgnoreRule) :=
  let invalid := Raised.invalidRule (String.ofList line)
  let rule := trimmed line
  if rule.isEmpty || rule.head? == some '#' || rule == ['/'] then .ok none
  else
    let negated := rule.head? == some '!'
    match segments? (if negated then rule.tail else rule) with
    | none => .error invalid
    | some (segments, directoryOnly) =>
      match patternText segments directoryOnly with
      | .error .openBracket => .ok none
      | .error .trailingBackslash => .error invalid
      | .ok text =>
        match Pattern.compile false (String.ofList text) with
        | .ok pattern => .ok (some ⟨pattern, !negated⟩)
        | .error fault => .error (.pattern fault)

/-- Whether a line of a file is worth reading: it is neither blank nor a comment. -/
def isRuleLine (line : List Char) : Bool :=
  match Lines.stripStart line with
  | [] => false
  | c :: _ => c != '#'

def ofLines : List (List Char) → Except Raised (List IgnoreRule)
  | [] => .ok []
  | line :: rest => do
    let rule ← ofLine? line
    let rules ← ofLines rest
    return rule.toList ++ rules

/-- The lines of the text of an ignore file that are worth reading. -/
def ruleLines (text : String) : List (List Char) :=
  (Lines.splitLines text.toList).filter isRuleLine

/-! ## Decisions -/

/-- How strongly a rule is about a path: not at all, by way of a directory that the path lies in,
or about the path itself. -/
def priority (rule : IgnoreRule) (path : List Char) : Nat :=
  match rule.pattern.expr.search path with
  | none => 0
  | some found => if (found.group? markGroup).isSome then 1 else 2

/-- The decision of rules, the last one first, when the rules after them decided `best` with the
priority `level`. -/
def decideFrom (path : List Char) (best : Option Bool) (level : Nat) : List IgnoreRule → Option Bool
  | [] => best
  | rule :: earlier =>
    let p := rule.priority path
    if level < p then
      if p = 2 then some rule.ignores else decideFrom path (some rule.ignores) p earlier
    else decideFrom path best level earlier

/-- What rules decide about a path below their directory.  Of the rules that are about the path
itself the last one decides, else of those about a directory on the way to it. -/
def decide? (rules : List IgnoreRule) (path : String) : Option Bool :=
  decideFrom path.toList none 0 rules.reverse

end IgnoreRule

/-! ## Languages of rules -/

/-- How the lines of an ignore file are turned into rules, and what rules decide about a path below
the directory of the file: that it is ignored, that it is not, or nothing.  A walk knows no more
of its rules than that. -/
structure RuleLanguage where
  Rules : Type
  compile : List (List Char) → Except Raised Rules
  decide? : Rules → String → Option Bool

def RuleLanguage.gitignore : RuleLanguage where
  Rules := List IgnoreRule
  compile := IgnoreRule.ofLines
  decide? := IgnoreRule.decide?

end TreeDump
