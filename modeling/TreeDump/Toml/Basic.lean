import TreeDump.Error

/-!
# Reading settings files: faults and first steps

Settings files are written in TOML.  A reader takes characters off the front of the rest of the
text and answers what they stand for, or what is wrong and how much of the text follows the place
where it is.

* `Cause.textAt` is the wording of what is wrong at a place of a text.
-/

namespace TreeDump.Toml

abbrev Key := List String

/-- What can be wrong at a place of a text. -/
inductive Cause where
  | missingEquals
  | missingBracket
  | missingBrackets
  | missingLineEnd
  | notStatement
  | notValue
  | notKey
  | notMoment
  | unclosedArray
  | unclosedTable
  | unclosedText
  /-- The end of a text between apostrophes is missing. -/
  | missingMark (mark : String)
  /-- A control character between double quotes. -/
  | illegal (c : Char)
  /-- A control character elsewhere. -/
  | invalid (c : Char)
  | notEscape
  | notHexadecimal
  | notScalar
  | overwritten
  | declaredTwice (key : Key)
  | redefined (key : Key)
  | immutable (key : Key)
  | repeatedKey (name : String)
deriving Repr, DecidableEq

def Cause.text : Cause → String
  | missingEquals => "Expected '=' after a key in a key/value pair"
  | missingBracket => "Expected ']' at the end of a table declaration"
  | missingBrackets => "Expected ']]' at the end of an array declaration"
  | missingLineEnd => "Expected newline or end of document after a statement"
  | notStatement => "Invalid statement"
  | notValue => "Invalid value"
  | notKey => "Invalid initial character for a key part"
  | notMoment => "Invalid date or datetime"
  | unclosedArray => "Unclosed array"
  | unclosedTable => "Unclosed inline table"
  | unclosedText => "Unterminated string"
  | missingMark mark => "Expected " ++ quoted mark
  | illegal c => "Illegal character " ++ quoted c.toString
  | invalid c => "Found invalid character " ++ quoted c.toString
  | notEscape => "Unescaped '\\' in a string"
  | notHexadecimal => "Invalid hex value"
  | notScalar => "Escaped character is not a Unicode scalar value"
  | overwritten => "Cannot overwrite a value"
  | declaredTwice key => "Cannot declare " ++ quotedRow key ++ " twice"
  | redefined key => "Cannot redefine namespace " ++ quotedRow key
  | immutable key => "Cannot mutate immutable namespace " ++ quotedRow key
  | repeatedKey name => "Duplicate inline table key " ++ quoted name

inductive Fault where
  /-- A cause, and how many characters there are from its place on. -/
  | misplaced (cause : Cause) (remaining : Nat)
  /-- A decimal number has more digits than numbers may have. -/
  | longNumeral (digits : Nat)
deriving Repr, DecidableEq

/-- The place in a text from which on there are `remaining` characters. -/
def placeText (text : List Char) (remaining : Nat) : String :=
  if remaining = 0 then "end of document"
  else
    let before := text.take (text.length - remaining)
    let column := (before.reverse.takeWhile (· != '\n')).length + 1
    "line " ++ toString (before.count '\n' + 1) ++ ", column " ++ toString column

/-- The wording of a cause and of its place in a text. -/
def Cause.textAt (document : List Char) (cause : Cause) (remaining : Nat) : String :=
  cause.text ++ " (at " ++ placeText document remaining ++ ")"

/-- Steps of reading.  The state is the rest of the text. -/
abbrev Reader := StateT (List Char) (Except Fault)

namespace Reader

def fail {α : Type} (cause : Cause) : Reader α :=
  fun rest => .error (.misplaced cause rest.length)

def skipWhile (accepts : Char → Bool) : Reader Unit := modify (·.dropWhile accepts)

def accept (c : Char) : Reader Bool := do
  match ← get with
  | d :: rest => if c == d then set rest; return true else return false
  | [] => return false

def expect (c : Char) (cause : Cause) : Reader Unit := do
  if !(← accept c) then fail cause

end Reader

/-! ## Blanks and comments -/

def isBlank (c : Char) : Bool := c == ' ' || c == '\t'

def isBlankOrLineEnd (c : Char) : Bool := isBlank c || c == '\n'

/-- Control characters, which texts and comments do not hold; tabs are allowed. -/
def isControl (c : Char) : Bool := (c.toNat < 0x20 && c != '\t') || c.toNat == 0x7f

def skipBlanks : Reader Unit := Reader.skipWhile isBlank

/-- Passes over a comment, up to the end of its line. -/
def skipComment : Reader Unit := do
  match ← get with
  | '#' :: rest =>
    let comment := rest.takeWhile (· != '\n')
    let after := rest.dropWhile (· != '\n')
    match comment.dropWhile (!isControl ·) with
    | c :: more => throw (.misplaced (.invalid c) (1 + more.length + after.length))
    | [] => set after
  | _ => return

/-- Passes over blanks, ends of lines and comments, of which there are at most `fuel`. -/
def skipGaps : Nat → Reader Unit
  | 0 => pure ()
  | fuel + 1 => do
    Reader.skipWhile isBlankOrLineEnd
    if (← get).head? == some '#' then
      skipComment
      skipGaps fuel

end TreeDump.Toml
