import TreeDump.Toml.Basic

/-!
# Reading settings files: texts and keys

Texts stand between double quotes, with escapes, or between apostrophes, as they are.  Three
marks in a row enclose texts of several lines.
-/

namespace TreeDump.Toml

/-! ## Escapes -/

/-- The character that a letter after a backslash stands for. -/
def escaped? : Char → Option Char
  | 'b' => some '\x08'
  | 't' => some '\t'
  | 'n' => some '\n'
  | 'f' => some '\x0c'
  | 'r' => some '\r'
  | '"' => some '"'
  | '\\' => some '\\'
  | _ => none

/-- The character whose code point is written with `width` hexadecimal digits. -/
def readCodePoint (width : Nat) : Reader (Option Char) := fun rest =>
  let digits := rest.take width
  if digits.length = width ∧ digits.all Hex.isDigit then
    let rest := rest.drop width
    let n := Hex.read digits
    if n.isValidChar then .ok (some (Char.ofNat n), rest)
    else Reader.fail .notScalar rest
  else Reader.fail .notHexadecimal rest

/-- Passes over the end of a line and the blank lines after it. -/
def skipLineEnd : Reader (Option Char) := do
  Reader.skipWhile isBlankOrLineEnd
  return none

/-- What a backslash and the characters after it stand for.  In a text of several lines a
backslash at the end of a line stands for nothing and hides the blanks up to the next text. -/
def readEscape (severalLines : Bool) : Reader (Option Char) := fun rest =>
  match rest with
  | [] => Reader.fail .notEscape []
  | 'u' :: rest => readCodePoint 4 rest
  | 'U' :: rest => readCodePoint 8 rest
  | c :: after =>
    match escaped? c with
    | some d => .ok (some d, after)
    | none =>
      if severalLines && isBlankOrLineEnd c then
        match rest.dropWhile isBlank with
        | [] => .ok (none, [])
        | '\n' :: rest => skipLineEnd rest
        | rest => Reader.fail .notEscape rest
      else Reader.fail .notEscape after

/-! ## Texts -/

/-- The rest of a text between double quotes after the characters `done`, which stand backwards.
Each step takes a character, and `fuel` bounds their number. -/
def readQuoted (severalLines : Bool) : Nat → List Char → Reader String
  | 0, _ => Reader.fail .unclosedText
  | fuel + 1, done => fun rest =>
    match rest with
    | [] => Reader.fail .unclosedText []
    | '"' :: after =>
      if severalLines then
        match after with
        | '"' :: '"' :: after => .ok (String.ofList done.reverse, after)
        | _ => readQuoted severalLines fuel ('"' :: done) after
      else .ok (String.ofList done.reverse, after)
    | '\\' :: after =>
      match readEscape severalLines after with
      | .error fault => .error fault
      | .ok (c, after) => readQuoted severalLines fuel (c.toList ++ done) after
    | c :: after =>
      if isControl c && !(severalLines && c == '\n') then Reader.fail (.illegal c) rest
      else readQuoted severalLines fuel (c :: done) after

/-- A text cut before the first occurrence of a word. -/
def splitBefore? (word : List Char) : List Char → Option (List Char × List Char)
  | [] => none
  | c :: rest =>
    if word.isPrefixOf (c :: rest) then some ([], c :: rest)
    else (splitBefore? word rest).map fun (before, after) => (c :: before, after)

/-- The rest of a text between apostrophes, up to its closing mark. -/
def readLiteral (mark : String) (severalLines : Bool) : Reader String := fun rest =>
  match splitBefore? mark.toList rest with
  | none => Reader.fail (.missingMark mark) []
  | some (body, after) =>
    match body.dropWhile fun c => !isControl c || (severalLines && c == '\n') with
    | c :: more => .error (.misplaced (.invalid c) (1 + more.length + after.length))
    | [] => .ok (String.ofList body, after.drop mark.length)

/-- Adds up to two marks that follow a text of several lines: they belong to it. -/
def readLastMarks (mark : Char) (body : String) : Reader String := do
  if !(← Reader.accept mark) then return body
  if !(← Reader.accept mark) then return body.push mark
  return (body.push mark).push mark

/-- A text between double quotes, after the first one. -/
def readOneLine : Reader String := fun rest => readQuoted false (rest.length + 1) [] rest

/-- A text of several lines, after its opening marks. -/
def readSeveralLines (mark : Char) : Reader String := do
  let _ ← Reader.accept '\n'
  let body ←
    if mark == '"' then fun rest => readQuoted true (rest.length + 1) [] rest
    else readLiteral "'''" true
  readLastMarks mark body

/-! ## Keys -/

def isBare (c : Char) : Bool := c.isAlphanum || c == '-' || c == '_'

/-- Whether a character can begin a key. -/
def beginsKey (c : Char) : Bool := isBare c || c == '"' || c == '\''

def readKeyPart : Reader String := do
  let rest ← get
  match rest with
  | '\'' :: after =>
    set after
    readLiteral "'" false
  | '"' :: after =>
    set after
    readOneLine
  | c :: _ =>
    if isBare c then
      set (rest.dropWhile isBare)
      return String.ofList (rest.takeWhile isBare)
    else Reader.fail .notKey
  | [] => Reader.fail .notKey

/-- The parts of a key after those read so far, which stand backwards. -/
def readKeyParts : Nat → Key → Reader Key
  | 0, parts => return parts.reverse
  | fuel + 1, parts => do
    let part ← readKeyPart
    skipBlanks
    if ← Reader.accept '.' then
      skipBlanks
      readKeyParts fuel (part :: parts)
    else return (part :: parts).reverse

/-- A key and the blanks after it. -/
def readKey : Reader Key := fun rest => readKeyParts (rest.length + 1) [] rest

end TreeDump.Toml
