import TreeDump.Json.Reader
import TreeDump.Yaml.Scalar

/-!
# Reading YAML

The reader takes one document in block style.  What it takes it takes as YAML 1.1 has it: breaks are
normalised, a single break inside a scalar is read as a space and of several breaks the first one is
dropped, and a bare word is a text unless it means something else.  It refuses what it does not know:
collections in brackets, block scalars, anchors, tags, comments, directives, keys that are more than
one word, and tabs and carriage returns that are not escaped.

* `readBare`, `readApostrophes` and `readQuotes` read the three styles of scalars, one character
  after the other.
* `readScalar` reads a scalar and goes on to what stands on a line after it.
* `readBlock` reads a mapping or a list from its column on.
* `load` reads a document.
-/

namespace TreeDump.Yaml

/-! ## Characters -/

/-- A break as it is read. -/
def normal (c : Char) : Char := if c == '\x85' then '\n' else c

/-- Characters that can stand in a document as they are, apart from tabs and carriage returns. -/
def isReadable (c : Char) : Bool :=
  let n := c.toNat
  c == '\n' || (0x20 ≤ n && n ≤ 0x7e) || n == 0x85 || (0xa0 ≤ n && n ≤ 0xd7ff)
    || (0xe000 ≤ n && n ≤ 0xfffd) || 0x10000 ≤ n

/-- Whether a line starts with a mark between documents. -/
def startsDocument (cs : List Char) : Bool :=
  (['-', '-', '-'].isPrefixOf cs || ['.', '.', '.'].isPrefixOf cs) && gapAhead (cs.drop 3)

/-! ## Blanks inside scalars -/

/-- What was read of a scalar since its last character that is neither a space nor a break. -/
inductive Blanks where
  | spaces (n : Nat)
  /-- A break, and the breaks after it. -/
  | breaks (first : Char) (more : List Char)
  /-- An escaped break, and the breaks after it. -/
  | joined (more : List Char)
deriving Repr, DecidableEq

namespace Blanks

def addSpace : Blanks → Blanks
  | spaces n => spaces (n + 1)
  | blanks => blanks

/-- Spaces before a break are dropped. -/
def addBreak (c : Char) : Blanks → Blanks
  | spaces _ => breaks (normal c) []
  | breaks first more => breaks first (more ++ [normal c])
  | joined more => joined (more ++ [normal c])

/-- What blanks are read as. -/
def text : Blanks → List Char
  | spaces n => List.replicate n ' '
  | breaks first more =>
    if first != '\n' then first :: more else if more.isEmpty then [' '] else more
  | joined more => more

def inLine : Blanks → Bool
  | spaces _ => true
  | _ => false

end Blanks

/-- Puts a text in front of what was read. -/
def prepend {α : Type} (text : List Char) (read : Option (List Char × α)) :
    Option (List Char × α) :=
  read.map fun more => (text ++ more.1, more.2)

/-! ## Scalars -/

/-- The rest of a bare scalar inside a container at `indent`, then the column of what stands after it
on another line, and what that is. -/
def readBare (indent : Nat) (blanks : Blanks) (column : Nat) :
    List Char → Option (List Char × Nat × List Char)
  | [] => some ([], 0, [])
  | c :: rest =>
    if c == ' ' then readBare indent blanks.addSpace (column + 1) rest
    else if isBreak c then readBare indent (blanks.addBreak c) 0 rest
    else if !blanks.inLine && column ≤ indent then some ([], column, c :: rest)
    else if (c == '#' && blanks != .spaces 0) || (c == ':' && gapAhead rest) || !isReadable c then
      none
    else prepend (blanks.text ++ [c]) (readBare indent (.spaces 0) (column + 1) rest)

/-- The rest of a scalar between apostrophes, and what stands after it. -/
def readApostrophes (blanks : Blanks) : List Char → Option (List Char × List Char)
  | [] => none
  | c :: rest =>
    if c == '\'' then
      match rest with
      | '\'' :: rest => prepend (blanks.text ++ ['\'']) (readApostrophes (.spaces 0) rest)
      | rest => some (blanks.text, rest)
    else if c == ' ' then readApostrophes blanks.addSpace rest
    else if isBreak c then
      if startsDocument rest then none else readApostrophes (blanks.addBreak c) rest
    else if isReadable c then prepend (blanks.text ++ [c]) (readApostrophes (.spaces 0) rest)
    else none

/-- Where the reading of a scalar between double quotes stands. -/
inductive Quoting where
  | text (blanks : Blanks)
  /-- After a backslash. -/
  | escape
  /-- In an escape with so many digits left. -/
  | code (left code : Nat)
deriving Repr, DecidableEq

/-- The character that a letter after a backslash stands for. -/
def unescape? (letter : Char) : Option Char :=
  [('0', '\x00'), ('a', '\x07'), ('b', '\x08'), ('t', '\t'), ('\t', '\t'), ('n', '\n'), ('v', '\x0b'),
    ('f', '\x0c'), ('r', '\r'), ('e', '\x1b'), (' ', ' '), ('"', '"'), ('\\', '\\'), ('/', '/'),
    ('N', '\x85'), ('_', '\xa0'), ('L', '\u2028'), ('P', '\u2029')].lookup letter

/-- The number of digits after a letter that announces some. -/
def codeLength? (letter : Char) : Option Nat := [('x', 2), ('u', 4), ('U', 8)].lookup letter

/-- The rest of a scalar between double quotes, and what stands after it. -/
def readQuotes (quoting : Quoting) : List Char → Option (List Char × List Char)
  | [] => none
  | c :: rest =>
    match quoting with
    | .text blanks =>
      if c == '"' then some (blanks.text, rest)
      else if c == '\\' then prepend blanks.text (readQuotes .escape rest)
      else if c == ' ' then readQuotes (.text blanks.addSpace) rest
      else if isBreak c then
        if startsDocument rest then none else readQuotes (.text (blanks.addBreak c)) rest
      else if isReadable c then
        prepend (blanks.text ++ [c]) (readQuotes (.text (.spaces 0)) rest)
      else none
    | .escape =>
      if isBreak c then
        if startsDocument rest then none else readQuotes (.text (.joined [])) rest
      else
        match codeLength? c with
        | some length => readQuotes (.code length 0) rest
        | none =>
          match unescape? c with
          | some escaped => prepend [escaped] (readQuotes (.text (.spaces 0)) rest)
          | none => none
    | .code left code =>
      match Hex.value? c with
      | none => none
      | some digit =>
        if 1 < left then readQuotes (.code (left - 1) (16 * code + digit)) rest
        else if (16 * code + digit).isValidChar then
          prepend [Char.ofNat (16 * code + digit)] (readQuotes (.text (.spaces 0)) rest)
        else none

/-- What stands on a line after this one, and its column. -/
def nextToken (broken : Bool) (column : Nat) : List Char → Option (Nat × List Char)
  | [] => some (0, [])
  | c :: rest =>
    if c == ' ' then nextToken broken (column + 1) rest
    else if isBreak c then nextToken true 0 rest
    else if broken then some (column, c :: rest)
    else none

/-- The value of a bare scalar. -/
def resolve (text : List Char) : Option Json :=
  if meansOther text then Json.parse (String.ofList text) else some (.str (String.ofList text))

/-- Whether a bare scalar can start here. -/
def startsBare : List Char → Bool
  | c :: rest =>
    !(isGap c || isIndicator c || ((c == '?' || c == ':' || c == '-') && gapAhead rest))
  | [] => false

/-- A text that was read between quotation marks, and what stands on a line after it. -/
def closeScalar (read : Option (List Char × List Char)) : Option (Json × Nat × List Char) :=
  match read with
  | none => none
  | some (text, rest) => (nextToken false 0 rest).map fun next => (.str (String.ofList text), next)

/-- A scalar inside a container at `indent`, and what stands on a line after it. -/
def readScalar (indent : Nat) : List Char → Option (Json × Nat × List Char)
  | [] => none
  | c :: rest =>
    if c == '\'' then closeScalar (readApostrophes (.spaces 0) rest)
    else if c == '"' then closeScalar (readQuotes (.text (.spaces 0)) rest)
    else if startsBare (c :: rest) then
      match readBare indent (.spaces 0) 0 (c :: rest) with
      | none => none
      | some (text, next) => (resolve text).map fun value => (value, next)
    else none

/-! ## Blocks -/

def isKeyChar (c : Char) : Bool := c.isAlphanum || c == '_'

/-- A key of at most 1024 characters with its colon, and what stands after it. -/
def readKey (cs : List Char) : Option (String × List Char) :=
  match cs.dropWhile isKeyChar with
  | [] => none
  | c :: rest =>
    let key := cs.takeWhile isKeyChar
    if c == ':' && gapAhead rest && !key.isEmpty && key.length ≤ 1024 && !meansOther key then
      some (String.ofList key, rest)
    else none

/-- Whether an element of a list starts here. -/
def isDash : List Char → Bool
  | c :: rest => c == '-' && gapAhead rest
  | [] => false

mutual

/-- A mapping or a list from its column on, with at most `fuel` nested readings; then what stands on
a line after it, and its column. -/
def readBlock : Nat → Nat → List Char → Option (Json × Nat × List Char)
  | 0, _, _ => none
  | fuel + 1, column, cs =>
    if isDash cs then (readItems fuel column cs).map fun read => (.arr read.1, read.2)
    else (readFields fuel column cs).map fun read => (.obj read.1, read.2)

/-- The value after the colon of a key at a column: a scalar in the same line, or a block on another
one.  A list may stand at the column of the key. -/
def readValue : Nat → Nat → List Char → Option (Json × Nat × List Char)
  | 0, _, _ => none
  | fuel + 1, indent, cs =>
    let start := cs.dropWhile (· == ' ')
    if start.head?.any isBreak then
      match nextToken false 0 start with
      | none => none
      | some (column, next) =>
        if indent < column || (column == indent && isDash next) then readBlock fuel column next
        else none
    else readScalar indent start

/-- The elements of a list from one dash on. -/
def readItems : Nat → Nat → List Char → Option (List Json × Nat × List Char)
  | 0, _, _ => none
  | fuel + 1, column, cs =>
    let rest := cs.drop 1
    let start := rest.dropWhile (· == ' ')
    let inner := column + 1 + (rest.takeWhile (· == ' ')).length
    match
      if isDash start || (readKey start).isSome then readBlock fuel inner start
      else readScalar column start with
    | none => none
    | some (item, k, next) =>
      if k == column && isDash next then
        (readItems fuel column next).map fun read => (item :: read.1, read.2)
      else some ([item], k, next)

/-- The entries of a mapping from one key on.  No key stands there twice. -/
def readFields : Nat → Nat → List Char → Option (List (String × Json) × Nat × List Char)
  | 0, _, _ => none
  | fuel + 1, column, cs =>
    match readKey cs with
    | none => none
    | some (key, rest) =>
      match readValue fuel column rest with
      | none => none
      | some (value, k, next) =>
        if next.isEmpty || k < column then some ([(key, value)], k, next)
        else if k == column then
          match readFields fuel column next with
          | none => none
          | some (fields, last) =>
            if (fields.map Prod.fst).contains key then none else some ((key, value) :: fields, last)
        else none

end

/-- The value of a text that is one document with its mark.  Of two nested readings at least one takes
a character, so twice the length of the text is enough of them. -/
def load (text : String) : Option Json :=
  match text.toList with
  | '-' :: '-' :: '-' :: rest =>
    match nextToken false 3 rest with
    | none => none
    | some (column, next) =>
      match readBlock (2 * next.length) column next with
      | some (value, _, []) => some value
      | _ => none
  | _ => none

end TreeDump.Yaml
