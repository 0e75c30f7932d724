import TreeDump.Text.CharTable

/-!
# Character classes

Predicates on single characters and the mappings between cases.  Below 128 each class is
decided by the code point alone; above it the tables of `CharTable` decide.

* `isSpace`, `isBlank`, `isDecimalDigit`, `isAlphanumeric` and `isWord` are the classes that patterns,
  numbers and blank lines are described with.
* `isLetter`, `isIdentifierStart` and `isIdentifierPart` are the classes of names.
* `isPrintable` says which characters a quoted form shows as they are.
* `lower` maps one character and `lowercase` a whole text.
-/

namespace TreeDump

/-- Whether a code point lies in one of the inclusive ranges of a table. -/
def CharTable.covers (table : Array (Nat × Nat)) (code : Nat) : Bool :=
  table.any fun range => range.1 ≤ code && code ≤ range.2

/-- The code points of a run are every `stride`-th one from its first to its last. -/
def CharTable.CaseRun.contains (run : CharTable.CaseRun) (code : Nat) : Bool :=
  run.first ≤ code && code ≤ run.last && (code - run.first) % run.stride == 0

namespace CharClass

/-- Blank characters: the controls from tab to carriage return and from U+001C to U+001F, the
space, and the space and line separators of Unicode. -/
def isSpace (c : Char) : Bool :=
  let n := c.toNat
  if n < 0x80 then (0x09 ≤ n && n ≤ 0x0d) || (0x1c ≤ n && n ≤ 0x20)
  else n == 0x85 || n == 0xa0 || n == 0x1680 || (0x2000 ≤ n && n ≤ 0x200a) || n == 0x2028
    || n == 0x2029 || n == 0x202f || n == 0x205f || n == 0x3000

/-- Blank characters that may stand around a number: all but those from U+001C to U+001F. -/
def isBlank (c : Char) : Bool := isSpace c && !(0x1c ≤ c.toNat && c.toNat ≤ 0x1f)

/-- The value of a decimal digit of any script. -/
def decimalValue? (c : Char) : Option Nat :=
  let n := c.toNat
  if n < 0x80 then
    if 0x30 ≤ n && n ≤ 0x39 then some (n - 0x30) else none
  else
    (CharTable.digitZeros.find? fun first => first ≤ n && n < first + 10).map (n - ·)

/-- Decimal digits of any script. -/
def isDecimalDigit (c : Char) : Bool := (decimalValue? c).isSome

/-- Letters and numerals of any script. -/
def isAlphanumeric (c : Char) : Bool :=
  if c.toNat < 0x80 then c.isAlphanum else CharTable.covers CharTable.alphanumeric c.toNat

/-- Characters of words: letters, numerals and the underscore. -/
def isWord (c : Char) : Bool := isAlphanumeric c || c == '_'

/-- Letters of any script. -/
def isLetter (c : Char) : Bool :=
  let n := c.toNat
  if n < 0x80 then c.isAlpha
  else isAlphanumeric c && !isDecimalDigit c && !CharTable.covers CharTable.numerals n
    && !CharTable.covers CharTable.letterNumerals n

/-- Characters that an identifier may begin with. -/
def isIdentifierStart (c : Char) : Bool :=
  let n := c.toNat
  if n < 0x80 then c.isAlpha || c == '_'
  else CharTable.covers CharTable.initialSigns n ||
    isAlphanumeric c && !isDecimalDigit c && !CharTable.covers CharTable.numerals n
      && !CharTable.covers CharTable.nonInitials n

/-- Characters that an identifier may go on with. -/
def isIdentifierPart (c : Char) : Bool :=
  isIdentifierStart c || isDecimalDigit c || CharTable.covers CharTable.identifierMarks c.toNat

/-- Characters that a quoted form shows as they are. -/
def isPrintable (c : Char) : Bool :=
  let n := c.toNat
  if n < 0x80 then 0x20 ≤ n && n < 0x7f else CharTable.covers CharTable.printable n

/-- The lowercase form of a character, or the first character of that form. -/
def lower (c : Char) : Char :=
  if c.toNat < 0x80 then c.toLower
  else match CharTable.lowercase.find? (·.contains c.toNat) with
    | some run => Char.ofNat (Int.toNat (c.toNat + run.shift))
    | none => c

/-- The code points other than that of `c` itself whose lowercase form is `c`. -/
def uppers (c : Char) : List Nat :=
  (CharTable.lowercase.toList.map fun run => Int.toNat (c.toNat - run.shift)).filter
    fun code => code != c.toNat && (lower (Char.ofNat code)) == c

/-- The characters other than `c` itself that stand for the same letter as the lowercase `c`. -/
def siblings (c : Char) : List Char :=
  match CharTable.caseSiblings.find? (·.1 == c.toNat) with
  | some (_, others) => others.map Char.ofNat
  | none => []

/-- The lowercase form of a text.  The dotted capital I becomes a plain i and a combining dot. -/
def lowercase (text : String) : String :=
  String.ofList (text.toList.flatMap fun c =>
    if c == '\u0130' then ['i', '\u0307'] else [lower c])

end CharClass

end TreeDump
