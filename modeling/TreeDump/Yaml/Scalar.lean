import TreeDump.Text.CharClass

/-!
# Styles of YAML scalars

A text is written bare if a reader would take it for that text, else between apostrophes, else
between double quotes.

* `meansOther` says that a bare word is read as something else than a text: a truth value, a
  number, a date, nothing, or one of two reserved words.
* `Shape` sums up which characters a text holds and in which places.
* `Shape.bare` and `Shape.quotable` say which styles keep such a text.
* `Style.of` chooses.
-/

namespace TreeDump.Yaml

/-! ## Words that mean something else -/

/-- Nothing, the truth values, the default key and the merge key, in the spellings that readers
know. -/
def reservedWords : List String :=
  ["", "~", "null", "Null", "NULL",
    "yes", "Yes", "YES", "no", "No", "NO", "true", "True", "TRUE", "false", "False", "FALSE",
    "on", "On", "ON", "off", "Off", "OFF", "=", "<<"]

/-- A word without a sign in front of it. -/
def dropSign : List Char → List Char
  | '-' :: rest => rest
  | '+' :: rest => rest
  | cs => cs

def isDigitOrUnderscore (c : Char) : Bool := c.isDigit || c == '_'

/-- Whether a word is non-empty and all of its characters are of a class. -/
def allOf (p : Char → Bool) (cs : List Char) : Bool := !cs.isEmpty && cs.all p

/-- Whether the word starts with a decimal digit and goes on with digits and underscores. -/
def startsAsNumber : List Char → Bool
  | c :: rest => c.isDigit && rest.all isDigitOrUnderscore
  | [] => false

/-- The parts of a word between colons. -/
def cutAtColons : List Char → List (List Char)
  | [] => [[]]
  | c :: rest =>
    if c == ':' then [] :: cutAtColons rest
    else match cutAtColons rest with
      | part :: parts => (c :: part) :: parts
      | [] => [[c]]

/-- A part of a number to the base sixty after its first part. -/
def isSixtieth : List Char → Bool
  | [d] => d.isDigit
  | [t, d] => '0' ≤ t && t ≤ '5' && d.isDigit
  | _ => false

/-- Whole numbers: binary, octal, decimal, hexadecimal, or to the base sixty. -/
def isInt (word : List Char) : Bool :=
  let cs := dropSign word
  (match cs with
    | '0' :: 'b' :: rest => allOf (fun c => c == '0' || c == '1' || c == '_') rest
    | '0' :: 'x' :: rest =>
      allOf (fun c => c.isDigit || ('a' ≤ c && c ≤ 'f') || ('A' ≤ c && c ≤ 'F') || c == '_') rest
    | '0' :: rest => rest.all fun c => ('0' ≤ c && c ≤ '7') || c == '_'
    | c :: rest => '1' ≤ c && c ≤ '9' && rest.all isDigitOrUnderscore
    | [] => false)
  || (match cutAtColons cs with
    | (c :: rest) :: part :: parts =>
      '1' ≤ c && c ≤ '9' && rest.all isDigitOrUnderscore && (part :: parts).all isSixtieth
    | _ => false)

/-- Nothing, or an exponent with its sign. -/
def isExponent : List Char → Bool
  | [] => true
  | e :: sign :: digits =>
    (e == 'e' || e == 'E') && (sign == '-' || sign == '+') && allOf Char.isDigit digits
  | _ => false

/-- Fractions: decimal with or without an exponent, to the base sixty, infinite, or undefined. -/
def isFloat (word : List Char) : Bool :=
  let cs := dropSign word
  let whole := cs.takeWhile (· != '.')
  let hasSign := cs.length < word.length
  match cs.dropWhile (· != '.') with
  | '.' :: fraction =>
    let digits := fraction.takeWhile isDigitOrUnderscore
    let rest := fraction.dropWhile isDigitOrUnderscore
    (startsAsNumber whole && isExponent rest)
    || (!hasSign && whole.isEmpty && startsAsNumber digits && isExponent rest)
    || (match cutAtColons whole with
      | first :: part :: parts =>
        startsAsNumber first && (part :: parts).all isSixtieth && rest.isEmpty
      | _ => false)
    || (whole.isEmpty
      && [['i', 'n', 'f'], ['I', 'n', 'f'], ['I', 'N', 'F']].contains fraction)
    || (!hasSign && whole.isEmpty
      && [['n', 'a', 'n'], ['N', 'a', 'N'], ['N', 'A', 'N']].contains fraction)
  | _ => false

/-- Takes between `least` and `most` digits off the front of a word, as many as there are. -/
def takeDigits (least most : Nat) (cs : List Char) : Option (List Char) :=
  let n := ((cs.take most).takeWhile Char.isDigit).length
  if least ≤ n then some (cs.drop n) else none

/-- Takes one character of a class off the front of a word. -/
def takeChar (p : Char → Bool) : List Char → Option (List Char)
  | c :: rest => if p c then some rest else none
  | [] => none

def isBlank (c : Char) : Bool := c == ' ' || c == '\t'

/-- The zone of a time: nothing, or after blanks a letter Z or an offset. -/
def isZone (cs : List Char) : Bool :=
  cs.isEmpty ||
  match cs.dropWhile isBlank with
  | ['Z'] => true
  | sign :: rest =>
    (sign == '-' || sign == '+') &&
    match takeDigits 1 2 rest with
    | some [] => true
    | some (':' :: minutes) => takeDigits 2 2 minutes == some []
    | _ => false
  | [] => false

/-- Hours, minutes and seconds with an optional fraction and zone. -/
def isTime (cs : List Char) : Bool :=
  match do
    let cs ← takeDigits 1 2 cs
    let cs ← takeChar (· == ':') cs
    let cs ← takeDigits 2 2 cs
    let cs ← takeChar (· == ':') cs
    takeDigits 2 2 cs with
  | some ('.' :: rest) => isZone (rest.dropWhile Char.isDigit)
  | some rest => isZone rest
  | none => false

/-- Dates with full parts, and dates of any length of parts with a time. -/
def isTimestamp (cs : List Char) : Bool :=
  (match do
    let cs ← takeDigits 4 4 cs
    let cs ← takeChar (· == '-') cs
    let cs ← takeDigits 2 2 cs
    let cs ← takeChar (· == '-') cs
    takeDigits 2 2 cs with
  | some [] => true
  | _ => false)
  || (match do
    let cs ← takeDigits 4 4 cs
    let cs ← takeChar (· == '-') cs
    let cs ← takeDigits 1 2 cs
    let cs ← takeChar (· == '-') cs
    takeDigits 1 2 cs with
  | some (c :: rest) =>
    if c == 'T' || c == 't' then isTime rest
    else isBlank c && isTime (rest.dropWhile isBlank)
  | _ => false)

/-- Whether a bare word is read as something else than a text. -/
def meansOther (word : List Char) : Bool :=
  reservedWords.contains (String.ofList word) || isInt word || isFloat word || isTimestamp word

/-! ## The shape of a text -/

def isBreak (c : Char) : Bool :=
  c == '\n' || c == '\x85' || c == '\u2028' || c == '\u2029'

/-- Characters that separate a sign from what it marks. -/
def isGap (c : Char) : Bool := c == '\x00' || isBlank c || c == '\r' || isBreak c

/-- Characters that can be written between double quotes only, as escapes. -/
def isSpecial (c : Char) : Bool :=
  let n := c.toNat
  !(c == '\n' || (0x20 ≤ n && n ≤ 0x7e) || n == 0x85 || (0xa0 ≤ n && n ≤ 0xd7ff)
    || (0xe000 ≤ n && n ≤ 0xfffd) || (0x10000 ≤ n && n ≤ 0x10fffe)) || n == 0xfeff

/-- Characters that no bare text starts with. -/
def isIndicator (c : Char) : Bool :=
  ['#', ',', '[', ']', '\x7b', '\x7d', '&', '*', '!', '|', '>', '\'', '"', '%', '@', '\x60'].contains c

/-- Whether what follows begins with a gap, or there is nothing more. -/
def gapAhead : List Char → Bool
  | c :: _ => isGap c
  | [] => true

/-- Whether a later character marks a key or a comment: a colon before a gap, or a number sign
after one. -/
def marksInside (afterGap : Bool) : List Char → Bool
  | [] => false
  | c :: rest =>
    (c == ':' && gapAhead rest) || (c == '#' && afterGap) || marksInside (isGap c) rest

/-- Whether a text would be taken for a mark of the language where it starts or further on. -/
def hasMark (cs : List Char) : Bool :=
  ['-', '-', '-'].isPrefixOf cs || ['.', '.', '.'].isPrefixOf cs ||
  match cs with
  | [] => false
  | c :: rest =>
    isIndicator c || ((c == '?' || c == ':' || c == '-') && gapAhead rest)
      || marksInside (isGap c) rest

/-- Whether a character of class `p` stands directly before one of class `q`. -/
def adjoins (p q : Char → Bool) : List Char → Bool
  | a :: b :: rest => (p a && q b) || adjoins p q (b :: rest)
  | _ => false

def isSpaceOrBreak (c : Char) : Bool := c == ' ' || isBreak c

structure Shape where
  hasBreak : Bool
  /-- A space or a break at either end. -/
  loose : Bool
  /-- Special characters, or a space directly before a break. -/
  escapes : Bool
  /-- A space directly after a break. -/
  indented : Bool
  marked : Bool

def Shape.of (cs : List Char) : Shape where
  hasBreak := cs.any isBreak
  loose := cs.head?.any isSpaceOrBreak || cs.getLast?.any isSpaceOrBreak
  escapes := cs.any isSpecial || adjoins (· == ' ') isBreak cs
  indented := adjoins isBreak (· == ' ') cs
  marked := hasMark cs

def Shape.bare (s : Shape) : Bool :=
  !s.hasBreak && !s.loose && !s.escapes && !s.indented && !s.marked

def Shape.quotable (s : Shape) : Bool := !s.escapes && !s.indented

inductive Style where
  | bare
  | apostrophes
  | quotes
deriving Repr, DecidableEq

def Style.of (cs : List Char) : Style :=
  let shape := Shape.of cs
  if shape.bare && !meansOther cs then .bare
  else if shape.quotable then .apostrophes
  else .quotes

end TreeDump.Yaml
