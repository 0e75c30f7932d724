import TreeDump.Text.Hex
import TreeDump.Yaml.Scalar

/-!
# Writing YAML line by line

The cursor holds the text so far and what matters of the line it stands in: the column, whether
the last thing written leaves a gap, and whether nothing but indentation and signs of nesting
stand in the line.

* `Cursor.indent` moves to the column of an indentation, on a new line if need be.
* `Cursor.sign` writes a sign, after a gap where one is needed.
* `Cursor.scalar` writes a text in the style that `Style.of` chooses, folding long lines at
  single spaces.
-/

namespace TreeDump.Yaml

/-- The column after which a line is folded. -/
def lineWidth : Nat := 80

structure Cursor where
  text : String := ""
  column : Nat := 0
  /-- A sign can follow without a space. -/
  gap : Bool := true
  /-- The line holds indentation and signs of nesting only. -/
  leading : Bool := true

namespace Cursor

/-- Writes characters that stay in the line. -/
def put (c : Cursor) (cs : List Char) : Cursor :=
  { c with text := c.text ++ String.ofList cs, column := c.column + cs.length }

/-- Ends the line with a character of one's choice. -/
def breakLine (c : Cursor) (ending : Char) : Cursor :=
  ⟨c.text.push ending, 0, true, true⟩

/-- Moves to a column, on a new line unless the column can still be reached in this one. -/
def indent (c : Cursor) (column : Nat) : Cursor :=
  let c := if !c.leading || c.column > column || (c.column == column && !c.gap)
    then c.breakLine '\n' else c
  if c.column < column then
    { c.put (List.replicate (column - c.column) ' ') with gap := true }
  else c

/-- Writes a sign.  `apart` asks for a gap before it, `opens` tells that it leaves one, and
`nests` that it is a sign of nesting. -/
def sign (c : Cursor) (sign : List Char) (apart opens nests : Bool) : Cursor :=
  { c.put (if c.gap || !apart then sign else ' ' :: sign) with
    gap := opens, leading := c.leading && nests }

/-! ## Runs -/

inductive Run where
  | spaces (n : Nat)
  | breaks (cs : List Char)
  | word (cs : List Char)

/-- Puts a character in front of a text that is cut into runs. -/
def Run.cons (c : Char) : List Run → List Run
  | .spaces n :: rest => if c == ' ' then .spaces (n + 1) :: rest else start c :: .spaces n :: rest
  | .breaks cs :: rest => if isBreak c then .breaks (c :: cs) :: rest else start c :: .breaks cs :: rest
  | .word cs :: rest =>
    if c == ' ' || isBreak c then start c :: .word cs :: rest else .word (c :: cs) :: rest
  | [] => [start c]
where
  start (c : Char) : Run :=
    if c == ' ' then .spaces 1 else if isBreak c then .breaks [c] else .word [c]

/-- A text cut into the longest stretches of spaces, of breaks and of other characters. -/
def runs (cs : List Char) : List Run := cs.foldr Run.cons []

/-! ## Bare text -/

/-- Writes runs of bare text.  A single space is replaced by the end of the line, if the line is
full and `fold` allows it. -/
def bareRuns (fold : Bool) (column : Nat) (c : Cursor) : List Run → Cursor
  | [] => c
  | .spaces n :: rest =>
    let c := if n == 1 && fold && c.column > lineWidth
      then { c.indent column with gap := false, leading := false }
      else c.put (List.replicate n ' ')
    bareRuns fold column c rest
  | .breaks cs :: rest => bareRuns fold column (c.put cs) rest
  | .word cs :: rest => bareRuns fold column (c.put cs) rest

def bare (fold : Bool) (column : Nat) (c : Cursor) (cs : List Char) : Cursor :=
  let c := if c.gap then c else c.put [' ']
  bareRuns fold column { c with gap := false, leading := false } (runs cs)

/-! ## Text between apostrophes -/

/-- Doubles the apostrophes of a word. -/
def doubled (cs : List Char) : List Char := cs.flatMap fun c => if c == '\'' then [c, c] else [c]

/-- Writes a run of breaks.  A first line feed is written twice, since a reader takes a single one
for a space. -/
def breakRun (column : Nat) (c : Cursor) (breaks : List Char) : Cursor :=
  let c := if breaks.head? == some '\n' then c.breakLine '\n' else c
  (breaks.foldl breakLine c).indent column

/-- Writes runs between apostrophes; `first` tells whether the text starts here.  Spaces at the
ends of the text are not folded. -/
def apostropheRuns (fold : Bool) (column : Nat) (first : Bool) (c : Cursor) : List Run → Cursor
  | [] => c
  | .spaces n :: rest =>
    let c := if n == 1 && fold && c.column > lineWidth && !first && !rest.isEmpty
      then c.indent column
      else c.put (List.replicate n ' ')
    apostropheRuns fold column false c rest
  | .breaks cs :: rest => apostropheRuns fold column false (breakRun column c cs) rest
  | .word cs :: rest => apostropheRuns fold column false (c.put (doubled cs)) rest

def apostrophes (fold : Bool) (column : Nat) (c : Cursor) (cs : List Char) : Cursor :=
  let c := c.sign ['\''] true false false
  (apostropheRuns fold column true c (runs cs)).sign ['\''] false false false

/-! ## Text between double quotes -/

/-- The letter that stands for a character after a backslash. -/
def escapeLetter? (c : Char) : Option Char :=
  [('\x00', '0'), ('\x07', 'a'), ('\x08', 'b'), ('\t', 't'), ('\n', 'n'), ('\x0b', 'v'),
    ('\x0c', 'f'), ('\r', 'r'), ('\x1b', 'e'), ('"', '"'), ('\\', '\\'), ('\x85', 'N'),
    ('\xa0', '_'), ('\u2028', 'L'), ('\u2029', 'P')].lookup c

/-- Whether a character is escaped between double quotes. -/
def needsEscape (c : Char) : Bool :=
  let n := c.toNat
  c == '"' || c == '\\' || n == 0x85 || n == 0x2028 || n == 0x2029 || n == 0xfeff
    || !((0x20 ≤ n && n ≤ 0x7e) || (0xa0 ≤ n && n ≤ 0xd7ff) || (0xe000 ≤ n && n ≤ 0xfffd))

def escape (c : Char) : List Char :=
  match escapeLetter? c with
  | some letter => ['\\', letter]
  | none =>
    if c.toNat ≤ 0xff then '\\' :: 'x' :: Hex.digits true 2 c.toNat
    else if c.toNat ≤ 0xffff then '\\' :: 'u' :: Hex.digits true 4 c.toNat
    else '\\' :: 'U' :: Hex.digits true 8 c.toNat

/-- Writes a text between double quotes from one of its characters on.  `chunk` holds, backwards,
the characters that are not written yet.  A full line is folded before a space or next to an
escape, but not before the second character nor at the last; a backslash ends the line, and
another one protects a space that starts the next. -/
def quoteRest (fold : Bool) (column : Nat) (first : Bool) (chunk : List Char) (c : Cursor) :
    List Char → Cursor
  | [] => c.put chunk.reverse
  | ch :: rest =>
    let escaped := needsEscape ch
    let c := if escaped then (c.put chunk.reverse).put (escape ch) else c
    let chunk := if escaped then [] else chunk
    let full := c.column + chunk.length > lineWidth + (if escaped then 1 else 0)
    if !first && !rest.isEmpty && (ch == ' ' || chunk.isEmpty) && full && fold then
      let c := (c.put (chunk.reverse ++ ['\\'])).indent column
      let next := if escaped then rest.head? else some ch
      let c := { c with gap := false, leading := false }
      let c := if next == some ' ' then c.put ['\\'] else c
      quoteRest fold column false (if escaped then [] else [ch]) c rest
    else
      quoteRest fold column false (if escaped then [] else ch :: chunk) c rest

def quotes (fold : Bool) (column : Nat) (c : Cursor) (cs : List Char) : Cursor :=
  let c := c.sign ['"'] true false false
  (quoteRest fold column true [] c cs).sign ['"'] false false false

/-! ## Choice of style -/

/-- Writes a text in the plainest style that keeps it.  Further lines start at `column`. -/
def scalar (fold : Bool) (column : Nat) (c : Cursor) (cs : List Char) : Cursor :=
  match Style.of cs with
  | .bare => c.bare fold column cs
  | .apostrophes => c.apostrophes fold column cs
  | .quotes => c.quotes fold column cs

end Cursor

end TreeDump.Yaml
