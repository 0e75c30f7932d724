import TreeDump.Json.Basic
import TreeDump.Yaml.Cursor

/-!
# YAML documents

A value is written as one document in block style: one entry of a container to a line, nested
containers two columns further in, a list inside a mapping at the column of its key.

* `Yaml.render` is the text of the document, without line ends after it.
-/

namespace TreeDump.Yaml

/-- Keys that are written in front of a colon on the same line: those that hold a character and
no break and are short. -/
def isSimpleKey (key : List Char) : Bool :=
  !key.isEmpty && !key.any isBreak && key.length + 5 < 128

/-- The column at which further lines of a scalar start inside a container at `column`. -/
def scalarColumn : Option Nat → Nat
  | some column => column + 2
  | none => 2

/-- The column of a container inside a container at `column`. -/
def nestedColumn : Option Nat → Nat
  | some column => column + 2
  | none => 0

/-- The column of a list: that of the mapping it belongs to, unless a sign of nesting went before
it in the same line. -/
def listColumn (column : Option Nat) (inMapping leading : Bool) : Nat :=
  match column with
  | some column => if inMapping && !leading then column else column + 2
  | none => 0

mutual

/-- Writes a value inside a container at `column`, or at the top if there is none. -/
def emit (column : Option Nat) (inMapping : Bool) (c : Cursor) : Json → Cursor
  | .arr [] => (c.sign ['['] true true false).sign [']'] false false false
  | .arr (item :: items) =>
    emitItems (listColumn column inMapping c.leading) c (item :: items)
  | .obj [] => (c.sign ['\x7b'] true true false).sign ['\x7d'] false false false
  | .obj (field :: fields) => emitFields (nestedColumn column) c (field :: fields)
  | .str s => c.scalar true (scalarColumn column) s.toList
  | value => c.bare true (scalarColumn column) (Json.scalar value).toList

def emitItems (column : Nat) (c : Cursor) : List Json → Cursor
  | [] => c
  | item :: items =>
    let c := (c.indent column).sign ['-'] true false true
    emitItems column (emit (some column) false c item) items

/-- Writes the entries of a mapping.  A key that is not simple is announced by a question mark,
and its value stands on a line of its own. -/
def emitFields (column : Nat) (c : Cursor) : List (String × Json) → Cursor
  | [] => c
  | (key, value) :: fields =>
    let c := c.indent column
    if isSimpleKey key.toList then
      let c := (c.scalar false (column + 2) key.toList).sign [':'] false false false
      emitFields column (emit (some column) true c value) fields
    else
      let c := (c.sign ['?'] true false true).scalar true (column + 2) key.toList
      let c := (c.indent column).sign [':'] true false true
      emitFields column (emit (some column) true c value) fields

end

/-- Whether a document has to be closed: a bare word at the top could go on otherwise. -/
def isOpenEnded : Json → Bool
  | .arr _ | .obj _ => false
  | .str s => Style.of s.toList == .bare
  | _ => true

/-- A text without the line feeds it ends with. -/
def dropFinalBreaks (text : String) : String :=
  String.ofList (text.toList.reverse.dropWhile (· == '\n')).reverse

def render (value : Json) : String :=
  let c : Cursor := Cursor.sign {} ['-', '-', '-'] true false false
  let c := (emit none false c value).indent 0
  let c := if isOpenEnded value then (c.sign ['.', '.', '.'] true false false).indent 0 else c
  dropFinalBreaks c.text

end TreeDump.Yaml
