import TreeDump.Toml.Number
import TreeDump.Toml.Table
import TreeDump.Toml.Text

/-!
# Reading settings files

A settings file is a row of statements, each on a line of its own: a key and its value, or the
header of a table or of the next element of an array of tables.

* `parse` answers the table that a whole file writes, or what is wrong with it.
-/

namespace TreeDump.Toml

/-! ## Values -/

/-- A change of tables, which fails here if it cannot be made. -/
def orFail {α : Type} (result : Except Cause α) : Reader α :=
  match result with
  | .ok a => pure a
  | .error cause => Reader.fail cause

def readPlain : Reader Value := fun rest =>
  match dateTime? rest with
  | some (true, rest) => .ok (.moment, rest)
  | some (false, _) => Reader.fail .notMoment rest
  | none =>
    match time? rest with
    | some rest => .ok (.moment, rest)
    | none =>
      match number? rest with
      | some result => result
      | none =>
        match named? rest with
        | some result => .ok result
        | none => Reader.fail .notValue rest

mutual

/-- The value at the front of a text, with at most `fuel` nested readings. -/
def readValue : Nat → Reader Value
  | 0 => Reader.fail .notValue
  | fuel + 1 => do
    let rest ← get
    match rest with
    | '"' :: '"' :: '"' :: after =>
      set after
      return .text (← readSeveralLines '"')
    | '"' :: after =>
      set after
      return .text (← readOneLine)
    | '\'' :: '\'' :: '\'' :: after =>
      set after
      return .text (← readSeveralLines '\'')
    | '\'' :: after =>
      set after
      return .text (← readLiteral "'" false)
    | 't' :: 'r' :: 'u' :: 'e' :: after =>
      set after
      return .flag true
    | 'f' :: 'a' :: 'l' :: 's' :: 'e' :: after =>
      set after
      return .flag false
    | '[' :: after =>
      set after
      skipGaps (after.length + 1)
      if ← Reader.accept ']' then return .list []
      return .list (← readItems fuel [])
    | '\x7b' :: after =>
      set after
      skipBlanks
      if ← Reader.accept '\x7d' then return .table []
      return .table (← readFields fuel [] [])
    | _ => readPlain

/-- The elements of an array from one element on, up to and past its end, after the elements
`done`, which stand backwards. -/
def readItems : Nat → List Value → Reader (List Value)
  | 0, _ => Reader.fail .unclosedArray
  | fuel + 1, done => do
    let item ← readValue fuel
    skipGaps ((← get).length + 1)
    if ← Reader.accept ']' then return (item :: done).reverse
    Reader.expect ',' .unclosedArray
    skipGaps ((← get).length + 1)
    if ← Reader.accept ']' then return (item :: done).reverse
    readItems fuel (item :: done)

/-- The fields of an inline table from one field on, up to and past its end, after those that
were read so far.  Only what a comma follows becomes immutable. -/
def readFields : Nat → Fields → Marks → Reader Fields
  | 0, _, _ => Reader.fail .unclosedTable
  | fuel + 1, fields, marks => do
    let (key, value) ← readPair fuel
    if marks.isImmutable key then Reader.fail (.immutable key)
    let name := key.getLastD ""
    let fields ← orFail
      (fields.changeAt false (Fields.define (.repeatedKey name) name value) key.dropLast)
    skipBlanks
    if ← Reader.accept '\x7d' then return fields
    Reader.expect ',' .unclosedTable
    skipBlanks
    readFields fuel fields (if value.isCollection then (key, .immutable) :: marks else marks)

def readPair : Nat → Reader (Key × Value)
  | 0 => Reader.fail .notKey
  | fuel + 1 => do
    let key ← readKey
    Reader.expect '=' .missingEquals
    skipBlanks
    return (key, ← readValue fuel)

end

/-! ## Statements -/

/-- What the statements so far have written. -/
structure Outline where
  root : Fields := []
  marks : Marks := []
  /-- Keys of tables that count as declared from the next header on. -/
  pending : List Key := []
  /-- The key of the table that statements belong to. -/
  header : Key := []

namespace Outline

/-- A header begins: the pending keys are declared. -/
def settle (o : Outline) : Outline :=
  { o with marks := o.pending.map (·, .declared) ++ o.marks, pending := [] }

/-- The header of a table, after its bracket. -/
def readTableHeader (o : Outline) : Reader Outline := do
  skipBlanks
  let key ← readKey
  if o.marks.isDeclared key || o.marks.isImmutable key then Reader.fail (.declaredTwice key)
  let root ← orFail (o.root.changeAt true .ok key)
  Reader.expect ']' .missingBracket
  return { o with root, marks := (key, .declared) :: o.marks, header := key }

/-- The header of an element of an array of tables, after its brackets.  What was said of the
element before it is forgotten. -/
def readElementHeader (o : Outline) : Reader Outline := do
  skipBlanks
  let key ← readKey
  if o.marks.isImmutable key then Reader.fail (.immutable key)
  let root ← orFail
    (o.root.changeAt true (Fields.extendArray (key.getLastD "")) key.dropLast)
  match ← get with
  | ']' :: ']' :: rest => set rest
  | _ => Reader.fail .missingBrackets
  return { o with root, marks := (key, .declared) :: o.marks.clearBelow key, header := key }

/-- The keys of the tables that a dotted key leads through. -/
def tablesOnTheWay (key : Key) : List Key :=
  (List.range (key.length - 1)).map fun n => key.take (n + 1)

/-- A key and its value, put into the table of the last header. -/
def readField (o : Outline) (fuel : Nat) : Reader Outline := do
  let (key, value) ← readPair fuel
  let name := key.getLastD ""
  let tables := (tablesOnTheWay key).map (o.header ++ ·)
  match tables.find? o.marks.isDeclared with
  | some table => Reader.fail (.redefined table)
  | none => pure ()
  let parent := o.header ++ key.dropLast
  if o.marks.isImmutable parent then Reader.fail (.immutable parent)
  let root ← orFail (o.root.changeAt true (Fields.define .overwritten name value) parent)
  let marks := if value.isCollection then (o.header ++ key, .immutable) :: o.marks else o.marks
  return { o with root, marks, pending := tables ++ o.pending }

/-- One statement, without the end of its line. -/
def readStatement (o : Outline) : Reader Outline := do
  let rest ← get
  match rest with
  | '[' :: '[' :: after =>
    set after
    o.settle.readElementHeader
  | '[' :: after =>
    set after
    o.settle.readTableHeader
  | '#' :: _ => return o
  | c :: _ =>
    if beginsKey c then o.readField (2 * rest.length + 2) else Reader.fail .notStatement
  | [] => return o

/-- The statements of the rest of a text, which has fewer lines than `fuel`. -/
def readStatements : Nat → Outline → Reader Fields
  | 0, o => return o.root
  | fuel + 1, o => do
    skipBlanks
    match ← get with
    | [] => return o.root
    | '\n' :: rest =>
      set rest
      readStatements fuel o
    | _ =>
      let o ← o.readStatement
      skipBlanks
      skipComment
      match ← get with
      | [] => return o.root
      | '\n' :: rest =>
        set rest
        readStatements fuel o
      | _ => Reader.fail .missingLineEnd

end Outline

/-- A text with each carriage return dropped that a line feed follows. -/
def joinLineEnds : List Char → List Char
  | '\r' :: '\n' :: rest => '\n' :: joinLineEnds rest
  | c :: rest => c :: joinLineEnds rest
  | [] => []

/-- The table that a text writes.  Each nested reading and each line takes a character, so the
length of the text bounds their number. -/
def parse (text : List Char) : Except Fault Fields :=
  match (Outline.readStatements (text.length + 1) {}).run text with
  | .ok (fields, _) => .ok fields
  | .error fault => .error fault

end TreeDump.Toml
