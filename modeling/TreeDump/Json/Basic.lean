import TreeDump.Text.Hex

/-!
# JSON values and their text

Values hold no fractions, and objects keep their fields in the order in which they were put.

* `Json.encode` is the text of a value, by recursion on the value.
* `Layout` says where blanks go: nowhere, or one element to a line.
-/

namespace TreeDump

inductive Json where
  | null
  | bool (b : Bool)
  | int (n : Int)
  | str (s : String)
  | arr (items : List Json)
  | obj (fields : List (String × Json))
deriving Repr, Inhabited

/-- Where the blanks of a text go. -/
inductive Layout where
  | compact
  /-- Each element of a container on a line of its own, `width` spaces further in than the line
  of the container, and a space after the colon of a key. -/
  | indented (width : Nat)
deriving Repr, DecidableEq

namespace Layout

/-- What separates elements at a nesting level. -/
def newline : Layout → Nat → String
  | compact, _ => ""
  | indented width, level => "\n" ++ String.ofList (List.replicate (width * level) ' ')

/-- What separates a key from its value. -/
def colon : Layout → String
  | compact => ":"
  | indented _ => ": "

end Layout

namespace Json

/-! ## Strings -/

/-- One character of a string: the quotation mark, the backslash and the controls are escaped,
all else stands for itself. -/
def escape (c : Char) : List Char :=
  if c == '"' then ['\\', '"']
  else if c == '\\' then ['\\', '\\']
  else if c == '\n' then ['\\', 'n']
  else if c == '\r' then ['\\', 'r']
  else if c == '\t' then ['\\', 't']
  else if c == '\x08' then ['\\', 'b']
  else if c == '\x0c' then ['\\', 'f']
  else if c.toNat < 0x20 then '\\' :: 'u' :: Hex.digits false 4 c.toNat
  else [c]

def quote (s : String) : String := String.ofList ('"' :: s.toList.flatMap escape ++ ['"'])

/-! ## Values -/

/-- The text of a value that holds no other; containers are written as if empty. -/
def scalar : Json → String
  | null => "null"
  | bool true => "true"
  | bool false => "false"
  | int n => toString n
  | str s => quote s
  | arr _ => "[]"
  | obj _ => "\x7b\x7d"

mutual

/-- The text of a value that stands at a nesting level. -/
def encode (layout : Layout) (level : Nat) : Json → String
  | arr (item :: items) =>
    "[" ++ layout.newline (level + 1) ++ encode layout (level + 1) item
      ++ encodeItems layout level items
  | obj ((key, value) :: fields) =>
    "\x7b" ++ layout.newline (level + 1) ++ quote key ++ layout.colon
      ++ encode layout (level + 1) value ++ encodeFields layout level fields
  | value => scalar value

/-- The elements of an array after the first one, and its end. -/
def encodeItems (layout : Layout) (level : Nat) : List Json → String
  | [] => layout.newline level ++ "]"
  | item :: items =>
    "," ++ layout.newline (level + 1) ++ encode layout (level + 1) item
      ++ encodeItems layout level items

/-- The fields of an object after the first one, and its end. -/
def encodeFields (layout : Layout) (level : Nat) : List (String × Json) → String
  | [] => layout.newline level ++ "\x7d"
  | (key, value) :: fields =>
    "," ++ layout.newline (level + 1) ++ quote key ++ layout.colon
      ++ encode layout (level + 1) value ++ encodeFields layout level fields

end

def isContainer : Json → Bool
  | arr _ | obj _ => true
  | _ => false

def field? (name : String) : Json → Option Json
  | obj fields => fields.lookup name
  | _ => none

end Json

end TreeDump
