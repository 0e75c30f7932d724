import TreeDump.Json.Basic

/-!
# Reading JSON

The reader takes the values that `Json` can hold: no fractions and no exponents.  What it takes
it takes strictly: no leading zeros, no bare controls in strings, no trailing commas.

* `Json.parse` reads a whole text as one value with blanks around it.
-/

namespace TreeDump.Json

def skipBlank : List Char → List Char
  | c :: rest =>
    if c == ' ' || c == '\n' || c == '\r' || c == '\t' then skipBlank rest else c :: rest
  | [] => []

/-- A text that starts with a given word, without that word. -/
def expect? : List Char → List Char → Option (List Char)
  | [], rest => some rest
  | w :: word, c :: rest => if w == c then expect? word rest else none
  | _ :: _, [] => none

/-! ## Strings -/

/-- The character that a letter after a backslash stands for. -/
def unescape? : Char → Option Char
  | '"' => some '"'
  | '\\' => some '\\'
  | '/' => some '/'
  | 'b' => some '\x08'
  | 'f' => some '\x0c'
  | 'n' => some '\n'
  | 'r' => some '\r'
  | 't' => some '\t'
  | _ => none

/-- The number that four hexadecimal digits write. -/
def hex4? (a b c d : Char) : Option Nat :=
  if [a, b, c, d].all Hex.isDigit then some (Hex.read [a, b, c, d]) else none

/-- The code point that two halves of a surrogate pair stand for. -/
def joinSurrogates (high low : Nat) : Nat := 0x10000 + (high - 0xd800) * 0x400 + (low - 0xdc00)

/-- The rest of a string whose characters so far are `done` backwards. -/
def readString (done : List Char) : List Char → Option (String × List Char)
  | '"' :: rest => some (String.ofList done.reverse, rest)
  | '\\' :: 'u' :: a :: b :: c :: d :: rest =>
    match hex4? a b c d with
    | none => none
    | some high =>
      if high < 0xd800 || 0xe000 ≤ high then readString (Char.ofNat high :: done) rest
      else match rest with
        | '\\' :: 'u' :: e :: f :: g :: h :: rest =>
          match hex4? e f g h with
          | none => none
          | some low =>
            if high < 0xdc00 && 0xdc00 ≤ low && low < 0xe000 then
              readString (Char.ofNat (joinSurrogates high low) :: done) rest
            else none
        | _ => none
  | '\\' :: c :: rest =>
    match unescape? c with
    | some c => readString (c :: done) rest
    | none => none
  | c :: rest => if c.toNat < 0x20 then none else readString (c :: done) rest
  | [] => none

/-! ## Numbers -/

/-- Whether a fraction or an exponent follows. -/
def continues : List Char → Bool
  | c :: _ => c == '.' || c == 'e' || c == 'E'
  | [] => false

/-- The number that digits write, unless zeros lead it. -/
def natural? : List Char → Option Nat
  | [] => none
  | '0' :: _ :: _ => none
  | digits => some (Nat.ofDigitChars 10 digits 0)

/-- A number without sign, fraction or exponent. -/
def readNat (cs : List Char) : Option (Nat × List Char) :=
  let rest := cs.dropWhile Char.isDigit
  if continues rest then none else (natural? (cs.takeWhile Char.isDigit)).map (·, rest)

/-- A number with an optional minus sign. -/
def readInt : List Char → Option (Int × List Char)
  | '-' :: rest => (readNat rest).map fun (n, rest) => (-(n : Int), rest)
  | rest => (readNat rest).map fun (n, rest) => ((n : Int), rest)

/-! ## Values -/

mutual

/-- The value at the front of a text, with at most `fuel` nested readings. -/
def readValue : Nat → List Char → Option (Json × List Char)
  | 0, _ => none
  | fuel + 1, cs =>
    match skipBlank cs with
    | '"' :: rest => (readString [] rest).map fun (s, rest) => (.str s, rest)
    | '[' :: rest =>
      match skipBlank rest with
      | ']' :: rest => some (.arr [], rest)
      | rest => (readItems fuel rest).map fun (items, rest) => (.arr items, rest)
    | '\x7b' :: rest =>
      match skipBlank rest with
      | '\x7d' :: rest => some (.obj [], rest)
      | rest => (readFields fuel rest).map fun (fields, rest) => (.obj fields, rest)
    | 'n' :: rest => (expect? ['u', 'l', 'l'] rest).map fun rest => (.null, rest)
    | 't' :: rest => (expect? ['r', 'u', 'e'] rest).map fun rest => (.bool true, rest)
    | 'f' :: rest => (expect? ['a', 'l', 's', 'e'] rest).map fun rest => (.bool false, rest)
    | rest => (readInt rest).map fun (n, rest) => (.int n, rest)

/-- The elements of an array from one element on, up to and past its end. -/
def readItems : Nat → List Char → Option (List Json × List Char)
  | 0, _ => none
  | fuel + 1, cs =>
    match readValue fuel cs with
    | none => none
    | some (item, rest) =>
      match skipBlank rest with
      | ',' :: rest => (readItems fuel rest).map fun (items, rest) => (item :: items, rest)
      | ']' :: rest => some ([item], rest)
      | _ => none

/-- The fields of an object from one field on, up to and past its end. -/
def readFields : Nat → List Char → Option (List (String × Json) × List Char)
  | 0, _ => none
  | fuel + 1, cs =>
    match skipBlank cs with
    | '"' :: rest =>
      match readString [] rest with
      | none => none
      | some (key, rest) =>
        match skipBlank rest with
        | ':' :: rest =>
          match readValue fuel rest with
          | none => none
          | some (value, rest) =>
            match skipBlank rest with
            | ',' :: rest =>
              (readFields fuel rest).map fun (fields, rest) => ((key, value) :: fields, rest)
            | '\x7d' :: rest => some ([(key, value)], rest)
            | _ => none
        | _ => none
    | _ => none

end

theorem readValue_zero (cs : List Char) : readValue 0 cs = none := by rw [readValue]

theorem readItems_zero (cs : List Char) : readItems 0 cs = none := by rw [readItems]

theorem readFields_zero (cs : List Char) : readFields 0 cs = none := by rw [readFields]

/-- The value that a whole text writes.  Each nested reading takes a character, so the length of
the text is enough of them. -/
def parse (text : String) : Option Json :=
  let cs := text.toList
  match readValue (2 * cs.length + 2) cs with
  | some (value, rest) => if (skipBlank rest).isEmpty then some value else none
  | none => none

end TreeDump.Json
