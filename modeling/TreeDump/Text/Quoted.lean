import TreeDump.Text.CharClass
import TreeDump.Text.Hex

/-!
# Quoted text in messages

Error messages show a piece of the input between quotation marks, with everything that cannot
be printed escaped.  Apostrophes are used as marks unless the text holds an apostrophe and no
double quote.

* `quoted` is the form that messages show.
-/

namespace TreeDump.Quoted

/-- The mark around a text: a double quote only if that saves escaping an apostrophe. -/
def mark (cs : List Char) : Char :=
  if cs.contains '\'' && !cs.contains '"' then '"' else '\''

/-- One character of a quoted form: backslash and the mark after a backslash, the three common
controls by letter, other unprintable characters by their code point in two, four or eight
digits. -/
def escape (mark c : Char) : List Char :=
  if c == '\\' || c == mark then ['\\', c]
  else if c == '\n' then ['\\', 'n']
  else if c == '\r' then ['\\', 'r']
  else if c == '\t' then ['\\', 't']
  else if CharClass.isPrintable c then [c]
  else if c.toNat < 0x100 then '\\' :: 'x' :: Hex.digits false 2 c.toNat
  else if c.toNat < 0x10000 then '\\' :: 'u' :: Hex.digits false 4 c.toNat
  else '\\' :: 'U' :: Hex.digits false 8 c.toNat

end TreeDump.Quoted

namespace TreeDump

/-- A text between quotation marks, with unprintable characters escaped. -/
def quoted (text : String) : String :=
  let cs := text.toList
  let m := Quoted.mark cs
  String.ofList (m :: cs.flatMap (Quoted.escape m) ++ [m])

/-- Several texts quoted in a row, between parentheses; a single one is followed by a comma. -/
def quotedRow : List String → String
  | [text] => "(" ++ quoted text ++ ",)"
  | texts => "(" ++ ", ".intercalate (texts.map quoted) ++ ")"

end TreeDump
