import TreeDump.Text.CharClass

/-!
# Lines and blanks

Cutting text at its line boundaries and stripping blanks from its ends.

* `splitLines` cuts at every character that ends a line, taking a carriage return and the line
  feed after it as one boundary; the last line need not be ended.
* `stripStart` and `stripEnd` remove blanks as `CharClass.isSpace` has them, and `trim` those of
  any kind.
-/

namespace TreeDump.Lines

def isBoundary (c : Char) : Bool :=
  let n := c.toNat
  (0x0a ≤ n && n ≤ 0x0d) || (0x1c ≤ n && n ≤ 0x1e) || n == 0x85 || n == 0x2028 || n == 0x2029

/-- The lines of a text whose current line, so far, is `line` read backwards. -/
def cut (line : List Char) : List Char → List (List Char)
  | [] => if line.isEmpty then [] else [line.reverse]
  | '\r' :: '\n' :: rest => line.reverse :: cut [] rest
  | c :: rest => if isBoundary c then line.reverse :: cut [] rest else cut (c :: line) rest

/-- The lines of a text, without their ends. -/
def splitLines (cs : List Char) : List (List Char) := cut [] cs

def stripStart (cs : List Char) : List Char := cs.dropWhile CharClass.isSpace

def stripEnd (cs : List Char) : List Char := (cs.reverse.dropWhile CharClass.isSpace).reverse

/-- A text without characters of a kind at its ends. -/
def trim (isBlank : Char → Bool) (cs : List Char) : List Char :=
  ((cs.dropWhile isBlank).reverse.dropWhile isBlank).reverse

end TreeDump.Lines
