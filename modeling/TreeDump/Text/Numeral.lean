import TreeDump.Text.Lines

/-!
# Decimal numerals

Reading integers as people type them: decimal digits of any script, single underscores between
digits, a sign in front and blanks around.

* `read?` is the number that a text writes.
* `tooLong` is what is said of numbers with more digits than are read.
-/

namespace TreeDump.Numeral

/-- The largest number of digits of a decimal number in a text. -/
def maxDigits : Nat := 4300

/-- The wording for a number with more digits. -/
def tooLong (digits : Nat) : String :=
  "Exceeds the limit (" ++ toString maxDigits ++ " digits) for integer string conversion: value has "
    ++ toString digits ++ " digits; use sys.set_int_max_str_digits() to increase the limit"

/-- The number that digits write after the digits that wrote `n`.  An underscore stands between
two digits; `afterDigit` tells whether a digit stands before the rest. -/
def digits? (afterDigit : Bool) (n : Nat) : List Char → Option Nat
  | [] => if afterDigit then some n else none
  | '_' :: rest => if afterDigit then digits? false n rest else none
  | c :: rest =>
    match CharClass.decimalValue? c with
    | some d => digits? true (10 * n + d) rest
    | none => none

/-- The number that a sign and digits write. -/
def signed? : List Char → Option Int
  | '-' :: rest => (digits? false 0 rest).map fun n => -(n : Int)
  | '+' :: rest => (digits? false 0 rest).map fun n => (n : Int)
  | rest => (digits? false 0 rest).map fun n => (n : Int)

/-- The number that a text writes, with blanks around it, unless it has too many digits. -/
def read? (text : String) : Option Int :=
  let cs := text.toList
  if maxDigits < (cs.filter CharClass.isDecimalDigit).length then none
  else signed? (Lines.trim CharClass.isBlank cs)

end TreeDump.Numeral
