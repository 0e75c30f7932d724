import TreeDump.Text.Lines

/-!
# Whole numbers in texts

A setting that takes a whole number also takes a text that writes one: with blanks around it, a
plus sign, leading zeros, underscores between digits, and zeros after a decimal point.
-/

namespace TreeDump.Whole

/-- The longest text that is looked at, in bytes. -/
def maxBytes : Nat := 4300

def digits? (cs : List Char) : Option Nat :=
  if cs.all Char.isDigit then some (cs.foldl (fun n c => 10 * n + (c.toNat - 0x30)) 0) else none

/-- The number that digits write without leading zeros. -/
def natural? : List Char → Option Nat
  | [] => none
  | ['0'] => some 0
  | '0' :: _ => none
  | cs => digits? cs

/-- The number that digits write, perhaps after a minus sign. -/
def plain? : List Char → Option Int
  | '-' :: cs => (natural? cs).map fun n => -(n : Int)
  | cs => (natural? cs).map fun n => (n : Int)

/-- A text without a plus sign in front, which no minus sign follows. -/
def dropPlus? : List Char → Option (List Char)
  | '+' :: '-' :: _ => none
  | '+' :: cs => some cs
  | cs => some cs

/-- What follows leading zeros, the last of which was `last`; a zero stays if no digit
follows. -/
def afterZeros? (last : Char) : List Char → Option (List Char)
  | [] => some [last]
  | c :: rest =>
    if c == '0' then afterZeros? c rest
    else if c == '_' then if last == '_' then none else afterZeros? c rest
    else if c == '.' then some (last :: c :: rest)
    else if c.isDigit then some (c :: rest)
    else none

def dropZeros? : List Char → Option (List Char)
  | '0' :: rest => afterZeros? '0' rest
  | c :: rest => if c.isDigit || c == '-' then some (c :: rest) else none
  | [] => none

/-- A text without a decimal point that only zeros follow. -/
def dropDecimals (cs : List Char) : List Char :=
  match cs.span (· != '.') with
  | (before, _ :: after) => if after.all (· == '0') then before else cs
  | (_, []) => cs

def hasDoubled : List Char → Bool
  | '_' :: '_' :: _ => true
  | _ :: rest => hasDoubled rest
  | [] => false

/-- A text without the underscores in it, if none is at an end or beside another. -/
def dropUnderscores (cs : List Char) : List Char :=
  if cs.head? == some '_' || cs.getLast? == some '_' || hasDoubled cs then cs
  else cs.filter (· != '_')

def read? (cs : List Char) : Option Int :=
  match plain? cs with
  | some n => some n
  | none => do
    let cs ← dropPlus? (Lines.trim CharClass.isBlank cs)
    let cs ← dropZeros? cs
    plain? (dropUnderscores (dropDecimals cs))

end TreeDump.Whole
