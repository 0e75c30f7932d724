/-!
# Hexadecimal text

Fixed-width hexadecimal numerals in either case, as escapes write them, and the value of a
digit, as escapes are read.
-/

namespace TreeDump.Hex

/-- The sixteen digits, with letters from `a` or from `A`. -/
def digit (upper : Bool) (n : Nat) : Char :=
  if n < 10 then Char.ofNat (0x30 + n) else Char.ofNat ((if upper then 0x41 else 0x61) + n - 10)

/-- The last `width` hexadecimal digits of a number, zeros included. -/
def digits (upper : Bool) : Nat → Nat → List Char
  | 0, _ => []
  | width + 1, n => digits upper width (n / 16) ++ [digit upper (n % 16)]

/-- A number as exactly `width` hexadecimal digits. -/
def text (upper : Bool) (width n : Nat) : String := String.ofList (digits upper width n)

def value? (c : Char) : Option Nat :=
  let n := c.toNat
  if 0x30 ≤ n && n ≤ 0x39 then some (n - 0x30)
  else if 0x61 ≤ n && n ≤ 0x66 then some (n - 0x61 + 10)
  else if 0x41 ≤ n && n ≤ 0x46 then some (n - 0x41 + 10)
  else none

def isDigit (c : Char) : Bool := (value? c).isSome

/-- The number that a run of digits writes; other characters count as zero. -/
def read (cs : List Char) : Nat := cs.foldl (fun n c => 16 * n + (value? c).getD 0) 0

end TreeDump.Hex
