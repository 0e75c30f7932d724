/-!
# Binary floating-point numbers

Numbers of sixty-four bits: a whole number of at most fifty-three bits times a power of two.
They come from decimal numerals, each of which stands for the nearest such number.

* `Binary64.ofDecimal` rounds a decimal numeral.
* `Binary64.whole?` tells whether a number is a whole one.
-/

namespace TreeDump

/-- A binary floating-point number.  The two zeros are one. -/
inductive Binary64 where
  /-- The number `numerator / 2 ^ scale`. -/
  | finite (numerator : Int) (scale : Nat)
  | infinite (negative : Bool)
  | nan
deriving Repr, DecidableEq

namespace Binary64

/-- A quotient rounded to the nearest whole number, a half to the even one. -/
def roundQuotient (num den : Nat) : Nat :=
  let q := num / den
  let r := num % den
  if 2 * r < den then q
  else if den < 2 * r then q + 1
  else q + q % 2

/-- Whether `num / den < 2 ^ e`. -/
def isBelowPower (num den : Nat) (e : Int) : Bool :=
  if 0 ≤ e then num < den * Nat.pow 2 e.toNat else num * Nat.pow 2 (-e).toNat < den

/-- The exponent of the last of the fifty-three bits of `num / den`; numbers that are too small
have fewer bits. -/
def unitExponent (num den : Nat) : Int :=
  let e := (num.log2 : Int) - den.log2
  let e := if isBelowPower num den e then e - 1 else e
  max (e - 52) (-1074)

/-- A number of units with a sign. -/
def ofUnits (negative : Bool) (units : Nat) (e : Int) : Binary64 :=
  let signed := fun n : Nat => if negative then -(n : Int) else n
  if 0 ≤ e then
    let n := units * Nat.pow 2 e.toNat
    if n < Nat.pow 2 1024 then finite (signed n) 0 else infinite negative
  else finite (signed units) (-e).toNat

def ofRatio (negative : Bool) (num den : Nat) : Binary64 :=
  let e := unitExponent num den
  let units := if 0 ≤ e then roundQuotient num (den * Nat.pow 2 e.toNat)
    else roundQuotient (num * Nat.pow 2 (-e).toNat) den
  ofUnits negative units e

/-- The number nearest to `digits * 10 ^ exponent`.  What lies far outside the range is not
computed. -/
def ofDecimal (negative : Bool) (digits : Nat) (exponent : Int) : Binary64 :=
  if digits = 0 then finite 0 0
  else
    let magnitude := (Nat.toDigits 10 digits).length + exponent
    if 400 < magnitude then infinite negative
    else if magnitude < -400 then finite 0 0
    else if 0 ≤ exponent then ofRatio negative (digits * Nat.pow 10 exponent.toNat) 1
    else ofRatio negative digits (Nat.pow 10 (-exponent).toNat)

def isFinite : Binary64 → Bool
  | finite _ _ => true
  | _ => false

/-- The value of a whole number. -/
def whole? : Binary64 → Option Int
  | finite numerator scale =>
    let unit : Int := Nat.pow 2 scale
    if numerator % unit = 0 then some (numerator / unit) else none
  | _ => none

end Binary64

end TreeDump
