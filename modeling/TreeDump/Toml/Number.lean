import TreeDump.Toml.Basic
import TreeDump.Value

/-!
# Reading settings files: numbers, dates and times

The readers here answer `none` if the text does not begin with what they read.
-/

namespace TreeDump.Toml

/-! ## Digits -/

/-- More digits of a kind, after the digits `done`, which stand backwards.  An underscore may
stand between two digits. -/
def moreDigits (isDigit : Char → Bool) (done : List Char) : List Char → List Char × List Char
  | '_' :: c :: rest =>
    if isDigit c then moreDigits isDigit (c :: done) rest else (done.reverse, '_' :: c :: rest)
  | c :: rest =>
    if isDigit c then moreDigits isDigit (c :: done) rest else (done.reverse, c :: rest)
  | [] => (done.reverse, [])

/-- The digits of a kind that a text begins with. -/
def digits? (isDigit : Char → Bool) : List Char → Option (List Char × List Char)
  | c :: rest => if isDigit c then some (moreDigits isDigit [c] rest) else none
  | [] => none

def digitsValue (base : Nat) (digits : List Char) : Nat :=
  digits.foldl (fun n c => base * n + (Hex.value? c).getD 0) 0

/-! ## Numbers -/

/-- A whole number in base sixteen, eight or two. -/
def powerBase? : List Char → Option (Value × List Char)
  | '0' :: 'x' :: rest => read 16 Hex.isDigit rest
  | '0' :: 'o' :: rest => read 8 (fun c => '0' ≤ c && c ≤ '7') rest
  | '0' :: 'b' :: rest => read 2 (fun c => c == '0' || c == '1') rest
  | _ => none
where
  read (base : Nat) (isDigit : Char → Bool) (rest : List Char) : Option (Value × List Char) :=
    (digits? isDigit rest).map fun (digits, rest) => (.whole (digitsValue base digits), rest)

/-- The digits before the point: a single zero, or digits that do not begin with one. -/
def leading? : List Char → Option (List Char × List Char)
  | '0' :: rest => some (['0'], rest)
  | rest => digits? Char.isDigit rest

/-- A sign, true for a minus, and what follows it. -/
def sign : List Char → Bool × List Char
  | '-' :: rest => (true, rest)
  | '+' :: rest => (false, rest)
  | rest => (false, rest)

def fraction? : List Char → Option (List Char × List Char)
  | '.' :: rest => digits? Char.isDigit rest
  | _ => none

/-- The power of ten by which a number is to be multiplied. -/
def exponent? : List Char → Option (Int × List Char)
  | c :: rest =>
    if c == 'e' || c == 'E' then
      let (negative, rest) := sign rest
      (digits? Char.isDigit rest).map fun (digits, rest) =>
        let n : Int := digitsValue 10 digits
        (if negative then -n else n, rest)
    else none
  | [] => none

/-- A decimal number: a whole one, or a floating-point one if it has a point or an exponent. -/
def decimal? (cs : List Char) : Option (Except Fault (Value × List Char)) :=
  let (negative, rest) := sign cs
  match leading? rest with
  | none => none
  | some (digits, rest) =>
    match fraction? rest, exponent? rest with
    | none, none =>
      let n : Int := digitsValue 10 digits
      if Numeral.maxDigits < digits.length then some (.error (.longNumeral digits.length))
      else some (.ok (.whole (if negative then -n else n), rest))
    | none, some (e, rest) =>
      some (.ok (.real (.ofDecimal negative (digitsValue 10 digits) e), rest))
    | some (decimals, rest), _ =>
      let (e, rest) := (exponent? rest).getD (0, rest)
      let n := digitsValue 10 (digits ++ decimals)
      some (.ok (.real (.ofDecimal negative n (e - decimals.length)), rest))

def number? (cs : List Char) : Option (Except Fault (Value × List Char)) :=
  match powerBase? cs with
  | some result => some (.ok result)
  | none => decimal? cs

def named? (cs : List Char) : Option (Value × List Char) :=
  let (negative, rest) := sign cs
  match rest with
  | 'i' :: 'n' :: 'f' :: rest => some (.real (.infinite negative), rest)
  | 'n' :: 'a' :: 'n' :: rest => some (.real .nan, rest)
  | _ => none

/-! ## Dates and times -/

/-- Two digits that write a number in a range. -/
def twoDigits? (low high : Nat) : List Char → Option (Nat × List Char)
  | a :: b :: rest =>
    let n := digitsValue 10 [a, b]
    if a.isDigit && b.isDigit && low ≤ n && n ≤ high then some (n, rest) else none
  | _ => none

/-- What follows a character that a text begins with. -/
def after? (c : Char) : List Char → Option (List Char)
  | d :: rest => if c == d then some rest else none
  | [] => none

/-- Hours and minutes, and what follows them. -/
def hoursMinutes? (cs : List Char) : Option (List Char) := do
  let (_, rest) ← twoDigits? 0 23 cs
  let rest ← after? ':' rest
  let (_, rest) ← twoDigits? 0 59 rest
  return rest

/-- A time of day, and what follows it. -/
def time? (cs : List Char) : Option (List Char) := do
  let rest ← hoursMinutes? cs
  let rest ← after? ':' rest
  let (_, rest) ← twoDigits? 0 59 rest
  match rest with
  | '.' :: c :: more => if c.isDigit then return more.dropWhile Char.isDigit else return rest
  | _ => return rest

/-- What follows an offset from universal time, if there is one. -/
def skipOffset : List Char → List Char
  | 'Z' :: rest | 'z' :: rest => rest
  | '+' :: rest => (hoursMinutes? rest).getD ('+' :: rest)
  | '-' :: rest => (hoursMinutes? rest).getD ('-' :: rest)
  | rest => rest

def daysOfMonth (year month : Nat) : Nat :=
  if month = 2 then
    if year % 4 = 0 ∧ (year % 100 ≠ 0 ∨ year % 400 = 0) then 29 else 28
  else if month = 4 ∨ month = 6 ∨ month = 9 ∨ month = 11 then 30
  else 31

/-- A date, and what follows it: whether there is such a day. -/
def date? (cs : List Char) : Option (Bool × List Char) := do
  let year := cs.take 4
  if year.length ≠ 4 ∨ !year.all Char.isDigit then none
  let rest ← after? '-' (cs.drop 4)
  let (month, rest) ← twoDigits? 1 12 rest
  let rest ← after? '-' rest
  let (day, rest) ← twoDigits? 1 31 rest
  let year := digitsValue 10 year
  return (1 ≤ year && day ≤ daysOfMonth year month, rest)

/-- A date, perhaps with a time, and what follows it: whether there is such a day. -/
def dateTime? (cs : List Char) : Option (Bool × List Char) := do
  let (valid, rest) ← date? cs
  match rest with
  | c :: more =>
    if c == 'T' || c == 't' || c == ' ' then
      match time? more with
      | some rest => return (valid, skipOffset rest)
      | none => return (valid, rest)
    else return (valid, rest)
  | [] => return (valid, rest)

end TreeDump.Toml
