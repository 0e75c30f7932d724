import TreeDump.Pattern.Basic
import TreeDump.Pattern.Error
import TreeDump.Text.Hex
import TreeDump.Text.Numeral

/-!
# Reading patterns

A pattern is read token by token, a backslash and the character after it being one token.  What
the flags say is settled while reading, so that the expression that results needs none.

* `Expr.ofText` is the expression of a whole pattern, or the fault that is found first.
-/

namespace TreeDump.Pattern

/-! ## The reader -/

structure Flags where
  ignoreCase : Bool := false
  manyLines : Bool := false
  dotAll : Bool := false
  verbose : Bool := false
  ascii : Bool := false
  unicode : Bool := false
  /-- The flag that admits no repetitions.  Only a whole pattern can have it. -/
  template : Bool := false
deriving Repr, DecidableEq

namespace Flags

def folding (f : Flags) : Folding :=
  if !f.ignoreCase then .none else if f.ascii then .ascii else .full

def charSet (f : Flags) (items : List SetItem) (negated : Bool) : Expr :=
  .set ⟨items, negated, f.folding, f.ascii⟩

def literal (f : Flags) (code : Nat) : Expr := f.charSet [.range code code] false

def union (a b : Flags) : Flags :=
  ⟨a.ignoreCase || b.ignoreCase, a.manyLines || b.manyLines, a.dotAll || b.dotAll,
    a.verbose || b.verbose, a.ascii || b.ascii, a.unicode || b.unicode, a.template || b.template⟩

def meets (a b : Flags) : Bool :=
  a.ignoreCase && b.ignoreCase || a.manyLines && b.manyLines || a.dotAll && b.dotAll
    || a.verbose && b.verbose || a.ascii && b.ascii || a.unicode && b.unicode

/-- Flags with some turned on and some turned off.  Turning on a notion of letters turns off the
other one. -/
def change (f on off : Flags) : Flags :=
  let lettersChange := on.ascii || on.unicode
  ⟨(f.ignoreCase || on.ignoreCase) && !off.ignoreCase,
    (f.manyLines || on.manyLines) && !off.manyLines,
    (f.dotAll || on.dotAll) && !off.dotAll,
    (f.verbose || on.verbose) && !off.verbose,
    if lettersChange then on.ascii else f.ascii,
    if lettersChange then on.unicode else f.unicode,
    f.template⟩

end Flags

inductive Token where
  | plain (c : Char)
  | escaped (c : Char)
deriving Repr, DecidableEq

namespace Token

def chars : Token → List Char
  | plain c => [c]
  | escaped c => ['\\', c]

def text (t : Token) : String := String.ofList t.chars

end Token

/-- The reader's place in a pattern and what it knows of the groups. -/
structure Scan where
  position : Nat := 0
  rest : List Char
  flags : Flags := {}
  /-- The widths of the groups, from the first one on; an open group has none yet. -/
  groups : Array (Option Width) := #[]
  names : List (String × Nat) := []
  /-- Inside of a look-behind: the number that the next group had when it began. -/
  behindFrom : Option Nat := none
  /-- Numbers of groups that conditions ask for, with the place where each was first asked. -/
  conditions : List (Int × Nat) := []

inductive Failure where
  | at (cause : Cause) (position : Nat)
  | hugeRepeat
  | longRepeat (digits : Nat)

/-- Readers of a part of a pattern. -/
abbrev Reader := StateT Scan (Except Failure)

namespace Reader

/-- Fails some characters before the place of the reader. -/
def fail {α : Type} (cause : Cause) (offset : Nat) : Reader α :=
  fun scan => .error (.at cause (scan.position - offset))

def peek : Reader (Option Token) := do
  match (← get).rest with
  | [] => return none
  | '\\' :: c :: _ => return some (.escaped c)
  | c :: _ => return some (.plain c)

def isNext (c : Char) : Reader Bool := do return (← peek) == some (.plain c)

/-- Refuses a backslash that ends the pattern as soon as it would be the next token. -/
def checkEscape : Reader Unit := do
  if (← get).rest == ['\\'] then fail .escapeAtEnd 0

def take : Reader (Option Token) := do
  let token ← peek
  match token with
  | none => return none
  | some t =>
    modify fun scan => { scan with
      position := scan.position + t.chars.length, rest := scan.rest.drop t.chars.length }
    checkEscape
    return token

def takeIf (c : Char) : Reader Bool := do
  if ← isNext c then
    let _ ← take
    return true
  else return false

/-- The next characters, at most `n`, as long as they are of a kind. -/
def takeWhile (accepts : Char → Bool) : Nat → Reader (List Char)
  | 0 => return []
  | n + 1 => do
    match ← peek with
    | some (.plain c) =>
      if accepts c then
        let _ ← take
        return c :: (← takeWhile accepts n)
      else return []
    | _ => return []

/-- A name up to a character that ends it, which is taken too. -/
def takeName (stop : Char) (what : String) (done : List Char) : Nat → Reader String
  | 0 => fail (.missing what) 0
  | fuel + 1 => do
    match ← take with
    | none =>
      if done.isEmpty then fail (.missing what) 0
      else fail (.unterminatedName stop) done.length
    | some t =>
      if t == .plain stop then
        if done.isEmpty then fail (.missing what) 1 else return String.ofList done
      else takeName stop what (done ++ t.chars) fuel

/-- A name up to `stop`; the rest of the pattern bounds its length. -/
def nameUntil (stop : Char) (what : String) : Reader String := do
  takeName stop what [] ((← get).rest.length + 1)

end Reader

open Reader

/-! ## Groups -/

def isName (name : String) : Bool :=
  match name.toList with
  | [] => false
  | c :: cs => CharClass.isIdentifierStart c && cs.all CharClass.isIdentifierPart

/-- Refuses a name that cannot name a group, just after it and the character that ends it. -/
def checkName (name : String) : Reader Unit := do
  if !isName name then fail (.badGroupName name) (name.length + 1)

def nextGroup : Reader Nat := do return (← get).groups.size + 1

def isClosed (number : Int) : Reader Bool := do
  if number ≤ 0 then return false
  return ((← get).groups[number.toNat - 1]?.join).isSome

/-- Refuses to look back for a group that the same look-behind takes. -/
def checkBehind (number : Int) : Reader Unit := do
  match (← get).behindFrom with
  | none => return
  | some first =>
    if !(← isClosed number) then fail .openGroup 0
    else if (first : Int) ≤ number then fail .sameLookbehind 0

def openGroup (name : Option String) : Reader Nat := do
  let number ← nextGroup
  match name with
  | none => pure ()
  | some name =>
    match (← get).names.lookup name with
    | some first => fail (.groupNameTwice name number first) (name.length + 1)
    | none => modify fun scan => { scan with names := (name, number) :: scan.names }
  modify fun scan => { scan with groups := scan.groups.push none }
  return number

def Scan.widthOf (scan : Scan) (number : Nat) : Width :=
  (scan.groups[number - 1]?.join).getD ⟨0, 0⟩

def closeGroup (number : Nat) (body : Expr) : Reader Unit :=
  modify fun scan =>
    { scan with groups := scan.groups.setIfInBounds (number - 1) (some (body.width scan.widthOf)) }

/-! ## Escapes -/

/-- Characters that a letter after a backslash stands for. -/
def controlOf? : Char → Option Nat
  | 'a' => some 0x07
  | 'f' => some 0x0c
  | 'n' => some 0x0a
  | 'r' => some 0x0d
  | 't' => some 0x09
  | 'v' => some 0x0b
  | '\\' => some 0x5c
  | _ => none

def categoryOf? : Char → Option SetItem
  | 'd' => some (.category .digit false)
  | 'D' => some (.category .digit true)
  | 's' => some (.category .space false)
  | 'S' => some (.category .space true)
  | 'w' => some (.category .word false)
  | 'W' => some (.category .word true)
  | _ => none

def assertionOf? (flags : Flags) : Char → Option Assertion
  | 'A' => some .textStart
  | 'b' => some (.wordBoundary flags.ascii)
  | 'B' => some (.noWordBoundary flags.ascii)
  | 'Z' => some .textEnd
  | _ => none

def isOctal (c : Char) : Bool := '0' ≤ c && c ≤ '7'

def readOctal (cs : List Char) : Nat := cs.foldl (fun n c => 8 * n + (c.toNat - 0x30)) 0

def readDecimal (cs : List Char) : Nat := cs.foldl (fun n c => 10 * n + (c.toNat - 0x30)) 0

/-- An escape with a fixed number of hexadecimal digits. -/
def readHex (letter : Char) (count : Nat) : Reader Nat := do
  let digits ← takeWhile Hex.isDigit count
  if digits.length ≠ count then
    fail (.incompleteEscape (String.ofList ('\\' :: letter :: digits))) (digits.length + 2)
  else
    let code := Hex.read digits
    if 0x10ffff < code then
      fail (.badEscape (String.ofList ('\\' :: letter :: digits))) (digits.length + 2)
    else return code

/-- Escapes that write a code point, whether inside of a set or outside. -/
def readCode? (c : Char) : Reader (Option Nat) := do
  if c == 'x' then return some (← readHex c 2)
  else if c == 'u' then return some (← readHex c 4)
  else if c == 'U' then return some (← readHex c 8)
  else if c == 'N' then
    if !(← takeIf '\x7b') then fail .missingBrace 0
    else
      let name ← nameUntil '\x7d' "character name"
      fail (.unknownCharacter name) (name.length + 4)
  else return none

def readSetEscape (c : Char) : Reader SetItem := do
  let one := fun (code : Nat) => SetItem.range code code
  match if c == 'b' then some 8 else controlOf? c with
  | some code => return one code
  | none =>
    match categoryOf? c with
    | some item => return item
    | none =>
      match ← readCode? c with
      | some code => return one code
      | none =>
        if isOctal c then
          let digits := c :: (← takeWhile isOctal 2)
          let code := readOctal digits
          if 0o377 < code then
            fail (.octalRange (String.ofList ('\\' :: digits))) (digits.length + 1)
          else return one code
        else if c.isDigit || c.isAlpha then fail (.badEscape (String.ofList ['\\', c])) 2
        else return one c.toNat

/-- An escape that begins with a digit other than zero: three octal digits write a character,
one or two digits refer to a group. -/
def readReference (flags : Flags) (c : Char) : Reader Expr := do
  let second ← takeWhile Char.isDigit 1
  let third ←
    match second with
    | [d] => if isOctal c && isOctal d then takeWhile isOctal 1 else pure []
    | _ => pure []
  let digits := c :: second ++ third
  if !third.isEmpty then
    let code := readOctal digits
    if 0o377 < code then
      fail (.octalRange (String.ofList ('\\' :: digits))) (digits.length + 1)
    else return flags.literal code
  else
    let number := readDecimal digits
    if number < (← nextGroup) then
      if !(← isClosed number) then fail .openGroup (digits.length + 1)
      else
        checkBehind number
        return .again number flags.folding
    else fail (.noSuchGroup number) digits.length

def readEscape (flags : Flags) (c : Char) : Reader Expr := do
  match assertionOf? flags c with
  | some a => return .assertion a
  | none =>
    match categoryOf? c with
    | some item => return flags.charSet [item] false
    | none =>
      match controlOf? c with
      | some code => return flags.literal code
      | none =>
        match ← readCode? c with
        | some code => return flags.literal code
        | none =>
          if c == '0' then
            return flags.literal (readOctal (← takeWhile isOctal 2))
          else if c.isDigit then readReference flags c
          else if c.isAlpha then fail (.badEscape (String.ofList ['\\', c])) 2
          else return flags.literal c.toNat

/-! ## Sets -/

/-- One end of a range or a part of a set of its own, from a token. -/
def readSetItem : Token → Reader SetItem
  | .escaped c => readSetEscape c
  | .plain c => return .range c.toNat c.toNat

/-- The parts of a set after the parts `done`, up to the bracket that closes it; `here` is the
position of the bracket that opens it. -/
def readSetItems (here : Nat) (done : List SetItem) : Nat → Reader (List SetItem)
  | 0 => return done
  | fuel + 1 => do
    let unterminated : Reader (List SetItem) := do
      fail .unterminatedSet ((← get).position - here)
    match ← take with
    | none => unterminated
    | some low =>
      if low == .plain ']' && !done.isEmpty then return done
      else
        let first ← readSetItem low
        if ← takeIf '-' then
          match ← take with
          | none => unterminated
          | some high =>
            if high == .plain ']' then return done ++ [first, .range 0x2d 0x2d]
            else
              let second ← readSetItem high
              let bad : Reader (List SetItem) :=
                fail (.badRange low.text high.text) (low.chars.length + 1 + high.chars.length)
              match first, second with
              | .range a _, .range b _ =>
                if b < a then bad else readSetItems here (done ++ [.range a b]) fuel
              | _, _ => bad
        else readSetItems here (done ++ [first]) fuel

/-- A set whose opening bracket has been taken. -/
def readSet (flags : Flags) : Reader Expr := do
  let here := (← get).position - 1
  let negated ← takeIf '^'
  let items ← readSetItems here [] ((← get).rest.length + 1)
  return flags.charSet items negated

/-! ## Repetitions -/

/-- The least number of repetitions that cannot be asked for. -/
def repeatLimit : Nat := 4294967295

/-- A number of repetitions, unless it is out of reach. -/
def repeatCount (digits : List Char) : Reader Nat := do
  if Numeral.maxDigits < digits.length then throw (.longRepeat digits.length)
  else
    let n := readDecimal digits
    if repeatLimit ≤ n then throw .hugeRepeat else return n

/-- The bounds between braces, of which the first is taken, or nothing if the brace stands for
itself. -/
def readBounds? : Reader (Option (Nat × Option Nat)) := do
  let start ← get
  if ← isNext '\x7d' then return none
  else
    let length := start.rest.length
    let low ← takeWhile Char.isDigit length
    let ranged ← takeIf ','
    let high ← if ranged then takeWhile Char.isDigit length else pure low
    if !(← takeIf '\x7d') then
      set start
      return none
    else
      let least ← if low.isEmpty then pure 0 else repeatCount low
      if high.isEmpty then return some (least, none)
      else
        let most ← repeatCount high
        if most < least then fail .emptyRange ((← get).position - start.position)
        else return some (least, some most)

/-- The last part of a sequence repeated; `operator` is the position of the sign that asks
for it. -/
def applyRepeat (done : List Expr) (operator : Nat) (bounds : Nat × Option Nat) :
    Reader (List Expr) := do
  let offset := (← get).position - operator
  match done with
  | [] => fail .nothingToRepeat offset
  | .assertion _ :: _ => fail .nothingToRepeat offset
  | .repetition _ _ _ _ :: _ => fail .multipleRepeat offset
  | item :: earlier =>
    -- The second sign is looked for only where the first one is not there.
    let greed ←
      if ← takeIf '?' then pure Greed.fewest
      else do
        if ← takeIf '+' then pure Greed.mostOnly else pure Greed.most
    return .repetition greed bounds.1 bounds.2 item :: earlier

/-! ## Flags in a pattern -/

def flagOf? : Token → Option Flags
  | .plain 'i' => some { ignoreCase := true }
  | .plain 'm' => some { manyLines := true }
  | .plain 's' => some { dotAll := true }
  | .plain 'x' => some { verbose := true }
  | .plain 'a' => some { ascii := true }
  | .plain 'u' => some { unicode := true }
  | .plain 'L' => some {}
  | .plain 't' => some { template := true }
  | _ => none

/-- Fails at a token that should have been a flag or one of the signs named. -/
def failFlag {α : Type} (t : Token) (signs : String) : Reader α :=
  let letter := match t with
    | .plain c => CharClass.isLetter c
    | .escaped _ => false
  fail (if letter then .unknownFlag else .missing signs) t.chars.length

/-- What flags are turned on, and the sign that ends them. -/
def readFlagsOn (on : Flags) (t : Token) : Nat → Reader (Flags × Char)
  | 0 => fail (.missing "-, : or )") 0
  | fuel + 1 => do
    match flagOf? t with
    | none => failFlag t "-, : or )"
    | some flag =>
      if t == .plain 'L' then fail .localeFlag 0
      else
        let on := on.union flag
        if on.ascii && on.unicode then fail .incompatibleFlags 0
        else
          match ← take with
          | none => fail (.missing "-, : or )") 0
          | some (.plain ')') => return (on, ')')
          | some (.plain '-') => return (on, '-')
          | some (.plain ':') => return (on, ':')
          | some next => readFlagsOn on next fuel

/-- What flags are turned off, up to the colon. -/
def readFlagsOff (off : Flags) (t : Token) : Nat → Reader Flags
  | 0 => fail (.missing ":") 0
  | fuel + 1 => do
    match flagOf? t with
    | none => failFlag t ":"
    | some flag =>
      if flag.ascii || flag.unicode || t == .plain 'L' then fail .typeFlagOff 0
      else
        let off := off.union flag
        match ← take with
        | none => fail (.missing ":") 0
        | some (.plain ':') => return off
        | some next => readFlagsOff off next fuel

/-- The flags of a group: those turned on and those turned off, or nothing if they are turned on
for the whole pattern. -/
def readFlags (t : Token) : Reader (Option (Flags × Flags)) := do
  let fuel := (← get).rest.length + 1
  let (on, stop) ← if t == .plain '-' then pure ({}, '-') else readFlagsOn {} t fuel
  if stop == ')' then
    modify fun scan => { scan with flags := scan.flags.union on }
    return none
  else if on.template then fail .globalFlagOn 1
  else
    let off ←
      if stop == '-' then
        match ← take with
        | none => fail (.missing "flag") 0
        | some t =>
          match flagOf? t with
          | none => failFlag t "flag"
          | some _ => readFlagsOff {} t fuel
      else pure {}
    if off.template then fail .globalFlagOff 1
    else if on.meets off then fail .flagOnAndOff 1
    else return some (on, off)

/-! ## Sequences and alternatives -/

/-- The sequence of expressions that are listed last one first. -/
def sequence (done : List Expr) : Expr :=
  match done with
  | [] => .empty
  | last :: earlier => earlier.foldl (fun rest e => .seq e rest) last

def choice : List Expr → Expr
  | [] => .empty
  | [e] => e
  | e :: rest => .either e (choice rest)

/-- Takes a comment up to a sign that ends it; the end of the pattern ends it too if
`unlessEnd` has no fault to report. -/
def skipUntil (stop : Char) : Nat → Reader Bool
  | 0 => return false
  | fuel + 1 => do
    match ← take with
    | none => return false
    | some t => if t == .plain stop then return true else skipUntil stop fuel

/-- Signs that mean something else than themselves. -/
def isSpecial (c : Char) : Bool := ".\\[\x7b()*+?^$|".toList.contains c

/-- Blanks that verbose patterns skip. -/
def isVerboseBlank (c : Char) : Bool := c == ' ' || (0x09 ≤ c.toNat && c.toNat ≤ 0x0d)

def boundsOf? : Char → Option (Nat × Option Nat)
  | '?' => some (0, some 1)
  | '*' => some (0, none)
  | '+' => some (1, none)
  | _ => none

def readCondition : Reader Int := do
  let name ← nameUntil ')' "group name"
  let number ←
    if isName name then
      match (← get).names.lookup name with
      | some number => pure (number : Int)
      | none => fail (.unknownGroup name) (name.length + 1)
    else
      match Numeral.read? name with
      | none => fail (.badGroupName name) (name.length + 1)
      | some number =>
        if number < 0 then fail (.badGroupName name) (name.length + 1)
        else if number == 0 then fail .badGroupNumber (name.length + 1)
        else if 1073741823 ≤ number then fail (.noSuchGroup number) (name.length + 1)
        else
          modify fun scan =>
            if scan.conditions.any (·.1 == number) then scan
            else { scan with conditions :=
              scan.conditions ++ [(number, scan.position - name.length - 1)] }
          pure number
  checkBehind number
  return number

def readNamedReference (flags : Flags) : Reader Expr := do
  let name ← nameUntil ')' "group name"
  checkName name
  match (← get).names.lookup name with
  | none => fail (.unknownGroup name) (name.length + 1)
  | some number =>
    if !(← isClosed number) then fail .openGroup (name.length + 1)
    else
      checkBehind number
      return .again number flags.folding

/-- What an opening parenthesis begins, once the signs after it have been taken. -/
inductive GroupKind where
  | plain (number : Option Nat) (flags : Flags)
  | atomic
  | look (behind negated : Bool)
  | condition
  /-- The group was read to its end. -/
  | done (e : Option Expr)

/-- The signs after an opening parenthesis at the position `start`.  `canSetFlags` tells whether
flags for the whole pattern may stand here. -/
def readGroupKind (flags : Flags) (start : Nat) (canSetFlags : Bool) : Reader GroupKind := do
  if !(← takeIf '?') then return .plain (some (← openGroup none)) flags
  else
    match ← take with
    | none => fail .unexpectedEnd 0
    | some (.plain 'P') =>
      if ← takeIf '<' then
        let name ← nameUntil '>' "group name"
        checkName name
        return .plain (some (← openGroup (some name))) flags
      else if ← takeIf '=' then return .done (some (← readNamedReference flags))
      else
        match ← take with
        | none => fail .unexpectedEnd 0
        | some t => fail (.unknownExtension ("P" ++ t.text)) (t.chars.length + 2)
    | some (.plain ':') => return .plain none flags
    | some (.plain '#') =>
      if ← skipUntil ')' ((← get).rest.length + 1) then return .done none
      else fail .unterminatedComment ((← get).position - start)
    | some (.plain '=') => return .look false false
    | some (.plain '!') => return .look false true
    | some (.plain '<') =>
      match ← take with
      | none => fail .unexpectedEnd 0
      | some (.plain '=') => return .look true false
      | some (.plain '!') => return .look true true
      | some t => fail (.unknownExtension ("<" ++ t.text)) (t.chars.length + 2)
    | some (.plain '(') => return .condition
    | some (.plain '>') => return .atomic
    | some t =>
      if (flagOf? t).isSome || t == .plain '-' then
        match ← readFlags t with
        | none =>
          if canSetFlags then return .done none
          else fail .flagsNotAtStart ((← get).position - start)
        | some (on, off) => return .plain none (flags.change on off)
      else fail (.unknownExtension t.text) (t.chars.length + 1)

/-- Takes the parenthesis that closes the group from the position `start`. -/
def takeClosing (start : Nat) : Reader Unit := do
  if !(← takeIf ')') then fail .missingParenthesis ((← get).position - start)

mutual

/-- Alternatives up to a closing parenthesis or to the end.  At the `top` of a pattern the flags
of the whole pattern are in force. -/
def readChoice (top : Bool) (flags : Flags) (done : List Expr) : Nat → Reader Expr
  | 0 => return choice done
  | fuel + 1 => do
    let e ← readSequence (top && done.isEmpty) flags [] fuel
    let done := done ++ [e]
    if ← takeIf '|' then
      let scan ← get
      readChoice top (if top then scan.flags else flags) done fuel
    else return choice done

/-- A sequence after the parts `done`, which are kept backwards.  `first` tells whether flags for
the whole pattern may stand at its start. -/
def readSequence (first : Bool) (flags : Flags) (done : List Expr) : Nat → Reader Expr
  | 0 => return sequence done
  | fuel + 1 => do
    match ← peek with
    | none => return sequence done
    | some (.escaped c) =>
      let _ ← take
      let e ← readEscape flags c
      readSequence first flags (e :: done) fuel
    | some (.plain c) =>
      if c == '|' || c == ')' then return sequence done
      else
        let operator := (← get).position
        let _ ← take
        if flags.verbose && isVerboseBlank c then readSequence first flags done fuel
        else if flags.verbose && c == '#' then
          let _ ← skipUntil '\n' ((← get).rest.length + 1)
          readSequence first flags done fuel
        else if c == '[' then readSequence first flags ((← readSet flags) :: done) fuel
        else if c == '.' then
          let any := if flags.dotAll then flags.charSet [] true
            else Expr.set ⟨[.range 0x0a 0x0a], true, .none, false⟩
          readSequence first flags (any :: done) fuel
        else if c == '^' then
          let start := Expr.assertion (if flags.manyLines then .lineStart else .textStart)
          readSequence first flags (start :: done) fuel
        else if c == '$' then
          let stop := Expr.assertion (if flags.manyLines then .lineEnd else .lastLineEnd)
          readSequence first flags (stop :: done) fuel
        else if c == '(' then
          match ← readGroupKind flags operator (first && done.isEmpty) with
          | .done none =>
            let scan ← get
            readSequence first (if first && done.isEmpty then scan.flags else flags) done fuel
          | .done (some e) => readSequence first flags (e :: done) fuel
          | kind =>
            let e ← readGroup flags operator kind fuel
            readSequence first flags (e :: done) fuel
        else if c == '\x7b' then
          match ← readBounds? with
          | none => readSequence first flags (flags.literal c.toNat :: done) fuel
          | some bounds => readSequence first flags (← applyRepeat done operator bounds) fuel
        else
          match boundsOf? c with
          | some bounds => readSequence first flags (← applyRepeat done operator bounds) fuel
          | none => readSequence first flags (flags.literal c.toNat :: done) fuel

/-- The rest of a group that begins at the position `start`, up to and with its closing
parenthesis. -/
def readGroup (flags : Flags) (start : Nat) (kind : GroupKind) : Nat → Reader Expr
  | 0 => return .empty
  | fuel + 1 => do
    match kind with
    | .plain number inner =>
      let body ← readChoice false inner [] fuel
      takeClosing start
      match number with
      | some n => closeGroup n body
      | none => pure ()
      return .group number body
    | .atomic =>
      let body ← readChoice false flags [] fuel
      takeClosing start
      return .atomic body
    | .look behind negated =>
      let outer := (← get).behindFrom
      let number ← nextGroup
      if behind && outer.isNone then modify fun scan => { scan with behindFrom := some number }
      let body ← readChoice false flags [] fuel
      if behind && outer.isNone then modify fun scan => { scan with behindFrom := none }
      takeClosing start
      return .look (if behind then some 0 else none) negated body
    | .condition =>
      let number ← readCondition
      let yes ← readSequence false flags [] fuel
      let no ←
        if ← takeIf '|' then
          let no ← readSequence false flags [] fuel
          if ← isNext '|' then fail .tooManyBranches 0 else pure no
        else pure .empty
      takeClosing start
      return .ifGroup number.toNat yes no
    | .done e => return e.getD .empty

end

/-! ## Look-behind -/

/-- The greatest number of characters that a look-behind goes back. -/
def behindLimit : Nat := 4294967295

/-- An expression whose look-behinds know how far they go back, if each of them has a fixed
width.  In a `template` there are no repetitions. -/
def Expr.settle (template : Bool) (groups : Nat → Width) : Expr → Except Cause Expr
  | .seq first second =>
    return .seq (← first.settle template groups) (← second.settle template groups)
  | .either first second =>
    return .either (← first.settle template groups) (← second.settle template groups)
  | .repetition greed least most body => do
    if template then throw (.repeatInTemplate greed.operator)
    else return .repetition greed least most (← body.settle template groups)
  | .group number body => return .group number (← body.settle template groups)
  | .look none negated body => return .look none negated (← body.settle template groups)
  | .look (some _) negated body => do
    let width := body.width groups
    if behindLimit < width.low then throw .farLookbehind
    else if width.low ≠ width.high then throw .varyingLookbehind
    else return .look (some width.low) negated (← body.settle template groups)
  | .atomic body => return .atomic (← body.settle template groups)
  | .ifGroup number yes no =>
    return .ifGroup number (← yes.settle template groups) (← no.settle template groups)
  | e => return e

/-! ## Whole patterns -/

def readPattern (flags : Flags) : Reader Expr := do
  checkEscape
  let length := (← get).rest.length
  let e ← readChoice true flags [] (4 * length + 4)
  return e

def Expr.ofText (ignoreCase : Bool) (text : String) : Except PatternFault Expr :=
  let flags : Flags := { ignoreCase }
  match (readPattern flags).run { rest := text.toList, flags } with
  | .error .hugeRepeat => .error .hugeRepeat
  | .error (.longRepeat digits) => .error (.longRepeat digits)
  | .error (.at cause position) => .error (.at cause position text)
  | .ok (e, scan) =>
    if scan.flags.ascii && scan.flags.unicode then .error .conflictingFlags
    else if !scan.rest.isEmpty then .error (.at .unbalanced scan.position text)
    else match scan.conditions.find? fun c => (scan.groups.size : Int) < c.1 with
      | some (number, position) => .error (.at (.noSuchGroup number) position text)
      | none =>
        match e.settle scan.flags.template scan.widthOf with
        | .ok e => .ok e
        | .error cause => .error (.overall cause)

end TreeDump.Pattern

namespace TreeDump

/-- A pattern: its text and the expression that the text stands for. -/
structure Pattern where
  text : String
  expr : Pattern.Expr
deriving Repr, DecidableEq

namespace Pattern

def compile (ignoreCase : Bool) (text : String) : Except PatternFault Pattern :=
  match Expr.ofText ignoreCase text with
  | .ok expr => .ok ⟨text, expr⟩
  | .error fault => .error fault

end Pattern

end TreeDump
