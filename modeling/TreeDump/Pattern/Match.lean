import TreeDump.Pattern.Basic

/-!
# Matching

The matcher tries the ways in which an expression can take characters one after the other, in
order of preference, and hands each of them to a continuation until one is accepted.

* `Expr.run` matches at a place of a text; it recurses on the expression, and the repetitions
  of one expression are bounded by the characters that are left.
* `Expr.search` looks for the first place of a text where an expression matches.
-/

namespace TreeDump.Pattern

/-- A place in a text, and what the groups took so far. -/
structure Spot where
  /-- The characters before the place, the nearest one first. -/
  before : List Char
  after : List Char
  groups : List (Nat × List Char) := []
deriving Repr

namespace Spot

/-- The place after the next character. -/
def step? (s : Spot) (accepts : Char → Bool) : Option Spot :=
  match s.after with
  | c :: after => if accepts c then some { s with before := c :: s.before, after } else none
  | [] => none

def back? (s : Spot) : Nat → Option Spot
  | 0 => some s
  | n + 1 =>
    match s.before with
    | c :: before => back? { s with before, after := c :: s.after } n
    | [] => none

/-- The place after the given characters, compared as `folding` compares them. -/
def skip? (s : Spot) (folding : Folding) : List Char → Option Spot
  | [] => some s
  | c :: cs =>
    match s.step? fun d => folding.fold d == folding.fold c with
    | some s => s.skip? folding cs
    | none => none

def group? (s : Spot) (number : Nat) : Option (List Char) := s.groups.lookup number

/-- Remembers that a group took what stands between an earlier place and this one. -/
def remember (s start : Spot) (number : Nat) : Spot :=
  { s with groups :=
      (number, start.after.take (start.after.length - s.after.length)) :: s.groups }

/-- Whether words begin or end at a place.  In an empty text nothing does. -/
def atWordBoundary (ascii : Bool) (s : Spot) : Bool :=
  let isWord := fun c => Category.word.contains ascii c
  s.before.head?.any isWord != s.after.head?.any isWord

end Spot

def Assertion.holds (s : Spot) : Assertion → Bool
  | textStart => s.before.isEmpty
  | lineStart => s.before.isEmpty || s.before.head? == some '\n'
  | textEnd => s.after.isEmpty
  | lastLineEnd => s.after.isEmpty || s.after == ['\n']
  | lineEnd => s.after.isEmpty || s.after.head? == some '\n'
  | wordBoundary ascii => s.atWordBoundary ascii
  | noWordBoundary ascii =>
    !(s.before.isEmpty && s.after.isEmpty) && !s.atWordBoundary ascii

/-- What is done with a place where an expression has matched. -/
abbrev Continuation := Spot → Option Spot

/-- Repeats one matching step.  `count` repetitions are done, and the last one that was not
demanded started with `last` characters left; another one starts only if characters were taken
since, so `fuel` repetitions suffice if it is above the number of demanded ones and the number of
characters that are left. -/
def repeatStep (step : Continuation → Continuation) (lazily : Bool) (least : Nat)
    (most : Option Nat) (next : Continuation) : Nat → Nat → Option Nat → Spot → Option Spot
  | 0, _, _, s => next s
  | fuel + 1, count, last, s =>
    let again := repeatStep step lazily least most next fuel (count + 1)
    if count < least then step (again last) s
    else if most == some count || last == some s.after.length then next s
    else
      let left := some s.after.length
      if lazily then
        match next s with
        | some found => some found
        | none => step (again left) s
      else
        match step (again left) s with
        | some found => some found
        | none => next s

/-- Matches an expression at a place and hands the places after it to a continuation until one
is accepted. -/
def Expr.run : Expr → Continuation → Continuation
  | empty, next, s => next s
  | set cs, next, s => (s.step? cs.contains).bind next
  | assertion a, next, s => if a.holds s then next s else none
  | seq first second, next, s => first.run (fun s => second.run next s) s
  | either first second, next, s =>
    match first.run next s with
    | some found => some found
    | none => second.run next s
  | repetition greed least most body, next, s =>
    let fuel := least + s.after.length + 2
    match greed with
    | .most => repeatStep body.run false least most next fuel 0 none s
    | .fewest => repeatStep body.run true least most next fuel 0 none s
    | .mostOnly => (repeatStep body.run false least most some fuel 0 none s).bind next
  | group none body, next, s => body.run next s
  | group (some number) body, next, s => body.run (fun t => next (t.remember s number)) s
  | again number folding, next, s =>
    match s.group? number with
    | some taken => (s.skip? folding taken).bind next
    | none => none
  | look behind negated body, next, s =>
    let found := (s.back? (behind.getD 0)).bind fun t => body.run some t
    match negated, found with
    | false, some t => next { s with groups := t.groups }
    | true, none => next s
    | _, _ => none
  | atomic body, next, s => (body.run some s).bind next
  | ifGroup number yes no, next, s =>
    match s.group? number with
    | some _ => yes.run next s
    | none => no.run next s

/-- Looks for an expression from a place on. -/
def Expr.searchFrom (e : Expr) (before : List Char) : List Char → Option Spot
  | [] => e.run some ⟨before, [], []⟩
  | c :: after =>
    match e.run some ⟨before, c :: after, []⟩ with
    | some found => some found
    | none => searchFrom e (c :: before) after

def Expr.search (e : Expr) (text : List Char) : Option Spot := e.searchFrom [] text

end TreeDump.Pattern
