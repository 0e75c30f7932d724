import TreeDump.Text.CharClass

/-!
# Regular expressions

The expressions that a pattern stands for once its flags are settled: each set of characters
carries its own way of comparing cases, each assertion its own notion of a line and of a word.

* `CharSet.contains` says which characters a set takes.
* `Expr.width` bounds the number of characters that an expression takes.
-/

namespace TreeDump.Pattern

/-! ## Sets of characters -/

/-- How cases are compared. -/
inductive Folding where
  /-- Each character stands for itself. -/
  | none
  /-- The letters of the Latin alphabet without accents stand for each other. -/
  | ascii
  /-- Characters with a common lowercase or uppercase form stand for each other; of the lowercase
  form only the first character counts. -/
  | full
deriving Repr, DecidableEq

/-- Classes with a letter of their own. -/
inductive Category where
  | digit
  | space
  | word
deriving Repr, DecidableEq

/-- Whether a character is in a class, of ASCII only or of all scripts. -/
def Category.contains (ascii : Bool) (category : Category) (c : Char) : Bool :=
  if ascii && 0x80 ≤ c.toNat then false
  else match category with
    | digit => CharClass.isDecimalDigit c
    | space =>
      if ascii then c == ' ' || (0x09 ≤ c.toNat && c.toNat ≤ 0x0d) else CharClass.isSpace c
    | word => CharClass.isWord c

inductive SetItem where
  /-- The code points from `low` to `high`. -/
  | range (low high : Nat)
  | category (category : Category) (negated : Bool)
deriving Repr, DecidableEq

structure CharSet where
  items : List SetItem
  negated : Bool := false
  folding : Folding := .none
  /-- Whether classes hold ASCII characters only. -/
  ascii : Bool := false
deriving Repr, DecidableEq

/-- The form of a character that cases are compared by. -/
def Folding.fold (folding : Folding) (c : Char) : Char :=
  match folding with
  | none => c
  | ascii => if c.toNat < 0x80 then c.toLower else c
  | full => CharClass.lower c

/-- The code points that stand for the same letter as a folded character. -/
def Folding.variants (folding : Folding) (c : Char) : List Nat :=
  match folding with
  | none => [c.toNat]
  | ascii => [c.toNat, c.toUpper.toNat]
  | full =>
    (c :: CharClass.siblings c).flatMap fun d => d.toNat :: CharClass.uppers d

namespace CharSet

/-- Whether a part of a set takes a folded character. -/
def itemContains (set : CharSet) (c : Char) : SetItem → Bool
  | .range low high => (set.folding.variants c).any fun code => low ≤ code && code ≤ high
  | .category category negated => category.contains set.ascii c != negated

def contains (set : CharSet) (c : Char) : Bool :=
  set.items.any (set.itemContains (set.folding.fold c)) != set.negated

end CharSet

/-! ## Expressions -/

/-- Conditions on a place in a text. -/
inductive Assertion where
  | textStart
  | lineStart
  | textEnd
  /-- The end of the text, or the line feed at its end. -/
  | lastLineEnd
  | lineEnd
  | wordBoundary (ascii : Bool)
  | noWordBoundary (ascii : Bool)
deriving Repr, DecidableEq

/-- Which number of repetitions is tried first. -/
inductive Greed where
  | most
  | fewest
  /-- The most, and no other number after it. -/
  | mostOnly
deriving Repr, DecidableEq

/-- The name of a kind of repetition in the wording of a fault. -/
def Greed.operator : Greed → String
  | most => "MAX_REPEAT"
  | fewest => "MIN_REPEAT"
  | mostOnly => "POSSESSIVE_REPEAT"

inductive Expr where
  | empty
  | set (s : CharSet)
  | assertion (a : Assertion)
  | seq (first second : Expr)
  | either (first second : Expr)
  /-- At least `min` and at most `max` repetitions; no `max` is no limit. -/
  | repetition (greed : Greed) (min : Nat) (max : Option Nat) (body : Expr)
  /-- A group; without a number what it takes is not remembered. -/
  | group (number : Option Nat) (body : Expr)
  /-- What a group took last, once more. -/
  | again (number : Nat) (folding : Folding)
  /-- What follows, or what stands `behind` many characters back, without taking it. -/
  | look (behind : Option Nat) (negated : Bool) (body : Expr)
  /-- The first way to match, and no other after it. -/
  | atomic (body : Expr)
  /-- One expression if a group has taken something, else another. -/
  | ifGroup (number : Nat) (yes no : Expr)
deriving Repr, DecidableEq, Inhabited

/-! ## Widths -/

/-- Bounds on a number of characters. -/
structure Width where
  low : Nat
  high : Nat
deriving Repr, DecidableEq

namespace Width

/-- The bound that stands for no bound. -/
def unbounded : Nat := 18446744073709551616

/-- Bounds cut off at the one that stands for none. -/
def capped (low high : Nat) : Width := ⟨min low unbounded, min high unbounded⟩

def add (a b : Width) : Width := capped (a.low + b.low) (a.high + b.high)

def either (a b : Width) : Width := ⟨min a.low b.low, max a.high b.high⟩

def repeated (least : Nat) (most : Option Nat) (w : Width) : Width :=
  capped (w.low * least) (match most with
    | some most => w.high * most
    | none => if w.high = 0 then 0 else unbounded)

end Width

/-- Bounds on the number of characters that an expression takes, given those of the groups. -/
def Expr.width (groups : Nat → Width) : Expr → Width
  | empty => ⟨0, 0⟩
  | set _ => ⟨1, 1⟩
  | assertion _ => ⟨0, 0⟩
  | seq first second => (first.width groups).add (second.width groups)
  | either first second => (first.width groups).either (second.width groups)
  | repetition _ least most body => (body.width groups).repeated least most
  | group _ body => body.width groups
  | again number _ => groups number
  | look _ _ _ => ⟨0, 0⟩
  | atomic body => body.width groups
  | ifGroup _ yes no => (yes.width groups).either (no.width groups)

end TreeDump.Pattern
