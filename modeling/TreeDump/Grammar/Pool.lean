import TreeDump.Error
import TreeDump.Tree.Basic

/-!
# Grammars and the pool of parsers

A grammar source builds the parser of a language or fails to.  Building takes time, so parsers
that are not in use are kept, up to a number of them per language, and handed out again, the one
that was put back last first.

A parser is known by its number, which counts the parsers that were built before it; what it does
depends only on the language that it was built for.

* `Pool.acquire` hands out a parser and `Pool.release` takes it back.  Handing out a parser that
  idles and building one are separate steps, between which others may use the pool.
* `Pool.borrow` does both around a use; a parser whose use failed is not taken back.
-/

namespace TreeDump

/-- What a parser does with the bytes of a file: it gives a tree or none, or it fails. -/
abbrev Parse := ByteArray → Except Raised (Option SyntaxTree)

abbrev GrammarSource := String → Except Raised Parse

/-- What parsers of a language make of bytes. -/
def GrammarSource.parsed (grammars : GrammarSource) (language : String) (bytes : ByteArray) :
    Except Raised (Option SyntaxTree) :=
  match grammars language with
  | .ok parse => parse bytes
  | .error raised => .error raised

/-- The number of idle parsers kept per language unless told otherwise. -/
def defaultPoolCapacity : Int := 10

/-- The parsers that are not in use, and the languages of all parsers built so far. -/
structure Pool where
  capacity : Int := defaultPoolCapacity
  /-- The idle parsers of each language, the last one put back first. -/
  idle : List (String × List Nat) := []
  /-- The languages of the parsers, in the order in which they were built. -/
  built : List String := []
deriving Repr, DecidableEq

namespace Pool

def idleOf (pool : Pool) (language : String) : List Nat := (pool.idle.lookup language).getD []

/-- The pool with other idle parsers of a language. -/
def withIdle (pool : Pool) (language : String) (parsers : List Nat) : Pool :=
  { pool with idle := (language, parsers) :: pool.idle.filter (·.1 != language) }

def idleCount (pool : Pool) (language : String) : Nat := (pool.idleOf language).length

/-- Takes the idle parser of a language that was put back last, if there is one. -/
def take (language : String) (pool : Pool) : Option Nat × Pool :=
  match pool.idleOf language with
  | parser :: rest => (some parser, pool.withIdle language rest)
  | [] => (none, pool)

def build (grammars : GrammarSource) (language : String) (pool : Pool) : Except Raised Nat × Pool :=
  match grammars language with
  | .ok _ => (.ok pool.built.length, { pool with built := pool.built ++ [language] })
  | .error raised => (.error raised, pool)

/-- Hands out an idle parser of a language, or builds one. -/
def acquire (grammars : GrammarSource) (language : String) (pool : Pool) :
    Except Raised Nat × Pool :=
  match pool.take language with
  | (some parser, pool) => (.ok parser, pool)
  | (none, pool) => pool.build grammars language

/-- Takes a parser back, or drops it if there are enough idle ones. -/
def release (language : String) (parser : Nat) (pool : Pool) : Pool :=
  let idle := pool.idleOf language
  if (idle.length : Int) < pool.capacity then pool.withIdle language (parser :: idle) else pool

/-- Hands out a parser for a use and takes it back unless the use fails. -/
def borrow {α : Type} (grammars : GrammarSource) (language : String)
    (use : Nat → Pool → Except Raised α × Pool) (pool : Pool) : Except Raised α × Pool :=
  match pool.acquire grammars language with
  | (.error raised, pool) => (.error raised, pool)
  | (.ok parser, pool) =>
    match use parser pool with
    | (.ok a, pool) => (.ok a, pool.release language parser)
    | (.error raised, pool) => (.error raised, pool)

/-- What a parser makes of bytes.  It does what parsers do of the language that it was built for,
whatever language it is handed out under; one that was not built here belongs to the latter. -/
def action (grammars : GrammarSource) (language : String) (parser : Nat) (bytes : ByteArray)
    (pool : Pool) : Except Raised (Option SyntaxTree) :=
  grammars.parsed ((pool.built[parser]?).getD language) bytes

def parse (grammars : GrammarSource) (language : String) (bytes : ByteArray) (pool : Pool) :
    Except Raised (Option SyntaxTree) × Pool :=
  pool.borrow grammars language fun parser pool =>
    (pool.action grammars language parser bytes, pool)

end Pool

end TreeDump
