import TreeDump.Grammar.Pool

/-!
# Uses of one pool at the same time

Any number of uses of parsers, for any languages, can be open at the same time.  A use looks for an
idle parser, has one built if there is none, and in the end puts its parser back, unless it failed.
Taking a parser out and putting it back are steps that nothing else comes in between, but from one
step of a use to its next one all other uses may go on.

* `Borrowing.Step` is a step of one of the uses, with the event that it is.
* `Borrowing.Run` is a row of steps, with the events in their order.
-/

namespace TreeDump.Borrowing

/-- Where a use of a parser stands. -/
inductive Use where
  /-- It is yet to look for an idle parser. -/
  | asking (language : String)
  /-- No parser was idle, so one is to be built. -/
  | building (language : String)
  | holding (language : String) (parser : Nat)
  /-- It came to its end, and the parser is to be put back. -/
  | returning (language : String) (parser : Nat)
deriving Repr, DecidableEq

/-- The parser that a use has in hand, with the language it has it for. -/
def Use.held? : Use → Option (String × Nat)
  | asking _ | building _ => none
  | holding language parser | returning language parser => some (language, parser)

inductive Event where
  | opened (language : String)
  /-- An idle parser is handed out. -/
  | taken (language : String) (parser : Nat)
  /-- No parser is idle. -/
  | missed (language : String)
  /-- A new parser is built and handed out. -/
  | built (language : String) (parser : Nat)
  /-- The grammar source fails to build a parser. -/
  | unbuilt (language : String)
  | succeeded (language : String) (parser : Nat)
  | failed (language : String) (parser : Nat)
  /-- A parser is given back, to be kept or dropped. -/
  | released (language : String) (parser : Nat)
deriving Repr, DecidableEq

/-- The parser that is handed out in an event, with the language that it is handed out for. -/
def Event.handed? : Event → Option (String × Nat)
  | taken language parser | built language parser => some (language, parser)
  | _ => none

structure State where
  pool : Pool
  /-- The uses that are open, in any order. -/
  uses : List Use := []
deriving Repr, DecidableEq

/-- The parsers in hand, with the languages that they are had for. -/
def State.held (state : State) : List (String × Nat) := state.uses.filterMap Use.held?

/-- A pool that was never used. -/
def start (capacity : Int) : State := { pool := { capacity } }

/-- A step of one of the uses.  Each time a parser is to be built, the grammar source may do so or
fail, as if it were another one. -/
inductive Step : State → Event → State → Prop where
  | ask {pool : Pool} {before rest : List Use} {language : String} :
      Step ⟨pool, before ++ rest⟩ (.opened language) ⟨pool, before ++ .asking language :: rest⟩
  | take {pool after : Pool} {before rest : List Use} {language : String} {parser : Nat}
      (hTake : pool.take language = (some parser, after)) :
      Step ⟨pool, before ++ .asking language :: rest⟩ (.taken language parser)
        ⟨after, before ++ .holding language parser :: rest⟩
  | miss {pool after : Pool} {before rest : List Use} {language : String}
      (hTake : pool.take language = (none, after)) :
      Step ⟨pool, before ++ .asking language :: rest⟩ (.missed language)
        ⟨after, before ++ .building language :: rest⟩
  | build {pool after : Pool} {before rest : List Use} {language : String} {parser : Nat}
      (grammars : GrammarSource) (hBuild : pool.build grammars language = (.ok parser, after)) :
      Step ⟨pool, before ++ .building language :: rest⟩ (.built language parser)
        ⟨after, before ++ .holding language parser :: rest⟩
  | refuse {pool after : Pool} {before rest : List Use} {language : String} {raised : Raised}
      (grammars : GrammarSource) (hBuild : pool.build grammars language = (.error raised, after)) :
      Step ⟨pool, before ++ .building language :: rest⟩ (.unbuilt language)
        ⟨after, before ++ rest⟩
  | succeed {pool : Pool} {before rest : List Use} {language : String} {parser : Nat} :
      Step ⟨pool, before ++ .holding language parser :: rest⟩ (.succeeded language parser)
        ⟨pool, before ++ .returning language parser :: rest⟩
  | fail {pool : Pool} {before rest : List Use} {language : String} {parser : Nat} :
      Step ⟨pool, before ++ .holding language parser :: rest⟩ (.failed language parser)
        ⟨pool, before ++ rest⟩
  | release {pool : Pool} {before rest : List Use} {language : String} {parser : Nat} :
      Step ⟨pool, before ++ .returning language parser :: rest⟩ (.released language parser)
        ⟨pool.release language parser, before ++ rest⟩

/-- A row of steps, and what happened in them. -/
inductive Run (first : State) : List Event → State → Prop where
  | none : Run first [] first
  | more {events : List Event} {middle last : State} {event : Event}
      (hRun : Run first events middle) (hStep : Step middle event last) :
      Run first (events ++ [event]) last

end TreeDump.Borrowing
