import TreeDump.Run.Process

/-!
# Computations that make requests

What is done with a file needs answers from the system and from parsers, and each of them may fail
to come.  Here a computation tells what it asks for, one request after the other, and goes on with
the answers, so what it does is known without the files, and what it did not ask for cannot matter.

* `Host` is whatever answers requests for files, `FileSystem.host` a file system as one.
* `Handling` is a computation that makes requests and may be interrupted; `Handling.run` does it and
  keeps the requests that were made.
* `Handling.run_congr`: what is not asked for does not matter.
* `Handling.source` is reading a file, `Handling.run_source_host` compares it with `readSource`.
-/

namespace TreeDump

/-! ## Requests -/

/-- What is raised instead of an answer to a request for a file. -/
inductive Complaint where
  /-- The system refuses the request. -/
  | system (fault : Fault)
  | other (raised : Raised)

namespace Complaint

/-- A refusal by the system is an error about the file, and anything else stays what it is. -/
def raised (path : String) : Complaint → Raised
  | system fault => .error (.fileAccess path fault)
  | other raised => raised

def ofRefusal (path : String) (refusal : Refusal) : Complaint :=
  if refusal = .nulByte then .other (.refused refusal path) else .system (.refused refusal path)

theorem raised_ofRefusal (path : String) (refusal : Refusal) :
    (ofRefusal path refusal).raised path = accessFailure path refusal := by
  rw [ofRefusal, accessFailure]
  split
  · rfl
  · rfl

end Complaint

/-- Whatever answers requests for files.  Its answers need not fit together. -/
structure Host where
  size : String → Except Complaint Nat
  bytes : String → Except Complaint ByteArray

def FileSystem.host (fs : FileSystem) : Host where
  size path := ((fs.stat path).map Entry.size).mapError (.ofRefusal path)
  bytes path := (fs.read path).mapError (.ofRefusal path)

inductive Access where
  | size (path : String)
  | bytes (path : String)
  /-- A parser is borrowed. -/
  | parser (language : String)
deriving Repr, DecidableEq

/-- That two hosts answer a request alike.  A request for a parser goes to neither. -/
def Access.Alike (host other : Host) : Access → Prop
  | size path => host.size path = other.size path
  | bytes path => host.bytes path = other.bytes path
  | parser _ => True

/-- A computation that makes requests and may be interrupted. -/
inductive Handling (α : Type) where
  | finish (result : Except Raised α)
  | size (path : String) (resume : Except Complaint Nat → Handling α)
  | bytes (path : String) (resume : Except Complaint ByteArray → Handling α)
  /-- Parses bytes with a borrowed parser. -/
  | parse (language : String) (bytes : ByteArray)
      (resume : Except Raised (Option SyntaxTree) → Handling α)

namespace Handling

variable {α β : Type}

/-- Goes on with what a computation gave or was interrupted by. -/
def andThen (f : Except Raised α → Handling β) : Handling α → Handling β
  | finish result => f result
  | size path resume => size path fun answer => (resume answer).andThen f
  | bytes path resume => bytes path fun answer => (resume answer).andThen f
  | parse language data resume => parse language data fun parsed => (resume parsed).andThen f

/-- Goes on with what a computation gave, unless it was interrupted. -/
def bind (x : Handling α) (f : α → Handling β) : Handling β :=
  x.andThen fun
    | .ok a => f a
    | .error raised => finish (.error raised)

/-- A computation under a guard, which turns what interrupts it into a value. -/
def guarded (x : Handling α) (f : Raised → α) : Handling α :=
  x.andThen fun
    | .ok a => finish (.ok a)
    | .error raised => finish (.ok (f raised))

/-- Does a computation to its end.  The requests are listed in the order in which they are made. -/
def run (host : Host) (grammars : GrammarSource) :
    Handling α → Pool → List Access × Except Raised α × Pool
  | finish result, pool => ([], result, pool)
  | size path resume, pool =>
    let done := (resume (host.size path)).run host grammars pool
    (.size path :: done.1, done.2)
  | bytes path resume, pool =>
    let done := (resume (host.bytes path)).run host grammars pool
    (.bytes path :: done.1, done.2)
  | parse language data resume, pool =>
    let parsed := pool.parse grammars language data
    let done := (resume parsed.1).run host grammars parsed.2
    (.parser language :: done.1, done.2)

section

variable (host : Host) (grammars : GrammarSource) (pool : Pool)

@[simp] theorem run_finish (result : Except Raised α) :
    (finish result).run host grammars pool = ([], result, pool) := rfl

@[simp] theorem run_size (path : String) (resume : Except Complaint Nat → Handling α) :
    (size path resume).run host grammars pool
      = (.size path :: ((resume (host.size path)).run host grammars pool).1,
        ((resume (host.size path)).run host grammars pool).2) := rfl

@[simp] theorem run_bytes (path : String) (resume : Except Complaint ByteArray → Handling α) :
    (bytes path resume).run host grammars pool
      = (.bytes path :: ((resume (host.bytes path)).run host grammars pool).1,
        ((resume (host.bytes path)).run host grammars pool).2) := rfl

@[simp] theorem run_parse (language : String) (data : ByteArray)
    (resume : Except Raised (Option SyntaxTree) → Handling α) :
    (parse language data resume).run host grammars pool
      = (.parser language :: ((resume (pool.parse grammars language data).1).run host grammars
          (pool.parse grammars language data).2).1,
        ((resume (pool.parse grammars language data).1).run host grammars
          (pool.parse grammars language data).2).2) := rfl

end

theorem run_andThen (host : Host) (grammars : GrammarSource) (x : Handling α)
    (f : Except Raised α → Handling β) (pool : Pool) :
    (x.andThen f).run host grammars pool
      = ((x.run host grammars pool).1
          ++ ((f (x.run host grammars pool).2.1).run host grammars
            (x.run host grammars pool).2.2).1,
        ((f (x.run host grammars pool).2.1).run host grammars (x.run host grammars pool).2.2).2) := by
  induction x generalizing pool with
  | finish result => rfl
  | size path resume ih => rw [andThen, run_size, ih, run_size, List.cons_append]
  | bytes path resume ih => rw [andThen, run_bytes, ih, run_bytes, List.cons_append]
  | parse language data resume ih => rw [andThen, run_parse, ih, run_parse, List.cons_append]

section

variable {host : Host} {grammars : GrammarSource} {pool after last : Pool} {x : Handling α}
  {asked more : List Access} {a : α} {raised : Raised}

theorem run_bind_ok {f : α → Handling β} {result : Except Raised β}
    (h : x.run host grammars pool = (asked, .ok a, after))
    (hMore : (f a).run host grammars after = (more, result, last)) :
    (x.bind f).run host grammars pool = (asked ++ more, result, last) := by
  rw [bind, run_andThen, h]
  dsimp only
  rw [hMore]

theorem run_bind_error (f : α → Handling β)
    (h : x.run host grammars pool = (asked, .error raised, after)) :
    (x.bind f).run host grammars pool = (asked, .error raised, after) := by
  rw [bind, run_andThen, h]
  dsimp only
  rw [run_finish, List.append_nil]

theorem run_guarded_ok (f : Raised → α)
    (h : x.run host grammars pool = (asked, .ok a, after)) :
    (x.guarded f).run host grammars pool = (asked, .ok a, after) := by
  rw [guarded, run_andThen, h]
  dsimp only
  rw [run_finish, List.append_nil]

theorem run_guarded_error (f : Raised → α)
    (h : x.run host grammars pool = (asked, .error raised, after)) :
    (x.guarded f).run host grammars pool = (asked, .ok (f raised), after) := by
  rw [guarded, run_andThen, h]
  dsimp only
  rw [run_finish, List.append_nil]

/-- What is not asked for does not matter. -/
theorem run_congr {other : Host}
    (hAlike : ∀ access ∈ (x.run host grammars pool).1, access.Alike host other) :
    x.run other grammars pool = x.run host grammars pool := by
  induction x generalizing pool with
  | finish result => rfl
  | size path resume ih =>
    rw [run_size] at hAlike
    have hAnswer : host.size path = other.size path := hAlike _ List.mem_cons_self
    rw [run_size, run_size, ← hAnswer,
      ih _ fun access hAccess => hAlike access (List.mem_cons_of_mem _ hAccess)]
  | bytes path resume ih =>
    rw [run_bytes] at hAlike
    have hAnswer : host.bytes path = other.bytes path := hAlike _ List.mem_cons_self
    rw [run_bytes, run_bytes, ← hAnswer,
      ih _ fun access hAccess => hAlike access (List.mem_cons_of_mem _ hAccess)]
  | parse language data resume ih =>
    rw [run_parse] at hAlike
    rw [run_parse, run_parse,
      ih _ fun access hAccess => hAlike access (List.mem_cons_of_mem _ hAccess)]

end

/-! ### The source -/

/-- The bytes of a file, if they could be had and are text. -/
def checked (path : String) : Except Complaint ByteArray → Except Raised ByteArray
  | .error complaint => .error (complaint.raised path)
  | .ok data => if Utf8.isValid data then .ok data else .error (.error (.invalidEncoding path))

/-- The bytes of a file of at most `limit` bytes that holds text.  A larger one is not read. -/
def source (path : String) (limit : Int) : Handling ByteArray :=
  size path fun
    | .error complaint => finish (.error (complaint.raised path))
    | .ok length =>
      if limit < length then finish (.error (.error (.fileTooLarge path length limit)))
      else bytes path fun answer => finish (checked path answer)

section

variable {host : Host} {grammars : GrammarSource} {pool : Pool} {path : String} {limit : Int}

theorem run_source_unmeasured {complaint : Complaint} (hSize : host.size path = .error complaint) :
    (source path limit).run host grammars pool
      = ([.size path], .error (complaint.raised path), pool) := by
  rw [source, run_size, hSize]
  rfl

theorem run_source_tooLarge {length : Nat} (hSize : host.size path = .ok length)
    (hLarge : limit < length) :
    (source path limit).run host grammars pool
      = ([.size path], .error (.error (.fileTooLarge path length limit)), pool) := by
  rw [source, run_size, hSize]
  dsimp only
  rw [if_pos hLarge]
  rfl

/-- A file that is small enough is read. -/
theorem run_source_small {length : Nat} (hSize : host.size path = .ok length)
    (hSmall : (length : Int) ≤ limit) :
    (source path limit).run host grammars pool
      = ([.size path, .bytes path], checked path (host.bytes path), pool) := by
  rw [source, run_size, hSize]
  dsimp only
  rw [if_neg (by omega)]
  rfl

end

/-- In a file system, the source of a file is what is read of it. -/
theorem run_source_host (fs : FileSystem) (path : String) (limit : Int) (grammars : GrammarSource)
    (pool : Pool) :
    ((source path limit).run fs.host grammars pool).2 = (readSource fs path limit, pool) := by
  have hSize : fs.host.size path = ((fs.stat path).map Entry.size).mapError (.ofRefusal path) := rfl
  have hBytes : fs.host.bytes path = (fs.read path).mapError (.ofRefusal path) := rfl
  rw [readSource]
  cases hStat : fs.stat path with
  | error refusal =>
    rw [hStat] at hSize
    rw [run_source_unmeasured hSize, Complaint.raised_ofRefusal]
  | ok entry =>
    rw [hStat] at hSize
    dsimp only
    by_cases hLarge : limit < entry.size
    · rw [run_source_tooLarge hSize hLarge, if_pos hLarge]
    · rw [run_source_small hSize (by omega), if_neg hLarge, hBytes]
      cases fs.read path with
      | error refusal =>
        exact congrArg (fun raised => (Except.error raised, pool))
          (Complaint.raised_ofRefusal path refusal)
      | ok bytes => rfl

end Handling

end TreeDump
