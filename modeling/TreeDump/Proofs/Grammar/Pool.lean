import TreeDump.Grammar.Pool

/-!
# Parsers stay with their languages

A parser that idles under a language was built for it.  Each step on the pool keeps that, and a
parser that was built for a language makes of bytes what all parsers of the language make of them.

* `take_spec`, `build_spec`, `release_sound`: what the steps do to a sound pool.
* `parse_spec`: parsing with a borrowed parser gives what the grammar of the language gives.
* `parse_of_unbuilt`, `parse_of_acquire`: what parsing comes to with any pool.
-/

namespace TreeDump.Pool

/-- That a parser was built for a language. -/
def BuiltFor (pool : Pool) (language : String) (parser : Nat) : Prop :=
  pool.built[parser]? = some language

/-- That the idle parsers of each language were built for it. -/
def Sound (pool : Pool) : Prop :=
  ∀ language, ∀ parser ∈ pool.idleOf language, pool.BuiltFor language parser

/-- That all parsers of one pool are also parsers of another one, for the same languages. -/
def Keeps (before after : Pool) : Prop :=
  ∀ language parser, before.BuiltFor language parser → after.BuiltFor language parser

/-- That there is a parser of a language in hand, or that the grammar source failed to build one. -/
def Granted (grammars : GrammarSource) (pool : Pool) (language : String) :
    Except Raised Nat → Prop
  | .ok parser => pool.BuiltFor language parser
  | .error raised => grammars language = .error raised

theorem Keeps.refl (pool : Pool) : pool.Keeps pool := fun _ _ h => h

/-- A pool without idle parsers is sound. -/
theorem sound_empty (capacity : Int) (built : List String) :
    (Pool.mk capacity [] built).Sound := by
  intro language parser hParser
  cases hParser

/-! ## Idle parsers -/

theorem idleOf_withIdle_self (pool : Pool) (language : String) (parsers : List Nat) :
    (pool.withIdle language parsers).idleOf language = parsers := by
  rw [idleOf, withIdle, List.lookup_cons_self]
  rfl

theorem lookup_filter_ne {language other : String} (hNe : other ≠ language)
    (idle : List (String × List Nat)) :
    (idle.filter (·.1 != language)).lookup other = idle.lookup other := by
  induction idle with
  | nil => rfl
  | cons head rest ih =>
    obtain ⟨key, parsers⟩ := head
    rw [List.filter_cons]
    by_cases hKey : key = language
    · subst hKey
      have hOther : (other == key) = false := beq_false_of_ne hNe
      simp only [bne_self_eq_false, Bool.false_eq_true, if_false, ih, List.lookup_cons, hOther]
    · have hKept : (key != language) = true := bne_iff_ne.mpr hKey
      simp only [hKept, if_true, List.lookup_cons, ih]

theorem idleOf_withIdle_ne {language other : String} (hNe : other ≠ language) (pool : Pool)
    (parsers : List Nat) : (pool.withIdle language parsers).idleOf other = pool.idleOf other := by
  have hOther : (other == language) = false := beq_false_of_ne hNe
  rw [idleOf, idleOf, withIdle]
  simp only [List.lookup_cons, hOther, lookup_filter_ne hNe]

/-- Other idle parsers of a language are as good as the old ones if they were built for it. -/
theorem Sound.withIdle {pool : Pool} (hSound : pool.Sound) {language : String}
    {parsers : List Nat} (hBuilt : ∀ parser ∈ parsers, pool.BuiltFor language parser) :
    (pool.withIdle language parsers).Sound := by
  intro other parser hParser
  by_cases hOther : other = language
  · subst hOther
    rw [idleOf_withIdle_self] at hParser
    exact hBuilt parser hParser
  · rw [idleOf_withIdle_ne hOther] at hParser
    exact hSound other parser hParser

/-! ## Steps -/

/-- Taking a parser out changes no other, and the parser was built for the language. -/
theorem take_spec {pool after : Pool} {language : String} {taken : Option Nat}
    (hSound : pool.Sound) (hTake : pool.take language = (taken, after)) :
    after.Sound ∧ pool.Keeps after ∧ ∀ parser ∈ taken, after.BuiltFor language parser := by
  rw [take] at hTake
  split at hTake
  · rename_i parser rest hIdle
    obtain ⟨rfl, rfl⟩ := Prod.mk.inj hTake
    have hAll : ∀ other ∈ parser :: rest, pool.BuiltFor language other := by
      rw [← hIdle]
      exact hSound language
    refine ⟨hSound.withIdle fun other hOther => hAll other (List.mem_cons_of_mem _ hOther),
      fun _ _ h => h, ?_⟩
    intro other hOther
    obtain rfl := Option.mem_some_iff.mp hOther
    exact hAll parser List.mem_cons_self
  · obtain ⟨rfl, rfl⟩ := Prod.mk.inj hTake
    exact ⟨hSound, Keeps.refl pool, fun _ h => by cases h⟩

/-- Building gives a new parser of the language, or fails as the grammar source does. -/
theorem build_spec {grammars : GrammarSource} {pool after : Pool} {language : String}
    {built : Except Raised Nat} (hSound : pool.Sound)
    (hBuild : pool.build grammars language = (built, after)) :
    after.Sound ∧ pool.Keeps after ∧ after.Granted grammars language built := by
  rw [build] at hBuild
  split at hBuild
  · obtain ⟨rfl, rfl⟩ := Prod.mk.inj hBuild
    have hKeeps : pool.Keeps { pool with built := pool.built ++ [language] } := by
      intro other parser hBuilt
      have hLt := (List.getElem?_eq_some_iff.mp hBuilt).1
      rw [BuiltFor, List.getElem?_append_left hLt]
      exact hBuilt
    refine ⟨fun other parser hParser => hKeeps other parser (hSound other parser hParser),
      hKeeps, ?_⟩
    exact List.getElem?_concat_length
  · rename_i raised hError
    obtain ⟨rfl, rfl⟩ := Prod.mk.inj hBuild
    exact ⟨hSound, Keeps.refl pool, hError⟩

theorem acquire_spec {grammars : GrammarSource} {pool after : Pool} {language : String}
    {acquired : Except Raised Nat} (hSound : pool.Sound)
    (hAcquire : pool.acquire grammars language = (acquired, after)) :
    after.Sound ∧ pool.Keeps after ∧ after.Granted grammars language acquired := by
  rw [acquire] at hAcquire
  split at hAcquire
  · rename_i parser taken hTake
    obtain ⟨rfl, rfl⟩ := Prod.mk.inj hAcquire
    obtain ⟨hAfter, hKeeps, hBuilt⟩ := take_spec hSound hTake
    exact ⟨hAfter, hKeeps, hBuilt parser rfl⟩
  · rename_i taken hTake
    obtain ⟨hTaken, hKeeps, -⟩ := take_spec hSound hTake
    obtain ⟨hAfter, hKeepsAfter, hBuilt⟩ := build_spec hTaken hAcquire
    exact ⟨hAfter, fun other parser h => hKeepsAfter other parser (hKeeps other parser h), hBuilt⟩

/-- A parser may be put back under the language that it was built for. -/
theorem release_sound {pool : Pool} {language : String} {parser : Nat} (hSound : pool.Sound)
    (hBuilt : pool.BuiltFor language parser) : (pool.release language parser).Sound := by
  rw [release]
  split
  · refine hSound.withIdle ?_
    intro other hOther
    rcases List.mem_cons.mp hOther with rfl | hOther
    · exact hBuilt
    · exact hSound language other hOther
  · exact hSound

theorem keeps_release (pool : Pool) (language : String) (parser : Nat) :
    pool.Keeps (pool.release language parser) := by
  rw [release]
  split
  · exact fun _ _ h => h
  · exact Keeps.refl pool

theorem action_eq {grammars : GrammarSource} {pool : Pool} {language : String} {parser : Nat}
    (hBuilt : pool.BuiltFor language parser) (bytes : ByteArray) :
    pool.action grammars language parser bytes = grammars.parsed language bytes := by
  rw [action, hBuilt]
  rfl

/-- Parsing with a borrowed parser gives what the grammar of the language gives. -/
theorem parse_spec {grammars : GrammarSource} {pool after : Pool} {language : String}
    {bytes : ByteArray} {parsed : Except Raised (Option SyntaxTree)} (hSound : pool.Sound)
    (hParse : pool.parse grammars language bytes = (parsed, after)) :
    parsed = grammars.parsed language bytes ∧ after.Sound := by
  rw [parse, borrow] at hParse
  split at hParse
  · rename_i raised acquired hAcquire
    obtain ⟨rfl, rfl⟩ := Prod.mk.inj hParse
    obtain ⟨hAfter, -, hError⟩ := acquire_spec hSound hAcquire
    have hGrammar : grammars language = .error raised := hError
    refine ⟨?_, hAfter⟩
    rw [GrammarSource.parsed, hGrammar]
  · rename_i parser acquired hAcquire
    obtain ⟨hAfter, -, hBuilt⟩ := acquire_spec hSound hAcquire
    rw [action_eq hBuilt] at hParse
    split at hParse
    · rename_i tree used hUse
      obtain ⟨rfl, rfl⟩ := Prod.mk.inj hParse
      obtain ⟨hTree, rfl⟩ := Prod.mk.inj hUse
      exact ⟨hTree.symm, release_sound hAfter hBuilt⟩
    · rename_i raised used hUse
      obtain ⟨rfl, rfl⟩ := Prod.mk.inj hParse
      obtain ⟨hRaised, rfl⟩ := Prod.mk.inj hUse
      exact ⟨hRaised.symm, hAfter⟩

/-! ## Borrowing from any pool -/

section

variable {grammars : GrammarSource} {pool taken : Pool} {language : String} {raised : Raised}

/-- Handing out a parser fails only if none is idle and none can be built. -/
theorem unbuilt_of_acquire (hAcquire : pool.acquire grammars language = (.error raised, taken)) :
    pool.idleOf language = [] ∧ grammars language = .error raised := by
  rw [acquire, take] at hAcquire
  cases hIdle : pool.idleOf language with
  | cons parser rest =>
    rw [hIdle] at hAcquire
    cases hAcquire
  | nil =>
    rw [hIdle] at hAcquire
    dsimp only at hAcquire
    rw [build] at hAcquire
    cases hGrammar : grammars language with
    | ok parse =>
      rw [hGrammar] at hAcquire
      cases hAcquire
    | error other =>
      rw [hGrammar] at hAcquire
      cases hAcquire
      exact ⟨rfl, rfl⟩

theorem parse_of_unbuilt {bytes : ByteArray} (hIdle : pool.idleOf language = [])
    (hGrammar : grammars language = .error raised) :
    pool.parse grammars language bytes = (.error raised, pool) := by
  have hAcquire : pool.acquire grammars language = (.error raised, pool) := by
    rw [acquire, take, hIdle]
    dsimp only
    rw [build, hGrammar]
  rw [parse, borrow, hAcquire]

/-- A parser that was handed out is put back unless it fails. -/
theorem parse_of_acquire {bytes : ByteArray} {parser : Nat}
    (hAcquire : pool.acquire grammars language = (.ok parser, taken)) :
    pool.parse grammars language bytes
      = match taken.action grammars language parser bytes with
        | .ok tree => (.ok tree, taken.release language parser)
        | .error raised => (.error raised, taken) := by
  rw [parse, borrow, hAcquire]
  dsimp only
  cases taken.action grammars language parser bytes with
  | ok tree => rfl
  | error raised => rfl

end

end TreeDump.Pool
