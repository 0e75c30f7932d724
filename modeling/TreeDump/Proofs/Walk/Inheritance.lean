import TreeDump.Proofs.Walk.States

/-!
# Rules in force

A directory is put on the stack with its rules while directories before it are still to be read, and
it is read when the walk has come back from those.  The rules that it is read with are nevertheless
those of the ignore files on its own way, because each directory is put on the stack with the rules
of the one it stands in, whatever else there is on the stack.

* `Step.atWays`, `Reached.atWays`: each directory of a stack is there as one at the end of a way,
  and all ignore files on that way could be made sense of.
* `mem_scopesAt`, `ordered_scopesAt`: the rules at the end of a way are those of the ignore files on
  it, from the starting directory down.
* `isIgnored_scopesAt_iff`: of the ignore files on a way, the deepest one that decides has the say.
* `walkWith_inherits`: all of this of every state of a walk.
-/

namespace TreeDump

/-- Seen from the path that it leads on from, a path is the names on the way. -/
theorem Path.relativeTo?_descend (path : Path) (names : List String) :
    (path.descend names).relativeTo? path = some ⟨.relative, names⟩ := by
  rw [relativeTo?, if_pos ⟨rfl, List.prefix_append _ _⟩]
  simp [descend]

/-! ## Rules that decide nothing -/

namespace IgnoreRule

theorem priority_eq_zero_iff {rule : IgnoreRule} {path : List Char} :
    rule.priority path = 0 ↔ rule.pattern.expr.search path = none := by
  rw [priority]
  split
  · simp_all
  · rename_i found hFound
    rw [hFound]
    split <;> simp

theorem decideFrom_some_ne_none (path : List Char) (best : Bool) (level : Nat)
    (rules : List IgnoreRule) : decideFrom path (some best) level rules ≠ none := by
  induction rules generalizing best level with
  | nil => exact Option.some_ne_none best
  | cons rule earlier ih =>
    unfold decideFrom
    dsimp only
    split
    · split
      · exact Option.some_ne_none _
      · exact ih rule.ignores _
    · exact ih best level

theorem decideFrom_none_eq_none_iff {path : List Char} {rules : List IgnoreRule} :
    decideFrom path none 0 rules = none ↔ ∀ rule ∈ rules, rule.priority path = 0 := by
  induction rules with
  | nil => simp [decideFrom]
  | cons rule earlier ih =>
    rw [decideFrom, List.forall_mem_cons]
    by_cases hZero : rule.priority path = 0
    · rw [if_neg (by omega), ih, and_iff_right hZero]
    · rw [if_pos (by omega)]
      refine iff_of_false ?_ fun h => hZero h.1
      split
      · exact Option.some_ne_none _
      · exact decideFrom_some_ne_none path _ _ _

/-- Rules decide nothing about a path just when none of their patterns is found in it. -/
theorem decide?_eq_none_iff {rules : List IgnoreRule} {path : String} :
    decide? rules path = none ↔ ∀ rule ∈ rules, rule.pattern.expr.search path.toList = none := by
  rw [decide?, decideFrom_none_eq_none_iff]
  simp only [List.mem_reverse, priority_eq_zero_iff]

end IgnoreRule

namespace Walk

variable {language : RuleLanguage}

section

variable {fs : FileSystem} {options : WalkOptions} {root : Path}

/-! ## Directories of a stack -/

/-- That a directory of a stack is there as one at the end of a way on which all ignore files can be
made sense of. -/
structure AtWay (language : RuleLanguage) (fs : FileSystem) (options : WalkOptions) (root : Path)
    (way : List String) (pending : Pending language) : Prop where
  eq : pending = pendingAt language fs options root way
  loads : ∀ above, above <+: way → Loads language fs options (root.descend above)

theorem AtWay.start (hLoads : Loads language fs options root) :
    AtWay language fs options root [] (start language fs options root) := by
  refine ⟨start_eq_pendingAt fs options root, fun above hAbove => ?_⟩
  rw [List.prefix_nil.mp hAbove, Path.descend_nil]
  exact hLoads

theorem AtWay.below {parent : Pending language} {way : List String} {name : String}
    (h : AtWay language fs options root way parent)
    (hLoads : Loads language fs options (parent.directory.child name)) :
    AtWay language fs options root (way ++ [name]) (pendingOf fs options parent name) := by
  obtain ⟨rfl, hWay⟩ := h
  refine ⟨pendingOf_pendingAt fs options root way name, fun above hAbove => ?_⟩
  rcases List.prefix_concat_iff.mp hAbove with rfl | hAbove
  · rw [← Path.descend_descend]
    exact hLoads
  · exact hWay above hAbove

/-- That all directories that were found are one name further than the end of a way. -/
def FoundBelow (language : RuleLanguage) (fs : FileSystem) (options : WalkOptions) (root : Path)
    (way : List String) (found : Found language) : Prop :=
  ∀ pending ∈ found.directories, ∃ name, AtWay language fs options root (way ++ [name]) pending

theorem Visit.foundBelow {parent : Pending language} {way : List String}
    (hParent : AtWay language fs options root way parent) {found after : Found language}
    {name : String} {kind : Kind} (hVisit : Visit fs options parent found name kind after)
    (h : FoundBelow language fs options root way found) :
    FoundBelow language fs options root way after := by
  cases hVisit with
  | passed hPassed => exact h
  | listed hListed => exact h
  | interrupted raised hLoad => exact h
  | entered hPruned hDeep hNew hLoads =>
    refine List.forall_mem_append.mpr ⟨h, fun pending hPending => ?_⟩
    rw [List.mem_singleton.mp hPending]
    exact ⟨name, hParent.below hLoads⟩

/-- What a turn puts on the stack is one name further than the directory that it reads. -/
theorem readDirectory_foundBelow {parent : Pending language} {way : List String}
    (hParent : AtWay language fs options root way parent) (visited : List Place) :
    FoundBelow language fs options root way (readDirectory fs options visited parent) := by
  have hNothing : ∀ log, FoundBelow language fs options root way
      ({ visited, log } : Found language) := by
    intro log pending hPending
    cases hPending
  rw [readDirectory]
  split
  · exact hNothing []
  · split
    · exact hNothing _
    · refine visitEntries_induction
        (P := fun found _ => FoundBelow language fs options root way found) ?_ ?_ rfl (hNothing [])
      · intro found entry rest _ hFound
        exact (visitEntry_visit fs options parent found entry.1 entry.2).foundBelow hParent hFound
      · intro found rest _ hFound
        exact hFound

/-- A turn leaves the directories as they are that it does not read. -/
theorem Step.atWays {state after : State language} (hStep : Step fs options state after)
    (h : ∀ pending ∈ state.stack, ∃ way, AtWay language fs options root way pending) :
    ∀ pending ∈ after.stack, ∃ way, AtWay language fs options root way pending := by
  cases hStep with
  | @turn visited top rest hOn =>
    obtain ⟨⟨way, hTop⟩, hRest⟩ := List.forall_mem_cons.mp h
    refine List.forall_mem_append.mpr ⟨fun pending hPending => ?_, hRest⟩
    obtain ⟨name, hPending⟩ := readDirectory_foundBelow hTop visited pending hPending
    exact ⟨way ++ [name], hPending⟩

theorem Reached.atWays {state : State language}
    (hReached : Reached language fs options root state) :
    ∀ pending ∈ state.stack, ∃ way, AtWay language fs options root way pending := by
  obtain ⟨-, hLoads, hSteps⟩ := hReached
  induction hSteps with
  | refl =>
    intro pending hPending
    rw [List.mem_singleton.mp hPending]
    exact ⟨[], .start hLoads⟩
  | tail _ hStep ih => exact hStep.atWays ih

/-! ## Ignore files on a way -/

/-- That a directory has an ignore file with lines that count, and what they are compiled to. -/
inductive HasRules (language : RuleLanguage) (fs : FileSystem) (options : WalkOptions)
    (directory : Path) (rules : language.Rules) : Prop where
  | intro {name : String} {bytes : ByteArray} (hName : options.ignoreFileName = some name)
      (hNamed : name ≠ "")
      (hFile : fs.isFile (directory.join (Path.ofString name)).text = .ok true)
      (hRead : fs.read (directory.join (Path.ofString name)).text = .ok bytes)
      (hLines : IgnoreRule.ruleLines (Utf8.decodeLossy bytes) ≠ [])
      (hRules : language.compile (IgnoreRule.ruleLines (Utf8.decodeLossy bytes)) = .ok rules)

theorem loadScope_eq_some_iff {directory : Path} {scope : Scope language} :
    loadScope language fs options directory = .ok (some scope) ↔
      scope.base = directory ∧ HasRules language fs options directory scope.rules := by
  constructor
  · intro h
    rw [loadScope] at h
    split at h
    · cases h
    · cases h
    rename_i name hNamed hName
    dsimp only at h
    split at h
    · cases h
    · cases h
    rename_i hFile
    split at h
    · cases h
    rename_i bytes hRead
    split at h
    · cases h
    rename_i hLines
    split at h
    · cases h
    rename_i rules hRules
    obtain rfl := Option.some.inj (Except.ok.inj h)
    exact ⟨rfl, .intro hName hNamed hFile hRead hLines hRules⟩
  · rintro ⟨rfl, hName, hNamed, hFile, hRead, hLines, hRules⟩
    rw [loadScope, hName]
    simp [hFile, hRead, hRules]

theorem HasRules.unique {directory : Path} {rules others : language.Rules}
    (h : HasRules language fs options directory rules)
    (hOthers : HasRules language fs options directory others) : rules = others := by
  have hScope : loadScope language fs options directory = .ok (some ⟨directory, rules⟩) :=
    loadScope_eq_some_iff.mpr ⟨rfl, h⟩
  have hOther : loadScope language fs options directory = .ok (some ⟨directory, others⟩) :=
    loadScope_eq_some_iff.mpr ⟨rfl, hOthers⟩
  exact (Scope.mk.inj (Option.some.inj (Except.ok.inj (hScope.symm.trans hOther)))).2

theorem mem_ownScopes {directory : Path} {scope : Scope language} :
    scope ∈ ownScopes language fs options directory ↔
      scope.base = directory ∧ HasRules language fs options directory scope.rules := by
  rw [← loadScope_eq_some_iff, ownScopes]
  split
  · rename_i found hLoad
    simp [hLoad]
  · rename_i raised hLoad
    simp [hLoad]

/-- No directory has two scopes. -/
theorem pairwise_ownScopes {directory : Path} {R : Scope language → Scope language → Prop} :
    (ownScopes language fs options directory).Pairwise R := by
  rw [ownScopes]
  split
  · rename_i found hLoad
    cases found <;> simp
  · exact .nil

theorem mem_scopesAt {way : List String} {scope : Scope language} :
    scope ∈ scopesAt language fs options root way ↔
      ∃ above, above <+: way ∧ scope.base = root.descend above ∧
        HasRules language fs options (root.descend above) scope.rules := by
  simp only [scopesAt, List.mem_flatMap, List.mem_inits, mem_ownScopes]

/-- That a scope stands below another one. -/
def StandsBelow (upper lower : Scope language) : Prop :=
  ∃ name names, lower.base = upper.base.descend (name :: names)

/-- The scopes at the end of a way are listed from the starting directory down. -/
theorem ordered_scopesAt (way : List String) :
    (scopesAt language fs options root way).Pairwise StandsBelow := by
  induction way using List.reverseRecOn with
  | nil =>
    rw [scopesAt, List.inits, List.flatMap_singleton]
    exact pairwise_ownScopes
  | append_singleton way name ih =>
    rw [scopesAt_concat, List.pairwise_append]
    refine ⟨ih, pairwise_ownScopes, fun upper hUpper lower hLower => ?_⟩
    obtain ⟨above, ⟨rest, rfl⟩, hBase, -⟩ := mem_scopesAt.mp hUpper
    obtain ⟨hBelow, -⟩ := mem_ownScopes.mp hLower
    obtain ⟨first, others, hNames⟩ : ∃ first others, rest ++ [name] = first :: others :=
      List.exists_cons_of_ne_nil (by simp)
    refine ⟨first, others, ?_⟩
    rw [hBelow, hBase, Path.descend_descend, ← hNames, List.append_assoc]

/-- What is in force at the end of a way depends on the ignore files on it only. -/
theorem scopesAt_congr {others : FileSystem} {otherOptions : WalkOptions} {way : List String}
    (hLoads : ∀ above, above <+: way →
      loadScope language others otherOptions (root.descend above)
        = loadScope language fs options (root.descend above)) :
    scopesAt language others otherOptions root way = scopesAt language fs options root way := by
  unfold scopesAt
  apply List.flatMap_congr
  intro above hAbove
  rw [ownScopes, ownScopes, hLoads above ((List.mem_inits _ _).mp hAbove)]

/-! ## Decisions -/

/-- What the rules of a directory on a way decide about an entry at its end. -/
inductive Decides (language : RuleLanguage) (fs : FileSystem) (options : WalkOptions) (root : Path)
    (way : List String) (name : String) (isDirectory : Bool) (above : List String)
    (ignored : Bool) : Prop where
  | intro {rest : List String} {rules : language.Rules} (hWay : way = above ++ rest)
      (hRules : HasRules language fs options (root.descend above) rules)
      (hDecides : language.decide? rules (Path.text ⟨.relative, rest ++ [name]⟩
        ++ if isDirectory then "/" else "") = some ignored)

/-- What is decided about an entry at the end of a way: what the deepest directory decides of those
whose rules decide at all, and that the entry is not ignored if there is none. -/
inductive Verdict (language : RuleLanguage) (fs : FileSystem) (options : WalkOptions) (root : Path)
    (way : List String) (name : String) (isDirectory : Bool) : Bool → Prop where
  | deepest {above : List String} {ignored : Bool}
      (hDecides : Decides language fs options root way name isDirectory above ignored)
      (hDeepest : ∀ other decision,
        Decides language fs options root way name isDirectory other decision → other <+: above) :
      Verdict language fs options root way name isDirectory ignored
  | silent (hSilent : ∀ above decision,
        ¬ Decides language fs options root way name isDirectory above decision) :
      Verdict language fs options root way name isDirectory false

variable {way : List String} {name : String} {isDirectory : Bool}

theorem decides_iff {above : List String} {ignored : Bool} :
    Decides language fs options root way name isDirectory above ignored ↔
      ∃ scope ∈ scopesAt language fs options root way, scope.base = root.descend above ∧
        scope.decide? (root.descend (way ++ [name])) isDirectory = some ignored := by
  constructor
  · rintro ⟨hWay, hRules, hDecides⟩
    subst hWay
    refine ⟨⟨root.descend above, _⟩,
      mem_scopesAt.mpr ⟨above, List.prefix_append _ _, rfl, hRules⟩, rfl, ?_⟩
    rw [List.append_assoc, ← Path.descend_descend, Scope.decide?, Path.relativeTo?_descend]
    exact hDecides
  · rintro ⟨scope, hScope, hBase, hDecides⟩
    obtain ⟨other, ⟨rest, rfl⟩, hOther, hRules⟩ := mem_scopesAt.mp hScope
    obtain rfl := Path.descend_inj.mp (hOther.symm.trans hBase)
    rw [List.append_assoc, ← Path.descend_descend, Scope.decide?, hBase, Path.relativeTo?_descend]
      at hDecides
    exact ⟨rfl, hRules, hDecides⟩

theorem verdict_isIgnored : Verdict language fs options root way name isDirectory
    (isIgnored (scopesAt language fs options root way) (root.descend (way ++ [name]))
      isDirectory) := by
  rw [isIgnored]
  cases hFound : (scopesAt language fs options root way).reverse.findSome?
      fun scope => scope.decide? (root.descend (way ++ [name])) isDirectory with
  | none =>
    refine .silent fun above decision hDecides => ?_
    obtain ⟨scope, hScope, -, hSome⟩ := decides_iff.mp hDecides
    have hNone := List.findSome?_eq_none_iff.mp hFound scope (List.mem_reverse.mpr hScope)
    cases hNone.symm.trans hSome
  | some ignored =>
    obtain ⟨lower, scope, upper, hScopes, hSome, hNone⟩ := List.findSome?_eq_some_iff.mp hFound
    have hScopesOrdered : (scopesAt language fs options root way).Pairwise StandsBelow :=
      ordered_scopesAt way
    have hOrdered := List.pairwise_reverse.mpr hScopesOrdered
    rw [hScopes] at hOrdered
    have hMem : ∀ other ∈ scopesAt language fs options root way,
        other ∈ lower ∨ other = scope ∨ other ∈ upper := by
      intro other hOther
      rw [← List.mem_reverse, hScopes] at hOther
      simpa using hOther
    have hScope : scope ∈ scopesAt language fs options root way := by
      rw [← List.mem_reverse, hScopes]
      simp
    obtain ⟨above, -, hBase, -⟩ := mem_scopesAt.mp hScope
    have hDecides : Decides language fs options root way name isDirectory above ignored :=
      decides_iff.mpr ⟨scope, hScope, hBase, hSome⟩
    refine .deepest hDecides ?_
    intro other decision hOther
    obtain ⟨found, hFoundMem, hFoundBase, hFoundSome⟩ := decides_iff.mp hOther
    rcases hMem found hFoundMem with hLower | rfl | hUpper
    · cases (hNone found hLower).symm.trans hFoundSome
    · rw [Path.descend_inj.mp (hFoundBase.symm.trans hBase)]
    · obtain ⟨first, names, hBelow⟩ :=
        (List.pairwise_cons.mp (List.pairwise_append.mp hOrdered).2.1).1 found hUpper
      rw [hBase, hFoundBase, Path.descend_descend, Path.descend_inj] at hBelow
      exact ⟨first :: names, hBelow.symm⟩

theorem Verdict.unique {ignored other : Bool}
    (h : Verdict language fs options root way name isDirectory ignored)
    (hOther : Verdict language fs options root way name isDirectory other) : ignored = other := by
  cases h with
  | silent hSilent =>
    cases hOther with
    | silent _ => rfl
    | deepest hDecides _ => exact absurd hDecides (hSilent _ _)
  | deepest hDecides hDeepest =>
    cases hOther with
    | silent hSilent => exact absurd hDecides (hSilent _ _)
    | deepest hAlso hDeepestToo =>
      have hSame := (hDeepest _ _ hAlso).eq_of_length_le (hDeepestToo _ _ hDecides).length_le
      subst hSame
      obtain ⟨hWay, hRules, hDecision⟩ := hDecides
      obtain ⟨hWayToo, hRulesToo, hDecisionToo⟩ := hAlso
      obtain rfl := List.append_cancel_left (hWay.symm.trans hWayToo)
      obtain rfl := hRules.unique hRulesToo
      exact Option.some.inj (hDecision.symm.trans hDecisionToo)

/-- Of the ignore files on a way, the deepest one that decides about an entry has the say. -/
theorem isIgnored_scopesAt_iff {ignored : Bool} :
    isIgnored (scopesAt language fs options root way) (root.descend (way ++ [name])) isDirectory
      = ignored ↔ Verdict language fs options root way name isDirectory ignored := by
  constructor
  · rintro rfl
    exact verdict_isIgnored
  · exact verdict_isIgnored.unique

/-! ## Directories with their rules -/

/-- That a directory is on a stack with the rules of the ignore files on a way to it. -/
structure Inherits (language : RuleLanguage) (fs : FileSystem) (options : WalkOptions) (root : Path)
    (way : List String) (pending : Pending language) : Prop where
  directory : pending.directory = root.descend way
  /-- No ignore file on the way is left out because it cannot be made sense of. -/
  loads : ∀ above, above <+: way → Loads language fs options (root.descend above)
  mem_scopes : ∀ scope, scope ∈ pending.scopes ↔ ∃ above, above <+: way ∧
    scope.base = root.descend above ∧ HasRules language fs options (root.descend above) scope.rules
  ordered : pending.scopes.Pairwise StandsBelow
  relative : ∀ scope ∈ pending.scopes, ∀ name,
    ((pending.directory.child name).relativeTo? scope.base).isSome
  isIgnored_iff : ∀ name isDirectory ignored,
    isIgnored pending.scopes (pending.directory.child name) isDirectory = ignored ↔
      Verdict language fs options root way name isDirectory ignored

theorem AtWay.inherits {pending : Pending language}
    (h : AtWay language fs options root way pending) :
    Inherits language fs options root way pending := by
  obtain ⟨rfl, hLoads⟩ := h
  have hChild : ∀ name, (pendingAt language fs options root way).directory.child name
      = root.descend (way ++ [name]) := fun name => Path.descend_descend root way [name]
  refine ⟨rfl, hLoads, fun scope => mem_scopesAt, ordered_scopesAt way, ?_, ?_⟩
  · intro scope hScope name
    obtain ⟨above, ⟨rest, rfl⟩, hBase, -⟩ := mem_scopesAt.mp hScope
    rw [hChild, hBase, List.append_assoc, ← Path.descend_descend, Path.relativeTo?_descend]
    rfl
  · intro name isDirectory ignored
    rw [hChild]
    exact isIgnored_scopesAt_iff

/-- Two walks that come to one directory have the same rules there if the ignore files are the same
in the directory and in those above it. -/
theorem Reached.scopes_eq {others : FileSystem} {otherOptions : WalkOptions}
    {state otherState : State language} (hReached : Reached language fs options root state)
    (hOther : Reached language others otherOptions root otherState)
    {pending other : Pending language} (hPending : pending ∈ state.stack)
    (hOtherPending : other ∈ otherState.stack) (hSame : other.directory = pending.directory)
    (hAgree : ∀ base names, pending.directory = base.descend names →
      loadScope language others otherOptions base = loadScope language fs options base) :
    other.scopes = pending.scopes := by
  obtain ⟨way, rfl, -⟩ := hReached.atWays pending hPending
  obtain ⟨otherWay, rfl, -⟩ := hOther.atWays other hOtherPending
  obtain rfl : otherWay = way := Path.descend_inj.mp hSame
  apply scopesAt_congr
  rintro above ⟨rest, rfl⟩
  exact hAgree (root.descend above) rest (Path.descend_descend root above rest).symm

end

/-! ## The walk -/

/-- The turns of a walk are taken at the states that it comes to, and from each of them it goes on
with the stack there.  At each of them, each directory of the stack is there with the rules of the
ignore files on its own way, from the starting directory down, all of which the paths of its entries
can be seen from; whether an entry is ignored is for the deepest of them to decide that says
anything about it; and ignore files in directories that the entry is not below have no say.  The
rules of an ignore file say nothing about a path just when none of their patterns is found in it. -/
theorem walkWith_inherits (language : RuleLanguage) (fs : FileSystem) (options : WalkOptions)
    (root : Path) :
    (∀ turn, turn ∈ turns language fs options root ↔
      ∃ before rest, Reached language fs options root ⟨before, turn.directory :: rest⟩ ∧
        turn.found = readDirectory fs options before turn.directory) ∧
    (∀ state, Reached language fs options root state →
      (∃ files log, walkWith language fs options root
        = readStack fs options files log state.visited state.stack) ∧
      ∀ pending ∈ state.stack,
        (∃ way, Inherits language fs options root way pending) ∧
        ∀ (others : FileSystem) (otherOptions : WalkOptions) (otherState : State language),
          Reached language others otherOptions root otherState →
          ∀ other ∈ otherState.stack, other.directory = pending.directory →
          (∀ base names, pending.directory = base.descend names →
            loadScope language others otherOptions base = loadScope language fs options base) →
          ∀ name isDirectory,
            isIgnored other.scopes (pending.directory.child name) isDirectory
              = isIgnored pending.scopes (pending.directory.child name) isDirectory) ∧
    ∀ (rules : List IgnoreRule) (path : String), RuleLanguage.gitignore.decide? rules path = none ↔
      ∀ rule ∈ rules, rule.pattern.expr.search path.toList = none := by
  refine ⟨fun turn => mem_turns_iff, ?_, fun rules path => IgnoreRule.decide?_eq_none_iff⟩
  intro state hReached
  refine ⟨hReached.walkWith_eq, fun pending hPending => ⟨?_, ?_⟩⟩
  · obtain ⟨way, hWay⟩ := hReached.atWays pending hPending
    exact ⟨way, hWay.inherits⟩
  · intro others otherOptions otherState hOther other hOtherPending hSame hAgree name isDirectory
    rw [hReached.scopes_eq hOther hPending hOtherPending hSame hAgree]

/-! ## Nested ignore files -/

/-- A directory with an ignore file, and in it one directory with an ignore file of its own and one
without. -/
def nested (outer inner : ByteArray) : FileSystem :=
  ⟨.directory [("a", .directory [("i", .file inner)]), ("b", .directory []),
    ("i", .file outer)], []⟩

/-- Options under which ignore files have a short name. -/
def briefly : WalkOptions := { ignoreFileName := some "i" }

theorem stat_nested (outer inner : ByteArray) :
    (nested outer inner).stat "." = .ok (nested outer inner).root ∧
    (nested outer inner).stat "i" = .ok (.file outer) ∧
    (nested outer inner).stat "a/i" = .ok (.file inner) ∧
    (nested outer inner).stat "b/i" = .error .notFound :=
  ⟨FileSystem.stat_of_along rfl (by decide) rfl, FileSystem.stat_of_along rfl (by decide) rfl,
    FileSystem.stat_of_along rfl (by decide) rfl, FileSystem.stat_of_along rfl (by decide) rfl⟩

/-- That the bytes of an ignore file stand for rules. -/
def StandsFor (bytes : ByteArray) (rules : List IgnoreRule) : Prop :=
  IgnoreRule.ruleLines (Utf8.decodeLossy bytes) ≠ [] ∧
    IgnoreRule.ofLines (IgnoreRule.ruleLines (Utf8.decodeLossy bytes)) = .ok rules

theorem loadScope_nested {outer inner : ByteArray} {outerRules innerRules : List IgnoreRule}
    (hOuter : StandsFor outer outerRules) (hInner : StandsFor inner innerRules) :
    loadScope .gitignore (nested outer inner) briefly {} = .ok (some ⟨{}, outerRules⟩) ∧
    loadScope .gitignore (nested outer inner) briefly ⟨.relative, ["a"]⟩
      = .ok (some ⟨⟨.relative, ["a"]⟩, innerRules⟩) ∧
    loadScope .gitignore (nested outer inner) briefly ⟨.relative, ["b"]⟩ = .ok none := by
  have hTexts : (Path.join {} (Path.ofString "i")).text = "i" ∧
      (Path.join ⟨.relative, ["a"]⟩ (Path.ofString "i")).text = "a/i" ∧
      (Path.join ⟨.relative, ["b"]⟩ (Path.ofString "i")).text = "b/i" := by decide
  have hNamed : briefly.ignoreFileName = some "i" := rfl
  refine ⟨loadScope_eq_some_iff.mpr ⟨rfl, ?_⟩, loadScope_eq_some_iff.mpr ⟨rfl, ?_⟩, ?_⟩
  · refine .intro hNamed (by decide) ?_ ?_ hOuter.1 hOuter.2
    · simp [hTexts, FileSystem.isFile, stat_nested, Entry.isFile]
    · simp [hTexts, FileSystem.read, stat_nested]
  · refine .intro hNamed (by decide) ?_ ?_ hInner.1 hInner.2
    · simp [hTexts, FileSystem.isFile, stat_nested, Entry.isFile]
    · simp [hTexts, FileSystem.read, stat_nested]
  · simp [loadScope, hNamed, hTexts, FileSystem.isFile, stat_nested, Refusal.meansAbsent]

/-- The stack after the first turn. -/
def nestedStack (outerRules innerRules : List IgnoreRule) : List (Pending .gitignore) :=
  [⟨⟨.relative, ["a"]⟩, 1, [⟨{}, outerRules⟩, ⟨⟨.relative, ["a"]⟩, innerRules⟩]⟩,
    ⟨⟨.relative, ["b"]⟩, 1, [⟨{}, outerRules⟩]⟩]

theorem reached_nested {outer inner : ByteArray} {outerRules innerRules : List IgnoreRule}
    (hOuter : StandsFor outer outerRules) (hInner : StandsFor inner innerRules)
    (hOpen : RuleLanguage.gitignore.decide? outerRules "a/" = none ∧
      RuleLanguage.gitignore.decide? outerRules "b/" = none) :
    Reached .gitignore (nested outer inner) briefly {}
      ⟨[placeOf (nested outer inner) {}], nestedStack outerRules innerRules⟩ := by
  obtain ⟨hRoot, hLower, hBare⟩ := loadScope_nested hOuter hInner
  have hStart : start .gitignore (nested outer inner) briefly {} = ⟨{}, 0, [⟨{}, outerRules⟩]⟩ := by
    rw [start, ownScopes, hRoot]
    rfl
  have hList : (nested outer inner).list "." = .ok [("a", .directory [("i", .file inner)]),
      ("b", .directory []), ("i", .file outer)] := by
    rw [FileSystem.list, (stat_nested outer inner).1]
    rfl
  have hSorted : byName [("a", .directory [("i", .file inner)]), ("b", .directory []),
      ("i", .file outer)] = [("a", .directory [("i", .file inner)]), ("b", .directory []),
      ("i", .file outer)] := by
    rw [byName, List.mergeSort_of_pairwise]
    simp
  have hTexts : Path.text {} = "." ∧ Path.text ⟨.relative, ["a"]⟩ = "a" ∧
      Path.text ⟨.relative, ["b"]⟩ = "b" := by decide
  have hOptions : briefly.maxDepth = 100 ∧ briefly.ignoreFileName = some "i" ∧
      briefly.followLinks = false ∧ "a" ∉ briefly.ignoredDirectories ∧
      "b" ∉ briefly.ignoredDirectories := by decide
  have hRead : readDirectory (nested outer inner) briefly [placeOf (nested outer inner) {}]
      (⟨{}, 0, [⟨{}, outerRules⟩]⟩ : Pending .gitignore)
      = { directories := nestedStack outerRules innerRules,
          visited := [placeOf (nested outer inner) {}] } := by
    simp [readDirectory, hOptions, hTexts, hList, hSorted, visitEntries, visitEntry, kindOf,
      Entry.isLink, Kind.ofEntry, Entry.isDirectory, Entry.isFile, Path.child, visitDirectory,
      isPruned, isIgnored, Scope.decide?, Path.relativeTo?, hOpen, hLower, hBare, enter, isListed,
      nestedStack]
  refine ⟨by simp [hTexts], ⟨_, hRoot⟩, .single ?_⟩
  have hOn : (readDirectory (nested outer inner) briefly [placeOf (nested outer inner) {}]
      (⟨{}, 0, [⟨{}, outerRules⟩]⟩ : Pending .gitignore)).interruption = none := by rw [hRead]
  have hStep := Step.turn [] hOn
  rw [hRead] at hStep
  rw [hStart]
  exact hStep

/-- The rules that the bytes of an ignore file stand for; none if they stand for none. -/
def rulesOf (bytes : ByteArray) : List IgnoreRule :=
  (IgnoreRule.ofLines (IgnoreRule.ruleLines (Utf8.decodeLossy bytes))).toOption.getD []

/-- The rules in a directory beside that of an ignore file, which has no say there. -/
theorem walkWith_inherits_nested :
    let fs := nested "*.rs".toUTF8 "!keep.rs".toUTF8
    let others := nested "*.rs".toUTF8 "x".toUTF8
    ∃ (state otherState : State .gitignore) (pending other : Pending .gitignore),
      Reached .gitignore fs briefly {} state ∧ pending ∈ state.stack ∧
      pending.directory = ⟨.relative, ["b"]⟩ ∧
      Reached .gitignore others briefly {} otherState ∧ other ∈ otherState.stack ∧
      other.directory = pending.directory ∧
      (∀ base names, pending.directory = base.descend names →
        loadScope .gitignore others briefly base = loadScope .gitignore fs briefly base) ∧
      (∃ way, Inherits .gitignore fs briefly {} way pending) ∧
      isIgnored other.scopes (pending.directory.child "keep.rs") false
        = isIgnored pending.scopes (pending.directory.child "keep.rs") false := by
  intro fs others
  obtain ⟨hOuter, hInner, hOther⟩ : StandsFor "*.rs".toUTF8 (rulesOf "*.rs".toUTF8) ∧
      StandsFor "!keep.rs".toUTF8 (rulesOf "!keep.rs".toUTF8) ∧
      StandsFor "x".toUTF8 (rulesOf "x".toUTF8) := by
    unfold StandsFor
    decide +kernel
  have hOpen : RuleLanguage.gitignore.decide? (rulesOf "*.rs".toUTF8) "a/" = none ∧
      RuleLanguage.gitignore.decide? (rulesOf "*.rs".toUTF8) "b/" = none := by
    unfold RuleLanguage.gitignore
    decide +kernel
  have hReached := reached_nested hOuter hInner hOpen
  have hOtherReached := reached_nested hOuter hOther hOpen
  obtain ⟨hRoot, -, hBare⟩ := loadScope_nested hOuter hInner
  obtain ⟨hOtherRoot, -, hOtherBare⟩ := loadScope_nested hOuter hOther
  have hMem : ∀ innerRules : List IgnoreRule,
      (⟨⟨.relative, ["b"]⟩, 1, [⟨{}, rulesOf "*.rs".toUTF8⟩]⟩ : Pending .gitignore)
        ∈ nestedStack (rulesOf "*.rs".toUTF8) innerRules := fun innerRules => by
    simp [nestedStack]
  have hAgree : ∀ base names, (⟨.relative, ["b"]⟩ : Path) = base.descend names →
      loadScope .gitignore others briefly base = loadScope .gitignore fs briefly base := by
    rintro ⟨anchor, above⟩ names hEq
    obtain ⟨rfl, hNames⟩ := Path.mk.inj hEq
    rcases List.singleton_eq_append_iff.mp hNames with ⟨rfl, -⟩ | ⟨rfl, -⟩
    · exact hOtherRoot.trans hRoot.symm
    · exact hOtherBare.trans hBare.symm
  obtain ⟨-, hSpec⟩ := (walkWith_inherits .gitignore fs briefly {}).2.1 _ hReached
  obtain ⟨hWay, hSame⟩ := hSpec _ (hMem _)
  exact ⟨_, _, _, _, hReached, hMem _, rfl, hOtherReached, hMem _, rfl, hAgree, hWay,
    hSame others briefly _ hOtherReached _ (hMem _) rfl hAgree "keep.rs" false⟩

end Walk

end TreeDump
