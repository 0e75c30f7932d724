import Mathlib.Data.List.Infix
import Mathlib.Data.List.Nodup
import TreeDump.Proofs.Files.Place
import TreeDump.Proofs.Walk.Recursion

/-!
# Exactness of the walk

Directories below the starting one are known by the names on the way down to them.  The rules in
force in a directory are those of the ignore files on its way, and the recursion enters exactly the
ways on which no directory is pruned.

* `mem_recursion_iff`: the files that are listed are those of the directories that are entered.
* `reachable_iff`: the directories that are entered are those at the end of an open way.
* `walkWith_exact`: a walk without links lists what the recursion lists; it lists every file once
  that is not too deep and that neither itself nor by a directory on its way is pruned, and it
  lists no other file.
-/

namespace TreeDump

/-- The path that names lead to from a path. -/
def Path.descend (path : Path) (names : List String) : Path :=
  { path with names := path.names ++ names }

theorem Path.descend_nil (path : Path) : path.descend [] = path := by
  rw [descend, List.append_nil]

theorem Path.descend_descend (path : Path) (names others : List String) :
    (path.descend names).descend others = path.descend (names ++ others) := by
  rw [descend, descend, descend, List.append_assoc]

theorem Path.child_eq_descend (path : Path) (name : String) :
    path.child name = path.descend [name] := rfl

theorem Path.descend_inj {path : Path} {names others : List String} :
    path.descend names = path.descend others ↔ names = others := by
  simp [descend]

namespace Walk

variable {language : RuleLanguage}

/-! ## Ways -/

/-- The scopes in force in the directory at the end of a way: those of all directories on it, from
the starting one down. -/
def scopesAt (language : RuleLanguage) (fs : FileSystem) (options : WalkOptions) (root : Path)
    (way : List String) : List (Scope language) :=
  way.inits.flatMap fun above => ownScopes language fs options (root.descend above)

/-- That a name is, at the end of a way, that of a directory which is not pruned. -/
structure EntersAt (language : RuleLanguage) (fs : FileSystem) (options : WalkOptions)
    (root : Path) (way : List String) (name : String) : Prop where
  isDirectory : ∃ entries, (name, .directory entries) ∈ entriesOf fs (root.descend way)
  notByName : name ∉ options.ignoredDirectories
  notByRules : isIgnored (scopesAt language fs options root way)
    (root.descend (way ++ [name])) true = false

/-- That a name is, at the end of a way, that of a file which is not pruned. -/
structure ListsAt (language : RuleLanguage) (fs : FileSystem) (options : WalkOptions)
    (root : Path) (way : List String) (name : String) : Prop where
  isFile : ∃ content, (name, .file content) ∈ entriesOf fs (root.descend way)
  noIgnoreFile : options.ignoreFileName ≠ some name
  notByRules : isIgnored (scopesAt language fs options root way)
    (root.descend (way ++ [name])) false = false
  accepted : options.filter.accepts (root.descend (way ++ [name])).text

/-- That none of the directories on a way is pruned. -/
def Open (language : RuleLanguage) (fs : FileSystem) (options : WalkOptions) (root : Path)
    (way : List String) : Prop :=
  ∀ above name, above ++ [name] <+: way → EntersAt language fs options root above name

/-- The directory at the end of a way, as it is put on the stack. -/
def pendingAt (language : RuleLanguage) (fs : FileSystem) (options : WalkOptions) (root : Path)
    (way : List String) : Pending language :=
  ⟨root.descend way, way.length, scopesAt language fs options root way⟩

section

variable (fs : FileSystem) (options : WalkOptions) (root : Path)

theorem start_eq_pendingAt :
    start language fs options root = pendingAt language fs options root [] := by
  rw [start, pendingAt, scopesAt, Path.descend_nil, List.inits, List.flatMap_singleton,
    Path.descend_nil]
  rfl

theorem scopesAt_concat (way : List String) (name : String) :
    scopesAt language fs options root (way ++ [name])
      = scopesAt language fs options root way
        ++ ownScopes language fs options (root.descend (way ++ [name])) := by
  rw [scopesAt, List.inits_append, List.flatMap_append]
  simp [scopesAt]

theorem pendingOf_pendingAt (way : List String) (name : String) :
    pendingOf fs options (pendingAt language fs options root way) name
      = pendingAt language fs options root (way ++ [name]) := by
  rw [pendingOf, pendingAt, pendingAt, scopesAt_concat, Path.child_eq_descend,
    Path.descend_descend, List.length_append]
  rfl

variable {fs options root}

theorem open_nil : Open language fs options root [] := by
  intro above name hPrefix
  have := List.prefix_nil.mp hPrefix
  simp at this

/-- What holds of all names on a way, and of one at its end, holds of those on the way that is longer
by that one. -/
theorem forall_prefix_concat {P : List String → String → Prop} {way : List String} {name : String}
    (hWay : ∀ above other, above ++ [other] <+: way → P above other) (hEnd : P way name) :
    ∀ above other, above ++ [other] <+: way ++ [name] → P above other := by
  intro above other hPrefix
  rcases List.prefix_concat_iff.mp hPrefix with hEq | hAbove
  · obtain ⟨rfl, hOther⟩ := List.append_inj' hEq rfl
    obtain rfl := List.singleton_inj.mp hOther
    exact hEnd
  · exact hWay above other hAbove

theorem open_append {way : List String} {name : String} :
    Open language fs options root (way ++ [name]) ↔
      Open language fs options root way ∧ EntersAt language fs options root way name := by
  constructor
  · intro h
    refine ⟨?_, h way name (List.prefix_refl _)⟩
    intro above other hPrefix
    exact h above other (hPrefix.trans (List.prefix_append _ _))
  · rintro ⟨hWay, hName⟩
    exact forall_prefix_concat hWay hName

theorem mem_enteredNames {way : List String} {name : String} :
    name ∈ enteredNames options (scopesAt language fs options root way) (root.descend way)
        (entriesOf fs (root.descend way)) ↔ EntersAt language fs options root way name := by
  simp only [enteredNames, List.mem_map, List.mem_filter, Bool.and_eq_true, Bool.not_eq_true',
    isPruned, Bool.or_eq_false_iff, Path.child_eq_descend, Path.descend_descend]
  constructor
  · rintro ⟨⟨_, entry⟩, ⟨hMem, hDirectory, hName, hRules⟩, rfl⟩
    cases entry with
    | directory entries => exact ⟨⟨entries, hMem⟩, by simpa using hName, hRules⟩
    | file content => cases hDirectory
    | link target => cases hDirectory
  · rintro ⟨⟨entries, hMem⟩, hName, hRules⟩
    exact ⟨(name, .directory entries), ⟨hMem, rfl, by simpa using hName, hRules⟩, rfl⟩

theorem mem_listedNames {way : List String} {name : String} :
    name ∈ listedNames options (scopesAt language fs options root way) (root.descend way)
        (entriesOf fs (root.descend way)) ↔ ListsAt language fs options root way name := by
  simp only [listedNames, List.mem_map, List.mem_filter, Bool.and_eq_true, Bool.not_eq_true',
    isListed, bne_iff_ne, Path.child_eq_descend, Path.descend_descend]
  constructor
  · rintro ⟨⟨_, entry⟩, ⟨hMem, hFile, ⟨hName, hRules⟩, hAccepted⟩, rfl⟩
    cases entry with
    | directory entries => cases hFile
    | file content => exact ⟨⟨content, hMem⟩, hName, hRules, hAccepted⟩
    | link target => cases hFile
  · rintro ⟨⟨content, hMem⟩, hName, hRules, hAccepted⟩
    exact ⟨(name, .file content), ⟨hMem, rfl, ⟨hName, hRules⟩, hAccepted⟩, rfl⟩

/-! ## Directories that are entered -/

/-- The directories that one at the end of a way puts on the stack. -/
theorem below_pendingAt {way : List String} {pending : Pending language} :
    Below fs options (pendingAt language fs options root way) pending ↔
      ∃ name, pending = pendingAt language fs options root (way ++ [name]) ∧
        way.length + 1 < options.maxDepth ∧ EntersAt language fs options root way name := by
  rw [Below, pendingBelow, pendingAmong]
  have hDepth : (pendingAt language fs options root way).depth = way.length := rfl
  split
  · rename_i hDeep
    rw [hDepth] at hDeep
    constructor
    · intro hMem
      cases hMem
    · rintro ⟨_, -, hLess, -⟩
      omega
  · rename_i hDeep
    rw [hDepth] at hDeep
    rw [List.mem_map]
    constructor
    · rintro ⟨name, hName, rfl⟩
      exact ⟨name, pendingOf_pendingAt fs options root way name, by omega,
        mem_enteredNames.mp hName⟩
    · rintro ⟨name, rfl, -, hEnters⟩
      exact ⟨name, mem_enteredNames.mpr hEnters, pendingOf_pendingAt fs options root way name⟩

/-- The directories that are entered are those at the end of an open way that is not too long. -/
theorem reachable_iff {pending : Pending language} :
    Relation.ReflTransGen (Below fs options) (start language fs options root) pending ↔
      ∃ way, pending = pendingAt language fs options root way ∧
        (way = [] ∨ way.length < options.maxDepth) ∧ Open language fs options root way := by
  rw [start_eq_pendingAt]
  constructor
  · intro hPath
    induction hPath with
    | refl => exact ⟨[], rfl, Or.inl rfl, open_nil⟩
    | tail _ hBelow ih =>
      obtain ⟨way, rfl, -, hOpen⟩ := ih
      obtain ⟨name, rfl, hLess, hEnters⟩ := below_pendingAt.mp hBelow
      refine ⟨way ++ [name], rfl, Or.inr ?_, open_append.mpr ⟨hOpen, hEnters⟩⟩
      rw [List.length_append, List.length_singleton]
      omega
  · rintro ⟨way, rfl, hLess, hOpen⟩
    induction way using List.reverseRecOn with
    | nil => exact .refl
    | append_singleton way name ih =>
      obtain ⟨hWay, hEnters⟩ := open_append.mp hOpen
      have hLength : way.length + 1 < options.maxDepth := by
        rcases hLess with hNil | hLess
        · simp at hNil
        · simpa using hLess
      exact (ih (Or.inr (by omega)) hWay).tail
        (below_pendingAt.mpr ⟨name, rfl, hLength, hEnters⟩)

/-- All directories that a walk enters can be entered just when those at the end of open ways
can. -/
theorem settled_start_iff : Settled fs options (start language fs options root) ↔
    ∀ way name, Open language fs options root (way ++ [name]) →
      way.length + 1 < options.maxDepth →
      Loads language fs options (root.descend (way ++ [name])) := by
  constructor
  · intro h way name hOpen hLess
    obtain ⟨hWay, hEnters⟩ := open_append.mp hOpen
    have hParent : Relation.ReflTransGen (Below fs options) (start language fs options root)
        (pendingAt language fs options root way) :=
      reachable_iff.mpr ⟨way, rfl, Or.inr (by omega), hWay⟩
    have hBelow : Below fs options (pendingAt language fs options root way)
        (pendingAt language fs options root (way ++ [name])) :=
      below_pendingAt.mpr ⟨name, rfl, hLess, hEnters⟩
    exact h (pendingAt language fs options root way)
      (pendingAt language fs options root (way ++ [name])) hParent hBelow
  · intro h parent pending hPath hBelow
    obtain ⟨way, rfl, -, hWay⟩ := reachable_iff.mp hPath
    obtain ⟨name, rfl, hLess, hEnters⟩ := below_pendingAt.mp hBelow
    exact h way name (open_append.mpr ⟨hWay, hEnters⟩) hLess

/-! ## Files that are listed -/

/-- What holds of a directory when it holds of those that it puts on the stack holds of all
directories. -/
theorem Pending.induction (fs : FileSystem) (options : WalkOptions) {P : Pending language → Prop}
    (hStep : ∀ parent, (∀ pending ∈ pendingBelow fs options parent, P pending) → P parent)
    (top : Pending language) : P top := by
  induction hLevels : top.levels options using Nat.strongRecOn generalizing top with
  | ind levels ih =>
    refine hStep top fun pending hPending => ih _ ?_ pending rfl
    rw [pendingBelow, pendingAmong] at hPending
    split at hPending
    · cases hPending
    · rename_i hDeep
      obtain ⟨name, -, rfl⟩ := List.mem_map.mp hPending
      rw [← hLevels, Pending.levels, Pending.levels, pendingOf]
      dsimp only
      omega

/-- The files that the recursion lists are those of the directories that are entered. -/
theorem mem_recursion_iff {top : Pending language} {path : Path} :
    path ∈ top.recursion fs options ↔
      ∃ pending, Relation.ReflTransGen (Below fs options) top pending ∧
        path ∈ ownFiles fs options pending := by
  induction top using Pending.induction fs options with
  | hStep parent ih =>
    rw [parent.recursion_eq, List.mem_append, List.mem_flatMap]
    constructor
    · rintro (hOwn | ⟨next, hNext, hPath⟩)
      · exact ⟨parent, .refl, hOwn⟩
      · obtain ⟨pending, hReach, hOwn⟩ := (ih next hNext).mp hPath
        exact ⟨pending, .head hNext hReach, hOwn⟩
    · rintro ⟨pending, hReach, hOwn⟩
      rcases Relation.ReflTransGen.cases_head hReach with rfl | ⟨next, hNext, hRest⟩
      · exact Or.inl hOwn
      · exact Or.inr ⟨next, hNext, (ih next hNext).mpr ⟨pending, hRest, hOwn⟩⟩

theorem mem_ownFiles {way : List String} {path : Path} :
    path ∈ ownFiles fs options (pendingAt language fs options root way) ↔
      ∃ name, path = root.descend (way ++ [name]) ∧ way.length + 1 ≤ options.maxDepth ∧
        ListsAt language fs options root way name := by
  have hDepth : (pendingAt language fs options root way).depth = way.length := rfl
  rw [ownFiles, hDepth]
  split
  · rename_i hDeep
    constructor
    · intro hMem
      cases hMem
    · rintro ⟨_, -, hLe, -⟩
      omega
  · rename_i hDeep
    rw [List.mem_map]
    constructor
    · rintro ⟨name, hName, rfl⟩
      exact ⟨name, Path.descend_descend root way [name], by omega, mem_listedNames.mp hName⟩
    · rintro ⟨name, rfl, -, hLists⟩
      exact ⟨name, mem_listedNames.mpr hLists, Path.descend_descend root way [name]⟩

/-- The recursion lists a file just when it is not too deep and nothing prunes it. -/
theorem mem_recursion_start_iff {path : Path} :
    path ∈ (start language fs options root).recursion fs options ↔
      ∃ way name, path = root.descend (way ++ [name]) ∧ way.length + 1 ≤ options.maxDepth ∧
        Open language fs options root way ∧ ListsAt language fs options root way name := by
  rw [mem_recursion_iff]
  constructor
  · rintro ⟨pending, hReach, hOwn⟩
    obtain ⟨way, rfl, -, hOpen⟩ := reachable_iff.mp hReach
    obtain ⟨name, hPath, hLe, hLists⟩ := mem_ownFiles.mp hOwn
    exact ⟨way, name, hPath, hLe, hOpen, hLists⟩
  · rintro ⟨way, name, hPath, hLe, hOpen, hLists⟩
    exact ⟨_, reachable_iff.mpr ⟨way, rfl, Or.inr (by omega), hOpen⟩,
      mem_ownFiles.mpr ⟨name, hPath, hLe, hLists⟩⟩

/-! ## No file twice -/

theorem nodup_entriesOf (hDistinct : fs.root.hasDistinctNames) (directory : Path) :
    ((entriesOf fs directory).map Prod.fst).Nodup := by
  rw [entriesOf]
  split
  · rename_i entries hList
    have hPerm := (List.mergeSort_perm entries fun a b => decide (a.1 ≤ b.1)).map Prod.fst
    exact hPerm.nodup_iff.mpr (FileSystem.nodup_list hDistinct hList)
  · exact List.nodup_nil

theorem mem_ownFiles_descend {parent : Pending language} {path : Path}
    (hPath : path ∈ ownFiles fs options parent) :
    ∃ name, path = parent.directory.descend [name] := by
  rw [ownFiles] at hPath
  split at hPath
  · cases hPath
  · obtain ⟨name, -, rfl⟩ := List.mem_map.mp hPath
    exact ⟨name, rfl⟩

theorem mem_pendingBelow_child {parent pending : Pending language}
    (hPending : pending ∈ pendingBelow fs options parent) :
    ∃ name, pending = pendingOf fs options parent name := by
  rw [pendingBelow, pendingAmong] at hPending
  split at hPending
  · cases hPending
  · obtain ⟨name, -, rfl⟩ := List.mem_map.mp hPending
    exact ⟨name, rfl⟩

/-- What the recursion lists of a directory stands below it. -/
theorem mem_recursion_descend {top : Pending language} {path : Path}
    (hPath : path ∈ top.recursion fs options) :
    ∃ name names, path = top.directory.descend (name :: names) := by
  induction top using Pending.induction fs options with
  | hStep parent ih =>
    rw [parent.recursion_eq, List.mem_append, List.mem_flatMap] at hPath
    rcases hPath with hOwn | ⟨pending, hPending, hBelow⟩
    · obtain ⟨name, rfl⟩ := mem_ownFiles_descend hOwn
      exact ⟨name, [], rfl⟩
    · obtain ⟨first, rfl⟩ := mem_pendingBelow_child hPending
      obtain ⟨name, names, rfl⟩ := ih _ hPending hBelow
      exact ⟨first, name :: names, Path.descend_descend parent.directory [first] (name :: names)⟩

theorem nodup_ownFiles (hDistinct : fs.root.hasDistinctNames) (parent : Pending language) :
    (ownFiles fs options parent).Nodup := by
  rw [ownFiles]
  split
  · exact List.nodup_nil
  · refine List.Nodup.map ?_ ((nodup_entriesOf hDistinct parent.directory).sublist
      (List.filter_sublist.map Prod.fst))
    intro name other hSame
    exact List.singleton_inj.mp (Path.descend_inj.mp hSame)

/-- Different directories of one directory have no files in common. -/
theorem disjoint_recursion {parent : Pending language} {name other : String} (hNe : name ≠ other) :
    List.Disjoint ((pendingOf fs options parent name).recursion fs options)
      ((pendingOf fs options parent other).recursion fs options) := by
  intro path hName hOther
  obtain ⟨first, names, rfl⟩ := mem_recursion_descend hName
  obtain ⟨otherFirst, otherNames, hSame⟩ := mem_recursion_descend hOther
  have hWays : parent.directory.descend ([name] ++ first :: names)
      = parent.directory.descend ([other] ++ otherFirst :: otherNames) := by
    rw [← Path.descend_descend, ← Path.descend_descend]
    exact hSame
  exact hNe (List.cons.inj (Path.descend_inj.mp hWays)).1

theorem nodup_recursion (hDistinct : fs.root.hasDistinctNames) (top : Pending language) :
    (top.recursion fs options).Nodup := by
  induction top using Pending.induction fs options with
  | hStep parent ih =>
    rw [parent.recursion_eq, List.nodup_append', List.nodup_flatMap]
    refine ⟨nodup_ownFiles hDistinct parent, ⟨ih, ?_⟩, ?_⟩
    · rw [pendingBelow, pendingAmong]
      split
      · exact List.Pairwise.nil
      · rw [List.pairwise_map]
        have hNames : (enteredNames options parent.scopes parent.directory
            (entriesOf fs parent.directory)).Nodup :=
          (nodup_entriesOf hDistinct parent.directory).sublist (List.filter_sublist.map Prod.fst)
        exact hNames.imp fun hNe => disjoint_recursion hNe
    · intro path hOwn hBelow
      obtain ⟨name, rfl⟩ := mem_ownFiles_descend hOwn
      obtain ⟨pending, hPending, hPath⟩ := List.mem_flatMap.mp hBelow
      obtain ⟨first, rfl⟩ := mem_pendingBelow_child hPending
      obtain ⟨second, names, hSame⟩ := mem_recursion_descend hPath
      have hWays : parent.directory.descend [name]
          = parent.directory.descend ([first] ++ second :: names) := by
        rw [← Path.descend_descend]
        exact hSame
      cases (List.cons.inj (Path.descend_inj.mp hWays)).2

end

/-! ## The walk -/

/-- Without links, a walk lists what the recursion lists: all of it if nothing interrupts the walk,
and a beginning of it otherwise.  A walk is interrupted just when its starting directory cannot be
named to the system, or a directory that it enters has an ignore file that cannot be made sense of.
If nothing interrupts it, a file that is not too deep is listed exactly once when neither the file
nor a directory on its way is pruned, no two entries of a directory having one name; and in any case
no other path is listed. -/
theorem walkWith_exact (language : RuleLanguage) (fs : FileSystem) (options : WalkOptions)
    (root : Path) (hLinks : options.followLinks = false) :
    (walkWith language fs options root).files
      <+: walkRec fs options root 0 (ownScopes language fs options root) ∧
    ((walkWith language fs options root).interruption = none →
      (walkWith language fs options root).files
        = walkRec fs options root 0 (ownScopes language fs options root)) ∧
    ((walkWith language fs options root).interruption = none ↔
      ¬ root.text.contains '\x00' ∧ Loads language fs options root ∧
        ∀ way name, Open language fs options root (way ++ [name]) →
          way.length + 1 < options.maxDepth →
          Loads language fs options (root.descend (way ++ [name]))) ∧
    (fs.root.hasDistinctNames → (walkWith language fs options root).interruption = none →
      ∀ way name, Open language fs options root way → ListsAt language fs options root way name →
        way.length + 1 ≤ options.maxDepth →
        (walkWith language fs options root).files.count (root.descend (way ++ [name])) = 1) ∧
    (∀ path ∈ (walkWith language fs options root).files, ∃ way name,
      path = root.descend (way ++ [name]) ∧ way.length + 1 ≤ options.maxDepth ∧
        Open language fs options root way ∧ ListsAt language fs options root way name) := by
  have hAgrees : Agrees (walkWith language fs options root).files
      (walkWith language fs options root).interruption
      (walkRec fs options root 0 (ownScopes language fs options root)) _ :=
    walkWith_agrees fs hLinks root
  refine ⟨hAgrees.isPrefix, hAgrees.eq, ?_, ?_, ?_⟩
  · rw [hAgrees.interruption_iff, settled_start_iff]
  · intro hDistinct hNone way name hOpen hLists hLe
    have hNodup : (walkRec fs options root 0 (ownScopes language fs options root)).Nodup :=
      nodup_recursion hDistinct (start language fs options root)
    rw [hAgrees.eq hNone]
    exact List.count_eq_one_of_mem hNodup
      (mem_recursion_start_iff.mpr ⟨way, name, rfl, hLe, hOpen, hLists⟩)
  · intro path hPath
    exact mem_recursion_start_iff.mp (hAgrees.isPrefix.subset hPath)

/-- A file in a directory below the starting one is listed exactly once. -/
theorem walkWith_exact_nested :
    let fs : FileSystem := ⟨.directory [("b", .directory [("c", .file .empty)])], []⟩
    let options : WalkOptions := { ignoreFileName := none }
    (walkWith .gitignore fs options {}).files.count ⟨.relative, ["b", "c"]⟩ = 1 := by
  intro fs options
  have hRoot : entriesOf fs (Path.descend {} []) = [("b", .directory [("c", .file .empty)])] := by
    have hText : (Path.descend {} []).text = "." := by decide
    have hStat : fs.stat "." = .ok fs.root := FileSystem.stat_of_along rfl (by decide) rfl
    simp [entriesOf, byName, hText, FileSystem.list, hStat, fs]
  have hInner : entriesOf fs (Path.descend {} ["b"]) = [("c", .file .empty)] := by
    have hText : (Path.descend {} ["b"]).text = "b" := by decide
    have hStat : fs.stat "b" = .ok (.directory [("c", .file .empty)]) :=
      FileSystem.stat_of_along rfl (by decide) rfl
    simp [entriesOf, byName, hText, FileSystem.list, hStat]
  have hOpen : Open .gitignore fs options {} ["b"] := by
    refine open_append.mpr ⟨open_nil, ⟨⟨[("c", .file .empty)], ?_⟩, by decide, rfl⟩⟩
    rw [hRoot]
    exact List.mem_cons_self
  have hLists : ListsAt .gitignore fs options {} ["b"] "c" := by
    refine ⟨⟨.empty, ?_⟩, by decide, rfl, rfl⟩
    rw [hInner]
    exact List.mem_cons_self
  have hNul : ¬ (Path.text {}).contains '\x00' = true := by simp [Path.text]
  have hExact := walkWith_exact .gitignore fs options {} rfl
  refine hExact.2.2.2.1 (by decide) ?_ ["b"] "c" hOpen hLists (by decide)
  exact hExact.2.2.1.mpr ⟨hNul, ⟨none, rfl⟩, fun _ _ _ _ => ⟨none, rfl⟩⟩

end Walk

end TreeDump
