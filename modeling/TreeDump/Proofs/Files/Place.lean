import Mathlib.Data.List.Basic
import TreeDump.Files.System
import TreeDump.Proofs.Files.Path

/-!
# Places

A tree of entries has finitely many places.  It can be a file system if its names are such that
paths can be made of them: the entry of a directory is then where the path of the directory leads,
followed by the name of the entry.

* `Entry.mem_places`, `Entry.length_places`: all places of a tree, and their number.
* `FileSystem.follow_append`, `FileSystem.follow_append_error`: a path is followed step by step, and its
  links are counted on the way.
* `FileSystem.target_child`: where the path of an entry leads.
* `FileSystem.stat_refusal`, `FileSystem.nameTooLong_of_stat`: what paths are refused for.
* `FileSystem.stat_of_parent_tooLong`: a path is too long to be asked for if that of its directory is.
* `FileSystem.stat_of_along`: what a path leads to if there is no link on its way.
-/

namespace TreeDump

/-! ## The places of a tree -/

namespace Entry

mutual

/-- The places at and below an entry. -/
def places : Entry → List Place
  | directory entries => [] :: placesIn entries
  | _ => [[]]

/-- The places of some entries and of all that is below them. -/
def placesIn : List (String × Entry) → List Place
  | [] => []
  | (name, entry) :: rest => entry.places.map (name :: ·) ++ placesIn rest

end

mutual

theorem length_places : ∀ entry : Entry, entry.places.length = entry.entryCount + 1
  | file _ => rfl
  | link _ => rfl
  | directory entries => by rw [places, entryCount, List.length_cons, length_placesIn entries]

theorem length_placesIn : ∀ entries : List (String × Entry),
    (placesIn entries).length = entryCountIn entries
  | [] => rfl
  | (_, entry) :: rest => by
    rw [placesIn, entryCountIn, List.length_append, List.length_map, length_places entry,
      length_placesIn rest]

end

theorem mem_placesIn {name : String} {entry : Entry} {entries : List (String × Entry)}
    (h : entries.lookup name = some entry) {place : Place} (hPlace : place ∈ entry.places) :
    name :: place ∈ placesIn entries := by
  induction entries with
  | nil => cases h
  | cons head rest ih =>
    obtain ⟨key, value⟩ := head
    rw [placesIn, List.mem_append]
    rw [List.lookup_cons] at h
    split at h
    · rename_i hKey
      obtain rfl := eq_of_beq hKey
      obtain rfl := Option.some.inj h
      exact Or.inl (List.mem_map_of_mem hPlace)
    · exact Or.inr (ih h)

theorem nil_mem_places (entry : Entry) : [] ∈ entry.places := by
  cases entry <;> simp [places]

/-- What there is stands at one of the places. -/
theorem mem_places {entry found : Entry} {place : Place} (h : entry.at? place = some found) :
    place ∈ entry.places := by
  induction place generalizing entry with
  | nil => exact entry.nil_mem_places
  | cons name place ih =>
    rw [at?] at h
    split at h
    · rename_i child hChild
      cases entry with
      | directory entries =>
        rw [places]
        exact List.mem_cons_of_mem _ (mem_placesIn hChild (ih h))
      | file content => cases hChild
      | link target => cases hChild
    · cases h

theorem at?_append_singleton (entry : Entry) (place : Place) (name : String) :
    entry.at? (place ++ [name]) = (entry.at? place).bind (child? name) := by
  induction place generalizing entry with
  | nil =>
    rw [List.nil_append, at?, at?, Option.bind_some]
    cases entry.child? name <;> rfl
  | cons first place ih =>
    rw [List.cons_append, at?, at?]
    cases entry.child? first with
    | none => rfl
    | some child => exact ih child

theorem lookup_of_mem {name : String} {entry : Entry} {entries : List (String × Entry)}
    (hDistinct : (entries.map Prod.fst).Nodup) (hMem : (name, entry) ∈ entries) :
    entries.lookup name = some entry := by
  induction entries with
  | nil => cases hMem
  | cons head rest ih =>
    obtain ⟨key, value⟩ := head
    rw [List.map_cons, List.nodup_cons] at hDistinct
    rw [List.lookup_cons]
    rcases List.mem_cons.mp hMem with hHead | hRest
    · obtain ⟨rfl, rfl⟩ := Prod.mk.inj hHead
      simp
    · have hNe : name ≠ key := by
        rintro rfl
        exact hDistinct.1 (List.mem_map.mpr ⟨(name, entry), hRest, rfl⟩)
      rw [beq_false_of_ne hNe]
      exact ih hDistinct.2 hRest

end Entry

/-! ## Names -/

/-- That an entry of a directory can have a name. -/
structure EntryName (name : String) : Prop extends Path.StepName name where
  notUp : name ≠ ".."
  noNul : '\x00' ∉ name.toList
  short : name.utf8ByteSize ≤ FileSystem.maxNameBytes

instance (name : String) : Decidable (EntryName name) :=
  decidable_of_iff (Path.isStep name ∧ '/' ∉ name.toList ∧ name ≠ ".." ∧ '\x00' ∉ name.toList ∧
    name.utf8ByteSize ≤ FileSystem.maxNameBytes)
    ⟨fun h => ⟨⟨h.1, h.2.1⟩, h.2.2.1, h.2.2.2.1, h.2.2.2.2⟩,
      fun h => ⟨h.isStep, h.noSlash, h.notUp, h.noNul, h.short⟩⟩

namespace FileSystem

/-- That a tree of entries can be a file system: no directory holds a name twice, and all names
are such that entries can have them. -/
structure Sound (fs : FileSystem) : Prop where
  distinct : fs.root.hasDistinctNames
  named : ∀ place ∈ fs.root.places, ∀ name ∈ place, EntryName name

variable {fs : FileSystem}

theorem isDirectoryAt_iff {place : Place} :
    fs.isDirectoryAt place ↔ ∃ entries, fs.root.at? place = some (.directory entries) := by
  rw [isDirectoryAt]
  split
  · rename_i entry hAt
    rw [hAt]
    cases entry <;> simp [Entry.isDirectory]
  · rename_i hNone
    simp [hNone]

/-- An entry of a directory is at the place that its name leads to, and has a proper name. -/
theorem Sound.child (hSound : fs.Sound) {place : Place} {entries : List (String × Entry)}
    (hAt : fs.root.at? place = some (.directory entries)) {name : String} {entry : Entry}
    (hMem : (name, entry) ∈ entries) :
    fs.root.at? (place ++ [name]) = some entry ∧ EntryName name := by
  have hDirectory := Entry.hasDistinctNames_at? hSound.distinct hAt
  rw [Entry.hasDistinctNames, Bool.and_eq_true] at hDirectory
  have hChild : fs.root.at? (place ++ [name]) = some entry := by
    rw [Entry.at?_append_singleton, hAt]
    exact Entry.lookup_of_mem (of_decide_eq_true hDirectory.1) hMem
  exact ⟨hChild, hSound.named _ (Entry.mem_places hChild) name (by simp)⟩

/-! ## Following steps -/

theorem follow_blank {links : Nat} {here : Place} {step : String} {rest : List String}
    (hDirectory : fs.isDirectoryAt here) (hBlank : Path.isStep step = false) :
    fs.follow true links here (step :: rest) = fs.follow true links here rest := by
  have hStep : (step == "" || step == ".") = true := by
    by_cases hEmpty : step = "" <;> simp_all [Path.isStep]
  rw [follow, if_neg (by simpa using hDirectory), if_pos hStep]

theorem follow_blanks {links : Nat} {here : Place} {blanks rest : List String}
    (hDirectory : fs.isDirectoryAt here) (hBlanks : ∀ step ∈ blanks, Path.isStep step = false) :
    fs.follow true links here (blanks ++ rest) = fs.follow true links here rest := by
  induction blanks with
  | nil => rfl
  | cons step blanks ih =>
    rw [List.cons_append, follow_blank hDirectory (hBlanks step List.mem_cons_self),
      ih fun other hOther => hBlanks other (List.mem_cons_of_mem _ hOther)]

/-- The step to an entry that is no link. -/
theorem follow_entry {links : Nat} {here : Place} {step : String} {rest : List String}
    {entry : Entry} (hDirectory : fs.isDirectoryAt here) (hStep : Path.isStep step)
    (hUp : step ≠ "..") (hShort : step.utf8ByteSize ≤ maxNameBytes)
    (hAt : fs.root.at? (here ++ [step]) = some entry) (hNoLink : entry.isLink = false) :
    fs.follow true links here (step :: rest) = fs.follow true links (here ++ [step]) rest := by
  have hVisible : ¬ (step == "" || step == ".") = true := by
    simpa [Path.isStep] using hStep
  rw [follow, if_neg (by simpa using hDirectory), if_neg hVisible, if_neg (by simpa using hUp),
    if_neg (Nat.not_lt.mpr hShort), hAt]
  cases entry with
  | link target => cases hNoLink
  | file content => rfl
  | directory entries => rfl

/-- What becomes of steps that are followed by more: they lead to a place, and the rest is followed from
there with the links that are left; they are refused, however they go on; or they lead to nothing yet. -/
theorem follow_append_cases (links : Nat) (here : Place) (steps : List String) :
    (∃ place left, fs.follow true links here steps = .ok (.entry place) ∧
      ∀ more, fs.follow true links here (steps ++ more) = fs.follow true left place more) ∨
    (∃ refusal, fs.follow true links here steps = .error refusal ∧
      ∀ more, fs.follow true links here (steps ++ more) = .error refusal) ∨
    ∃ directory name, fs.follow true links here steps = .ok (.vacancy directory name) := by
  -- First the ways in which a path leads on, then those in which it leads nowhere.
  induction links, here, steps using follow.induct fs true with
  | case1 links here => exact Or.inl ⟨here, links, by rw [follow], fun more => rfl⟩
  | case3 links here step rest hDirectory hBlank ih =>
    have hNext : ∀ rest, fs.follow true links here (step :: rest)
        = fs.follow true links here rest := by
      intro rest
      rw [follow, if_neg hDirectory, if_pos hBlank]
    simpa only [List.cons_append, hNext] using ih
  | case4 links here step rest hDirectory hStep hUp ih =>
    have hNext : ∀ rest, fs.follow true links here (step :: rest)
        = fs.follow true links here.dropLast rest := by
      intro rest
      rw [follow, if_neg hDirectory, if_neg hStep, if_pos hUp]
    simpa only [List.cons_append, hNext] using ih
  | case10 here step rest hDirectory hStep hUp hShort target hAt hFollowed links start ih =>
    have hNext : ∀ rest, fs.follow true (links + 1) here (step :: rest)
        = fs.follow true links start (rawSteps target ++ rest) := by
      intro rest
      rw [follow, if_neg hDirectory, if_neg hStep, if_neg hUp, if_neg hShort, hAt]
      simp [start]
    simpa only [List.cons_append, hNext, List.append_assoc] using ih
  | case11 links here step rest hDirectory hStep hUp hShort entry hNoLink hAt ih =>
    have hNext : ∀ rest, fs.follow true links here (step :: rest)
        = fs.follow true links (here ++ [step]) rest := by
      intro rest
      refine follow_entry (by simpa using hDirectory) (by simpa [Path.isStep] using hStep)
        (by simpa using hUp) (by omega) hAt ?_
      cases entry with
      | link target => exact absurd rfl (hNoLink target)
      | file content => rfl
      | directory entries => rfl
    simpa only [List.cons_append, hNext] using ih
  | case2 links here step rest hNone =>
    have hNext : ∀ rest, fs.follow true links here (step :: rest) = .error .notDirectory := by
      intro rest
      rw [follow, if_pos hNone]
    exact Or.inr (Or.inl ⟨_, hNext rest, fun more => hNext (rest ++ more)⟩)
  | case5 links here step rest hDirectory hStep hUp hLong =>
    have hNext : ∀ rest, fs.follow true links here (step :: rest) = .error .nameTooLong := by
      intro rest
      rw [follow, if_neg hDirectory, if_neg hStep, if_neg hUp, if_pos hLong]
    exact Or.inr (Or.inl ⟨_, hNext rest, fun more => hNext (rest ++ more)⟩)
  | case6 links here step rest hDirectory hStep hUp hShort hAt hLast =>
    refine Or.inr (Or.inr ⟨here, step, ?_⟩)
    rw [follow, if_neg hDirectory, if_neg hStep, if_neg hUp, if_neg hShort, hAt]
    simp [hLast]
  | case7 links here step rest hDirectory hStep hUp hShort hAt hMore =>
    have hNext : ∀ rest : List String, rest.isEmpty = false →
        fs.follow true links here (step :: rest) = .error .notFound := by
      intro rest hRest
      rw [follow, if_neg hDirectory, if_neg hStep, if_neg hUp, if_neg hShort, hAt]
      simp [hRest]
    have hRest : rest.isEmpty = false := by simpa using hMore
    refine Or.inr (Or.inl ⟨_, hNext rest hRest, fun more => hNext (rest ++ more) ?_⟩)
    rw [List.isEmpty_eq_false_iff] at hRest ⊢
    exact List.append_ne_nil_of_left_ne_nil hRest more
  | case8 links here step rest hDirectory hStep hUp hShort target hAt hLast =>
    simp at hLast
  | case9 here step rest hDirectory hStep hUp hShort target hAt hFollowed =>
    have hNext : ∀ rest, fs.follow true 0 here (step :: rest) = .error .tooManyLinks := by
      intro rest
      rw [follow, if_neg hDirectory, if_neg hStep, if_neg hUp, if_neg hShort, hAt]
      simp
    exact Or.inr (Or.inl ⟨_, hNext rest, fun more => hNext (rest ++ more)⟩)

/-- Following more steps goes on where the first ones lead, with the links that are left then. -/
theorem follow_append {links : Nat} {here place : Place} {steps : List String}
    (h : fs.follow true links here steps = .ok (.entry place)) :
    ∃ left, ∀ more, fs.follow true links here (steps ++ more) = fs.follow true left place more := by
  rcases fs.follow_append_cases links here steps with
    ⟨other, left, hEntry, hLeft⟩ | ⟨refusal, hRefused, -⟩ | ⟨directory, name, hVacancy⟩
  · cases h.symm.trans hEntry
    exact ⟨left, hLeft⟩
  · cases h.symm.trans hRefused
  · cases h.symm.trans hVacancy

/-- Steps that are refused are refused however they go on. -/
theorem follow_append_error {links : Nat} {here : Place} {steps : List String} {refusal : Refusal}
    (h : fs.follow true links here steps = .error refusal) (more : List String) :
    fs.follow true links here (steps ++ more) = .error refusal := by
  rcases fs.follow_append_cases links here steps with
    ⟨place, left, hEntry, -⟩ | ⟨other, hRefused, hMore⟩ | ⟨directory, name, hVacancy⟩
  · cases h.symm.trans hEntry
  · cases h.symm.trans hRefused
    exact hMore more
  · cases h.symm.trans hVacancy

/-! ## Where written paths lead -/

/-- A path that can be asked for leads to its place however long it might be. -/
theorem target_of_locate {path : String} {place : Place} (h : fs.locate path = .ok place) :
    fs.target path = .ok (.entry place) := by
  rw [locate, resolve] at h
  split at h
  · rename_i found hFound
    obtain rfl := Except.ok.inj h
    split at hFound
    · cases hFound
    · split at hFound
      · cases hFound
      · split at hFound
        · cases hFound
        · exact hFound
  · cases h
  · cases h

theorem target_of_stat {path : String} {entry : Entry} (h : fs.stat path = .ok entry) :
    ∃ place, fs.target path = .ok (.entry place) ∧ fs.root.at? place = some entry := by
  rw [stat] at h
  split at h
  · rename_i place hPlace
    split at h
    · rename_i found hAt
      obtain rfl := Except.ok.inj h
      exact ⟨place, target_of_locate hPlace, hAt⟩
    · cases h
  · cases h

theorem target_of_list {path : String} {entries : List (String × Entry)}
    (h : fs.list path = .ok entries) :
    ∃ place, fs.target path = .ok (.entry place) ∧
      fs.root.at? place = some (.directory entries) := by
  rw [list] at h
  split at h
  · rename_i listed hStat
    obtain rfl := Except.ok.inj h
    exact target_of_stat hStat
  · cases h
  · cases h

/-- A path that is followed at all starts in a directory. -/
theorem isDirectoryAt_startOf_of_ne {path : String} (h : fs.target path ≠ .error .notDirectory) :
    fs.isDirectoryAt (fs.startOf path) := by
  rw [target] at h
  cases hSteps : rawSteps path with
  | nil => exact absurd (List.map_eq_nil_iff.mp hSteps) (splitSlashes_ne_nil _ _)
  | cons step rest =>
    rw [hSteps, follow] at h
    by_contra hNone
    exact h (if_pos (by simpa using hNone))

theorem isDirectoryAt_startOf {path : String} {found : Target} (h : fs.target path = .ok found) :
    fs.isDirectoryAt (fs.startOf path) :=
  isDirectoryAt_startOf_of_ne (by simp [h])

/-- A path is followed along its names. -/
theorem target_text {path : Path} (hWritten : path.Written)
    (hStart : fs.isDirectoryAt (fs.startOf path.text)) :
    fs.target path.text = fs.follow true maxLinks (fs.startOf path.text) path.names := by
  obtain ⟨blanks, hBlanks, hSteps⟩ := hWritten.rawSteps_text
  rw [target, hSteps, follow_blanks hStart hBlanks]

theorem startOf_text {path : Path} (hWritten : path.Written) :
    fs.startOf path.text = if path.anchor = .relative then fs.working else [] := by
  rw [startOf, hWritten.head?_text]
  by_cases hAnchor : path.anchor = .relative <;> simp [hAnchor]

/-- The path of an entry leads on from where the path of its directory leads. -/
theorem target_child {path : Path} (hWritten : path.Written) {place : Place} {name : String}
    {entry : Entry} (hName : EntryName name) (hTarget : fs.target path.text = .ok (.entry place))
    (hDirectory : fs.isDirectoryAt place) (hAt : fs.root.at? (place ++ [name]) = some entry)
    (hNoLink : entry.isLink = false) :
    fs.target (path.child name).text = .ok (.entry (place ++ [name])) := by
  have hChild := hWritten.child hName.toStepName
  have hStart := isDirectoryAt_startOf hTarget
  have hSame : fs.startOf (path.child name).text = fs.startOf path.text := by
    rw [startOf_text hChild, startOf_text hWritten]
    rfl
  rw [target_text hWritten hStart] at hTarget
  obtain ⟨left, hLeft⟩ := follow_append hTarget
  rw [target_text hChild (hSame ▸ hStart), hSame]
  calc fs.follow true maxLinks (fs.startOf path.text) (path.names ++ [name])
      = fs.follow true left place [name] := hLeft [name]
    _ = fs.follow true left (place ++ [name]) [] :=
        follow_entry hDirectory hName.isStep hName.notUp hName.short hAt hNoLink
    _ = .ok (.entry (place ++ [name])) := by rw [follow]

/-! ## Refusals -/

/-- Steps can be refused in four ways, and not in these two. -/
theorem follow_refusal (followLast : Bool) (links : Nat) (here : Place) (steps : List String) :
    fs.follow followLast links here steps ≠ .error .nulByte ∧
      fs.follow followLast links here steps ≠ .error .isDirectory := by
  fun_induction follow fs followLast links here steps <;> first | assumption | simp

/-- What a request for an entry is refused for is found when the path is followed, unless there is
nothing at the end of it. -/
theorem resolve_of_stat {path : String} {refusal : Refusal} (h : fs.stat path = .error refusal) :
    refusal = .notFound ∨ fs.resolve true path = .error refusal := by
  rw [stat] at h
  split at h
  · split at h
    · cases h
    · exact Or.inl (Except.error.inj h).symm
  rename_i other hLocate
  obtain rfl := Except.error.inj h
  rw [locate] at hLocate
  split at hLocate
  · cases hLocate
  · exact Or.inl (Except.error.inj hLocate).symm
  · rename_i refused hResolve
    obtain rfl := Except.error.inj hLocate
    exact Or.inr hResolve

/-- A request for an entry is never refused because there is a directory, and for a NUL character
only if the path holds one. -/
theorem stat_refusal {path : String} {refusal : Refusal} (h : fs.stat path = .error refusal) :
    refusal ≠ .isDirectory ∧ (refusal = .nulByte → path.contains '\x00') := by
  rcases resolve_of_stat h with rfl | hResolve
  · exact ⟨by simp, by simp⟩
  rw [resolve] at hResolve
  split at hResolve
  · rename_i hNul
    obtain rfl := Except.error.inj hResolve
    exact ⟨by simp, fun _ => hNul⟩
  split at hResolve
  · obtain rfl := Except.error.inj hResolve
    exact ⟨by simp, by simp⟩
  split at hResolve
  · obtain rfl := Except.error.inj hResolve
    exact ⟨by simp, by simp⟩
  · constructor
    · rintro rfl
      exact (follow_refusal true maxLinks _ _).2 hResolve
    · rintro rfl
      exact absurd hResolve (follow_refusal true maxLinks _ _).1

/-- Only a path that holds a NUL character is refused for it. -/
theorem contains_of_stat {path : String} (h : fs.stat path = .error .nulByte) :
    path.contains '\x00' :=
  (stat_refusal h).2 rfl

/-- Of the refusals that do not mean absence, only that of a long name comes up. -/
theorem nameTooLong_of_stat {path : String} {refusal : Refusal}
    (h : fs.stat path = .error refusal) (hFails : refusal.meansAbsent = false) :
    refusal = .nameTooLong := by
  cases refusal with
  | nameTooLong => rfl
  | isDirectory => exact absurd rfl (stat_refusal h).1
  | notFound => cases hFails
  | notDirectory => cases hFails
  | tooManyLinks => cases hFails
  | nulByte => cases hFails

theorem isFile_error {path : String} {refusal : Refusal} (h : fs.isFile path = .error refusal) :
    refusal = .nameTooLong := by
  rw [isFile] at h
  split at h
  · cases h
  rename_i other hStat
  split at h
  · cases h
  · rename_i hFails
    obtain rfl := Except.error.inj h
    exact nameTooLong_of_stat hStat (by simpa using hFails)

theorem stat_of_isPresent {path : String} {refusal : Refusal}
    (h : fs.isPresent path = .error refusal) :
    fs.stat path = .error refusal ∧ refusal.meansAbsent = false := by
  rw [isPresent] at h
  split at h
  · cases h
  rename_i other hStat
  split at h
  · cases h
  · rename_i hFails
    obtain rfl := Except.error.inj h
    exact ⟨hStat, by simpa using hFails⟩

theorem isPresent_error {path : String} {refusal : Refusal}
    (h : fs.isPresent path = .error refusal) : refusal = .nameTooLong :=
  nameTooLong_of_stat (stat_of_isPresent h).1 (stat_of_isPresent h).2

/-! ## Lengths -/

/-- A request is refused because of a length just if the text of the path is too long, or a name
on the way is. -/
theorem tooLong_of_stat {path : String} (h : fs.stat path = .error .nameTooLong) :
    pathLimitBytes ≤ path.utf8ByteSize ∨ fs.target path = .error .nameTooLong := by
  have hResolve := (resolve_of_stat h).resolve_left (by simp)
  rw [resolve] at hResolve
  split at hResolve
  · cases hResolve
  split at hResolve
  · cases hResolve
  split at hResolve
  · exact Or.inl ‹_›
  · exact Or.inr hResolve

theorem stat_of_tooLong {path : String} (hNul : path.contains '\x00' = false) (hSome : path ≠ "")
    (h : pathLimitBytes ≤ path.utf8ByteSize ∨ fs.target path = .error .nameTooLong) :
    fs.stat path = .error .nameTooLong := by
  have hResolve : fs.resolve true path = .error .nameTooLong := by
    rw [resolve, if_neg (by simp [hNul]), if_neg (by simpa using hSome)]
    split
    · rfl
    · exact h.resolve_left ‹_›
  rw [stat, locate, hResolve]

/-- A path leads past a name that is too long if that of its directory does. -/
theorem target_of_parent_tooLong {path : Path} (hWritten : path.Written)
    (h : fs.target path.parent.text = .error .nameTooLong) :
    fs.target path.text = .error .nameTooLong := by
  have hParent : path.parent.Written := fun name hName =>
    hWritten name (List.dropLast_subset path.names hName)
  have hStart : fs.isDirectoryAt (fs.startOf path.parent.text) :=
    isDirectoryAt_startOf_of_ne (by simp [h])
  have hSame : fs.startOf path.text = fs.startOf path.parent.text := by
    rw [startOf_text hWritten, startOf_text hParent]
    rfl
  rw [target_text hParent hStart] at h
  rw [target_text hWritten (hSame ▸ hStart), hSame]
  rcases List.eq_nil_or_concat path.names with hNone | ⟨front, name, hNames⟩
  · have hParentNames : path.parent.names = path.names := by
      rw [Path.parent, hNone, List.dropLast_nil]
    rwa [hParentNames] at h
  · have hParentNames : path.parent.names = front := by simp [Path.parent, hNames]
    rw [hParentNames] at h
    rw [hNames, List.concat_eq_append]
    exact follow_append_error h [name]

/-- A path without NUL characters is too long to be asked for if that of its directory is. -/
theorem stat_of_parent_tooLong {path : Path} (hWritten : path.Written)
    (hNul : path.text.contains '\x00' = false)
    (h : fs.stat path.parent.text = .error .nameTooLong) :
    fs.stat path.text = .error .nameTooLong := by
  refine stat_of_tooLong hNul hWritten.text_ne_empty ?_
  rcases tooLong_of_stat h with hLimit | hTarget
  · rcases path.utf8ByteSize_parent_le with hDot | hLess
    · rw [hDot] at hLimit
      exact absurd hLimit (by decide)
    · exact Or.inl (Nat.le_trans hLimit hLess)
  · exact Or.inr (target_of_parent_tooLong hWritten hTarget)

end FileSystem

/-! ## Paths without links -/

/-- What steps lead to from an entry, as long as there is no link on the way and none of them goes
up. -/
def Entry.along (entry : Entry) : List String → Option (Except Refusal Entry)
  | [] => if entry.isLink then none else some (.ok entry)
  | step :: rest =>
    match entry with
    | link _ => none
    | file _ => some (.error .notDirectory)
    | directory entries =>
      if !Path.isStep step then (directory entries).along rest
      else if step == ".." then none
      else if FileSystem.maxNameBytes < step.utf8ByteSize then some (.error .nameTooLong)
      else match entries.lookup step with
        | some child => child.along rest
        | none => some (.error .notFound)

namespace FileSystem

/-- What stands where steps lead. -/
def entryOf (fs : FileSystem) : Except Refusal Target → Except Refusal Entry
  | .ok (.entry place) =>
    match fs.root.at? place with
    | some entry => .ok entry
    | none => .error .notFound
  | .ok (.vacancy _ _) => .error .notFound
  | .error refusal => .error refusal

theorem stat_eq_entryOf (fs : FileSystem) (path : String) :
    fs.stat path = fs.entryOf (fs.resolve true path) := by
  rw [stat, locate]
  rcases fs.resolve true path with refusal | place | vacancy <;> rfl

variable {fs : FileSystem}

theorem entryOf_follow {links : Nat} {here : Place} {entry : Entry} {steps : List String}
    {result : Except Refusal Entry} (hHere : fs.root.at? here = some entry)
    (hAlong : entry.along steps = some result) :
    fs.entryOf (fs.follow true links here steps) = result := by
  induction steps generalizing here entry with
  | nil =>
    rw [Entry.along] at hAlong
    split at hAlong
    · cases hAlong
    · rw [follow, entryOf, hHere]
      exact Option.some.inj hAlong
  | cons step rest ih =>
    cases entry with
    | link target => cases hAlong
    | file content =>
      have hNone : ¬ fs.isDirectoryAt here := by
        rw [isDirectoryAt, hHere]
        exact Bool.false_ne_true
      rw [follow, if_pos (by simpa using hNone)]
      exact Option.some.inj hAlong
    | directory entries =>
      have hDirectory : fs.isDirectoryAt here := isDirectoryAt_iff.mpr ⟨entries, hHere⟩
      have hChild : fs.root.at? (here ++ [step]) = entries.lookup step := by
        rw [Entry.at?_append_singleton, hHere, Option.bind_some, Entry.child?]
      rw [Entry.along] at hAlong
      split at hAlong
      · rename_i hBlank
        rw [follow_blank hDirectory (by simpa using hBlank)]
        exact ih hHere hAlong
      rename_i hStep
      have hVisible : ¬ (step == "" || step == ".") = true := by simpa [Path.isStep] using hStep
      split at hAlong
      · cases hAlong
      rename_i hUp
      rw [follow, if_neg (by simpa using hDirectory), if_neg hVisible, if_neg hUp]
      split at hAlong
      · rename_i hLong
        rw [if_pos hLong]
        exact Option.some.inj hAlong
      rename_i hShort
      rw [if_neg hShort, hChild]
      cases hLookup : entries.lookup step with
      | none =>
        rw [hLookup] at hAlong
        rw [← Option.some.inj hAlong]
        cases rest <;> rfl
      | some child =>
        rw [hLookup] at hAlong hChild
        cases child with
        | link target => cases rest <;> cases hAlong
        | file content => exact ih hChild hAlong
        | directory below => exact ih hChild hAlong

/-- That a path can be asked for. -/
def Asked (path : String) : Prop :=
  path ≠ "" ∧ '\x00' ∉ path.toList ∧ path.utf8ByteSize < pathLimitBytes

instance (path : String) : Decidable (Asked path) := inferInstanceAs (Decidable (_ ∧ _ ∧ _))

/-- Where the working directory is the root, a path without links leads to what its steps lead to from
there. -/
theorem stat_of_along {path : String} {result : Except Refusal Entry} (hWorking : fs.working = [])
    (hAsked : Asked path) (hAlong : fs.root.along (rawSteps path) = some result) :
    fs.stat path = result := by
  have hNul : ¬ path.contains '\x00' = true := by simpa using hAsked.2.1
  have hStart : (if path.toList.head? == some '/' then [] else fs.working) = [] := by
    rw [hWorking, ite_self]
  rw [stat_eq_entryOf, resolve, if_neg hNul, if_neg (by simpa using hAsked.1),
    if_neg (Nat.not_le.mpr hAsked.2.2)]
  dsimp only
  rw [hStart]
  exact entryOf_follow rfl hAlong

end FileSystem

end TreeDump
