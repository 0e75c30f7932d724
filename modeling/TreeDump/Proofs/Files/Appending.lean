import TreeDump.Proofs.Files.Place
import TreeDump.Proofs.Text.Utf8

/-!
# Writing to one file

Where a path leads depends on names, links and directories, but not on what files hold.  So when a
file is made where nothing was, or has another content, everything else stays where it is, and the
path that led to the file still leads there.

* `Entry.Slot`: the places that can take a file.
* `FileSystem.Rewritten`: what is different once a file was written at a place.
* `FileSystem.Holds`: that a path leads to a file with a content, which `Holds.append` adds to.
* `FileSystem.openFile_holds`: what an opened path leads to.
* `FileSystem.bytesAt_append`: what is appended to one file is all that any file has in addition.
-/

namespace TreeDump

/-! ## Putting a file at a place -/

namespace Entry

/-- An entry without what it holds. -/
def bare : Entry → Entry
  | file _ => file .empty
  | link target => link target
  | directory _ => directory []

/-- The bytes of a file. -/
def bytes : Entry → List UInt8
  | file content => content.toList
  | _ => []

/-- The places that can take a file: those of files, and those where nothing is in a directory. -/
inductive Slot : Entry → Place → Prop where
  | file (old : ByteArray) : Slot (file old) []
  | vacant {entries : List (String × Entry)} {name : String}
      (hNone : entries.lookup name = none) : Slot (directory entries) [name]
  | inside {entries : List (String × Entry)} {name : String} {child : Entry} {place : Place}
      (hChild : entries.lookup name = some child) (hSlot : child.Slot place) :
      Slot (directory entries) (name :: place)

theorem slot_of_file {entry : Entry} {place : Place} {old : ByteArray}
    (hAt : entry.at? place = some (file old)) : entry.Slot place := by
  induction place generalizing entry with
  | nil =>
    obtain rfl := Option.some.inj hAt
    exact .file old
  | cons name place ih =>
    rw [at?] at hAt
    split at hAt
    · rename_i child hChild
      cases entry with
      | directory entries => exact .inside hChild (ih hAt)
      | file content => cases hChild
      | link target => cases hChild
    · cases hAt

theorem slot_of_vacancy {entry : Entry} {directory : Place} {entries : List (String × Entry)}
    {name : String} (hAt : entry.at? directory = some (.directory entries))
    (hNone : entries.lookup name = none) : entry.Slot (directory ++ [name]) := by
  induction directory generalizing entry with
  | nil =>
    obtain rfl := Option.some.inj hAt
    exact .vacant hNone
  | cons first directory ih =>
    rw [at?] at hAt
    split at hAt
    · rename_i child hChild
      cases entry with
      | directory others => exact .inside hChild (ih hAt)
      | file content => cases hChild
      | link target => cases hChild
    · cases hAt

/-- Replacing the entry that a name has changes nothing for other names. -/
theorem lookup_map_ne {name other : String} (hNe : other ≠ name) (entry : Entry)
    (entries : List (String × Entry)) :
    (entries.map fun old => if old.1 == name then (name, entry) else old).lookup other
      = entries.lookup other := by
  induction entries with
  | nil => rfl
  | cons head rest ih =>
    obtain ⟨key, value⟩ := head
    rw [List.map_cons, List.lookup_cons]
    by_cases hKey : key = name
    · subst hKey
      have hOther : (other == key) = false := beq_false_of_ne hNe
      simp only [beq_self_eq_true, if_true, hOther, ih, List.lookup_cons]
    · have hKept : (key == name) = false := beq_false_of_ne hKey
      simp only [hKept, Bool.false_eq_true, if_false, ih, List.lookup_cons]

theorem lookup_insert_ne {name other : String} (hNe : other ≠ name) (entry : Entry)
    (entries : List (String × Entry)) :
    (insert name entry entries).lookup other = entries.lookup other := by
  rw [insert]
  split
  · exact lookup_map_ne hNe entry entries
  · have hOther : (other == name) = false := beq_false_of_ne hNe
    rw [List.lookup_append, List.lookup_cons, hOther]
    simp

theorem lookup_insert_self (name : String) (entry : Entry) (entries : List (String × Entry)) :
    (insert name entry entries).lookup name = some entry := by
  rw [insert]
  split
  · rename_i hAny
    induction entries with
    | nil => simp at hAny
    | cons head rest ih =>
      obtain ⟨key, value⟩ := head
      rw [List.map_cons, List.lookup_cons]
      by_cases hKey : key = name
      · simp [hKey]
      · have hKept : (key == name) = false := beq_false_of_ne hKey
        have hOther : (name == key) = false := beq_false_of_ne (Ne.symm hKey)
        simp only [List.any_cons, hKept, Bool.false_or] at hAny
        simp only [hKept, Bool.false_eq_true, if_false, hOther]
        exact ih hAny
  · rename_i hNone
    have hLookup : entries.lookup name = none := by
      rw [List.lookup_eq_none_iff]
      intro old hOld
      have hOther := List.any_eq_false.mp (Bool.eq_false_iff.mpr hNone) old hOld
      exact bne_iff_ne.mpr fun hName => hOther (beq_iff_eq.mpr hName.symm)
    rw [List.lookup_append, hLookup]
    simp

/-- A file is put below a directory by putting it below the child on the way. -/
theorem put_below {entries : List (String × Entry)} {name : String} {child : Entry}
    (hChild : entries.lookup name = some child) (place : Place) (new : Entry) :
    (directory entries).put (name :: place) new
      = directory (insert name (child.put place new) entries) := by
  cases place with
  | nil => cases child <;> rfl
  | cons second place => rw [put, hChild]; simp

namespace Slot

variable {entry : Entry} {place : Place}

theorem at? (hSlot : entry.Slot place) :
    entry.at? place = none ∨ ∃ old, entry.at? place = some (.file old) := by
  induction hSlot with
  | file old => exact Or.inr ⟨old, rfl⟩
  | vacant hNone =>
    left
    rw [Entry.at?, child?, hNone]
  | inside hChild _ ih =>
    rw [Entry.at?, child?, hChild]
    exact ih

theorem at?_put_self (hSlot : entry.Slot place) (content : ByteArray) :
    (entry.put place (.file content)).at? place = some (.file content) := by
  induction hSlot with
  | file old => rfl
  | vacant hNone => simp [put, Entry.at?, child?, lookup_insert_self]
  | inside hChild _ ih =>
    rw [put_below hChild, Entry.at?, child?, lookup_insert_self]
    exact ih

/-- What does not depend on the names in directories is the same at every other place. -/
theorem at?_put_ne {α : Type} {f : Entry → α}
    (hNames : ∀ entries others, f (directory entries) = f (directory others))
    (hSlot : entry.Slot place) (content : ByteArray) {other : Place} (hNe : other ≠ place) :
    ((entry.put place (.file content)).at? other).map f = (entry.at? other).map f := by
  induction hSlot generalizing other with
  | file old =>
    cases other with
    | nil => exact absurd rfl hNe
    | cons name rest => rfl
  | @vacant entries name hNone =>
    cases other with
    | nil => exact congrArg some (hNames _ _)
    | cons first rest =>
      by_cases hFirst : first = name
      · subst hFirst
        cases rest with
        | nil => exact absurd rfl hNe
        | cons second rest => simp [put, Entry.at?, child?, lookup_insert_self, hNone]
      · simp [put, Entry.at?, child?, lookup_insert_ne hFirst]
  | @inside entries name child place hChild _ ih =>
    rw [put_below hChild]
    cases other with
    | nil => exact congrArg some (hNames _ _)
    | cons first rest =>
      by_cases hFirst : first = name
      · subst hFirst
        rw [Entry.at?, Entry.at?, child?, child?, lookup_insert_self, hChild]
        exact ih fun hRest => hNe (congrArg (List.cons first) hRest)
      · rw [Entry.at?, Entry.at?, child?, child?, lookup_insert_ne hFirst]

end Slot

end Entry

namespace FileSystem

/-! ## Where paths lead afterwards -/

/-- That a file at a place is all in which two file systems differ. -/
structure Rewritten (place : Place) (content : ByteArray) (before after : FileSystem) : Prop where
  working : after.working = before.working
  vacant : before.root.at? place = none ∨ ∃ old, before.root.at? place = some (.file old)
  file : after.root.at? place = some (.file content)
  others : ∀ other, other ≠ place →
    (after.root.at? other).map Entry.bare = (before.root.at? other).map Entry.bare

theorem rewritten_put {fs : FileSystem} {place : Place} (hSlot : fs.root.Slot place)
    (content : ByteArray) : Rewritten place content fs (fs.put place (.file content)) where
  working := rfl
  vacant := hSlot.at?
  file := hSlot.at?_put_self content
  others := fun _ hNe => Entry.Slot.at?_put_ne (fun _ _ => rfl) hSlot content hNe

namespace Rewritten

variable {place : Place} {content : ByteArray} {before after : FileSystem}

/-- A place with a directory or a link has it still. -/
theorem at?_of_not_file (h : Rewritten place content before after) {other : Place} {entry : Entry}
    (hAt : before.root.at? other = some entry) (hFile : entry.isFile = false) :
    other ≠ place ∧ ∃ found, after.root.at? other = some found ∧ found.bare = entry.bare := by
  have hNe : other ≠ place := by
    rintro rfl
    rcases h.vacant with hNone | ⟨old, hOld⟩
    · cases hNone.symm.trans hAt
    · obtain rfl := Option.some.inj (hOld.symm.trans hAt)
      cases hFile
  have hSame := h.others other hNe
  rw [hAt, Option.map_some, Option.map_eq_some_iff] at hSame
  exact ⟨hNe, hSame⟩

theorem isDirectoryAt (h : Rewritten place content before after) {other : Place}
    (hDirectory : before.isDirectoryAt other) : after.isDirectoryAt other := by
  rw [isDirectoryAt_iff] at hDirectory ⊢
  obtain ⟨entries, hAt⟩ := hDirectory
  obtain ⟨-, found, hFound, hBare⟩ := h.at?_of_not_file hAt rfl
  cases found with
  | directory others => exact ⟨others, hFound⟩
  | file old => cases hBare
  | link target => cases hBare

/-- A place with an entry that is no link has one still. -/
theorem exists_of_not_link (h : Rewritten place content before after) {other : Place}
    {entry : Entry} (hAt : before.root.at? other = some entry) (hLink : entry.isLink = false) :
    ∃ found, after.root.at? other = some found ∧ found.isLink = false := by
  by_cases hPlace : other = place
  · exact ⟨.file content, hPlace ▸ h.file, rfl⟩
  · have hSame := h.others other hPlace
    rw [hAt, Option.map_some, Option.map_eq_some_iff] at hSame
    obtain ⟨found, hFound, hBare⟩ := hSame
    refine ⟨found, hFound, ?_⟩
    cases found with
    | link target =>
      cases entry with
      | link other => cases hLink
      | file old => cases hBare
      | directory entries => cases hBare
    | file old => rfl
    | directory entries => rfl

/-- Steps that led to the place of the file, or to where it was to be made, lead there still. -/
theorem follow_eq (h : Rewritten place content before after) {links : Nat} {here : Place}
    {steps : List String} {found : Target} (hFollow : before.follow true links here steps = .ok found)
    (hFound : found = .entry place ∨
      ∃ directory name, found = .vacancy directory name ∧ place = directory ++ [name]) :
    after.follow true links here steps = .ok (.entry place) := by
  -- First the ways in which steps lead on, then those in which they lead nowhere.
  induction links, here, steps using follow.induct before true with
  | case1 links here =>
    rw [follow] at hFollow
    obtain rfl := Except.ok.inj hFollow
    rcases hFound with hEntry | ⟨directory, name, hVacancy, -⟩
    · rw [follow, hEntry]
    · cases hVacancy
  | case3 links here step rest hDirectory hBlank ih =>
    rw [follow, if_neg hDirectory, if_pos hBlank] at hFollow
    have hStill := h.isDirectoryAt (by simpa using hDirectory)
    rw [follow, if_neg (by simpa using hStill), if_pos hBlank]
    exact ih hFollow
  | case4 links here step rest hDirectory hStep hUp ih =>
    rw [follow, if_neg hDirectory, if_neg hStep, if_pos hUp] at hFollow
    have hStill := h.isDirectoryAt (by simpa using hDirectory)
    rw [follow, if_neg (by simpa using hStill), if_neg hStep, if_pos hUp]
    exact ih hFollow
  | case6 links here step rest hDirectory hStep hUp hShort hAt hLast =>
    rw [follow, if_neg hDirectory, if_neg hStep, if_neg hUp, if_neg hShort, hAt] at hFollow
    simp only [hLast, if_true] at hFollow
    obtain rfl := Except.ok.inj hFollow
    rcases hFound with hEntry | ⟨directory, name, hVacancy, hPlace⟩
    · cases hEntry
    · obtain ⟨rfl, rfl⟩ := Target.vacancy.inj hVacancy
      have hStill := h.isDirectoryAt (by simpa using hDirectory)
      rw [follow, if_neg (by simpa using hStill), if_neg hStep, if_neg hUp, if_neg hShort, ← hPlace,
        h.file, List.isEmpty_iff.mp hLast]
      dsimp only
      rw [follow]
  | case10 here step rest hDirectory hStep hUp hShort target hAt hFollowed links start ih =>
    rw [follow, if_neg hDirectory, if_neg hStep, if_neg hUp, if_neg hShort, hAt] at hFollow
    dsimp only at hFollow
    rw [if_neg hFollowed] at hFollow
    have hStill := h.isDirectoryAt (by simpa using hDirectory)
    obtain ⟨-, other, hOther, hBare⟩ := h.at?_of_not_file hAt rfl
    obtain rfl : other = .link target := by
      cases other with
      | link other => exact hBare
      | file old => cases hBare
      | directory entries => cases hBare
    rw [follow, if_neg (by simpa using hStill), if_neg hStep, if_neg hUp, if_neg hShort, hOther]
    dsimp only
    rw [if_neg hFollowed]
    exact ih hFollow
  | case11 links here step rest hDirectory hStep hUp hShort entry hNoLink hAt ih =>
    have hLinkless : entry.isLink = false := by
      cases entry with
      | link target => exact absurd rfl (hNoLink target)
      | file old => rfl
      | directory entries => rfl
    obtain ⟨other, hOther, hOtherLinkless⟩ := h.exists_of_not_link hAt hLinkless
    have hHere : before.isDirectoryAt here := by simpa using hDirectory
    have hVisible : Path.isStep step := by simpa [Path.isStep] using hStep
    have hDown : step ≠ ".." := by simpa using hUp
    rw [follow_entry hHere hVisible hDown (by omega) hAt hLinkless] at hFollow
    rw [follow_entry (h.isDirectoryAt hHere) hVisible hDown (by omega) hOther hOtherLinkless]
    exact ih hFollow
  | case2 links here step rest hNone =>
    rw [follow, if_pos hNone] at hFollow
    cases hFollow
  | case5 links here step rest hDirectory hStep hUp hLong =>
    rw [follow, if_neg hDirectory, if_neg hStep, if_neg hUp, if_pos hLong] at hFollow
    cases hFollow
  | case7 links here step rest hDirectory hStep hUp hShort hAt hMore =>
    rw [follow, if_neg hDirectory, if_neg hStep, if_neg hUp, if_neg hShort, hAt] at hFollow
    simp [hMore] at hFollow
  | case8 links here step rest hDirectory hStep hUp hShort target hAt hLast =>
    simp at hLast
  | case9 here step rest hDirectory hStep hUp hShort target hAt hFollowed =>
    rw [follow, if_neg hDirectory, if_neg hStep, if_neg hUp, if_neg hShort, hAt] at hFollow
    simp at hFollow

end Rewritten

/-! ## Opening and appending -/

/-- That a path leads to a file with a content, at a place. -/
structure Holds (fs : FileSystem) (path : String) (place : Place) (content : ByteArray) : Prop where
  resolve_eq : fs.resolve true path = .ok (.entry place)
  at?_eq : fs.root.at? place = some (.file content)

namespace Holds

variable {fs : FileSystem} {path : String} {place : Place} {content : ByteArray}

theorem read_eq (h : fs.Holds path place content) : fs.read path = .ok content := by
  rw [read, stat, locate, h.resolve_eq]
  dsimp only
  rw [h.at?_eq]

theorem openFile_eq (h : fs.Holds path place content) : fs.openFile path = .ok (place, fs) := by
  rw [openFile, h.resolve_eq]
  dsimp only
  rw [h.at?_eq]

end Holds

/-- A path whose file can be read leads to that file. -/
theorem holds_of_read {fs : FileSystem} {path : String} {content : ByteArray}
    (hRead : fs.read path = .ok content) : ∃ place, fs.Holds path place content := by
  rw [read, stat, locate] at hRead
  cases hResolve : fs.resolve true path with
  | error refusal =>
    rw [hResolve] at hRead
    cases hRead
  | ok found =>
    rw [hResolve] at hRead
    cases found with
    | vacancy directory name => cases hRead
    | entry place =>
      dsimp only at hRead
      cases hAt : fs.root.at? place with
      | none =>
        rw [hAt] at hRead
        cases hRead
      | some entry =>
        rw [hAt] at hRead
        cases entry with
        | file old =>
          obtain rfl := Except.ok.inj hRead
          exact ⟨place, hResolve, hAt⟩
        | link target => cases hRead
        | directory entries => cases hRead

/-- A path that led to the place of the file, or to where it was to be made, leads there still. -/
theorem Rewritten.holds {place : Place} {content : ByteArray} {before after : FileSystem}
    (h : Rewritten place content before after) {path : String} {found : Target}
    (hResolve : before.resolve true path = .ok found)
    (hFound : found = .entry place ∨
      ∃ directory name, found = .vacancy directory name ∧ place = directory ++ [name]) :
    after.Holds path place content := by
  refine ⟨?_, h.file⟩
  rw [resolve] at hResolve ⊢
  rw [h.working]
  split at hResolve
  · cases hResolve
  split at hResolve
  · cases hResolve
  split at hResolve
  · cases hResolve
  · rename_i hNul hEmpty hLong
    rw [if_neg hNul, if_neg hEmpty, if_neg hLong]
    exact h.follow_eq hResolve hFound

/-- What is appended to a file is added to its content, and the path leads to it still. -/
theorem Holds.append {fs : FileSystem} {path : String} {place : Place} {content : ByteArray}
    (h : fs.Holds path place content) (bytes : ByteArray) :
    (fs.append place bytes).Holds path place (content ++ bytes) := by
  rw [FileSystem.append, h.at?_eq]
  exact (rewritten_put (Entry.slot_of_file h.at?_eq) _).holds h.resolve_eq (Or.inl rfl)

/-- Nothing is where a path leads to nothing, and it is in a directory. -/
theorem follow_vacancy {fs : FileSystem} {links : Nat} {here directory : Place}
    {steps : List String} {name : String}
    (hFollow : fs.follow true links here steps = .ok (.vacancy directory name)) :
    fs.isDirectoryAt directory ∧ fs.root.at? (directory ++ [name]) = none := by
  fun_induction follow fs true links here steps with
  | case3 links here step rest hDirectory hBlank ih => exact ih hFollow
  | case4 links here step rest hDirectory hStep hUp ih => exact ih hFollow
  | case6 links here step rest hDirectory hStep hUp hShort hAt hLast =>
    obtain ⟨rfl, rfl⟩ := Target.vacancy.inj (Except.ok.inj hFollow)
    exact ⟨by simpa using hDirectory, hAt⟩
  | case10 here step rest hDirectory hStep hUp hShort target hAt hFollowed links start ih =>
    exact ih hFollow
  | case11 links here step rest hDirectory hStep hUp hShort entry hNoLink hAt ih => exact ih hFollow
  | _ => cases hFollow

/-- A path that leads to nothing leads to a place that can take a file. -/
theorem slot_of_resolve {fs : FileSystem} {path : String} {directory : Place} {name : String}
    (hResolve : fs.resolve true path = .ok (.vacancy directory name)) :
    fs.root.Slot (directory ++ [name]) ∧ fs.root.at? (directory ++ [name]) = none := by
  have hVacancy : fs.isDirectoryAt directory ∧ fs.root.at? (directory ++ [name]) = none := by
    rw [resolve] at hResolve
    split at hResolve
    · cases hResolve
    split at hResolve
    · cases hResolve
    split at hResolve
    · cases hResolve
    · exact follow_vacancy hResolve
  obtain ⟨hDirectory, hNone⟩ := hVacancy
  obtain ⟨entries, hAt⟩ := isDirectoryAt_iff.mp hDirectory
  refine ⟨?_, hNone⟩
  rw [Entry.at?_append_singleton, hAt] at hNone
  exact Entry.slot_of_vacancy hAt hNone

/-- An opened path leads to a file, or to nothing, where a file is made. -/
theorem openFile_cases {fs after : FileSystem} {path : String} {place : Place}
    (hOpen : fs.openFile path = .ok (place, after)) :
    (∃ content, fs.Holds path place content ∧ after = fs) ∨
    ∃ directory name, fs.resolve true path = .ok (.vacancy directory name) ∧
      place = directory ++ [name] ∧ after = fs.put place (.file .empty) := by
  rw [openFile] at hOpen
  split at hOpen
  · rename_i directory name hResolve
    obtain ⟨rfl, rfl⟩ := Prod.mk.inj (Except.ok.inj hOpen)
    exact Or.inr ⟨directory, name, hResolve, rfl, rfl⟩
  · rename_i found hResolve
    split at hOpen
    · rename_i content hAt
      obtain ⟨rfl, rfl⟩ := Prod.mk.inj (Except.ok.inj hOpen)
      exact Or.inl ⟨content, ⟨hResolve, hAt⟩, rfl⟩
    · cases hOpen
  · cases hOpen

/-- An opened path leads to a file, which is empty if it was made, and has the content that was
there if it was not. -/
theorem openFile_holds {fs after : FileSystem} {path : String} {place : Place}
    (hOpen : fs.openFile path = .ok (place, after)) :
    ∃ content, after.Holds path place content ∧
      (after = fs ∨ fs.read path = .error .notFound ∧ content = .empty) := by
  rcases openFile_cases hOpen with ⟨content, hHolds, rfl⟩ | ⟨directory, name, hResolve, rfl, rfl⟩
  · exact ⟨content, hHolds, Or.inl rfl⟩
  · refine ⟨.empty, ?_, Or.inr ⟨?_, rfl⟩⟩
    · exact (rewritten_put (slot_of_resolve hResolve).1 .empty).holds hResolve
        (Or.inr ⟨directory, name, rfl, rfl⟩)
    · rw [read, stat, locate, hResolve]

/-- A path that was opened led to the file that was there. -/
theorem holds_of_openFile {fs after : FileSystem} {path : String} {place : Place}
    {content : ByteArray} (hOpen : fs.openFile path = .ok (place, after))
    (hAt : fs.root.at? place = some (.file content)) : fs.Holds path place content := by
  rcases openFile_cases hOpen with ⟨old, hHolds, -⟩ | ⟨directory, name, hResolve, rfl, -⟩
  · exact ⟨hHolds.resolve_eq, hAt⟩
  · cases hAt.symm.trans (slot_of_resolve hResolve).2

/-! ## What files hold -/

/-- The bytes of the file at a place, and none if there is no file. -/
def bytesAt (fs : FileSystem) (place : Place) : List UInt8 :=
  ((fs.root.at? place).map Entry.bytes).getD []

/-- A file at one place is all that a file put there changes. -/
theorem bytesAt_put {fs : FileSystem} {place : Place} (hSlot : fs.root.Slot place)
    (content : ByteArray) (other : Place) :
    (fs.put place (.file content)).bytesAt other
      = if other = place then content.toList else fs.bytesAt other := by
  rw [bytesAt, put]
  by_cases hOther : other = place
  · rw [if_pos hOther, hOther, hSlot.at?_put_self]
    rfl
  · rw [if_neg hOther, Entry.Slot.at?_put_ne (fun _ _ => rfl) hSlot content hOther, bytesAt]

/-- What is appended to a file is added to its bytes, and to those of no other file. -/
theorem bytesAt_append {fs : FileSystem} {place : Place} {content : ByteArray}
    (hAt : fs.root.at? place = some (.file content)) (bytes : ByteArray) (other : Place) :
    (fs.append place bytes).bytesAt other
      = fs.bytesAt other ++ if other = place then bytes.toList else [] := by
  rw [append, hAt]
  dsimp only
  rw [bytesAt_put (Entry.slot_of_file hAt)]
  by_cases hOther : other = place
  · rw [if_pos hOther, if_pos hOther, hOther, Utf8.toList_append, bytesAt, hAt]
    rfl
  · rw [if_neg hOther, if_neg hOther, List.append_nil]

/-- Opening a file leaves the bytes of all files as they are. -/
theorem bytesAt_openFile {fs after : FileSystem} {path : String} {place : Place}
    (hOpen : fs.openFile path = .ok (place, after)) (other : Place) :
    after.bytesAt other = fs.bytesAt other := by
  rcases openFile_cases hOpen with ⟨content, -, rfl⟩ | ⟨directory, name, hResolve, rfl, rfl⟩
  · rfl
  · obtain ⟨hSlot, hNone⟩ := slot_of_resolve hResolve
    rw [bytesAt_put hSlot]
    by_cases hOther : other = directory ++ [name]
    · rw [if_pos hOther, hOther, bytesAt, hNone, Utf8.toList_eq]
      rfl
    · rw [if_neg hOther]

end FileSystem

end TreeDump
