import TreeDump.Proofs.Run.Lines

/-!
# Where records go

A sink is built over a file, over a stream or over standard output, and calls open it, write to it
and close it in any order.  A closed sink is opened anew when the next record comes.  A file and
standard output are found again, but a stream that the sink was given is forgotten, and what is
written later goes elsewhere.

* `Outlets.bytesOf`: what a destination has taken, to which `Outlets.add` adds at one destination.
* `Outlets.destination?`: where a sink is to write.
* `Sink.serve`: what comes of a row of calls, of which some may fail.
* `SinkCall.tryOn_delivers`, `Sink.Aimed.serve_delivers`: what one call adds, and what a row of
  calls adds while the records go to one destination.
* `Sink.serve_destinations`: which records are written, where each of them goes, and when all of
  them go to the first destination.
-/

namespace TreeDump

/-! ## Destinations -/

namespace Outlets

variable {outlets : Outlets} {destination : Destination}

/-- All that a destination has taken. -/
def bytesOf (outlets : Outlets) : Destination → List UInt8
  | .standardOutput => outlets.printed.toUTF8.toList
  | .stream number => (outlets.streams.getD number "").toUTF8.toList
  | .file place => outlets.files.bytesAt place

/-- That a destination is there. -/
def Has (outlets : Outlets) : Destination → Prop
  | .standardOutput => True
  | .stream number => number < outlets.streams.length
  | .file place => ∃ content, outlets.files.root.at? place = some (.file content)

/-- Where a sink over a file or over standard output is to write, which is nowhere if the file
cannot be opened. -/
def lasting? (outlets : Outlets) : Option Path → Option Destination
  | none => some .standardOutput
  | some path =>
    match outlets.files.openFile path.text with
    | .ok (place, _) => some (.file place)
    | .error _ => none

/-- Where a sink is to write, which is to its stream if it was given one. -/
def destination? (outlets : Outlets) (path : Option Path) : Option Nat → Option Destination
  | some number => some (.stream number)
  | none => outlets.lasting? path

theorem lasting?_ne_stream (outlets : Outlets) (path : Option Path) (number : Nat) :
    outlets.lasting? path ≠ some (.stream number) := by
  intro hStream
  unfold lasting? at hStream
  split at hStream
  · cases hStream
  · split at hStream
    · cases hStream
    · cases hStream

/-- A path that can be opened leads to the file, if that is there already. -/
theorem holds_of_lasting? {path : Option Path} {place : Place} {content : ByteArray}
    (hLasting : outlets.lasting? path = some (.file place))
    (hAt : outlets.files.root.at? place = some (.file content)) :
    ∃ written, path = some written ∧ outlets.files.Holds written.text place content := by
  unfold lasting? at hLasting
  split at hLasting
  · cases hLasting
  · rename_i path
    split at hLasting
    · rename_i found files hOpen
      obtain rfl := Destination.file.inj (Option.some.inj hLasting)
      exact ⟨path, rfl, FileSystem.holds_of_openFile hOpen hAt⟩
    · cases hLasting

/-- A line that is added at one destination is all that any destination has in addition. -/
theorem bytesOf_add (hHas : outlets.Has destination) (record : String) (other : Destination) :
    (outlets.add (record ++ "\n") destination).bytesOf other
      = outlets.bytesOf other ++ if destination = other then lineBytes record else [] := by
  cases destination with
  | standardOutput =>
    cases other with
    | standardOutput =>
      rw [if_pos rfl, ← toList_line]
      exact Utf8.toList_toUTF8_append outlets.printed _
    | stream number => simp [add, bytesOf]
    | file place => simp [add, bytesOf]
  | stream number =>
    cases other with
    | standardOutput => simp [add, bytesOf]
    | stream other =>
      by_cases hOther : number = other
      · subst hOther
        have hThere : outlets.streams[number]? = some outlets.streams[number] :=
          List.getElem?_eq_getElem hHas
        rw [if_pos rfl, ← toList_line, bytesOf, bytesOf, add, List.getD_eq_getElem?_getD,
          List.getD_eq_getElem?_getD, List.getElem?_modify_eq, hThere]
        exact Utf8.toList_toUTF8_append _ _
      · simp [add, bytesOf, hOther, List.getElem?_modify_ne _ _ hOther]
    | file place => simp [add, bytesOf]
  | file place =>
    obtain ⟨content, hAt⟩ := hHas
    cases other with
    | standardOutput => simp [add, bytesOf]
    | stream number => simp [add, bytesOf]
    | file other =>
      rw [bytesOf, bytesOf, add, FileSystem.bytesAt_append hAt, toList_line]
      simp [eq_comm]

/-- What takes something is there still. -/
theorem Has.add (hHas : outlets.Has destination) (text : String) :
    (outlets.add text destination).Has destination := by
  cases destination with
  | standardOutput => trivial
  | stream number =>
    show number < (outlets.streams.modify number (· ++ text)).length
    rw [List.length_modify]
    exact hHas
  | file place =>
    obtain ⟨content, hAt⟩ := hHas
    refine ⟨content ++ text.toUTF8, ?_⟩
    rw [Outlets.add, FileSystem.append, hAt]
    exact (FileSystem.rewritten_put (Entry.slot_of_file hAt) _).file

/-- What is added to a file does not change where its path leads. -/
theorem lasting?_add {path : Option Path} (hHas : outlets.Has destination)
    (hLasting : ∀ place, destination = .file place → outlets.lasting? path = some (.file place))
    (text : String) : (outlets.add text destination).lasting? path = outlets.lasting? path := by
  cases destination with
  | standardOutput => rfl
  | stream number => rfl
  | file place =>
    obtain ⟨content, hAt⟩ := hHas
    obtain ⟨written, rfl, hHolds⟩ := holds_of_lasting? (hLasting place rfl) hAt
    have hAfter := hHolds.append text.toUTF8
    rw [add, lasting?, lasting?, hHolds.openFile_eq, hAfter.openFile_eq]

end Outlets

/-! ## One call -/

/-- What comes of calls on a sink: the records that were written, the sink, and all that sinks can
write to. -/
structure Served where
  records : List String
  sink : Sink
  outlets : Outlets

/-- What comes of calls and of others after them. -/
def Served.andThen (first second : Served) : Served :=
  { second with records := first.records ++ second.records }

/-- A call that writes nothing and leaves all as it was if it fails. -/
def SinkCall.tryOn (call : SinkCall) (sink : Sink) (outlets : Outlets) : Served :=
  match call.act sink outlets with
  | .ok (sink, outlets) => ⟨call.record?.toList, sink, outlets⟩
  | .error _ => ⟨[], sink, outlets⟩

namespace Sink

variable {sink : Sink} {outlets : Outlets} {destination : Destination}

/-- Where the next record goes. -/
def next? (sink : Sink) (outlets : Outlets) : Option Destination :=
  sink.destination.or (outlets.lasting? sink.path)

/-- That the destination of a sink is there, and that the path of the sink leads to it if it is a
file. -/
structure Aimed (sink : Sink) (outlets : Outlets) : Prop where
  has : ∀ destination, sink.destination = some destination → outlets.Has destination
  lasting : ∀ place, sink.destination = some (.file place) →
    outlets.lasting? sink.path = some (.file place)

theorem open?_of_next?_eq_none (hNext : sink.next? outlets = none) :
    ∃ raised, sink.open? outlets = .error raised := by
  obtain ⟨path, destination, written⟩ := sink
  obtain ⟨rfl, hLasting⟩ := Option.or_eq_none_iff.mp hNext
  cases path with
  | none => cases hLasting
  | some path =>
    rw [Outlets.lasting?] at hLasting
    split at hLasting
    · cases hLasting
    · rename_i refusal hOpen
      refine ⟨.refused refusal path.text, ?_⟩
      rw [open?]
      dsimp only
      rw [hOpen]

/-- If the next record goes to a file, the path of the sink leads to that file. -/
theorem Aimed.lasting?_eq (h : sink.Aimed outlets) {place : Place}
    (hNext : sink.next? outlets = some (.file place)) :
    outlets.lasting? sink.path = some (.file place) := by
  rcases Option.or_eq_some_iff.mp hNext with hOpen | ⟨-, hLasting⟩
  · exact h.lasting place hOpen
  · exact hLasting

/-- A sink is opened for the next destination, and no destination takes anything. -/
theorem Aimed.open? (h : sink.Aimed outlets) (hNext : sink.next? outlets = some destination) :
    ∃ after, sink.open? outlets = .ok ({ sink with destination := some destination }, after) ∧
      after.Has destination ∧ (∀ other, after.bytesOf other = outlets.bytesOf other) ∧
      after.lasting? sink.path = outlets.lasting? sink.path := by
  obtain ⟨path, current, written⟩ := sink
  cases current with
  | some current =>
    obtain rfl := Option.some.inj hNext
    exact ⟨outlets, rfl, h.has current rfl, fun _ => rfl, rfl⟩
  | none =>
    cases path with
    | none =>
      obtain rfl := Option.some.inj hNext
      exact ⟨outlets, rfl, trivial, fun _ => rfl, rfl⟩
    | some path =>
      change outlets.lasting? (some path) = some destination at hNext
      rw [Outlets.lasting?] at hNext
      split at hNext
      · rename_i place files hOpen
        obtain rfl := Option.some.inj hNext
        obtain ⟨content, hHolds, -⟩ := FileSystem.openFile_holds hOpen
        refine ⟨{ outlets with files }, ?_, ⟨content, hHolds.at?_eq⟩, ?_, ?_⟩
        · rw [Sink.open?]
          dsimp only
          rw [hOpen]
        · intro other
          cases other with
          | standardOutput => rfl
          | stream number => rfl
          | file other => exact FileSystem.bytesAt_openFile hOpen other
        · rw [Outlets.lasting?, Outlets.lasting?, hHolds.openFile_eq, hOpen]
      · cases hNext

end Sink

/-- The records that can be written. -/
def delivered (home : Option Destination) (records : List String) : List String :=
  if home.isSome then records else []

theorem delivered_lines (home : Option Destination) (records : List String)
    (destination : Destination) :
    (if home = some destination then (delivered home records).flatMap lineBytes else [])
      = if home = some destination then records.flatMap lineBytes else [] := by
  by_cases hHome : home = some destination
  · rw [delivered, hHome]
    rfl
  · rw [if_neg hHome, if_neg hHome]

theorem isSome_of_delivered {home : Option Destination} {records : List String}
    (hSome : delivered home records ≠ []) : home.isSome := by
  by_contra hNone
  exact hSome (if_neg hNone)

/-- That the records that came went to one destination, if there is one, and nothing else went
anywhere. -/
structure Served.Delivers (served : Served) (sink : Sink) (outlets : Outlets)
    (home : Option Destination) (records : List String) : Prop where
  records_eq : served.records = delivered home records
  bytesOf_eq : ∀ destination, served.outlets.bytesOf destination = outlets.bytesOf destination
    ++ if home = some destination then records.flatMap lineBytes else []
  written_eq : served.sink.written = sink.written + served.records.length
  path_eq : served.sink.path = sink.path
  aimed : served.sink.Aimed served.outlets
  lasting?_eq : served.outlets.lasting? sink.path = outlets.lasting? sink.path

section

variable {sink : Sink} {outlets : Outlets} {home : Option Destination} {records : List String}

/-- Where no records come, or there is nowhere to write them, nothing is written. -/
theorem Sink.Aimed.delivers (h : sink.Aimed outlets) (hNothing : home = none ∨ records = []) :
    (⟨[], sink, outlets⟩ : Served).Delivers sink outlets home records where
  records_eq := by
    rcases hNothing with rfl | rfl
    · rfl
    · rw [delivered, ite_self]
  bytesOf_eq destination := by
    rcases hNothing with rfl | rfl
    · rw [if_neg (by simp), List.append_nil]
    · rw [List.flatMap_nil, ite_self, List.append_nil]
  written_eq := rfl
  path_eq := rfl
  aimed := h
  lasting?_eq := rfl

/-- If calls and then others write to one destination, all of them do. -/
theorem Served.Delivers.andThen {first second : Served} {more : List String}
    (h : first.Delivers sink outlets home records)
    (hMore : second.Delivers first.sink first.outlets home more) :
    (first.andThen second).Delivers sink outlets home (records ++ more) where
  records_eq := by
    rw [Served.andThen, h.records_eq, hMore.records_eq, delivered, delivered, delivered]
    split
    · rfl
    · rfl
  bytesOf_eq destination := by
    show second.outlets.bytesOf destination = _
    rw [hMore.bytesOf_eq, h.bytesOf_eq, List.append_assoc, List.flatMap_append]
    by_cases hHome : home = some destination
    · rw [if_pos hHome, if_pos hHome, if_pos hHome]
    · rw [if_neg hHome, if_neg hHome, if_neg hHome, List.append_nil]
  written_eq := by
    show second.sink.written = _
    rw [hMore.written_eq, h.written_eq, Served.andThen, List.length_append, Nat.add_assoc]
  path_eq := hMore.path_eq.trans h.path_eq
  aimed := hMore.aimed
  lasting?_eq := by
    rw [← h.lasting?_eq, ← h.path_eq]
    exact hMore.lasting?_eq

/-- Opening a sink writes nothing. -/
theorem Sink.Aimed.open?_delivers {destination : Destination} (h : sink.Aimed outlets)
    (hNext : sink.next? outlets = some destination) :
    ∃ after, sink.open? outlets = .ok ({ sink with destination := some destination }, after) ∧
      (⟨[], { sink with destination := some destination }, after⟩ : Served).Delivers sink outlets
        (some destination) [] := by
  obtain ⟨after, hOpen, hHas, hBytes, hSame⟩ := h.open? hNext
  refine ⟨after, hOpen, rfl, ?_, rfl, rfl, ⟨?_, ?_⟩, hSame⟩
  · intro other
    rw [List.flatMap_nil, ite_self, List.append_nil]
    exact hBytes other
  · rintro other ⟨⟩
    exact hHas
  · rintro place ⟨⟩
    exact hSame.trans (h.lasting?_eq hNext)

/-- What is written to a sink that is open goes to its destination. -/
theorem Sink.Aimed.add_delivers {destination : Destination} (h : sink.Aimed outlets)
    (hOpen : sink.destination = some destination) (record : String) :
    (⟨[record], { sink with written := sink.written + 1 },
      outlets.add (record ++ "\n") destination⟩ : Served).Delivers sink outlets (some destination)
        [record] := by
  have hHas := h.has destination hOpen
  have hSame : (outlets.add (record ++ "\n") destination).lasting? sink.path
      = outlets.lasting? sink.path := by
    apply Outlets.lasting?_add hHas
    rintro place rfl
    exact h.lasting place hOpen
  refine ⟨rfl, ?_, rfl, rfl, ⟨?_, ?_⟩, hSame⟩
  · intro other
    show (outlets.add (record ++ "\n") destination).bytesOf other = _
    rw [Outlets.bytesOf_add hHas, List.flatMap_singleton]
    simp only [Option.some.injEq]
  · intro other hOther
    obtain rfl := Option.some.inj (hOpen.symm.trans hOther)
    exact hHas.add _
  · intro place hPlace
    exact hSame.trans (h.lasting place hPlace)

namespace SinkCall

def isClosing : SinkCall → Bool
  | closing => true
  | _ => false

/-- Closing a sink writes nothing, and the next record goes where the sink is opened anew. -/
theorem tryOn_closing (sink : Sink) (outlets : Outlets) (home : Option Destination) :
    (closing.tryOn sink outlets).Delivers sink outlets home [] ∧
      (closing.tryOn sink outlets).sink.next? (closing.tryOn sink outlets).outlets
        = outlets.lasting? sink.path := by
  have hAimed : sink.close.Aimed outlets := by
    constructor
    · intro destination hDestination
      cases hDestination
    · intro place hPlace
      cases hPlace
  have hDelivers : (⟨[], sink.close, outlets⟩ : Served).Delivers sink.close outlets home [] :=
    hAimed.delivers (Or.inr rfl)
  exact ⟨⟨hDelivers.records_eq, hDelivers.bytesOf_eq, rfl, rfl, hAimed, rfl⟩, rfl⟩

/-- A call adds the line of its record, if it has one, where the next record goes, and the record
after it goes there too, unless the sink is closed. -/
theorem tryOn_delivers (call : SinkCall) (h : sink.Aimed outlets)
    (hNext : sink.next? outlets = home)
    (hLasting : call = closing → outlets.lasting? sink.path = home) :
    (call.tryOn sink outlets).Delivers sink outlets home call.record?.toList ∧
      (call.tryOn sink outlets).sink.next? (call.tryOn sink outlets).outlets = home := by
  cases home with
  | none =>
    obtain ⟨raised, hOpen⟩ := Sink.open?_of_next?_eq_none hNext
    cases call with
    | opening =>
      rw [tryOn, act, hOpen]
      exact ⟨h.delivers (Or.inl rfl), hNext⟩
    | writing record =>
      rw [tryOn, act, Sink.write?, hOpen]
      exact ⟨h.delivers (Or.inl rfl), hNext⟩
    | closing =>
      obtain ⟨hDelivers, hAfter⟩ := tryOn_closing sink outlets none
      exact ⟨hDelivers, hAfter.trans (hLasting rfl)⟩
  | some destination =>
    obtain ⟨after, hOpen, hOpened⟩ := h.open?_delivers hNext
    cases call with
    | opening =>
      rw [tryOn, act, hOpen]
      exact ⟨hOpened, rfl⟩
    | writing record =>
      rw [tryOn, act, Sink.write?, hOpen]
      exact ⟨hOpened.andThen (hOpened.aimed.add_delivers rfl record), rfl⟩
    | closing =>
      obtain ⟨hDelivers, hAfter⟩ := tryOn_closing sink outlets (some destination)
      exact ⟨hDelivers, hAfter.trans (hLasting rfl)⟩

end SinkCall

/-! ## Rows of calls -/

/-- Calls one after the other. -/
def Sink.serve (sink : Sink) (outlets : Outlets) : List SinkCall → Served
  | [] => ⟨[], sink, outlets⟩
  | call :: rest =>
    let first := call.tryOn sink outlets
    first.andThen (first.sink.serve first.outlets rest)

theorem Sink.serve_append (sink : Sink) (outlets : Outlets) (calls more : List SinkCall) :
    sink.serve outlets (calls ++ more)
      = (sink.serve outlets calls).andThen
        ((sink.serve outlets calls).sink.serve (sink.serve outlets calls).outlets more) := by
  induction calls generalizing sink outlets with
  | nil => rfl
  | cons call rest ih =>
    rw [List.cons_append, Sink.serve, Sink.serve, ih]
    simp only [Served.andThen, List.append_assoc]

/-- The records of calls, in their order. -/
def recordsIn (calls : List SinkCall) : List String := calls.filterMap SinkCall.record?

theorem recordsIn_cons (call : SinkCall) (rest : List SinkCall) :
    recordsIn (call :: rest) = call.record?.toList ++ recordsIn rest := by
  rw [recordsIn, List.filterMap_cons]
  cases call <;> rfl

/-- Calls add the lines of their records where the first of them goes, if the sink is not closed or
is opened anew for the same destination. -/
theorem Sink.Aimed.serve_delivers (h : sink.Aimed outlets) (calls : List SinkCall)
    (hNext : sink.next? outlets = home)
    (hLasting : .closing ∈ calls → outlets.lasting? sink.path = home) :
    (sink.serve outlets calls).Delivers sink outlets home (recordsIn calls) := by
  induction calls generalizing sink outlets with
  | nil => exact h.delivers (Or.inr rfl)
  | cons call rest ih =>
    obtain ⟨hFirst, hAfter⟩ := call.tryOn_delivers h hNext fun hClosing =>
      hLasting (hClosing ▸ List.mem_cons_self)
    have hRest := ih hFirst.aimed hAfter fun hClosing => by
      rw [hFirst.path_eq, hFirst.lasting?_eq]
      exact hLasting (List.mem_cons_of_mem call hClosing)
    rw [recordsIn_cons]
    exact hFirst.andThen hRest

/-- The calls before the first with which the sink is closed. -/
def beforeClosing (calls : List SinkCall) : List SinkCall := calls.takeWhile (!·.isClosing)

/-- The calls from the first on with which the sink is closed. -/
def sinceClosing (calls : List SinkCall) : List SinkCall := calls.dropWhile (!·.isClosing)

theorem beforeClosing_append_sinceClosing (calls : List SinkCall) :
    beforeClosing calls ++ sinceClosing calls = calls := List.takeWhile_append_dropWhile

theorem closing_notMem_beforeClosing (calls : List SinkCall) : .closing ∉ beforeClosing calls := by
  intro hClosing
  have hAll : (beforeClosing calls).all (!·.isClosing) = true := List.all_takeWhile
  have hOpen := List.all_eq_true.mp hAll _ hClosing
  cases hOpen

/-- From the time at which a sink is closed on, records go where it is opened anew. -/
theorem Sink.Aimed.serve_sinceClosing (h : sink.Aimed outlets) (calls : List SinkCall) :
    (sink.serve outlets (sinceClosing calls)).Delivers sink outlets (outlets.lasting? sink.path)
      (recordsIn (sinceClosing calls)) := by
  cases hCalls : sinceClosing calls with
  | nil => exact h.delivers (Or.inr rfl)
  | cons call rest =>
    have hClosing := List.head?_dropWhile_not (fun call : SinkCall => !call.isClosing) calls
    rw [← sinceClosing, hCalls] at hClosing
    obtain rfl : call = .closing := by
      cases call with
      | closing => rfl
      | opening => cases hClosing
      | writing record => cases hClosing
    obtain ⟨hFirst, hNext⟩ := SinkCall.tryOn_closing sink outlets (outlets.lasting? sink.path)
    have hRest := hFirst.aimed.serve_delivers rest hNext fun _ => by
      rw [hFirst.path_eq, hFirst.lasting?_eq]
    exact hFirst.andThen hRest

end

/-! ## From the first call to the last -/

/-- A sink that was not written to, over a stream, over a file or over standard output. -/
def Sink.fresh (path : Option Path) (stream : Option Nat) : Sink :=
  { path, destination := stream.map .stream }

/-- That all records that were written went to one destination, once and in their order, and nothing
went anywhere else. -/
structure Served.KeepsTo (served : Served) (before : Outlets) (home : Option Destination) :
    Prop where
  isSome : served.records ≠ [] → home.isSome
  bytesOf_eq : ∀ destination, served.outlets.bytesOf destination = before.bytesOf destination
    ++ if home = some destination then served.records.flatMap lineBytes else []

/-- If some records go to one destination and those after them to another, all of them go to the
first just if the two are the same or there are no others. -/
theorem Served.keepsTo_iff {served : Served} {before : Outlets} {first again : Option Destination}
    {early late : List String} (hRecords : served.records = early ++ late)
    (hBytes : ∀ destination, served.outlets.bytesOf destination = before.bytesOf destination
      ++ (if first = some destination then early.flatMap lineBytes else [])
      ++ if again = some destination then late.flatMap lineBytes else [])
    (hFirst : early ≠ [] → first.isSome) (hAgain : late ≠ [] → again.isSome) :
    served.KeepsTo before first ↔ first = again ∨ late = [] := by
  constructor
  · intro h
    by_cases hLate : late = []
    · exact Or.inr hLate
    left
    obtain ⟨destination, rfl⟩ : ∃ destination, first = some destination := by
      refine Option.isSome_iff_exists.mp (h.isSome ?_)
      rw [hRecords]
      exact List.append_ne_nil_of_right_ne_nil early hLate
    have hKept := h.bytesOf_eq destination
    rw [hBytes, if_pos rfl, if_pos rfl, hRecords, List.flatMap_append, List.append_assoc] at hKept
    have hLines := List.append_cancel_left (List.append_cancel_left hKept)
    by_contra hOther
    rw [if_neg (Ne.symm hOther)] at hLines
    -- A line is never empty, since it has its line break.
    obtain ⟨record, rest, rfl⟩ := List.exists_cons_of_ne_nil hLate
    simp [lineBytes] at hLines
  · rintro (rfl | rfl)
    · constructor
      · intro hSome
        rw [hRecords] at hSome
        by_cases hEarly : early = []
        · exact hAgain fun hLate => hSome (by rw [hEarly, hLate, List.append_nil])
        · exact hFirst hEarly
      · intro destination
        rw [hBytes, hRecords, List.append_assoc, List.flatMap_append]
        by_cases hHome : first = some destination
        · rw [if_pos hHome, if_pos hHome, if_pos hHome]
        · rw [if_neg hHome, if_neg hHome, if_neg hHome, List.append_nil]
    · rw [List.append_nil] at hRecords
      constructor
      · rw [hRecords]
        exact hFirst
      · intro destination
        rw [hBytes, hRecords, List.flatMap_nil, ite_self, List.append_nil]

namespace Sink

variable {path : Option Path} {stream : Option Nat} {outlets : Outlets}

theorem aimed_fresh (hStream : ∀ number, stream = some number → number < outlets.streams.length) :
    (fresh path stream).Aimed outlets := by
  constructor
  · intro destination hDestination
    obtain ⟨number, hNumber, rfl⟩ := Option.map_eq_some_iff.mp hDestination
    exact hStream number hNumber
  · intro place hPlace
    obtain ⟨number, -, hNumber⟩ := Option.map_eq_some_iff.mp hPlace
    cases hNumber

/-- A sink over a stream, a file or standard output, and calls that open it, write to it and close
it in any order, some of which may fail.  What is written before it is closed goes to its stream, if
it was given one, and otherwise where what is written later goes: to the file, or to standard output
if it has no file.  No record is written where the file cannot be opened; all others are written
once, in their order, and counted, and nothing else is written anywhere.  So all records go where
the sink was to write at first just if it was given no stream, or none is written after it was
closed. -/
theorem serve_destinations
    (hStream : ∀ number, stream = some number → number < outlets.streams.length)
    (calls : List SinkCall) :
    let served := (fresh path stream).serve outlets calls
    let first := outlets.destination? path stream
    let again := outlets.lasting? path
    let early := delivered first (recordsIn (beforeClosing calls))
    let late := delivered again (recordsIn (sinceClosing calls))
    served.records = early ++ late ∧ served.sink.written = served.records.length ∧
    (∀ destination, served.outlets.bytesOf destination = outlets.bytesOf destination
      ++ (if first = some destination then early.flatMap lineBytes else [])
      ++ if again = some destination then late.flatMap lineBytes else []) ∧
    (served.KeepsTo outlets first ↔ stream = none ∨ late = []) := by
  intro served first again early late
  have hNext : (fresh path stream).next? outlets = first := by
    cases stream with
    | none => rfl
    | some number => rfl
  have hEarly := (aimed_fresh hStream).serve_delivers (beforeClosing calls) hNext fun hClosing =>
    absurd hClosing (closing_notMem_beforeClosing calls)
  have hLate := hEarly.aimed.serve_sinceClosing calls
  rw [hEarly.path_eq, hEarly.lasting?_eq] at hLate
  have hServed :=
    serve_append (fresh path stream) outlets (beforeClosing calls) (sinceClosing calls)
  rw [beforeClosing_append_sinceClosing] at hServed
  have hRecords : served.records = early ++ late := by
    show (serve _ _ calls).records = _
    rw [hServed, Served.andThen, hEarly.records_eq, hLate.records_eq]
    rfl
  have hBytes : ∀ destination, served.outlets.bytesOf destination = outlets.bytesOf destination
      ++ (if first = some destination then early.flatMap lineBytes else [])
      ++ if again = some destination then late.flatMap lineBytes else [] := by
    intro destination
    show (serve _ _ calls).outlets.bytesOf destination = _
    rw [hServed, Served.andThen, hLate.bytesOf_eq, hEarly.bytesOf_eq, delivered_lines,
      delivered_lines]
    rfl
  refine ⟨hRecords, ?_, hBytes, ?_⟩
  · show (serve _ _ calls).sink.written = (serve _ _ calls).records.length
    rw [hServed, Served.andThen, hLate.written_eq, hEarly.written_eq, List.length_append]
    exact congrArg (· + _) (Nat.zero_add _)
  · rw [Served.keepsTo_iff hRecords hBytes isSome_of_delivered isSome_of_delivered]
    cases stream with
    | none => exact iff_of_true (Or.inl rfl) (Or.inl rfl)
    | some number =>
      have hOther : first ≠ again := (outlets.lasting?_ne_stream path number).symm
      rw [or_iff_right hOther, or_iff_right (Option.some_ne_none number)]

/-- A sink over a stream that is closed between two records: the second goes to standard output. -/
theorem serve_destinations_closed :
    let outlets : Outlets := { streams := [""] }
    let calls : List SinkCall := [.writing "one", .closing, .writing "two"]
    (∀ number, some 0 = some number → number < outlets.streams.length) ∧
      ((fresh none (some 0)).serve outlets calls).records = ["one", "two"] ∧
      ((fresh none (some 0)).serve outlets calls).outlets.bytesOf (.stream 0) = lineBytes "one" ∧
      ((fresh none (some 0)).serve outlets calls).outlets.bytesOf .standardOutput
        = lineBytes "two" ∧
      ¬ ((fresh none (some 0)).serve outlets calls).KeepsTo outlets (some (.stream 0)) := by
  intro outlets calls
  have hStream : ∀ number, some 0 = some number → number < outlets.streams.length := by
    rintro number ⟨⟩
    exact Nat.zero_lt_one
  obtain ⟨hRecords, -, hBytes, hKeeps⟩ := @serve_destinations none (some 0) outlets hStream calls
  have hEmpty : "".toUTF8.toList = [] := by simp
  refine ⟨hStream, hRecords, ?_, ?_, ?_⟩
  · rw [hBytes]
    show "".toUTF8.toList ++ (lineBytes "one" ++ []) ++ [] = _
    rw [hEmpty, List.append_nil, List.append_nil, List.nil_append]
  · rw [hBytes]
    show "".toUTF8.toList ++ [] ++ (lineBytes "two" ++ []) = _
    rw [hEmpty, List.append_nil, List.append_nil, List.nil_append]
  · intro hKept
    rcases hKeeps.mp hKept with hNone | hLate
    · cases hNone
    · cases hLate

/-- Not all records go where a sink was to write at first: not those that come after a stream was
closed. -/
theorem not_keepsTo : ¬ ∀ (path : Option Path) (stream : Option Nat) (outlets : Outlets)
    (calls : List SinkCall), (∀ number, stream = some number → number < outlets.streams.length) →
      ((fresh path stream).serve outlets calls).KeepsTo outlets
        (outlets.destination? path stream) := by
  intro h
  have hStream : ∀ number, some 0 = some number → number < [""].length := by
    rintro number ⟨⟩
    exact Nat.zero_lt_one
  have hKept := (h none (some 0) { streams := [""] } [.writing "one", .closing, .writing "two"]
    hStream).bytesOf_eq .standardOutput
  revert hKept
  decide +kernel

end Sink

end TreeDump
