import TreeDump.Proofs.Files.Appending
import TreeDump.Proofs.Json.OneLine
import TreeDump.Proofs.Run.Process
import TreeDump.Run.Sink

/-!
# One line for each record

Several sinks may write to one file, and each may be opened, written to and closed at any time.  All
of them add to the end of the file, so what was there stays, and every record is one line more: a
record in the compact format has no line breaks, cut down to a preview or not.

* `SinkCall.act_spec`: what one call does to the file.
* `actAll_holds`: what a row of calls does to it.
* `Recorded`: that a text is the record of a file, with its document.
* `actAll_lines`: the lines of the file are those it had, and one for each record, which is read as
  the document of the record if it is whole.
-/

namespace TreeDump

/-! ## Calls on sinks -/

/-- A call on a sink. -/
inductive SinkCall where
  | opening
  | writing (record : String)
  | closing

namespace SinkCall

def record? : SinkCall → Option String
  | writing record => some record
  | _ => none

def act : SinkCall → Sink → Outlets → Except Raised (Sink × Outlets)
  | opening, sink, outlets => sink.open? outlets
  | writing record, sink, outlets => sink.write? record outlets
  | closing, sink, outlets => .ok (sink.close, outlets)

end SinkCall

/-- Calls on any number of sinks, which are known by their numbers. -/
def actAll (sinks : Nat → Sink) (outlets : Outlets) :
    List (Nat × SinkCall) → Except Raised ((Nat → Sink) × Outlets)
  | [] => .ok (sinks, outlets)
  | (number, call) :: rest =>
    match call.act (sinks number) outlets with
    | .ok (sink, outlets) => actAll (Function.update sinks number sink) outlets rest
    | .error raised => .error raised

/-- The records that are written in calls, in their order. -/
def recordsOf (calls : List (Nat × SinkCall)) : List String := calls.filterMap (·.2.record?)

/-- The number of records that one of the sinks writes. -/
def recordCount (number : Nat) (calls : List (Nat × SinkCall)) : Nat :=
  (recordsOf (calls.filter (·.1 = number))).length

/-- The bytes of a line. -/
def lineBytes (record : String) : List UInt8 := record.toUTF8.toList ++ [0x0a]

theorem toList_line (record : String) : (record ++ "\n").toUTF8.toList = lineBytes record := by
  rw [Utf8.toList_toUTF8_append, lineBytes, Utf8.toList_toUTF8 "\n"]
  rfl

/-! ## What calls do to the file -/

/-- That a sink writes to the file at a place, to which a path leads. -/
structure Sink.WritesTo (sink : Sink) (path : Path) (place : Place) : Prop where
  path_eq : sink.path = some path
  destination : sink.destination = none ∨ sink.destination = some (.file place)

section

variable {path : Path} {place : Place} {content : ByteArray} {outlets : Outlets}

/-- Opening a sink changes nothing about the file. -/
theorem Sink.WritesTo.open? {sink : Sink} (h : sink.WritesTo path place)
    (hHolds : outlets.files.Holds path.text place content) :
    sink.open? outlets = .ok ({ sink with destination := some (.file place) }, outlets) := by
  obtain ⟨_, destination, written⟩ := sink
  obtain ⟨rfl, hDestination⟩ := h
  rcases hDestination with rfl | rfl
  · rw [Sink.open?]
    dsimp only
    rw [hHolds.openFile_eq]
  · rfl

/-- Writing a record adds its line to the end of the file, and changes nothing else. -/
theorem Sink.WritesTo.write? {sink : Sink} (h : sink.WritesTo path place)
    (hHolds : outlets.files.Holds path.text place content) (record : String) :
    ∃ after files more, sink.write? record outlets = .ok (after, { outlets with files }) ∧
      after.WritesTo path place ∧ files.Holds path.text place more ∧
      more.toList = content.toList ++ lineBytes record ∧ after.written = sink.written + 1 := by
  have hWrite : sink.write? record outlets
      = .ok ({ sink with destination := some (.file place), written := sink.written + 1 },
        { outlets with files := outlets.files.append place (record ++ "\n").toUTF8 }) := by
    rw [Sink.write?, h.open? hHolds]
    rfl
  refine ⟨_, _, _, hWrite, ⟨h.path_eq, Or.inr rfl⟩, hHolds.append _, ?_, rfl⟩
  rw [Utf8.toList_append, toList_line]

/-- A call adds the line of its record, if it has one, to the end of the file. -/
theorem SinkCall.act_spec {sink : Sink} (call : SinkCall) (h : sink.WritesTo path place)
    (hHolds : outlets.files.Holds path.text place content) :
    ∃ after outlets' more, call.act sink outlets = .ok (after, outlets') ∧
      after.WritesTo path place ∧ outlets'.files.Holds path.text place more ∧
      more.toList = content.toList ++ call.record?.toList.flatMap lineBytes ∧
      after.written = sink.written + call.record?.toList.length := by
  cases call with
  | opening =>
    refine ⟨_, outlets, content, h.open? hHolds, ⟨h.path_eq, Or.inr rfl⟩, hHolds, ?_, rfl⟩
    exact (List.append_nil _).symm
  | writing record =>
    obtain ⟨after, files, more, hWrite, hAfter, hMore, hBytes, hWritten⟩ := h.write? hHolds record
    refine ⟨after, _, more, hWrite, hAfter, hMore, ?_, hWritten⟩
    rw [hBytes, SinkCall.record?, Option.toList_some, List.flatMap_singleton]
  | closing =>
    refine ⟨sink.close, outlets, content, rfl, ⟨h.path_eq, Or.inl rfl⟩, hHolds, ?_, rfl⟩
    exact (List.append_nil _).symm

theorem recordsOf_cons (number : Nat) (call : SinkCall) (rest : List (Nat × SinkCall)) :
    recordsOf ((number, call) :: rest) = call.record?.toList ++ recordsOf rest := by
  rw [recordsOf, List.filterMap_cons]
  cases call <;> rfl

/-- Calls never fail, and add the lines of their records to the end of the file. -/
theorem actAll_holds {sinks : Nat → Sink} (calls : List (Nat × SinkCall))
    (h : ∀ number, (sinks number).WritesTo path place)
    (hHolds : outlets.files.Holds path.text place content) :
    ∃ last after final, actAll sinks outlets calls = .ok (last, after) ∧
      after.files.Holds path.text place final ∧
      final.toList = content.toList ++ (recordsOf calls).flatMap lineBytes ∧
      ∀ number, (last number).written = (sinks number).written + recordCount number calls := by
  induction calls generalizing sinks outlets content with
  | nil => exact ⟨sinks, outlets, content, rfl, hHolds, (List.append_nil _).symm, fun _ => rfl⟩
  | cons first rest ih =>
    obtain ⟨number, call⟩ := first
    obtain ⟨sink, between, more, hAct, hSink, hMore, hBytes, hWritten⟩ :=
      call.act_spec (h number) hHolds
    have hSinks : ∀ other, (Function.update sinks number sink other).WritesTo path place := by
      intro other
      by_cases hOther : other = number
      · rw [hOther, Function.update_self]
        exact hSink
      · rw [Function.update_of_ne hOther]
        exact h other
    obtain ⟨last, after, final, hRest, hFinal, hRestBytes, hCounts⟩ := ih hSinks hMore
    refine ⟨last, after, final, ?_, hFinal, ?_, ?_⟩
    · rw [actAll, hAct]
      exact hRest
    · rw [hRestBytes, hBytes, recordsOf_cons, List.flatMap_append, List.append_assoc]
    · intro other
      rw [hCounts other]
      by_cases hOther : other = number
      · subst hOther
        rw [Function.update_self, hWritten, recordCount, recordCount,
          List.filter_cons_of_pos (by simp), recordsOf_cons, List.length_append]
        omega
      · rw [Function.update_of_ne hOther, recordCount, recordCount,
          List.filter_cons_of_neg (by simpa using Ne.symm hOther)]

end

/-! ## Lines -/

/-- That there is nothing after the last line break. -/
def WholeLines (bytes : List UInt8) : Prop := bytes = [] ∨ bytes.getLast? = some 0x0a

theorem splitOn_append_cons (before after : List UInt8) :
    (before ++ 0x0a :: after).splitOn 0x0a = before.splitOn 0x0a ++ after.splitOn 0x0a :=
  List.splitOnP_append_cons before after (by decide)

/-- Lines that are added after whole lines are split off as they are. -/
theorem splitOn_lines {bytes : List UInt8} (hWhole : WholeLines bytes) {lines : List (List UInt8)}
    (hClean : ∀ line ∈ lines, (0x0a : UInt8) ∉ line) :
    (bytes ++ lines.flatMap (· ++ [0x0a])).splitOn 0x0a
      = (bytes.splitOn 0x0a).dropLast ++ lines ++ [[]] := by
  have hLines : (lines.flatMap (· ++ [0x0a])).splitOn (0x0a : UInt8) = lines ++ [[]] := by
    induction lines with
    | nil => rfl
    | cons line rest ih =>
      have hRest := ih fun other hOther => hClean other (List.mem_cons_of_mem line hOther)
      have hLine : line.splitOn (0x0a : UInt8) = [line] := by
        refine List.splitOnP_eq_singleton fun b hb => ?_
        exact beq_false_of_ne fun hBreak => hClean line List.mem_cons_self (hBreak ▸ hb)
      rw [List.flatMap_cons, List.append_assoc, List.singleton_append, splitOn_append_cons, hRest,
        hLine]
      rfl
  rcases hWhole with rfl | hLast
  · exact hLines
  · obtain ⟨front, rfl⟩ := List.getLast?_eq_some_iff.mp hLast
    rw [List.append_assoc, List.singleton_append, splitOn_append_cons, splitOn_append_cons, hLines]
    simp

/-! ## Records -/

/-- That a text is the record of a file in the compact format, with the document of the file. -/
def Recorded (options : ProcessOptions) (document : Json) (record : String) : Prop :=
  options.format = .json ∧ ∃ (p : Processor) (fs : FileSystem) (path language : String) (pool : Pool),
    p.options = options ∧
      (p.process fs path pool).1 = .success path language record (some document) false

/-- That a document has its record cut down to a preview. -/
def ProcessOptions.Cuts (options : ProcessOptions) (document : Json) : Prop :=
  ∃ limit, options.truncate = some limit ∧ limit < document.compact.length

theorem Recorded.eq_renderDocument {options : ProcessOptions} {document : Json} {record : String}
    (h : Recorded options document record) : record = options.renderDocument document := by
  obtain ⟨-, p, fs, path, language, pool, rfl, hProcess⟩ := h
  have hComes := p.process_comes fs path pool
  rw [hProcess] at hComes
  cases hComes with
  | parsed node hDry => rfl

/-- In the compact format, a record is the compact text of its document, or a preview of it. -/
theorem renderDocument_json {options : ProcessOptions} (hFormat : options.format = .json)
    (document : Json) :
    options.renderDocument document = document.compact ∨
      options.Cuts document ∧ ∃ limit, options.renderDocument document
        = preview limit document.compact := by
  rw [ProcessOptions.renderDocument, hFormat]
  cases hTruncate : options.truncate with
  | none => exact Or.inl rfl
  | some limit =>
    by_cases hCut : limit < document.compact.length
    · exact Or.inr ⟨⟨limit, hTruncate, hCut⟩, limit, if_pos hCut⟩
    · exact Or.inl (if_neg hCut)

namespace Recorded

variable {options : ProcessOptions} {document : Json} {record : String}

theorem printable (h : Recorded options document record) : Printable record := by
  rw [h.eq_renderDocument]
  rcases renderDocument_json h.1 document with hWhole | ⟨-, limit, hCut⟩
  · rw [hWhole]
    exact document.printable_compact
  · rw [hCut]
    exact printable_preview document.printable_compact limit

/-- A record that is whole is read as its document. -/
theorem parse_eq (h : Recorded options document record) (hWhole : ¬ options.Cuts document) :
    Json.parse record = some document := by
  rw [h.eq_renderDocument]
  rcases renderDocument_json h.1 document with hCompact | ⟨hCut, -⟩
  · rw [hCompact]
    exact Json.parse_render .compact document
  · exact absurd hCut hWhole

end Recorded

/-- Any number of sinks for one file whose lines are whole, in whatever order they are opened,
written to and closed, with records in the compact format.  No call fails; the file has what it had,
and after that the line of each record, in the order of the writing; each sink counts the records
that were written to it; and no record has a line break, so the lines of the file are those that it
had and one for each record.  Such a line is read as the document of its record, unless that was cut
down to a preview. -/
theorem actAll_lines {path : Path} {initial : ByteArray} {outlets : Outlets}
    (hRead : outlets.files.read path.text = .ok initial) (hWhole : WholeLines initial.toList)
    (calls : List (Nat × SinkCall))
    (hRecords : ∀ record ∈ recordsOf calls, ∃ options document, Recorded options document record) :
    (∃ sinks after final,
      actAll (fun _ => { path := some path }) outlets calls = .ok (sinks, after) ∧
      after.files.read path.text = .ok final ∧
      final.toList = initial.toList ++ (recordsOf calls).flatMap lineBytes ∧
      final.toList.splitOn 0x0a = (initial.toList.splitOn 0x0a).dropLast
        ++ (recordsOf calls).map (·.toUTF8.toList) ++ [[]] ∧
      ∀ number, (sinks number).written = recordCount number calls) ∧
    (∀ record ∈ recordsOf calls, '\n' ∉ record.toList ∧ '\r' ∉ record.toList) ∧
    ∀ options document record, Recorded options document record → ¬ options.Cuts document →
      Utf8.decode record.toUTF8 = .ok record ∧ Json.parse record = some document := by
  obtain ⟨place, hHolds⟩ := FileSystem.holds_of_read hRead
  have hSinks : ∀ number : Nat, ((fun _ => { path := some path } : Nat → Sink) number).WritesTo
      path place := fun _ => ⟨rfl, Or.inl rfl⟩
  obtain ⟨sinks, after, final, hCalls, hFinal, hBytes, hCounts⟩ := actAll_holds calls hSinks hHolds
  have hPrintable : ∀ record ∈ recordsOf calls, Printable record := by
    intro record hRecord
    obtain ⟨options, document, hRecorded⟩ := hRecords record hRecord
    exact hRecorded.printable
  refine ⟨⟨sinks, after, final, hCalls, hFinal.read_eq, hBytes, ?_, ?_⟩, ?_, ?_⟩
  · have hClean : ∀ line ∈ (recordsOf calls).map (·.toUTF8.toList), (0x0a : UInt8) ∉ line := by
      intro line hLine hBreak
      obtain ⟨record, hRecord, rfl⟩ := List.mem_map.mp hLine
      exact absurd ((hPrintable record hRecord).bytes _ hBreak) (by decide)
    rw [hBytes, ← splitOn_lines hWhole hClean, List.flatMap_map]
    rfl
  · intro number
    rw [hCounts number, Nat.zero_add]
  · exact fun record hRecord => (hPrintable record hRecord).noBreak
  · exact fun options document record hRecorded hUncut =>
      ⟨Utf8.decode_toUTF8 record, hRecorded.parse_eq hUncut⟩

/-- Two sinks for a file with one line: one is opened anew after it was closed, and one never
is opened. -/
theorem actAll_lines_reopened :
    let outlets : Outlets := { files := Processor.twoFiles }
    ∃ record document sinks after final, Recorded {} document record ∧
      outlets.files.read "out" = .ok "-\n".toUTF8 ∧
      actAll (fun _ => { path := some (Path.ofString "out") }) outlets
        [(0, .opening), (1, .writing record), (0, .writing record), (0, .closing),
          (0, .writing record)] = .ok (sinks, after) ∧
      after.files.read "out" = .ok final ∧
      final.toList.splitOn 0x0a = [[0x2d], record.toUTF8.toList, record.toUTF8.toList,
        record.toUTF8.toList, []] ∧
      (sinks 0).written = 2 ∧ Json.parse record = some document := by
  intro outlets
  obtain ⟨language, record, document, hProcess⟩ := Processor.leafy_process
  have hRecorded : Recorded {} document record :=
    ⟨rfl, .leafy, Processor.twoFiles, "solo.go", language, {}, rfl, hProcess⟩
  have hRead : outlets.files.read (Path.ofString "out").text = .ok "-\n".toUTF8 := by
    have hText : (Path.ofString "out").text = "out" := by decide
    rw [hText, FileSystem.read, Processor.stat_twoFiles.2.2]
  have hBytes : "-\n".toUTF8.toList = [0x2d, 0x0a] := by
    rw [Utf8.toList_toUTF8]
    rfl
  let calls : List (Nat × SinkCall) := [(0, .opening), (1, .writing record), (0, .writing record),
    (0, .closing), (0, .writing record)]
  have hRecords : ∀ other ∈ recordsOf calls, ∃ options document, Recorded options document other := by
    intro other hOther
    have hSame : other = record := by simpa [recordsOf, calls, SinkCall.record?] using hOther
    exact ⟨{}, document, hSame ▸ hRecorded⟩
  have hWhole : WholeLines "-\n".toUTF8.toList := Or.inr (by rw [hBytes]; rfl)
  obtain ⟨⟨sinks, after, final, hCalls, hFinal, -, hLines, hCounts⟩, -, hReadBack⟩ :=
    actAll_lines hRead hWhole calls hRecords
  have hUncut : ¬ ({} : ProcessOptions).Cuts document := by
    rintro ⟨limit, hLimit, -⟩
    cases hLimit
  refine ⟨record, document, sinks, after, final, hRecorded, hRead, hCalls, hFinal, ?_, hCounts 0,
    (hReadBack {} document record hRecorded hUncut).2⟩
  rw [hLines, hBytes]
  rfl

end TreeDump
