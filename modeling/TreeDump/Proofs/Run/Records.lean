import TreeDump.Proofs.Run.Batch

/-!
# How many records are written

Counts of several lists of outcomes add up, and the sink for records counts the records that it
takes.  What is written can change the files that a run reads, unless it is written elsewhere.

* `Counts.ofOutcomes_concat`, `Counts.success_ofOutcomes`: counts of lists of outcomes.
* `Outputs.writeAll_written`: each outcome with a record adds one to the number of records.
* `Outputs.Lastingly`: what holds of the files whatever is written, as everything does if nothing is
  written to a file (`Outputs.Fileless.lastingly`).
-/

namespace TreeDump

/-! ## Counts of several lists -/

namespace Counts

theorem merge_assoc (a b c : Counts) : (a.merge b).merge c = a.merge (b.merge c) := by
  simp only [merge, Int.add_assoc]

theorem empty_merge (counts : Counts) : ({} : Counts).merge counts = counts := by
  simp only [merge, Int.zero_add]

theorem foldl_add (counts : Counts) (outcomes : List Outcome) :
    outcomes.foldl add counts = counts.merge (ofOutcomes outcomes) := by
  induction outcomes generalizing counts with
  | nil => simp only [List.foldl_nil, ofOutcomes, merge, Int.add_zero]
  | cons outcome rest ih =>
    have hRest : ofOutcomes (outcome :: rest) = (ofOutcome outcome).merge (ofOutcomes rest) := by
      rw [ofOutcomes, List.foldl_cons, ih, add, empty_merge]
    rw [List.foldl_cons, ih, hRest, add, merge_assoc]

theorem ofOutcomes_concat (outcomes others : List Outcome) :
    ofOutcomes (outcomes ++ others) = (ofOutcomes outcomes).merge (ofOutcomes others) := by
  rw [ofOutcomes, List.foldl_append, foldl_add]
  rfl

theorem ofOutcomes_singleton (outcome : Outcome) : ofOutcomes [outcome] = ofOutcome outcome :=
  empty_merge _

/-- Successes are counted one by one. -/
theorem success_ofOutcomes (outcomes : List Outcome) :
    (ofOutcomes outcomes).success = outcomes.countP Outcome.isSuccess := by
  induction outcomes with
  | nil => rfl
  | cons outcome rest ih =>
    rw [← List.singleton_append, ofOutcomes_concat, ofOutcomes_singleton, List.singleton_append,
      List.countP_cons]
    cases outcome <;> simp [merge, ofOutcome, ih, Outcome.isSuccess]
    omega

end Counts

/-! ## Numbers of records -/

/-- That an outcome has a record that is written. -/
def Outcome.isRecord : Outcome → Bool
  | success _ _ _ _ dryRun => !dryRun
  | _ => false

theorem Sink.write?_written {sink after : Sink} {text : String} {outlets outlets' : Outlets}
    (hWrite : sink.write? text outlets = .ok (after, outlets')) :
    after.written = sink.written + 1 := by
  have hOpen : ∀ {opened : Sink} {outlets' : Outlets}, sink.open? outlets = .ok (opened, outlets') →
      opened.written = sink.written := by
    intro opened outlets' hOpen
    rw [open?] at hOpen
    split at hOpen
    · cases hOpen
      rfl
    · cases hOpen
      rfl
    · split at hOpen
      · cases hOpen
        rfl
      · cases hOpen
  rw [write?] at hWrite
  split at hWrite
  · cases hWrite
  · rename_i opened files hOpened
    cases hWrite
    rw [← hOpen hOpened]

namespace Outputs

theorem write?_record {first next : Outputs} {text : String}
    (hWrite : first.write? (.record text) = .ok next) :
    ∃ sink outlets, first.sink.write? text first.outlets = .ok (sink, outlets) ∧
      next = { first with sink, outlets } := by
  rw [write?] at hWrite
  split at hWrite
  · rename_i sink outlets hText
    exact ⟨sink, outlets, hText, (Except.ok.inj hWrite).symm⟩
  · cases hWrite

theorem write?_notice {first next : Outputs} {text : String}
    (hWrite : first.write? (.notice text) = .ok next) :
    ∃ notices outlets, first.notices.write? text first.outlets = .ok (notices, outlets) ∧
      next = { first with notices, outlets } := by
  rw [write?] at hWrite
  split at hWrite
  · rename_i notices outlets hText
    exact ⟨notices, outlets, hText, (Except.ok.inj hWrite).symm⟩
  · cases hWrite

theorem writeAll_cons {first last : Outputs} {emission : Emission} {rest : List Emission}
    (hAll : first.writeAll (emission :: rest) = .ok last) :
    ∃ next, first.write? emission = .ok next ∧ next.writeAll rest = .ok last := by
  rw [writeAll] at hAll
  split at hAll
  · rename_i next hNext
    exact ⟨next, hNext, hAll⟩
  · cases hAll

/-- The sink for records counts the records that it takes. -/
theorem writeAll_written (options : ReportOptions) {outcomes : List Outcome}
    {first last : Outputs}
    (hAll : first.writeAll (outcomes.filterMap (Outcome.emission? options)) = .ok last) :
    last.sink.written = first.sink.written + outcomes.countP Outcome.isRecord := by
  induction outcomes generalizing first with
  | nil =>
    cases hAll
    rfl
  | cons outcome rest ih =>
    rw [List.filterMap_cons] at hAll
    cases outcome with
    | success path language rendered document dryRun =>
      cases dryRun with
      | true =>
        cases hQuiet : options.quiet with
        | true =>
          simp only [Outcome.emission?, hQuiet, if_true] at hAll
          exact ih hAll
        | false =>
          simp only [Outcome.emission?, hQuiet, Bool.false_eq_true, if_false] at hAll
          obtain ⟨next, hWrite, hRest⟩ := writeAll_cons hAll
          obtain ⟨notices, outlets, -, rfl⟩ := write?_notice hWrite
          have hLast := ih hRest
          exact hLast
      | false =>
        obtain ⟨next, hWrite, hRest⟩ := writeAll_cons hAll
        obtain ⟨sink, outlets, hText, rfl⟩ := write?_record hWrite
        have hMore := Sink.write?_written hText
        have hLast := ih hRest
        dsimp only at hLast
        rw [hLast, hMore, List.countP_cons_of_pos rfl]
        omega
    | skipped path reason => exact ih hAll
    | failed path error => exact ih hAll

/-- That something holds of the files, and goes on to hold whatever is written. -/
def Lastingly (outputs : Outputs) (P : FileSystem → Prop) : Prop :=
  ∀ emissions after, outputs.writeAll emissions = .ok after → P after.outlets.files

variable {outputs after : Outputs} {P Q : FileSystem → Prop}

theorem Lastingly.now (h : outputs.Lastingly P) : P outputs.outlets.files := h [] outputs rfl

theorem Lastingly.later (h : outputs.Lastingly P) {emissions : List Emission}
    (hWritten : outputs.writeAll emissions = .ok after) : after.Lastingly P :=
  fun more last hMore => h (emissions ++ more) last (writeAll_append hWritten hMore)

theorem Lastingly.mono (h : outputs.Lastingly P) (hImp : ∀ files, P files → Q files) :
    outputs.Lastingly Q :=
  fun emissions after hWritten => hImp _ (h emissions after hWritten)

end Outputs

/-! ## Sinks that write to no file -/

/-- That a sink writes to no file. -/
def Sink.Fileless (sink : Sink) : Prop :=
  sink.path = none ∧ ∀ place, sink.destination ≠ some (.file place)

theorem Sink.Fileless.write? {sink after : Sink} {text : String} {outlets outlets' : Outlets}
    (h : sink.Fileless) (hWrite : sink.write? text outlets = .ok (after, outlets')) :
    after.Fileless ∧ outlets'.files = outlets.files := by
  obtain ⟨path, destination, written⟩ := sink
  obtain ⟨hPath, hDestination⟩ := h
  obtain rfl : path = none := hPath
  cases destination with
  | none =>
    cases hWrite
    refine ⟨⟨rfl, ?_⟩, rfl⟩
    intro place hPlace
    cases hPlace
  | some destination =>
    cases destination with
    | standardOutput =>
      cases hWrite
      exact ⟨⟨rfl, hDestination⟩, rfl⟩
    | stream number =>
      cases hWrite
      exact ⟨⟨rfl, hDestination⟩, rfl⟩
    | file place => exact absurd rfl (hDestination place)

/-- That a sink writes to standard output. -/
def Sink.Prints (sink : Sink) : Prop :=
  sink.path = none ∧ (sink.destination = none ∨ sink.destination = some .standardOutput)

theorem Sink.Prints.write? {sink : Sink} (h : sink.Prints) (text : String) (outlets : Outlets) :
    ∃ after, sink.write? text outlets
        = .ok (after, { outlets with printed := outlets.printed ++ (text ++ "\n") }) ∧
      after.Prints := by
  obtain ⟨path, destination, written⟩ := sink
  obtain ⟨hPath, hDestination⟩ := h
  obtain rfl : path = none := hPath
  rcases hDestination with hClosed | hOpen
  · obtain rfl : destination = none := hClosed
    exact ⟨_, rfl, rfl, Or.inr rfl⟩
  · obtain rfl : destination = some .standardOutput := hOpen
    exact ⟨_, rfl, rfl, Or.inr rfl⟩

theorem Sink.Prints.fileless {sink : Sink} (h : sink.Prints) : sink.Fileless := by
  refine ⟨h.1, ?_⟩
  intro place hPlace
  rcases h.2 with hClosed | hOpen
  · cases hClosed.symm.trans hPlace
  · cases hOpen.symm.trans hPlace

/-- That neither of the sinks writes to a file. -/
def Outputs.Fileless (outputs : Outputs) : Prop :=
  outputs.sink.Fileless ∧ outputs.notices.Fileless

theorem Outputs.Fileless.ready {outputs : Outputs} (h : outputs.Fileless) : outputs.Ready :=
  ⟨Or.inr h.1.1, Or.inr h.2.1⟩

theorem Outputs.Fileless.write? {outputs after : Outputs} {emission : Emission}
    (h : outputs.Fileless) (hWrite : outputs.write? emission = .ok after) :
    after.Fileless ∧ after.outlets.files = outputs.outlets.files := by
  cases emission with
  | record text =>
    obtain ⟨sink, outlets, hText, rfl⟩ := Outputs.write?_record hWrite
    obtain ⟨hNext, hSame⟩ := h.1.write? hText
    exact ⟨⟨hNext, h.2⟩, hSame⟩
  | notice text =>
    obtain ⟨notices, outlets, hText, rfl⟩ := Outputs.write?_notice hWrite
    obtain ⟨hNext, hSame⟩ := h.2.write? hText
    exact ⟨⟨h.1, hNext⟩, hSame⟩

/-- As long as the sinks write to no file, the files stay as they are. -/
theorem Outputs.Fileless.lastingly {outputs : Outputs} (h : outputs.Fileless) :
    outputs.Lastingly fun files => files = outputs.outlets.files := by
  intro emissions after hWritten
  induction emissions generalizing outputs with
  | nil =>
    cases hWritten
    rfl
  | cons emission rest ih =>
    obtain ⟨next, hWrite, hRest⟩ := writeAll_cons hWritten
    obtain ⟨hNext, hSame⟩ := h.write? hWrite
    have hLast := ih hNext hRest
    exact Eq.trans hLast hSame

end TreeDump
