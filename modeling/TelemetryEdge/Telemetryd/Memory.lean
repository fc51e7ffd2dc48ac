import TelemetryEdge.Rules.ReportSize
import TelemetryEdge.Telemetryd.Metrics
import TelemetryEdge.Telemetryd.Shutdown
import TelemetryEdge.Telemetryd.Startup
import TelemetryEdge.Telemetryd.TornLines

/-!
# The memory of the daemon

What a started daemon holds is bounded in every state it reaches, however many
datagrams have arrived and whichever operations of the disk have failed: by the
lengths of the queues, the size of a packet, the number of rules and the number
of signals of the catalog.
-/

namespace TelemetryEdge
namespace Telemetryd

open Attempt Protocol Rules

namespace Output

/-- What is buffered fits into the buffer. -/
def Buffered (output : Output) : Prop :=
  output.writer.file.buffer.length ≤ BufWriter.capacity

theorem flushBuf_buffered :
    Ensures Buffered flushBuf
      (fun _ after => after.writer.file.buffer = [])
      (fun _ => Buffered) := by
  intro output buffered
  by_cases empty : output.writer.file.buffer = []
  · rw [flushBuf, if_pos empty]
    exact empty
  · rw [flushBuf_of_buffered empty]
    dsimp only
    by_cases short : (output.writeFile output.writer.file.buffer).1 <
        output.writer.file.buffer.length
    · rw [if_pos short]
      refine le_trans (le_of_eq (List.length_drop ..)) ?_
      exact (Nat.sub_le _ _).trans buffered
    · rw [if_neg short]
      exact List.drop_eq_nil_of_le (Nat.le_of_not_lt short)

theorem buffered_of_eq_nil
    {output : Output}
    (empty : output.writer.file.buffer = []) :
    output.Buffered := by
  rw [Buffered, empty]
  exact Nat.zero_le _

/-- Bytes are only buffered where they fit. -/
theorem writeAll_buffered (bytes : List UInt8) :
    Ensures Buffered (writeAll bytes) (fun _ => Buffered) (fun _ => Buffered) := by
  refine Ensures.of_each fun output buffered => Ensures.bind_read ?_
  have fits := buffered
  unfold Buffered at fits
  have added (middle : Output)
      (room : middle.writer.file.buffer.length + bytes.length ≤
        BufWriter.capacity) :
      Ensures (middle = ·) (buffer bytes) (fun _ => Buffered)
        (fun _ => Buffered) := by
    refine Ensures.modify ?_
    rintro _ rfl
    rw [Buffered]
    exact (List.length_append ..).trans_le room
  dsimp only
  split
  · next small => exact added output (by omega)
  · next large =>
      have made : Ensures (output = ·)
          (runIf (BufWriter.capacity - output.writer.file.buffer.length <
            bytes.length) flushBuf)
          (fun _ middle => middle.Buffered ∧
            (middle.writer.file.buffer = [] ∨
              middle.writer.file.buffer.length + bytes.length ≤
                BufWriter.capacity))
          (fun _ => Buffered) := by
        refine Ensures.runIf (fun _ => ?_) fun exact state same => ?_
        · exact (flushBuf_buffered.from_state buffered).mono
            (fun _ _ empty => ⟨buffered_of_eq_nil empty, .inl empty⟩)
            fun _ _ => id
        · subst same
          exact ⟨buffered, .inr (by omega)⟩
      refine made.andThen (fun _ _ => id) ?_
      rintro _ middle ⟨kept, room⟩
      split
      · rintro _ rfl
        rw [writeDirect_eq]
        dsimp only
        by_cases short : (middle.writeFile bytes).1 < bytes.length
        · rw [if_pos short]
          exact kept
        · rw [if_neg short]
          exact kept
      · next short =>
          apply added middle
          rcases room with empty | room
          · rw [empty, List.length_nil]
            omega
          · exact room

/-- An operation of the disk leaves the buffer alone. -/
theorem onDisk_buffered (attempt : Attempt IoError Disk α) :
    Ensures Buffered (onDisk attempt) (fun _ => Buffered)
      (fun _ => Buffered) := by
  intro output buffered
  unfold onDisk
  rcases attempt output.disk with ⟨error | value, disk⟩ <;> exact buffered

theorem flush_buffered :
    Ensures Buffered flush (fun _ => Buffered) (fun _ => Buffered) :=
  flushBuf_buffered.mono (fun _ _ => buffered_of_eq_nil) fun _ _ => id

theorem sync_buffered :
    Ensures Buffered sync (fun _ => Buffered) (fun _ => Buffered) :=
  flush_buffered.bind fun _ => onDisk_buffered _

theorem rotate_buffered :
    Ensures Buffered rotate (fun _ => Buffered) (fun _ => Buffered) := by
  refine flush_buffered.bind fun _ => Ensures.of_each fun output buffered =>
    Ensures.bind_read ?_
  refine ((onDisk_buffered _).from_state buffered).bind fun _ =>
    (onDisk_buffered _).bind fun _ => Ensures.modify fun _ _ => ?_
  exact Nat.zero_le _

theorem writeLine_buffered (line : List UInt8) :
    Ensures Buffered (writeLine line) (fun _ => Buffered)
      (fun _ => Buffered) := by
  refine Ensures.of_each fun output buffered => Ensures.bind_read ?_
  have rotated : Ensures (output = ·)
      (runIf (output.overflows line) rotate)
      (fun _ => Buffered) (fun _ => Buffered) :=
    Ensures.runIf (fun _ => rotate_buffered.from_state buffered)
      fun _ _ same => same ▸ buffered
  exact rotated.bind fun _ => (writeAll_buffered line).bind fun _ =>
    (writeAll_buffered [newline]).bind fun _ => Ensures.modify fun _ kept => kept

/-- What a computation leaves behind, however it ends. -/
theorem buffered_snd
    {attempt : Attempt IoError Output α}
    (ensures : Ensures Buffered attempt (fun _ => Buffered) (fun _ => Buffered))
    {output : Output}
    (buffered : output.Buffered) :
    (attempt output).2.Buffered := by
  have result := ensures output buffered
  rcases ended : attempt output with ⟨error | value, reached⟩ <;>
    simpa [ended] using result

end Output

/-- A writer is opened with an empty buffer and the limits it is given. -/
theorem RotatingWriter.fields_of_open
    {maxBytes maxFiles : Nat}
    {disk after : Disk}
    {writer : RotatingWriter}
    (opened : RotatingWriter.open maxBytes maxFiles disk = (.ok writer, after)) :
    writer.file.buffer = [] ∧ writer.maxBytes = maxBytes ∧
      writer.maxFiles = max maxFiles 1 := by
  have trivially {α : Type} (attempt : Attempt IoError Disk α) :
      Ensures (fun _ => True) attempt (fun _ _ => True) (fun _ _ => True) := by
    intro state _
    split <;> trivial
  have ensures : Ensures (fun _ => True) (RotatingWriter.open maxBytes maxFiles)
      (fun writer _ => writer.file.buffer = [] ∧ writer.maxBytes = maxBytes ∧
        writer.maxFiles = max maxFiles 1) (fun _ _ => True) :=
    (trivially _).bind fun _ => (trivially _).bind fun _ =>
      (trivially _).bind fun _ => Ensures.pure fun _ _ => ⟨rfl, rfl, rfl⟩
  have result := ensures disk trivial
  rw [opened] at result
  exact result

/-- Passing a record to the writer keeps what is buffered within the buffer. -/
theorem OutputTask.buffered_of_write
    {toVec : LogRecord F → Except String (List UInt8)}
    {task written : OutputTask}
    {record : LogRecord F}
    {result : Except WriteError (List UInt8)}
    (buffered : task.output.Buffered)
    (wrote : task.write toVec record = (result, written)) :
    written.output.Buffered := by
  unfold write at wrote
  cases serialized : toVec record with
  | error message =>
      simp only [serialized, Prod.mk.injEq] at wrote
      rw [← wrote.2]
      exact buffered
  | ok line =>
      have after := Output.buffered_snd (Output.writeLine_buffered line) buffered
      rcases ended : Output.writeLine line task.output with ⟨error | _, output⟩ <;>
      · rw [ended] at after
        simp only [serialized, ended, Prod.mk.injEq] at wrote
        rw [← wrote.2]
        exact after

/-- Every step of the output task keeps what is buffered within the buffer,
whatever operations fail. -/
theorem OutputTask.Step.buffered
    {toVec : LogRecord F → Except String (List UInt8)}
    {task task' : OutputTask}
    {records records' : Channel (LogRecord F) recordQueue}
    {event : Event F}
    (stepped : OutputTask.Step toVec task records event task' records')
    (buffered : task.output.Buffered) :
    task'.output.Buffered := by
  cases stepped with
  | receive waiting received wrote =>
      have after := buffered_of_write buffered wrote
      exact after
  | closed waiting ended =>
      exact Output.buffered_snd Output.flush_buffered
        (Output.buffered_snd Output.sync_buffered buffered)
  | tryReceive draining received wrote =>
      exact buffered_of_write buffered wrote
  | flush draining empty =>
      exact Output.buffered_snd Output.flush_buffered buffered

section Bounds

variable [F64 F] {cel : Cel F}

/-- A datagram has no more samples than a packet may have frames. -/
theorem length_samplesOf_le
    (catalog : Catalog F)
    (datagram : List UInt8) :
    (samplesOf catalog datagram).length ≤ maxFrames := by
  unfold samplesOf
  rw [decodePacket_eq]
  cases header : headerError datagram with
  | some error => exact Nat.zero_le _
  | none =>
      have declared : frameCountOf datagram ≤ maxFrames := by
        by_contra tooMany
        unfold headerError at header
        split_ifs at header with _ _ _ _ _ few
        exact tooMany (Nat.le_of_not_lt few)
      exact (List.length_filterMap_le ..).trans
        ((length_wholeFrames_le ..).trans declared)

/-- Every label under which an error is counted. -/
def reasons : List String :=
  ["oversize", "truncated", "bad_magic", "bad_version", "zero_frames",
    "too_many_frames", "length_mismatch", "invalid_value", "trailing_bytes"]

/-- There are no other labels. -/
theorem reasonsOf_subset
    (catalog : Catalog F)
    (datagram : List UInt8) :
    reasonsOf catalog datagram ⊆ reasons := by
  unfold reasonsOf
  split
  · next error _ =>
      intro label member
      rw [List.mem_singleton.mp member]
      cases error <;> simp [PacketError.reason, reasons]
  · next packet _ =>
      intro label member
      obtain ⟨error, -, rfl⟩ := List.mem_map.mp member
      cases error.kind <;> simp [FrameErrorKind.reason, reasons]

/-- A tally has no more entries than there are different keys. -/
theorem card_tallied_le
    [DecidableEq κ]
    {keys known : List κ}
    (included : keys ⊆ known) :
    (KeyedMap.tallied keys).keys.card ≤ known.length := by
  rw [KeyedMap.keys_tallied]
  refine (Finset.card_le_card ?_).trans (List.toFinset_card_le known)
  exact fun key member =>
    List.mem_toFinset.mpr (included (List.mem_toFinset.mp member))

/-- A map whose keys come from a list has no more entries than the list. -/
theorem card_keys_le
    [DecidableEq κ]
    {map : KeyedMap κ β}
    {known : List κ}
    (included : ∀ key, (map.lookup key).isSome = true → key ∈ known) :
    map.keys.card ≤ known.length := by
  refine (Finset.card_le_card ?_).trans (List.toFinset_card_le known)
  intro key member
  rw [Finmap.mem_keys, ← Finmap.lookup_isSome] at member
  exact List.mem_toFinset.mpr (included key member)

/-- The bounds on what a daemon holds. -/
structure System.Bounded (setup : Setup cel) (system : System cel) : Prop where
  pendingSamples : system.ingest.pending.length ≤ maxFrames
  samples : system.samples.items.length ≤ sampleQueue
  latest : system.engine.engine.latest.keys.card ≤ setup.catalog.signals.length
  state : system.engine.engine.state.keys.card ≤ maxRules
  pendingRecords : system.engine.pending.length ≤ maxRules
  records : system.records.items.length ≤ recordQueue
  buffer : system.output.output.writer.file.buffer.length ≤ BufWriter.capacity
  decodeErrors : system.ingest.stats.decodeErrors.keys.card ≤ reasons.length
  recordCounts : system.engine.stats.records.keys.card ≤ maxRules
  evalErrors : system.engine.stats.evalErrors.keys.card ≤ maxRules
  staleSkips : system.engine.stats.staleSkips.keys.card ≤ maxRules

/-- The samples still to be sent are those of one datagram. -/
theorem IngestTask.Step.length_pending_le
    {catalog : Catalog F}
    {stop : Bool}
    {task task' : IngestTask F}
    {samples samples' : Channel (Sample F) sampleQueue}
    {event : Event F}
    (stepped : IngestTask.Step catalog stop task samples event task' samples')
    (bounded : task.pending.length ≤ maxFrames) :
    task'.pending.length ≤ maxFrames := by
  cases stepped with
  | receive bytes selecting =>
      rw [pending, phase_receive catalog bytes selecting]
      exact length_samplesOf_le catalog bytes
  | receiveFails selecting => exact Nat.zero_le _
  | send sending sent =>
      rw [pending, sending, List.length_cons] at bounded
      exact Nat.le_of_succ_le bounded
  | sendFails sending refused => exact Nat.zero_le _
  | report selecting => exact bounded
  | noticeStop selecting stopped => exact Nat.zero_le _

/-- The records still to be sent are those of one report. -/
theorem EngineTask.Step.length_pending_le
    {task task' : EngineTask cel}
    {samples samples' : Channel (Sample F) sampleQueue}
    {records records' : Channel (LogRecord F) recordQueue}
    {event : Event F}
    (stepped : EngineTask.Step task samples records event task' samples' records')
    (indexed : task.engine.onChangeBySignal =
      Engine.indexRules task.engine.rules.rules)
    {limit : Nat}
    (few : task.engine.rules.rules.length ≤ limit)
    (bounded : task.pending.length ≤ limit) :
    task'.pending.length ≤ limit := by
  have shorter {record : LogRecord F} {rest : List (LogRecord F)}
      {turn : EngineTurn}
      (sending : task.phase = .running (record :: rest) turn) :
      rest.length ≤ limit := by
    rw [pending, sending, List.length_cons] at bounded
    exact Nat.le_of_succ_le bounded
  cases stepped with
  | tick now ready =>
      have size := task.engine.size_tick_le now
      unfold EvalReport.size at size
      simp only [pending, emit]
      omega
  | @onSample sample _ now ready received =>
      have size := Engine.size_onSample_le indexed now sample
      unfold EvalReport.size at size
      simp only [pending, emit, countSample]
      omega
  | closed ready ended => exact Nat.zero_le _
  | wake ready => exact Nat.zero_le _
  | send sending sent => exact shorter sending
  | sendFails sending refused => exact shorter sending

variable {setup : Setup cel} {events : List (Event F)} {system : System cel}

/-- What is on its way inside a task is bounded in every state. -/
theorem pending_of_run
    (few : setup.rules.rules.length ≤ maxRules)
    (drained : setup.output.Buffered)
    (run : Run (Step setup) setup.initial events system) :
    system.ingest.pending.length ≤ maxFrames ∧
      system.engine.pending.length ≤ maxRules ∧
      system.output.output.Buffered := by
  induction run with
  | start => exact ⟨Nat.zero_le _, Nat.zero_le _, drained⟩
  | extend run stepped inductionHypothesis =>
      obtain ⟨samples, records, buffered⟩ := inductionHypothesis
      have drainable := drainable_of_run run
      cases stepped with
      | ingest stepped =>
          exact ⟨stepped.length_pending_le samples, records, buffered⟩
      | engine stepped =>
          have indexed := drainable.indexed
          rw [← drainable.rules] at indexed few
          exact ⟨samples, stepped.length_pending_le indexed few records,
            buffered⟩
      | output stepped => exact ⟨samples, records, stepped.buffered buffered⟩
      | _ => exact ⟨samples, records, buffered⟩

/-- The ids under which the engine task counts are those of the rules. -/
theorem counted_of_run
    (run : Run (Step setup) setup.initial events system) :
    ∀ counts ∈ [system.engine.stats.records, system.engine.stats.evalErrors,
        system.engine.stats.staleSkips],
      counts.keys.card ≤ setup.rules.rules.length := by
  have counts := (counts_of_run run).engine
  have flow := (flows_of_run run).records
  unfold Channel.Conserves at flow
  have ids : ∀ report ∈ setup.reports events,
      report.IdsIn (setup.rules.rules.map CompiledRule.id) :=
    Engine.idsIn_of_outputs (noSwap_inputs events) rfl
  have bound {keys : List String}
      (included : keys ⊆ setup.rules.rules.map CompiledRule.id) :
      (KeyedMap.tallied keys).keys.card ≤ setup.rules.rules.length := by
    have few := card_tallied_le included
    rwa [List.length_map] at few
  rw [counts]
  simp only [List.forall_mem_cons, EngineStats.of]
  refine ⟨bound ?_, bound ?_, bound ?_, by simp⟩
  · intro id member
    obtain ⟨record, takenUp, rfl⟩ := List.mem_map.mp member
    have reported : record ∈ (setup.reports events).flatMap (·.records) := by
      rw [flow]
      cases List.mem_append.mp takenUp with
      | inl sent => exact List.mem_append_left _ sent
      | inr first => exact List.mem_append_right _ (List.mem_of_mem_take first)
    obtain ⟨report, ofRun, inReport⟩ := List.mem_flatMap.mp reported
    apply ids report ofRun
    simp only [EvalReport.ids, List.mem_append]
    exact .inl (.inl (List.mem_map_of_mem inReport))
  · intro id member
    obtain ⟨error, reported, rfl⟩ := List.mem_map.mp member
    obtain ⟨report, ofRun, inReport⟩ := List.mem_flatMap.mp reported
    apply ids report ofRun
    simp only [EvalReport.ids, List.mem_append]
    exact .inl (.inr (List.mem_map_of_mem inReport))
  · intro id member
    obtain ⟨report, ofRun, inReport⟩ := List.mem_flatMap.mp member
    apply ids report ofRun
    simp only [EvalReport.ids, List.mem_append]
    exact .inr inReport

/-- A started daemon holds a bounded amount of data in every state it reaches,
whatever it has received and whatever operations of the disk have failed. -/
theorem bounded_of_run
    {environment : Environment F}
    {path : String}
    (success : start cel environment path = .ok setup)
    (run : Run (Step setup) setup.initial events system) :
    system.Bounded setup := by
  have started := started_of_start success
  have few := started.length_rules_le
  obtain ⟨maxBytes, maxFiles, disk, -, -, opened⟩ := started.output
  obtain ⟨samples, records, buffered⟩ := pending_of_run few
    (Output.buffered_of_eq_nil (RotatingWriter.fields_of_open opened).1) run
  obtain ⟨-, -, sound⟩ := sound_of_run success run
  have counted := counted_of_run run
  simp only [List.forall_mem_cons] at counted
  refine
    { pendingSamples := samples
      samples := system.samples.bounded
      latest := ?latest
      state := ?state
      pendingRecords := records
      records := system.records.bounded
      buffer := buffered
      decodeErrors := ?decodeErrors
      recordCounts := counted.1.trans few
      evalErrors := counted.2.1.trans few
      staleSkips := counted.2.2.1.trans few }
  case latest =>
    have known : system.engine.engine.latest.keys.card ≤
        (setup.catalog.signals.map Signal.name).length := by
      apply card_keys_le
      intro name present
      obtain ⟨latest, found⟩ := Option.isSome_iff_exists.mp present
      obtain ⟨signal, named, -⟩ := sound.keepsKinds.latest name latest found
      obtain ⟨inCatalog, rfl⟩ :=
        (started.acceptedCatalog.byName_eq_some_iff ..).mp named
      exact List.mem_map_of_mem inCatalog
    rwa [List.length_map] at known
  case state =>
    have known : system.engine.engine.state.keys.card ≤
        (setup.rules.rules.map CompiledRule.id).length := by
      apply card_keys_le
      intro id present
      obtain ⟨rule, found⟩ :=
        Option.isSome_iff_exists.mp ((sound.states id).mp present)
      obtain ⟨active, rfl⟩ :=
        (started.loadedRules.wellFormed.withId_eq_some_iff id rule).mp found
      exact List.mem_map_of_mem active
    rw [List.length_map] at known
    exact known.trans few
  case decodeErrors =>
    rw [(counts_of_run run).ingest]
    apply card_tallied_le
    intro label member
    obtain ⟨datagram, -, counted⟩ := List.mem_flatMap.mp member
    exact reasonsOf_subset setup.catalog datagram counted

end Bounds

/-- What the daemon for the door holds at the end. -/
theorem doorEvents_bounded :
    ∃ system, Run (Step doorSetup) doorSetup.initial doorEvents system ∧
      system.Bounded doorSetup := by
  obtain ⟨system, run, -⟩ := doorEvents_run
  exact ⟨system, run, bounded_of_run doorEnvironment_start run⟩

end Telemetryd
end TelemetryEdge
