import TelemetryEdge.Foundation.Tally
import TelemetryEdge.Telemetryd.Pipeline

/-!
# The statistics of the tasks

Each task adds to its totals as it goes.  In every state reached the totals are
those of what has been seen of the run so far, so that the totals of different
tasks can be compared: what one task has counted and the next one has not is on
the way between them.
-/

namespace TelemetryEdge
namespace Telemetryd

open Protocol Rules

variable [F64 F]

/-- The labels under which the errors of a datagram are counted. -/
def reasonsOf (catalog : Catalog F) (datagram : List UInt8) : List String :=
  match decodePacket datagram catalog with
  | .error error => [error.reason]
  | .ok packet => packet.errors.map (·.kind.reason)

/-- The number of frames of a datagram whose signal is unknown. -/
def unknownIn (catalog : Catalog F) (datagram : List UInt8) : Nat :=
  match decodePacket datagram catalog with
  | .error _ => 0
  | .ok packet => packet.unknownSignals

/-- The parts of a datagram that are counted, whatever the catalog: a rejected
datagram as a whole, otherwise its frames and what is left over. -/
def partsOf (datagram : List UInt8) : Nat :=
  match headerError datagram with
  | some _ => 1
  | none =>
      (packetFrames datagram).1.length +
        (leftoverErrors (frameCountOf datagram)
          (packetFrames datagram).1.length (packetFrames datagram).2).length

/-- Every part of a datagram is counted once. -/
theorem count_parts (catalog : Catalog F) (datagram : List UInt8) :
    (samplesOf catalog datagram).length + unknownIn catalog datagram +
        (reasonsOf catalog datagram).length = partsOf datagram := by
  unfold samplesOf unknownIn reasonsOf partsOf
  rw [decodePacket_eq]
  cases headerError datagram with
  | some error => rfl
  | none =>
      have outcomes := count_outcomes catalog 0 (packetFrames datagram).1
      simp only [List.map_append, List.length_append, List.length_map]
      omega

/-- A datagram that is cut off is counted as before. -/
theorem reasonsOf_take (catalog : Catalog F) (bytes : List UInt8) :
    reasonsOf catalog (bytes.take receiveBufferLen) =
        reasonsOf catalog bytes ∧
      unknownIn catalog (bytes.take receiveBufferLen) =
        unknownIn catalog bytes := by
  by_cases fits : bytes.length ≤ receiveBufferLen
  · rw [List.take_of_length_le fits]
    exact ⟨rfl, rfl⟩
  have long := Nat.le_of_not_le fits
  have rejected (datagram : List UInt8)
      (long : receiveBufferLen ≤ datagram.length) :
      reasonsOf catalog datagram = ["oversize"] ∧
        unknownIn catalog datagram = 0 := by
    have oversize : maxDatagramLen < datagram.length :=
      lt_of_lt_of_le (by decide) long
    have error := (decodePacket_eq_error_iff datagram catalog _).mpr
      (if_pos oversize)
    rw [reasonsOf, unknownIn, error]
    exact ⟨rfl, rfl⟩
  have cutOff := rejected (bytes.take receiveBufferLen) (by
    rw [List.length_take, Nat.min_eq_left long])
  have whole := rejected bytes long
  exact ⟨cutOff.1.trans whole.1.symm, cutOff.2.trans whole.2.symm⟩

/-- The totals that datagrams lead to. -/
def IngestStats.of
    (catalog : Catalog F)
    (datagrams : List (List UInt8)) : IngestStats where
  packets := datagrams.length
  bytes := (datagrams.map fun bytes => min receiveBufferLen bytes.length).sum
  framesDecoded := (datagrams.flatMap (samplesOf catalog)).length
  unknownSignals := (datagrams.map (unknownIn catalog)).sum
  decodeErrors := .tallied (datagrams.flatMap (reasonsOf catalog))

/-- The totals that samples, the reports of the engine and the records taken up
lead to. -/
def EngineStats.of
    (samples : List (Sample F))
    (reports : List (EvalReport F))
    (takenUp : List (LogRecord F)) : EngineStats where
  samples := samples.length
  records := .tallied (takenUp.map (·.ruleId))
  evalErrors := .tallied ((reports.flatMap (·.evalErrors)).map (·.1))
  staleSkips := .tallied (reports.flatMap (·.staleSkips))

/-- Whether the writer has failed. -/
def Event.failed : Event F → Bool
  | .write _ (.error _) => true
  | _ => false

/-- The totals that the calls of the writer lead to. -/
def OutputStats.of (events : List (Event F)) : OutputStats where
  recordsWritten := (written events).length
  writeErrors := events.countP Event.failed

/-- What one more datagram adds to the totals. -/
theorem IngestStats.of_concat
    (catalog : Catalog F)
    (datagrams : List (List UInt8))
    (bytes : List UInt8) :
    IngestStats.of catalog (datagrams ++ [bytes]) =
      let before := IngestStats.of catalog datagrams
      { packets := before.packets + 1
        bytes := before.bytes + min receiveBufferLen bytes.length
        framesDecoded :=
          before.framesDecoded + (samplesOf catalog bytes).length
        unknownSignals := before.unknownSignals + unknownIn catalog bytes
        decodeErrors :=
          (reasonsOf catalog bytes).foldl .tally before.decodeErrors } := by
  simp only [IngestStats.of, KeyedMap.foldl_tally_tallied, List.flatMap_append,
    List.flatMap_singleton, List.map_append, List.map_singleton,
    List.sum_append, List.sum_singleton, List.length_append,
    List.length_singleton]

/-- Receiving one more datagram adds it to the totals. -/
theorem IngestTask.stats_receive
    {task : IngestTask F}
    {catalog : Catalog F}
    {datagrams : List (List UInt8)}
    (counted : task.stats = .of catalog datagrams)
    (bytes : List UInt8) :
    (task.receive catalog bytes).stats = .of catalog (datagrams ++ [bytes]) := by
  obtain ⟨sameReasons, sameUnknown⟩ := reasonsOf_take catalog bytes
  rw [IngestStats.of_concat, ← counted, ← sameReasons, ← sameUnknown,
    ← samplesOf_take]
  cases decoded : decodePacket (bytes.take receiveBufferLen) catalog with
  | error error =>
      simp only [receive, samplesOf, reasonsOf, unknownIn, decoded,
        List.length_take, List.foldl_cons, List.foldl_nil, List.length_nil,
        Nat.add_zero]
  | ok packet =>
      simp only [receive, samplesOf, reasonsOf, unknownIn, decoded,
        List.length_take, KeyedMap.foldl_tally_map]

section Steps

variable {cel : Cel F} {setup : Setup cel}

/-- The records that the engine task has counted: those passed to the writer,
those on the way to it and the one that is being sent. -/
def System.takenUp (events : List (Event F)) (system : System cel) :
    List (LogRecord F) :=
  passedOn events ++ system.records.items ++ system.engine.pending.take 1

/-- What the totals of the tasks say after some events. -/
structure Counts
    (setup : Setup cel)
    (events : List (Event F))
    (system : System cel) : Prop where
  ingest : system.ingest.stats = .of setup.catalog (received events)
  engine : system.engine.stats =
    .of (sampled events) (setup.reports events) (system.takenUp events)
  output : system.output.stats = .of events

/-- The totals of ingest after one of its steps. -/
theorem IngestTask.Step.stats_eq
    {catalog : Catalog F}
    {stop : Bool}
    {task task' : IngestTask F}
    {samples samples' : Channel (Sample F) sampleQueue}
    {event : Event F}
    {datagrams : List (List UInt8)}
    (stepped : IngestTask.Step catalog stop task samples event task' samples')
    (counted : task.stats = .of catalog datagrams) :
    task'.stats = .of catalog (datagrams ++ event.datagram?.toList) := by
  cases stepped with
  | receive bytes selecting => exact stats_receive counted bytes
  | _ =>
      exact counted.trans
        (congrArg (IngestStats.of catalog) (List.append_nil datagrams).symm)

omit [F64 F] in
/-- Taking up the next record adds it to those counted. -/
theorem EngineTask.takeUp_tallied (counted pending : List (LogRecord F)) :
    takeUp (.tallied (counted.map (·.ruleId))) pending =
      .tallied ((counted ++ pending.take 1).map (·.ruleId)) := by
  cases pending with
  | nil => rw [takeUp, List.take_nil, List.append_nil]
  | cons record rest =>
      rw [takeUp, List.take_succ_cons, List.take_zero, List.map_append,
        List.map_singleton, KeyedMap.tally_tallied]

omit [F64 F] in
/-- Taking over a report adds its errors, its skips and its first record to the
totals. -/
theorem EngineTask.stats_emit
    {task : EngineTask cel}
    {samples : List (Sample F)}
    {reports : List (EvalReport F)}
    {takenUp : List (LogRecord F)}
    (counted : task.stats = .of samples reports takenUp)
    (called : Engine cel × EvalReport F)
    (turn : EngineTurn) :
    (task.emit called turn).stats =
      .of samples (reports ++ [called.2])
        (takenUp ++ called.2.records.take 1) := by
  simp only [emit, counted, EngineStats.of, takeUp_tallied,
    KeyedMap.foldl_tally_map, KeyedMap.foldl_tally_tallied, List.flatMap_append,
    List.flatMap_singleton, List.map_append]

/-- The totals of the engine task after one of its steps, and the records that
the step has put into the channel. -/
theorem EngineTask.Step.stats_eq
    {task task' : EngineTask cel}
    {samples samples' : Channel (Sample F) sampleQueue}
    {records records' : Channel (LogRecord F) recordQueue}
    {event : Event F}
    {given : List (Sample F)}
    {reports : List (EvalReport F)}
    {sent : List (LogRecord F)}
    (stepped : EngineTask.Step task samples records event task' samples' records')
    (present : records.receiverDropped = false)
    (counted : task.stats = .of given reports (sent ++ task.pending.take 1)) :
    ∃ more, records'.items = records.items ++ more ∧
      task'.stats = .of (given ++ event.sample?.toList)
        (reports ++ (Engine.machine cel).outputs task.engine
          (event.input? cel).toList)
        (sent ++ more ++ task'.pending.take 1) := by
  have silent (same : task'.stats = task.stats)
      (nothing : task.pending = [] ∧ task'.pending = []) :
      task'.stats = .of (given ++ (Event.silent : Event F).sample?.toList)
        (reports ++ (Engine.machine cel).outputs task.engine
          ((Event.silent : Event F).input? cel).toList)
        (sent ++ [] ++ task'.pending.take 1) := by
    simp [Event.sample?, Event.input?, same, counted, nothing]
  cases stepped with
  | tick now ready =>
      have nothing : task.pending = [] := by rw [pending, ready]
      rw [nothing, List.take_nil, List.append_nil] at counted
      refine ⟨[], (List.append_nil _).symm, ?_⟩
      rw [stats_emit counted, List.append_nil]
      exact congrArg (EngineStats.of · _ _) (List.append_nil given).symm
  | onSample now ready received =>
      have nothing : task.pending = [] := by rw [pending, ready]
      rw [nothing, List.take_nil, List.append_nil] at counted
      refine ⟨[], (List.append_nil _).symm, ?_⟩
      rw [List.append_nil]
      refine stats_emit ?_ _ .tick
      simp only [countSample, counted, EngineStats.of, Event.sample?,
        Option.toList_some, List.length_append, List.length_singleton]
  | closed ready ended =>
      refine ⟨[], (List.append_nil _).symm, silent rfl ⟨?_, rfl⟩⟩
      rw [pending, ready]
  | wake ready =>
      refine ⟨[], (List.append_nil _).symm, silent rfl ⟨?_, rfl⟩⟩
      rw [pending, ready]
  | @send record rest turn _ sending accepted =>
      obtain ⟨-, items, -⟩ := Channel.send?_eq_ok accepted
      have first : task.pending.take 1 = [record] := by rw [pending, sending]; rfl
      rw [first] at counted
      refine ⟨[record], items, ?_⟩
      simp only [passOn, counted, EngineStats.of, takeUp_tallied, pending,
        Event.sample?, Event.input?, Option.toList_none, List.append_nil,
        Machine.outputs_nil]
  | sendFails sending refused =>
      rw [(Channel.send?_eq_error refused).1] at present
      contradiction

omit [F64 F] in
/-- Passing one more record to the writer adds it to the totals. -/
theorem OutputTask.stats_of_write
    {toVec : LogRecord F → Except String (List UInt8)}
    {task task' : OutputTask}
    {record : LogRecord F}
    {result : Except WriteError (List UInt8)}
    {events : List (Event F)}
    (counted : task.stats = .of events)
    (wrote : task.write toVec record = (result, task')) :
    task'.stats = .of (events ++ [.write record result]) := by
  have total : OutputStats.of (events ++ [.write record result]) =
      { recordsWritten := task.stats.recordsWritten +
          (Event.line? (.write record result)).toList.length
        writeErrors := task.stats.writeErrors +
          [Event.write record result].countP Event.failed } := by
    rw [counted, OutputStats.of, OutputStats.of, written, written,
      filterMap_concat, List.length_append, List.countP_append]
  rw [total]
  unfold write at wrote
  cases serialized : toVec record with
  | error message =>
      simp only [serialized, Prod.mk.injEq] at wrote
      obtain ⟨rfl, rfl⟩ := wrote
      rfl
  | ok line =>
      rcases ended : Output.writeLine line task.output with ⟨error | _, output⟩
      · simp only [serialized, ended, Prod.mk.injEq] at wrote
        obtain ⟨rfl, rfl⟩ := wrote
        rfl
      · simp only [serialized, ended, Prod.mk.injEq] at wrote
        obtain ⟨rfl, rfl⟩ := wrote
        rfl

omit [F64 F] in
/-- A step that does not call the writer leaves its totals as they are. -/
theorem OutputStats.of_concat
    {event : Event F}
    (noRecord : event.record? = none)
    (events : List (Event F)) :
    OutputStats.of (events ++ [event]) = .of events := by
  cases event with
  | write record result => cases noRecord
  | _ => simp [of, written, Event.line?, Event.failed]

omit [F64 F] in
/-- The totals of the output task after one of its steps. -/
theorem OutputTask.Step.stats_eq
    {toVec : LogRecord F → Except String (List UInt8)}
    {task task' : OutputTask}
    {records records' : Channel (LogRecord F) recordQueue}
    {event : Event F}
    {events : List (Event F)}
    (stepped : OutputTask.Step toVec task records event task' records')
    (counted : task.stats = .of events) :
    task'.stats = .of (events ++ [event]) := by
  cases stepped with
  | receive waiting received wrote =>
      have after := stats_of_write counted wrote
      exact after
  | closed waiting ended =>
      rw [OutputStats.of_concat rfl]
      exact counted
  | tryReceive draining received wrote => exact stats_of_write counted wrote
  | flush draining empty =>
      rw [OutputStats.of_concat rfl]
      exact counted

/-- Every step keeps the totals in line with what has been seen. -/
theorem Counts.step
    {events : List (Event F)}
    {system next : System cel}
    {event : Event F}
    (counts : Counts setup events system)
    (closing : system.Closing)
    (flows : Flows setup events system)
    (stepped : Step setup system event next) :
    Counts setup (events ++ [event]) next := by
  have seen : received (events ++ [event]) =
        received events ++ event.datagram?.toList ∧
      sampled (events ++ [event]) = sampled events ++ event.sample?.toList ∧
      passedOn (events ++ [event]) = passedOn events ++ event.record?.toList :=
    ⟨filterMap_concat .., filterMap_concat .., filterMap_concat ..⟩
  have reported := setup.reports_concat events event
  rw [← flows.engine] at reported
  cases stepped with
  | ingest stepped =>
      obtain ⟨noInput, noSample, noRecord⟩ := stepped.quiet cel
      refine ⟨?_, ?_, ?_⟩
      · rw [seen.1]
        exact stepped.stats_eq counts.ingest
      · rw [System.takenUp, seen.2.1, seen.2.2, reported, noInput, noSample,
          noRecord, Option.toList_none, Option.toList_none, Option.toList_none,
          Machine.outputs_nil, List.append_nil, List.append_nil,
          List.append_nil]
        exact counts.engine
      · rw [OutputStats.of_concat noRecord]
        exact counts.output
  | engine stepped =>
      obtain ⟨noDatagram, noRecord⟩ := stepped.quiet
      obtain ⟨running, -⟩ :=
        stepped.ends closing.samplesReceiver closing.recordsSender
      have present := closing.recordsReceiver.trans
        (closing.output_running running)
      obtain ⟨more, items, stats⟩ := stepped.stats_eq present counts.engine
      refine ⟨?_, ?_, ?_⟩
      · rw [seen.1, noDatagram, Option.toList_none, List.append_nil]
        exact counts.ingest
      · rw [System.takenUp, seen.2.1, seen.2.2, reported, noRecord,
          Option.toList_none, List.append_nil]
        simp only [items, ← List.append_assoc]
        exact stats
      · rw [OutputStats.of_concat noRecord]
        exact counts.output
  | output stepped =>
      obtain ⟨noDatagram, noInput, noSample⟩ := stepped.quiet cel
      have kept : Channel.Conserves (passedOn events ++ system.records.items)
          (passedOn events) system.records [] := (List.append_nil _).symm
      have sent := stepped.conserves kept
      unfold Channel.Conserves at sent
      rw [List.append_nil] at sent
      refine ⟨?_, ?_, ?_⟩
      · rw [seen.1, noDatagram, Option.toList_none, List.append_nil]
        exact counts.ingest
      · rw [System.takenUp, seen.2.1, seen.2.2, reported, noInput, noSample,
          Option.toList_none, Option.toList_none, Machine.outputs_nil,
          List.append_nil, List.append_nil, ← sent]
        exact counts.engine
      · exact stepped.stats_eq counts.output
  | _ =>
      refine ⟨?_, ?_, ?_⟩
      · rw [seen.1]
        simpa [Event.datagram?] using counts.ingest
      · rw [System.takenUp, seen.2.1, seen.2.2, reported]
        simpa [Event.sample?, Event.input?, Event.record?, System.takenUp] using
          counts.engine
      · rw [OutputStats.of_concat rfl]
        exact counts.output

/-- The totals of every state reached are those of what has been seen. -/
theorem counts_of_run
    {events : List (Event F)}
    {system : System cel}
    (run : Run (Step setup) setup.initial events system) :
    Counts setup events system := by
  refine run.relation (Counts setup) ⟨rfl, rfl, rfl⟩ ?_
  intro events state event next run counts stepped
  exact counts.step (closing_of_run run) (flows_of_run run) stepped

omit [F64 F] in
/-- A record passed to the writer is either a line or a failure. -/
theorem written_add_failed (events : List (Event F)) :
    (written events).length + events.countP Event.failed =
      (passedOn events).length := by
  induction events with
  | nil => rfl
  | cons event events inductionHypothesis =>
      unfold written passedOn at inductionHypothesis ⊢
      rw [List.filterMap_cons, List.filterMap_cons, List.countP_cons]
      cases event with
      | write record result =>
          cases result <;>
            simp [Event.line?, Event.record?, Event.failed] <;> omega
      | _ => simpa [Event.line?, Event.record?, Event.failed] using
          inductionHypothesis

/-- The parts of all datagrams have been counted. -/
theorem IngestStats.sum_parts
    (catalog : Catalog F)
    (datagrams : List (List UInt8)) :
    let stats := IngestStats.of catalog datagrams
    stats.framesDecoded + stats.unknownSignals + stats.decodeErrors.total =
      (datagrams.map partsOf).sum := by
  intro stats
  simp only [stats, IngestStats.of, KeyedMap.total_tallied]
  induction datagrams with
  | nil => rfl
  | cons datagram datagrams inductionHypothesis =>
      have parts := count_parts catalog datagram
      simp only [List.flatMap_cons, List.length_append, List.map_cons,
        List.sum_cons]
      omega

/-- How the totals of the tasks fit together. -/
structure Accounts
    (setup : Setup cel)
    (events : List (Event F))
    (system : System cel) : Prop where
  /-- The totals are those of what has been seen. -/
  counts : Counts setup events system
  /-- Every frame, rejected datagram and rest of a datagram is counted once,
  whatever the catalog. -/
  parts : system.ingest.stats.framesDecoded +
      system.ingest.stats.unknownSignals +
      system.ingest.stats.decodeErrors.total =
    ((received events).map partsOf).sum
  /-- A decoded frame has been given to the engine or is on its way. -/
  samples : system.ingest.stats.framesDecoded =
    system.engine.stats.samples + system.samples.items.length +
      system.ingest.pending.length
  /-- A record of a report has been counted or is still to be taken up. -/
  reported : ((setup.reports events).flatMap (·.records)).length =
    system.engine.stats.records.total + (system.engine.pending.drop 1).length
  /-- A record that has been counted has been written, could not be written, is
  on its way or is being sent. -/
  records : system.engine.stats.records.total =
    system.output.stats.recordsWritten + system.output.stats.writeErrors +
      system.records.items.length + (system.engine.pending.take 1).length
  /-- After a shutdown nothing is on its way. -/
  returned : system.main = .returned →
    system.ingest.stats.framesDecoded = system.engine.stats.samples ∧
      ((setup.reports events).flatMap (·.records)).length =
        system.output.stats.recordsWritten + system.output.stats.writeErrors

/-- The totals of every state reached, in any order of steps, account for every
part of every datagram, for every sample and for every record. -/
theorem accounts_of_run
    {events : List (Event F)}
    {system : System cel}
    (run : Run (Step setup) setup.initial events system) :
    Accounts setup events system := by
  have closing := closing_of_run run
  have flows := flows_of_run run
  have counts := counts_of_run run
  have samples : system.ingest.stats.framesDecoded =
      system.engine.stats.samples + system.samples.items.length +
        system.ingest.pending.length := by
    have flow := congrArg List.length flows.samples
    rw [List.length_append, List.length_append] at flow
    rw [counts.ingest, counts.engine]
    exact flow
  have counted : system.engine.stats.records.total =
      (passedOn events).length + system.records.items.length +
        (system.engine.pending.take 1).length := by
    rw [counts.engine, EngineStats.of, KeyedMap.total_tallied,
      List.length_map, System.takenUp, List.length_append, List.length_append]
  have reported : ((setup.reports events).flatMap (·.records)).length =
      system.engine.stats.records.total +
        (system.engine.pending.drop 1).length := by
    have flow := congrArg List.length flows.records
    have split := congrArg List.length
      (List.take_append_drop 1 system.engine.pending)
    rw [List.length_append, List.length_append] at flow
    rw [List.length_append] at split
    omega
  have records : system.engine.stats.records.total =
      system.output.stats.recordsWritten + system.output.stats.writeErrors +
        system.records.items.length +
          (system.engine.pending.take 1).length := by
    rw [counted, counts.output, ← written_add_failed events]
    rfl
  refine ⟨counts, ?_, samples, reported, records, fun returned => ?_⟩
  · rw [counts.ingest]
    exact IngestStats.sum_parts setup.catalog (received events)
  · have outputReturned := closing.main returned
    obtain ⟨engineReturned, noRecord⟩ := closing.output outputReturned
    obtain ⟨ingestReturned, noSample⟩ := closing.engine engineReturned
    rw [noSample, IngestTask.pending_of_hasReturned ingestReturned] at samples
    have nothing := EngineTask.pending_of_hasReturned engineReturned
    rw [nothing] at reported records
    rw [noRecord] at records
    exact ⟨samples, reported.trans records⟩

end Steps

/-- One of two datagrams is rejected, and the sample of the other one is
written. -/
theorem doorEvents_accounts :
    ∃ system, Run (Step doorSetup) doorSetup.initial doorEvents system ∧
      system.ingest.stats.packets = 2 ∧
      system.ingest.stats.framesDecoded = system.engine.stats.samples ∧
      system.engine.stats.samples = 1 ∧
      system.output.stats = { recordsWritten := 1, writeErrors := 0 } := by
  obtain ⟨system, run, returned⟩ := doorEvents_run
  have accounts := accounts_of_run run
  refine ⟨system, run, ?_, (accounts.returned returned).1, ?_, ?_⟩
  · rw [accounts.counts.ingest]
    rfl
  · rw [accounts.counts.engine]
    rfl
  · rw [accounts.counts.output]
    rfl

end Telemetryd
end TelemetryEdge
