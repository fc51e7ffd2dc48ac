import TelemetryEdge.Foundation.Channel
import TelemetryEdge.Protocol.PacketDecode
import TelemetryEdge.Telemetryd.EngineTask
import TelemetryEdge.Telemetryd.Output

/-!
# The three tasks of the daemon

Ingest decodes datagrams and sends their samples, the engine task reads samples
and sends records, and the output task writes records.  A task sees of the
others only the channels it shares with them.  Each task is a relation between
its state before and after one step: which ready branch is taken, and when, is
left open.
-/

namespace TelemetryEdge
namespace Telemetryd

open Protocol Rules

/-- Why a record could not be written. -/
inductive WriteError
  | serialize (message : String)
  | io (error : IoError)
  deriving DecidableEq

/-- What can be seen of a step from outside. -/
inductive Event (F : Type)
  | datagram (bytes : List UInt8)
  | onSample (now : UInt64) (sample : Sample F)
  | tick (now : UInt64)
  /-- A record was passed to the writer, as the line given if it succeeded. -/
  | write (record : LogRecord F) (result : Except WriteError (List UInt8))
  | silent

namespace Event

/-- The datagram that was received. -/
def datagram? : Event F → Option (List UInt8)
  | .datagram bytes => some bytes
  | _ => none

/-- The sample that the engine was given. -/
def sample? : Event F → Option (Sample F)
  | .onSample _ sample => some sample
  | _ => none

/-- The call of the engine. -/
def input? [F64 F] (cel : Cel F) : Event F → Option (Engine.Input cel)
  | .onSample now sample => some (.onSample now sample)
  | .tick now => some (.tick now)
  | _ => none

/-- The record that was passed to the writer. -/
def record? : Event F → Option (LogRecord F)
  | .write record _ => some record
  | _ => none

/-- The line that was written. -/
def line? : Event F → Option (List UInt8)
  | .write _ (.ok line) => some line
  | _ => none

end Event

/-! ## Ingest -/

/-- Length of the queue of samples. -/
def sampleQueue : Nat := 4096

/-- Length of the queue of records. -/
def recordQueue : Nat := 4096

/-- Running totals of ingest. -/
structure IngestStats where
  packets : Nat
  bytes : Nat
  framesDecoded : Nat
  unknownSignals : Nat
  decodeErrors : KeyedMap String Nat

/-- Where the ingest task is: in its loop with samples of the last datagram
still to be sent, or back, after an error of the socket or not. -/
inductive IngestPhase (F : Type)
  | running (pending : List (Sample F))
  | returned (failed : Bool)

/-- The state of the ingest task. -/
structure IngestTask (F : Type) where
  phase : IngestPhase F
  stats : IngestStats

/-- Length of the buffer for a datagram.  The socket cuts off what is longer. -/
def receiveBufferLen : Nat := maxDatagramLen * 2

/-- The samples of a datagram; a rejected one has none. -/
def samplesOf [F64 F] (catalog : Catalog F) (datagram : List UInt8) :
    List (Sample F) :=
  match decodePacket datagram catalog with
  | .ok packet => packet.samples
  | .error _ => []

namespace IngestTask

/-- Ingest before its first datagram. -/
def new : IngestTask F where
  phase := .running []
  stats :=
    { packets := 0
      bytes := 0
      framesDecoded := 0
      unknownSignals := 0
      decodeErrors := ∅ }

/-- Samples still to be sent. -/
def pending (task : IngestTask F) : List (Sample F) :=
  match task.phase with
  | .running pending => pending
  | .returned _ => []

/-- Whether ingest has returned. -/
def hasReturned (task : IngestTask F) : Bool :=
  match task.phase with
  | .running _ => false
  | .returned _ => true

theorem pending_of_hasReturned
    {task : IngestTask F}
    (returned : task.hasReturned = true) :
    task.pending = [] := by
  unfold hasReturned at returned
  unfold pending
  cases phase : task.phase with
  | running pending =>
      rw [phase] at returned
      contradiction
  | returned failed => rfl

/-- Decode what has been received and start to send its samples. -/
def receive [F64 F]
    (task : IngestTask F)
    (catalog : Catalog F)
    (bytes : List UInt8) : IngestTask F :=
  let datagram := bytes.take receiveBufferLen
  let stats := { task.stats with
    packets := task.stats.packets + 1
    bytes := task.stats.bytes + datagram.length }
  match decodePacket datagram catalog with
  | .error error =>
      { task with
        stats := { stats with
          decodeErrors := stats.decodeErrors.tally error.reason } }
  | .ok packet =>
      { phase := .running packet.samples
        stats := { stats with
          unknownSignals := stats.unknownSignals + packet.unknownSignals
          framesDecoded := stats.framesDecoded + packet.samples.length
          decodeErrors := packet.errors.foldl
            (fun counts error => counts.tally error.kind.reason)
            stats.decodeErrors } }

/-- One step of ingest.  `stop` is what the stop channel holds. -/
inductive Step [F64 F] (catalog : Catalog F) (stop : Bool) :
    IngestTask F → Channel (Sample F) sampleQueue → Event F →
      IngestTask F → Channel (Sample F) sampleQueue → Prop
  | receive {task samples}
      (bytes : List UInt8)
      (selecting : task.phase = .running []) :
      Step catalog stop task samples (.datagram bytes)
        (task.receive catalog bytes) samples
  | receiveFails {task samples}
      (selecting : task.phase = .running []) :
      Step catalog stop task samples .silent
        { task with phase := .returned true } samples.dropSender
  | send {task samples sample rest next}
      (sending : task.phase = .running (sample :: rest))
      (sent : samples.send? sample = some (.ok next)) :
      Step catalog stop task samples .silent
        { task with phase := .running rest } next
  -- The engine is gone, and the remaining samples of the datagram with it.
  | sendFails {task samples sample rest}
      (sending : task.phase = .running (sample :: rest))
      (refused : samples.send? sample = some (.error sample)) :
      Step catalog stop task samples .silent
        { task with phase := .returned false } samples.dropSender
  | report {task samples}
      (selecting : task.phase = .running []) :
      Step catalog stop task samples .silent task samples
  | noticeStop {task samples}
      (selecting : task.phase = .running [])
      (stopped : stop = true) :
      Step catalog stop task samples .silent
        { task with phase := .returned false } samples.dropSender

section Steps

variable [F64 F] {catalog : Catalog F} {stop : Bool}
variable {task task' : IngestTask F}
variable {samples samples' : Channel (Sample F) sampleQueue}
variable {event : Event F}

omit [F64 F] in
theorem hasReturned_of_running
    {pending : List (Sample F)}
    (running : task.phase = .running pending) :
    task.hasReturned = false := by
  rw [hasReturned, running]

/-- A datagram that is cut off is rejected with and without its end. -/
theorem samplesOf_take (catalog : Catalog F) (bytes : List UInt8) :
    samplesOf catalog (bytes.take receiveBufferLen) =
      samplesOf catalog bytes := by
  by_cases fits : bytes.length ≤ receiveBufferLen
  · rw [List.take_of_length_le fits]
  have rejected (datagram : List UInt8)
      (long : receiveBufferLen ≤ datagram.length) :
      samplesOf catalog datagram = [] := by
    have oversize : maxDatagramLen < datagram.length :=
      lt_of_lt_of_le (by decide) long
    have error := (decodePacket_eq_error_iff datagram catalog _).mpr
      (if_pos oversize)
    rw [samplesOf, error]
  have long := Nat.le_of_not_le fits
  rw [rejected bytes long, rejected]
  rw [List.length_take, Nat.min_eq_left long]

/-- The samples of a datagram are the ones to be sent next. -/
theorem phase_receive
    (catalog : Catalog F)
    (bytes : List UInt8)
    (selecting : task.phase = .running []) :
    (task.receive catalog bytes).phase =
      .running (samplesOf catalog bytes) := by
  rw [← samplesOf_take]
  unfold samplesOf
  cases decoded : decodePacket (bytes.take receiveBufferLen) catalog with
  | error error => simp only [receive, decoded, selecting]
  | ok packet => simp only [receive, decoded]

/-- No sample is lost as long as there is a receiver. -/
theorem Step.conserves
    {produced consumed : List (Sample F)}
    (stepped : Step catalog stop task samples event task' samples')
    (present : samples.receiverDropped = false)
    (conserves : samples.Conserves produced consumed task.pending) :
    samples'.Conserves
      (produced ++ event.datagram?.toList.flatMap (samplesOf catalog))
      consumed task'.pending := by
  have silent : produced ++ (Event.silent : Event F).datagram?.toList.flatMap
      (samplesOf catalog) = produced := List.append_nil produced
  cases stepped with
  | receive bytes selecting =>
      have arrived : (Event.datagram bytes : Event F).datagram?.toList.flatMap
          (samplesOf catalog) = samplesOf catalog bytes :=
        List.flatMap_singleton _ bytes
      rw [pending, selecting] at conserves
      rw [arrived, pending, phase_receive catalog bytes selecting]
      exact conserves.produce (samplesOf catalog bytes)
  | receiveFails selecting =>
      rw [pending, selecting] at conserves
      rw [silent]
      exact conserves
  | send sending sent =>
      rw [pending, sending] at conserves
      rw [silent]
      exact conserves.send sent
  | sendFails sending refused =>
      rw [(Channel.send?_eq_error refused).1] at present
      contradiction
  | report selecting =>
      rw [silent]
      exact conserves
  | noticeStop selecting stopped =>
      rw [pending, selecting] at conserves
      rw [silent]
      exact conserves

/-- A task that has returned takes no step, and it drops its sender when it
returns. -/
theorem Step.ends
    (stepped : Step catalog stop task samples event task' samples')
    (ends : samples.senderDropped = task.hasReturned) :
    task.hasReturned = false ∧
      samples'.senderDropped = task'.hasReturned ∧
      samples'.receiverDropped = samples.receiverDropped := by
  cases stepped with
  | receive bytes selecting =>
      have before := hasReturned_of_running selecting
      have after := hasReturned_of_running
        (phase_receive catalog bytes selecting)
      exact ⟨before, by rw [ends, before, after], rfl⟩
  | receiveFails selecting =>
      exact ⟨hasReturned_of_running selecting, rfl, rfl⟩
  | send sending sent =>
      have before := hasReturned_of_running sending
      obtain ⟨-, -, sender, receiver⟩ := Channel.send?_eq_ok sent
      exact ⟨before, by rw [sender, ends, before]; rfl, receiver⟩
  | sendFails sending refused =>
      exact ⟨hasReturned_of_running sending, rfl, rfl⟩
  | report selecting =>
      exact ⟨hasReturned_of_running selecting, ends, rfl⟩
  | noticeStop selecting stopped =>
      exact ⟨hasReturned_of_running selecting, rfl, rfl⟩

/-- Ingest calls neither the engine nor the writer. -/
theorem Step.quiet
    (cel : Cel F)
    (stepped : Step catalog stop task samples event task' samples') :
    event.input? cel = none ∧ event.sample? = none ∧ event.record? = none := by
  cases stepped <;> exact ⟨rfl, rfl, rfl⟩

/-- Ingest waits for room in the channel only. -/
theorem exists_step
    (catalog : Catalog F)
    (stop : Bool)
    (running : task.hasReturned = false)
    (room : ∀ sample, samples.send? sample ≠ none) :
    ∃ event task' samples',
      Step catalog stop task samples event task' samples' := by
  cases phase : task.phase with
  | returned failed =>
      rw [hasReturned, phase] at running
      contradiction
  | running pending =>
      cases pending with
      | nil => exact ⟨_, _, _, .report phase⟩
      | cons sample rest =>
          cases answer : samples.send? sample with
          | none => exact absurd answer (room sample)
          | some result =>
              cases result with
              | ok next => exact ⟨_, _, _, .send phase answer⟩
              | error returned =>
                  obtain ⟨-, rfl⟩ := Channel.send?_eq_error answer
                  exact ⟨_, _, _, .sendFails phase answer⟩

end Steps

end IngestTask

/-! ## The engine task -/

/-- Running totals of the engine task. -/
structure EngineStats where
  samples : Nat
  records : KeyedMap String Nat
  evalErrors : KeyedMap String Nat
  staleSkips : KeyedMap String Nat

/-- What the engine task does once it has sent the records of a report. -/
inductive EngineTurn
  | tick
  | select

/-- Where the engine task is: in its loop with records of the last report still
to be sent, or back. -/
inductive EnginePhase (F : Type)
  | running (pending : List (LogRecord F)) (turn : EngineTurn)
  | returned

/-- The state of the engine task. -/
structure EngineTask (cel : Cel F) where
  phase : EnginePhase F
  engine : Engine cel
  stats : EngineStats

namespace EngineTask

variable {cel : Cel F}

/-- The engine task before its first tick. -/
def new (engine : Engine cel) : EngineTask cel where
  phase := .running [] .tick
  engine := engine
  stats :=
    { samples := 0
      records := ∅
      evalErrors := ∅
      staleSkips := ∅ }

/-- Records still to be sent. -/
def pending (task : EngineTask cel) : List (LogRecord F) :=
  match task.phase with
  | .running pending _ => pending
  | .returned => []

/-- Whether the engine task has returned. -/
def hasReturned (task : EngineTask cel) : Bool :=
  match task.phase with
  | .running _ _ => false
  | .returned => true

theorem pending_of_hasReturned
    {task : EngineTask cel}
    (returned : task.hasReturned = true) :
    task.pending = [] := by
  unfold hasReturned at returned
  unfold pending
  cases phase : task.phase with
  | running pending turn =>
      rw [phase] at returned
      contradiction
  | returned => rfl

/-- Count the record that is sent next, if there is one.  A record is counted
before it waits for room in the channel. -/
def takeUp
    (counts : KeyedMap String Nat)
    (pending : List (LogRecord F)) : KeyedMap String Nat :=
  match pending with
  | [] => counts
  | record :: _ => counts.tally record.ruleId

/-- Take over what a call of the engine has returned and start to send its
records. -/
def emit
    (task : EngineTask cel)
    (called : Engine cel × EvalReport F)
    (turn : EngineTurn) : EngineTask cel where
  phase := .running called.2.records turn
  engine := called.1
  stats :=
    { task.stats with
      evalErrors := called.2.evalErrors.foldl
        (fun counts error => counts.tally error.1) task.stats.evalErrors
      staleSkips := called.2.staleSkips.foldl .tally task.stats.staleSkips
      records := takeUp task.stats.records called.2.records }

/-- Go on with the records after one that has been sent or dropped. -/
def passOn
    (task : EngineTask cel)
    (rest : List (LogRecord F))
    (turn : EngineTurn) : EngineTask cel :=
  { task with
    phase := .running rest turn
    stats.records := takeUp task.stats.records rest }

/-- Count a sample that has been received. -/
def countSample (task : EngineTask cel) : EngineTask cel :=
  { task with
    stats.samples := task.stats.samples + 1 }

/-- One step of the engine task. -/
inductive Step [F64 F] :
    EngineTask cel → Channel (Sample F) sampleQueue →
      Channel (LogRecord F) recordQueue → Event F →
      EngineTask cel → Channel (Sample F) sampleQueue →
      Channel (LogRecord F) recordQueue → Prop
  | tick {task samples records}
      (now : UInt64)
      (ready : task.phase = .running [] .tick) :
      Step task samples records (.tick now)
        (task.emit (task.engine.tick now) .select) samples records
  | onSample {task samples records sample next}
      (now : UInt64)
      (ready : task.phase = .running [] .select)
      (received : samples.receive? = some (some (sample, next))) :
      Step task samples records (.onSample now sample)
        (task.countSample.emit (task.engine.onSample now sample) .tick)
        next records
  | closed {task samples records}
      (ready : task.phase = .running [] .select)
      (ended : samples.receive? = some none) :
      Step task samples records .silent
        { task with phase := .returned }
        samples.dropReceiver records.dropSender
  -- The sleep or the interval of the statistics is over.
  | wake {task samples records}
      (ready : task.phase = .running [] .select) :
      Step task samples records .silent
        { task with phase := .running [] .tick } samples records
  | send {task samples records record rest turn next}
      (sending : task.phase = .running (record :: rest) turn)
      (sent : records.send? record = some (.ok next)) :
      Step task samples records .silent
        (task.passOn rest turn) samples next
  -- The output task is gone: the record is dropped.
  | sendFails {task samples records record rest turn}
      (sending : task.phase = .running (record :: rest) turn)
      (refused : records.send? record = some (.error record)) :
      Step task samples records .silent
        (task.passOn rest turn) samples records

section Steps

variable [F64 F]
variable {task task' : EngineTask cel}
variable {samples samples' : Channel (Sample F) sampleQueue}
variable {records records' : Channel (LogRecord F) recordQueue}
variable {event : Event F}

omit [F64 F] in
theorem hasReturned_of_running
    {pending : List (LogRecord F)}
    {turn : EngineTurn}
    (running : task.phase = .running pending turn) :
    task.hasReturned = false := by
  rw [hasReturned, running]

/-- The engine changes by the calls that can be seen. -/
theorem Step.engine_eq
    (stepped : Step task samples records event task' samples' records') :
    task'.engine =
      (Engine.machine cel).final task.engine (event.input? cel).toList := by
  cases stepped <;> rfl

/-- A sample leaves the channel exactly when the engine is given it. -/
theorem Step.samples_conserved
    {produced consumed pending : List (Sample F)}
    (stepped : Step task samples records event task' samples' records')
    (conserves : samples.Conserves produced consumed pending) :
    samples'.Conserves produced (consumed ++ event.sample?.toList) pending := by
  cases stepped with
  | onSample now ready received => exact conserves.receive received
  | _ =>
      refine Channel.Conserves.of_items_eq ?_ rfl
      exact (List.append_nil consumed).symm ▸ conserves

/-- The records of a report are all sent, as long as there is a receiver. -/
theorem Step.records_conserved
    {produced consumed : List (LogRecord F)}
    (stepped : Step task samples records event task' samples' records')
    (present : records.receiverDropped = false)
    (conserves : records.Conserves produced consumed task.pending) :
    records'.Conserves
      (produced ++
        ((Engine.machine cel).outputs task.engine
          (event.input? cel).toList).flatMap (·.records))
      consumed task'.pending := by
  have silent : produced ++
      ((Engine.machine cel).outputs task.engine
        ((Event.silent : Event F).input? cel).toList).flatMap (·.records) =
      produced := List.append_nil produced
  have called (input : Engine.Input cel) :
      ((Engine.machine cel).outputs task.engine [input]).flatMap (·.records) =
        ((Engine.machine cel).step task.engine input).2.records :=
    List.flatMap_singleton _ _
  cases stepped with
  | tick now ready =>
      rw [pending, ready] at conserves
      exact (called (.tick now)).symm ▸ conserves.produce _
  | onSample now ready received =>
      rw [pending, ready] at conserves
      exact (called (.onSample now _)).symm ▸ conserves.produce _
  | closed ready ended =>
      rw [pending, ready] at conserves
      rw [silent]
      exact conserves
  | wake ready =>
      rw [pending, ready] at conserves
      rw [silent]
      exact conserves
  | send sending sent =>
      rw [pending, sending] at conserves
      rw [silent]
      exact conserves.send sent
  | sendFails sending refused =>
      rw [(Channel.send?_eq_error refused).1] at present
      contradiction

/-- A task that has returned takes no step.  It returns when no sample is left
and none will come, and drops its ends of both channels. -/
theorem Step.ends
    (stepped : Step task samples records event task' samples' records')
    (receiver : samples.receiverDropped = task.hasReturned)
    (sender : records.senderDropped = task.hasReturned) :
    task.hasReturned = false ∧
      samples'.receiverDropped = task'.hasReturned ∧
      samples'.senderDropped = samples.senderDropped ∧
      records'.senderDropped = task'.hasReturned ∧
      records'.receiverDropped = records.receiverDropped ∧
      (task'.hasReturned = true →
        samples'.items = [] ∧ samples'.senderDropped = true) := by
  cases stepped with
  | tick now ready =>
      have before := hasReturned_of_running ready
      rw [before] at receiver sender
      exact ⟨before, receiver, rfl, sender, rfl, by rintro ⟨⟩⟩
  | onSample now ready received =>
      have before := hasReturned_of_running ready
      rw [before] at receiver sender
      obtain ⟨-, sameSender, sameReceiver⟩ := Channel.receive?_eq_some received
      exact ⟨before, sameReceiver.trans receiver, sameSender, sender, rfl,
        by rintro ⟨⟩⟩
  | closed ready ended =>
      have before := hasReturned_of_running ready
      obtain ⟨empty, last⟩ := Channel.receive?_eq_closed ended
      exact ⟨before, rfl, rfl, rfl, rfl, fun _ => ⟨empty, last⟩⟩
  | wake ready =>
      have before := hasReturned_of_running ready
      rw [before] at receiver sender
      exact ⟨before, receiver, rfl, sender, rfl, by rintro ⟨⟩⟩
  | send sending sent =>
      have before := hasReturned_of_running sending
      rw [before] at receiver sender
      obtain ⟨-, -, sameSender, sameReceiver⟩ := Channel.send?_eq_ok sent
      exact ⟨before, receiver, rfl, sameSender.trans sender, sameReceiver,
        by rintro ⟨⟩⟩
  | sendFails sending refused =>
      have before := hasReturned_of_running sending
      rw [before] at receiver sender
      exact ⟨before, receiver, rfl, sender, rfl, by rintro ⟨⟩⟩

/-- The engine task neither receives datagrams nor calls the writer. -/
theorem Step.quiet
    (stepped : Step task samples records event task' samples' records') :
    event.datagram? = none ∧ event.record? = none := by
  cases stepped <;> exact ⟨rfl, rfl⟩

/-- The engine task waits for room in the channel of records only. -/
theorem exists_step
    (samples : Channel (Sample F) sampleQueue)
    (running : task.hasReturned = false)
    (room : ∀ record, records.send? record ≠ none) :
    ∃ event task' samples' records',
      Step task samples records event task' samples' records' := by
  cases phase : task.phase with
  | returned =>
      rw [hasReturned, phase] at running
      contradiction
  | running pending turn =>
      cases pending with
      | nil =>
          cases turn with
          | tick => exact ⟨_, _, _, _, .tick 0 phase⟩
          | select => exact ⟨_, _, _, _, .wake phase⟩
      | cons record rest =>
          cases answer : records.send? record with
          | none => exact absurd answer (room record)
          | some result =>
              cases result with
              | ok next => exact ⟨_, _, _, _, .send phase answer⟩
              | error returned =>
                  obtain ⟨-, rfl⟩ := Channel.send?_eq_error answer
                  exact ⟨_, _, _, _, .sendFails phase answer⟩

end Steps

end EngineTask

/-! ## The output task -/

/-- Totals of the output task. -/
structure OutputStats where
  recordsWritten : Nat
  writeErrors : Nat

/-- Where the output task is: waiting for the first record of a batch, draining
what else is queued, or back. -/
inductive OutputPhase
  | waiting
  | draining
  | returned
  deriving DecidableEq

/-- The state of the output task. -/
structure OutputTask where
  phase : OutputPhase
  output : Output
  stats : OutputStats

namespace OutputTask

/-- The output task before its first record. -/
def new (output : Output) : OutputTask where
  phase := .waiting
  output := output
  stats :=
    { recordsWritten := 0
      writeErrors := 0 }

/-- Whether the output task has returned. -/
def hasReturned (task : OutputTask) : Bool :=
  task.phase == .returned

/-- Write one record as a line.  `toVec` serializes it. -/
def write
    (task : OutputTask)
    (toVec : LogRecord F → Except String (List UInt8))
    (record : LogRecord F) :
    Except WriteError (List UInt8) × OutputTask :=
  let failed (error : WriteError) (output : Output) :=
    (.error error,
      { task with
        output
        stats.writeErrors := task.stats.writeErrors + 1 })
  match toVec record with
  | .error message => failed (.serialize message) task.output
  | .ok line =>
      match Output.writeLine line task.output with
      | (.error error, output) => failed (.io error) output
      | (.ok _, output) =>
          (.ok line,
            { task with
              output
              stats.recordsWritten := task.stats.recordsWritten + 1 })

/-- Flush after a batch; an error is only reported. -/
def flush (task : OutputTask) : OutputTask :=
  { task with
    phase := .waiting
    output := (Output.flush task.output).2 }

/-- Sync and drop the writer, which writes out what is still buffered. -/
def close (task : OutputTask) : OutputTask :=
  { task with
    phase := .returned
    output := (Output.flushBuf (Output.sync task.output).2).2 }

/-- One step of the output task. -/
inductive Step (toVec : LogRecord F → Except String (List UInt8)) :
    OutputTask → Channel (LogRecord F) recordQueue → Event F →
      OutputTask → Channel (LogRecord F) recordQueue → Prop
  | receive {task records record next result written}
      (waiting : task.phase = .waiting)
      (received : records.receive? = some (some (record, next)))
      (wrote : task.write toVec record = (result, written)) :
      Step toVec task records (.write record result)
        { written with phase := .draining } next
  | closed {task records}
      (waiting : task.phase = .waiting)
      (ended : records.receive? = some none) :
      Step toVec task records .silent task.close records.dropReceiver
  | tryReceive {task records record next result written}
      (draining : task.phase = .draining)
      (received : records.receive? = some (some (record, next)))
      (wrote : task.write toVec record = (result, written)) :
      Step toVec task records (.write record result) written next
  | flush {task records}
      (draining : task.phase = .draining)
      (empty : records.items = []) :
      Step toVec task records .silent task.flush records

section Steps

variable {toVec : LogRecord F → Except String (List UInt8)}
variable {task task' : OutputTask}
variable {records records' : Channel (LogRecord F) recordQueue}
variable {event : Event F}

theorem hasReturned_of_phase
    {phase : OutputPhase}
    (reached : task.phase = phase)
    (running : phase ≠ .returned) :
    task.hasReturned = false := by
  rw [hasReturned, reached]
  exact beq_false_of_ne running

/-- Writing a record leaves the task where it is. -/
theorem phase_of_write
    {record : LogRecord F}
    {result : Except WriteError (List UInt8)}
    (wrote : task.write toVec record = (result, task')) :
    task'.phase = task.phase := by
  unfold write at wrote
  cases serialized : toVec record with
  | error message =>
      simp only [serialized, Prod.mk.injEq] at wrote
      rw [← wrote.2]
  | ok line =>
      rcases ended : Output.writeLine line task.output with ⟨error | _, output⟩
      · simp only [serialized, ended, Prod.mk.injEq] at wrote
        rw [← wrote.2]
      · simp only [serialized, ended, Prod.mk.injEq] at wrote
        rw [← wrote.2]

/-- A line that has been written is that of the record. -/
theorem toVec_of_write
    {record : LogRecord F}
    {line : List UInt8}
    (wrote : task.write toVec record = (.ok line, task')) :
    toVec record = .ok line := by
  unfold write at wrote
  cases serialized : toVec record with
  | error message => simp [serialized] at wrote
  | ok written =>
      rcases ended : Output.writeLine written task.output with
        ⟨error | _, output⟩
      · simp [serialized, ended] at wrote
      · simp only [serialized, ended, Prod.mk.injEq, Except.ok.injEq] at wrote
        rw [wrote.1]

/-- A record leaves the channel exactly when it is passed to the writer. -/
theorem Step.conserves
    {produced consumed pending : List (LogRecord F)}
    (stepped : Step toVec task records event task' records')
    (conserves : records.Conserves produced consumed pending) :
    records'.Conserves produced (consumed ++ event.record?.toList) pending := by
  cases stepped with
  | receive waiting received wrote => exact conserves.receive received
  | tryReceive draining received wrote => exact conserves.receive received
  | _ =>
      refine Channel.Conserves.of_items_eq ?_ rfl
      exact (List.append_nil consumed).symm ▸ conserves

/-- A task that has returned takes no step.  It returns when no record is left
and none will come. -/
theorem Step.ends
    (stepped : Step toVec task records event task' records')
    (receiver : records.receiverDropped = task.hasReturned) :
    task.hasReturned = false ∧
      records'.receiverDropped = task'.hasReturned ∧
      records'.senderDropped = records.senderDropped ∧
      (task'.hasReturned = true →
        records'.items = [] ∧ records'.senderDropped = true) := by
  cases stepped with
  | receive waiting received wrote =>
      have before := hasReturned_of_phase waiting (by decide)
      rw [before] at receiver
      obtain ⟨-, sameSender, sameReceiver⟩ := Channel.receive?_eq_some received
      exact ⟨before, sameReceiver.trans receiver, sameSender, by rintro ⟨⟩⟩
  | closed waiting ended =>
      have before := hasReturned_of_phase waiting (by decide)
      obtain ⟨empty, last⟩ := Channel.receive?_eq_closed ended
      exact ⟨before, rfl, rfl, fun _ => ⟨empty, last⟩⟩
  | tryReceive draining received wrote =>
      have before := hasReturned_of_phase draining (by decide)
      have after := hasReturned_of_phase ((phase_of_write wrote).trans draining)
        (by decide)
      rw [before] at receiver
      obtain ⟨-, sameSender, sameReceiver⟩ := Channel.receive?_eq_some received
      refine ⟨before, ?_, sameSender, ?_⟩
      · rw [sameReceiver, receiver, after]
      · rw [after]
        rintro ⟨⟩
  | flush draining empty =>
      have before := hasReturned_of_phase draining (by decide)
      rw [before] at receiver
      exact ⟨before, receiver, rfl, by rintro ⟨⟩⟩

/-- The output task neither receives datagrams nor calls the engine. -/
theorem Step.quiet
    [F64 F]
    (cel : Cel F)
    (stepped : Step toVec task records event task' records') :
    event.datagram? = none ∧ event.input? cel = none ∧
      event.sample? = none := by
  cases stepped <;> exact ⟨rfl, rfl, rfl⟩

/-- A line that is written is that of its record. -/
theorem Step.toVec_eq
    {record : LogRecord F}
    {line : List UInt8}
    (stepped : Step toVec task records (.write record (.ok line)) task'
      records') :
    toVec record = .ok line := by
  cases stepped with
  | receive waiting received wrote =>
      exact toVec_of_write wrote
  | tryReceive draining received wrote =>
      exact toVec_of_write wrote

/-- The output task waits for a record or the close of the channel only. -/
theorem exists_step
    (toVec : LogRecord F → Except String (List UInt8))
    (running : task.hasReturned = false)
    (ready : records.receive? ≠ none) :
    ∃ event task' records', Step toVec task records event task' records' := by
  cases phase : task.phase with
  | returned =>
      rw [hasReturned, phase] at running
      contradiction
  | waiting =>
      cases answer : records.receive? with
      | none => exact absurd answer ready
      | some result =>
          cases result with
          | none => exact ⟨_, _, _, .closed phase answer⟩
          | some received => exact ⟨_, _, _, .receive phase answer rfl⟩
  | draining =>
      cases answer : records.receive? with
      | none => exact absurd answer ready
      | some result =>
          cases result with
          | none =>
              obtain ⟨empty, -⟩ := Channel.receive?_eq_closed answer
              exact ⟨_, _, _, .flush phase empty⟩
          | some received => exact ⟨_, _, _, .tryReceive phase answer rfl⟩

end Steps

end OutputTask

end Telemetryd
end TelemetryEdge
