import TelemetryEdge.Telemetryd.Pipeline
import TelemetryEdge.Telemetryd.Rotation
import TelemetryEdge.Telemetryd.TornLines

/-!
# The files after a shutdown

On a disk without faults every record becomes a line, every line is added to the
files, and the sync at the end leaves nothing in the buffer.  So after a
shutdown the files hold the newest lines of the records of all reports.  On any
disk, what the output task does to the files before it returns is a run of calls
of the writer, with the lines of the records in order.
-/

namespace TelemetryEdge
namespace Telemetryd

open Attempt Protocol Rules

namespace OutputTask

/-- The files hold the partition of some lines, with what is buffered for them
as long as the task has not returned. -/
def Logs
    (maxBytes maxFiles : Nat)
    (lines : List (List UInt8))
    (task : OutputTask) : Prop :=
  if task.hasReturned then
    task.output.disk.Stores maxFiles (Partition.of maxBytes lines)
  else task.output.Holds maxBytes maxFiles (Partition.of maxBytes lines)

variable {maxBytes maxFiles : Nat} {lines : List (List UInt8)}
variable {toVec : LogRecord F → Except String (List UInt8)}
variable {task task' : OutputTask}
variable {records records' : Channel (LogRecord F) recordQueue}
variable {event : Event F}

theorem logs_of_running
    (running : task.hasReturned = false)
    (holds : task.output.Holds maxBytes maxFiles
      (Partition.of maxBytes lines)) :
    task.Logs maxBytes maxFiles lines := by
  rw [Logs, running, if_neg Bool.false_ne_true]
  exact holds

theorem Logs.holds
    (logs : task.Logs maxBytes maxFiles lines)
    (running : task.hasReturned = false) :
    task.output.Holds maxBytes maxFiles (Partition.of maxBytes lines) := by
  rwa [Logs, running, if_neg Bool.false_ne_true] at logs

/-- A record that can be serialized becomes a line of the log. -/
theorem write_holds
    {record : LogRecord F}
    {result : Except WriteError (List UInt8)}
    (positive : 0 < maxFiles)
    (serializes : ∀ record, ∃ line, toVec record = .ok line)
    (holds : task.output.Holds maxBytes maxFiles (Partition.of maxBytes lines))
    (wrote : task.write toVec record = (result, task')) :
    ∃ line, result = .ok line ∧ task'.output.Holds maxBytes maxFiles
      (Partition.of maxBytes (lines ++ [line])) := by
  obtain ⟨line, serialized⟩ := serializes record
  obtain ⟨_, output, ended, added⟩ :=
    (Output.writeLine_spec positive _ line).exists_ok holds
  simp only [write, serialized, ended, Prod.mk.injEq] at wrote
  obtain ⟨rfl, rfl⟩ := wrote
  refine ⟨line, rfl, ?_⟩
  rw [Partition.of, List.foldl_append]
  exact added

/-- A flush leaves the lines as they are. -/
theorem flush_holds
    {partition : Partition}
    (holds : task.output.Holds maxBytes maxFiles partition) :
    task.flush.output.Holds maxBytes maxFiles partition := by
  have flushed := Output.flushBuf_spec task.output task.output rfl
  unfold flush Output.flush
  rcases ended : Output.flushBuf task.output with ⟨error | _, output⟩
  · rw [ended] at flushed
    exact absurd holds.quiet.faults flushed.2.1
  · rw [ended] at flushed
    exact holds.flushed flushed.1

/-- After the sync the lines are in the files. -/
theorem close_stores
    {partition : Partition}
    (holds : task.output.Holds maxBytes maxFiles partition) :
    task.close.output.disk.Stores maxFiles partition := by
  have synced := Output.sync_ok task.output task.output rfl
  unfold close
  rcases ended : Output.sync task.output with ⟨error | _, output⟩
  · rw [ended] at synced
    exact absurd holds.quiet.faults synced
  · rw [ended] at synced
    obtain ⟨wrote, drained⟩ := synced
    have after := holds.flushed wrote
    dsimp only
    rw [Output.flushBuf, if_pos drained]
    exact ⟨after.sound, after.quiet,
      (Output.slot_of_drained drained).symm.trans after.slot⟩

/-- An event without a record adds no line. -/
theorem Logs.unwritten
    (logs : task.Logs maxBytes maxFiles lines)
    (noRecord : event.record? = none) :
    (∀ record error, event ≠ .write record (.error error)) ∧
      task.Logs maxBytes maxFiles (lines ++ event.line?.toList) := by
  cases event with
  | write record result => cases noRecord
  | _ =>
      refine ⟨by simp, ?_⟩
      exact (List.append_nil lines).symm ▸ logs

/-- Every step of the output task adds the line of its record to the log. -/
theorem Step.logs
    (positive : 0 < maxFiles)
    (serializes : ∀ record, ∃ line, toVec record = .ok line)
    (stepped : Step toVec task records event task' records')
    (logs : task.Logs maxBytes maxFiles lines) :
    (∀ record error, event ≠ .write record (.error error)) ∧
      task'.Logs maxBytes maxFiles (lines ++ event.line?.toList) := by
  have silent : lines ++ (Event.silent : Event F).line?.toList = lines :=
    List.append_nil lines
  cases stepped with
  | receive waiting received wrote =>
      have running := hasReturned_of_phase waiting (by decide)
      obtain ⟨line, rfl, holds⟩ :=
        write_holds positive serializes (logs.holds running) wrote
      exact ⟨by simp, logs_of_running rfl holds⟩
  | closed waiting ended =>
      have running := hasReturned_of_phase waiting (by decide)
      refine ⟨by simp, ?_⟩
      rw [silent]
      exact close_stores (logs.holds running)
  | tryReceive draining received wrote =>
      have running := hasReturned_of_phase draining (by decide)
      obtain ⟨line, rfl, holds⟩ :=
        write_holds positive serializes (logs.holds running) wrote
      have phase := (phase_of_write wrote).trans draining
      exact ⟨by simp, logs_of_running
        (hasReturned_of_phase phase (by decide)) holds⟩
  | flush draining empty =>
      have running := hasReturned_of_phase draining (by decide)
      refine ⟨by simp, ?_⟩
      rw [silent]
      exact logs_of_running rfl (flush_holds (logs.holds running))

/-- The lines of the records that can be serialized. -/
def serialized
    (toVec : LogRecord F → Except String (List UInt8))
    (records : List (LogRecord F)) : List (List UInt8) :=
  records.filterMap fun record => (toVec record).toOption

/-- A record is one call of the writer if it can be serialized, and none
otherwise. -/
theorem output_of_write
    {record : LogRecord F}
    {result : Except WriteError (List UInt8)}
    (wrote : task.write toVec record = (result, task')) :
    ∃ calls, task'.output = Output.daemon.final task.output calls ∧
      passed calls = serialized toVec [record] := by
  unfold write at wrote
  cases found : toVec record with
  | error message =>
      simp only [found, Prod.mk.injEq] at wrote
      refine ⟨[], ?_, by simp [passed, serialized, found, Except.toOption]⟩
      rw [← wrote.2]
      rfl
  | ok line =>
      refine ⟨[.line line], ?_,
        by simp [passed, Call.line?, serialized, found, Except.toOption]⟩
      rcases ended : Output.writeLine line task.output with ⟨error | _, output⟩
      · simp only [found, ended, Prod.mk.injEq] at wrote
        rw [← wrote.2, Machine.final_cons, Machine.final_nil]
        simp only [Output.daemon, ended]
      · simp only [found, ended, Prod.mk.injEq] at wrote
        rw [← wrote.2, Machine.final_cons, Machine.final_nil]
        simp only [Output.daemon, ended]

/-- Until it returns, the task calls the writer for lines and flushes only. -/
theorem Step.output_eq
    (stepped : Step toVec task records event task' records')
    (running : task'.hasReturned = false) :
    ∃ calls, task'.output = Output.daemon.final task.output calls ∧
      passed calls = serialized toVec event.record?.toList := by
  cases stepped with
  | receive waiting received wrote =>
      obtain ⟨calls, made, lines⟩ := output_of_write wrote
      exact ⟨calls, made, lines⟩
  | closed waiting ended => cases running
  | tryReceive draining received wrote => exact output_of_write wrote
  | flush draining empty => exact ⟨[.flush], rfl, rfl⟩

end OutputTask

section Shutdown

variable [F64 F] {cel : Cel F} {setup : Setup cel}
variable {events : List (Event F)} {system : System cel}
variable {maxBytes maxFiles : Nat}

/-- Every step adds the line of its record to the log. -/
theorem Step.logs
    {next : System cel}
    {event : Event F}
    {lines : List (List UInt8)}
    (positive : 0 < maxFiles)
    (serializes : ∀ record, ∃ line, setup.toVec record = .ok line)
    (stepped : Step setup system event next)
    (logs : system.output.Logs maxBytes maxFiles lines) :
    (∀ record error, event ≠ .write record (.error error)) ∧
      next.output.Logs maxBytes maxFiles (lines ++ event.line?.toList) := by
  cases stepped with
  | ingest stepped => exact logs.unwritten (stepped.quiet cel).2.2
  | engine stepped => exact logs.unwritten stepped.quiet.2
  | output stepped => exact stepped.logs positive serializes logs
  | _ => exact logs.unwritten rfl

/-- On a disk without faults no write fails, and the log holds what has been
written. -/
theorem logs_of_run
    (positive : 0 < maxFiles)
    (serializes : ∀ record, ∃ line, setup.toVec record = .ok line)
    (opened : setup.output.Holds maxBytes maxFiles Partition.empty)
    (run : Run (Step setup) setup.initial events system) :
    (∀ record error, Event.write record (.error error) ∉ events) ∧
      system.output.Logs maxBytes maxFiles (written events) := by
  induction run with
  | start =>
      exact ⟨fun _ _ => List.not_mem_nil, OutputTask.logs_of_running rfl opened⟩
  | extend run stepped inductionHypothesis =>
      obtain ⟨faultless, logs⟩ := inductionHypothesis
      obtain ⟨succeeded, added⟩ := stepped.logs positive serializes logs
      rw [written, filterMap_concat]
      refine ⟨fun record error member => ?_, added⟩
      rcases List.mem_append.mp member with earlier | last
      · exact faultless record error earlier
      · exact succeeded record error (List.mem_singleton.mp last).symm

/-- What one step of the daemon adds to the calls of the writer. -/
theorem Step.output_eq
    {next : System cel}
    {event : Event F}
    (closing : system.Closing)
    (stepped : Step setup system event next)
    (running : next.output.hasReturned = false) :
    system.output.hasReturned = false ∧
      ∃ calls,
        next.output.output =
            Output.daemon.final system.output.output calls ∧
          passed calls =
            OutputTask.serialized setup.toVec event.record?.toList := by
  cases stepped with
  | ingest stepped =>
      refine ⟨running, [], rfl, ?_⟩
      rw [(stepped.quiet cel).2.2]
      rfl
  | engine stepped =>
      refine ⟨running, [], rfl, ?_⟩
      rw [stepped.quiet.2]
      rfl
  | output stepped =>
      exact ⟨(stepped.ends closing.recordsReceiver).1,
        stepped.output_eq running⟩
  | _ => exact ⟨running, [], rfl, rfl⟩

/-- In every state before the output task returns, the files are what the calls
for the records passed to the writer have left, whatever operations fail. -/
theorem output_of_run
    (run : Run (Step setup) setup.initial events system)
    (running : system.output.hasReturned = false) :
    ∃ calls, system.output.output = Output.daemon.final setup.output calls ∧
      passed calls = OutputTask.serialized setup.toVec (passedOn events) := by
  induction run with
  | start => exact ⟨[], rfl, rfl⟩
  | extend run stepped inductionHypothesis =>
      obtain ⟨runningBefore, later, after, more⟩ :=
        stepped.output_eq (closing_of_run run) running
      obtain ⟨earlier, before, lines⟩ := inductionHypothesis runningBefore
      refine ⟨earlier ++ later, ?_, ?_⟩
      · rw [after, before, Machine.final_append]
      · rw [Output.passed_append, lines, more, passedOn, passedOn,
          filterMap_concat]
        exact List.filterMap_append.symm

/-- A shutdown of a daemon that was started in an empty directory: a line for
every record of every report, in order, the newest of them in the files. -/
theorem keepsNewest_of_stuck
    {writer : RotatingWriter}
    {disk : Disk}
    (positive : 0 < maxFiles)
    (opened : RotatingWriter.open maxBytes maxFiles Disk.empty =
      (.ok writer, disk))
    (started : setup.output = { writer, disk })
    (serializes : ∀ record, ∃ line,
      setup.toVec record = .ok line ∧ newline ∉ line)
    (run : Run (Step setup) setup.initial events system)
    (terminal : Stuck (Step setup) system) :
    ∃ lines : List (List UInt8),
      lines.map .ok =
          ((setup.reports events).flatMap (·.records)).map setup.toVec ∧
        KeepsNewest maxBytes maxFiles lines system.output.output.disk := by
  have holds : setup.output.Holds maxBytes maxFiles Partition.empty := by
    have spec := @RotatingWriter.open_spec maxBytes maxFiles positive
      Partition.empty Disk.empty (Disk.empty_continues positive)
    rw [opened] at spec
    rw [started]
    exact spec
  obtain ⟨faultless, logs⟩ := logs_of_run positive
    (fun record => (serializes record).imp fun _ line => line.1) holds run
  obtain ⟨returned, -⟩ := returned_of_stuck (closing_of_run run) terminal
  obtain ⟨-, records⟩ := drained_of_hasReturned run returned
  have lines := map_written_of_run run faultless
  rw [OutputTask.Logs, returned, if_pos rfl] at logs
  refine ⟨written events, records ▸ lines, ?_⟩
  refine logs.keepsNewest positive fun line member => ?_
  have serialized : .ok line ∈ (passedOn events).map setup.toVec := by
    rw [← lines]
    exact List.mem_map_of_mem member
  obtain ⟨record, -, same⟩ := List.mem_map.mp serialized
  obtain ⟨other, found, newlineFree⟩ := serializes record
  rw [found] at same
  obtain rfl := Except.ok.inj same
  exact newlineFree

end Shutdown

end Telemetryd
end TelemetryEdge
