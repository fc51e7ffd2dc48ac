import TelemetryEdge.Foundation.Transition
import TelemetryEdge.Rules.Kinds
import TelemetryEdge.Telemetryd.Tasks

/-!
# The daemon from the socket to the log

The three tasks run in any order, and a signal stops ingest at any time.  Then
the tasks return one after the other: each takes everything that is left in its
channel first.  Two conservation laws, one for each channel, hold in every state
reached and give the samples and the records of a whole run.
-/

namespace TelemetryEdge
namespace Telemetryd

open Protocol Rules

variable [F64 F] {cel : Cel F}

/-- What the daemon is started with. -/
structure Setup (cel : Cel F) where
  catalog : Catalog F
  vin : String
  model : String
  rules : CompiledRuleSet cel
  /-- Clock reading at which the rules are applied. -/
  startedMs : UInt64
  /-- Serialization of a record. -/
  toVec : LogRecord F → Except String (List UInt8)
  output : Output

/-- The engine that the engine task is started with. -/
def Setup.engine (setup : Setup cel) : Engine cel :=
  (Engine.new setup.vin setup.model).applyRuleset setup.startedMs setup.rules

/-- Where the main function is: it waits for ingest or a signal, then for ingest
alone, then for the engine task and for the output task. -/
inductive MainPhase
  | running
  | stopping
  | drainingEngine
  | drainingOutput
  | returned
  deriving DecidableEq

/-- The tasks, the channels between them and what the stop channel holds. -/
structure System (cel : Cel F) where
  ingest : IngestTask F
  samples : Channel (Sample F) sampleQueue
  engine : EngineTask cel
  records : Channel (LogRecord F) recordQueue
  output : OutputTask
  main : MainPhase
  stop : Bool

/-- The tasks right after they have been spawned. -/
def Setup.initial (setup : Setup cel) : System cel where
  ingest := .new
  samples := .empty
  engine := .new setup.engine
  records := .empty
  output := .new setup.output
  main := .running
  stop := false

/-- One step of one task or of the main function. -/
inductive Step (setup : Setup cel) : System cel → Event F → System cel → Prop
  | ingest {system event ingest samples}
      (stepped : IngestTask.Step setup.catalog system.stop
        system.ingest system.samples event ingest samples) :
      Step setup system event { system with ingest, samples }
  | engine {system event samples engine records}
      (stepped : EngineTask.Step
        system.engine system.samples system.records event
        engine samples records) :
      Step setup system event { system with samples, engine, records }
  | output {system event records output}
      (stepped : OutputTask.Step setup.toVec
        system.output system.records event output records) :
      Step setup system event { system with records, output }
  | signal {system}
      (waiting : system.main = .running) :
      Step setup system .silent { system with main := .stopping, stop := true }
  | ingestJoined {system}
      (waiting : system.main = .running ∨ system.main = .stopping)
      (returned : system.ingest.hasReturned = true) :
      Step setup system .silent { system with main := .drainingEngine }
  | engineJoined {system}
      (waiting : system.main = .drainingEngine)
      (returned : system.engine.hasReturned = true) :
      Step setup system .silent { system with main := .drainingOutput }
  | outputJoined {system}
      (waiting : system.main = .drainingOutput)
      (returned : system.output.hasReturned = true) :
      Step setup system .silent { system with main := .returned }

/-- The datagrams that ingest has received. -/
def received (events : List (Event F)) : List (List UInt8) :=
  events.filterMap Event.datagram?

/-- The samples that the engine has been given. -/
def sampled (events : List (Event F)) : List (Sample F) :=
  events.filterMap Event.sample?

/-- The calls of the engine. -/
def inputs (cel : Cel F) (events : List (Event F)) : List (Engine.Input cel) :=
  events.filterMap (Event.input? cel)

/-- The reports of the calls of the engine. -/
def Setup.reports (setup : Setup cel) (events : List (Event F)) :
    List (EvalReport F) :=
  (Engine.machine cel).outputs setup.engine (inputs cel events)

/-- The records that have been passed to the writer. -/
def passedOn (events : List (Event F)) : List (LogRecord F) :=
  events.filterMap Event.record?

/-- The lines that have been written. -/
def written (events : List (Event F)) : List (List UInt8) :=
  events.filterMap Event.line?

/-- The ends of the channels that are in use are those of the tasks that have
not returned, and a task returns after the one before it, with nothing left to
receive. -/
structure System.Closing (system : System cel) : Prop where
  samplesSender : system.samples.senderDropped = system.ingest.hasReturned
  samplesReceiver : system.samples.receiverDropped = system.engine.hasReturned
  recordsSender : system.records.senderDropped = system.engine.hasReturned
  recordsReceiver : system.records.receiverDropped = system.output.hasReturned
  engine : system.engine.hasReturned = true →
    system.ingest.hasReturned = true ∧ system.samples.items = []
  output : system.output.hasReturned = true →
    system.engine.hasReturned = true ∧ system.records.items = []
  main : system.main = .returned → system.output.hasReturned = true

namespace System.Closing

variable {setup : Setup cel} {system next : System cel} {event : Event F}

theorem initial (setup : Setup cel) : setup.initial.Closing where
  samplesSender := rfl
  samplesReceiver := rfl
  recordsSender := rfl
  recordsReceiver := rfl
  engine := by rintro ⟨⟩
  output := by rintro ⟨⟩
  main := by rintro ⟨⟩

omit [F64 F] in
theorem engine_running
    (closing : system.Closing)
    (running : system.ingest.hasReturned = false) :
    system.engine.hasReturned = false :=
  eq_false_of_ne_true fun returned =>
    Bool.false_ne_true (running.symm.trans (closing.engine returned).1)

omit [F64 F] in
theorem output_running
    (closing : system.Closing)
    (running : system.engine.hasReturned = false) :
    system.output.hasReturned = false :=
  eq_false_of_ne_true fun returned =>
    Bool.false_ne_true (running.symm.trans (closing.output returned).1)

theorem step
    (closing : system.Closing)
    (stepped : Step setup system event next) :
    next.Closing := by
  cases stepped with
  | ingest stepped =>
      obtain ⟨running, sender, receiver⟩ := stepped.ends closing.samplesSender
      have engineRunning := closing.engine_running running
      exact
        { closing with
          samplesSender := sender
          samplesReceiver := receiver.trans closing.samplesReceiver
          engine := fun returned =>
            absurd (engineRunning.symm.trans returned) Bool.false_ne_true }
  | engine stepped =>
      obtain ⟨running, receiver, sender, recordsSender, recordsReceiver, last⟩ :=
        stepped.ends closing.samplesReceiver closing.recordsSender
      have outputRunning := closing.output_running running
      exact
        { samplesSender := sender.trans closing.samplesSender
          samplesReceiver := receiver
          recordsSender := recordsSender
          recordsReceiver := recordsReceiver.trans closing.recordsReceiver
          engine := fun returned => by
            obtain ⟨nothing, dropped⟩ := last returned
            rw [sender, closing.samplesSender] at dropped
            exact ⟨dropped, nothing⟩
          output := fun returned =>
            absurd (outputRunning.symm.trans returned) Bool.false_ne_true
          main := closing.main }
  | output stepped =>
      obtain ⟨running, receiver, sender, last⟩ :=
        stepped.ends closing.recordsReceiver
      exact
        { closing with
          recordsSender := sender.trans closing.recordsSender
          recordsReceiver := receiver
          output := fun returned => by
            obtain ⟨nothing, dropped⟩ := last returned
            rw [sender, closing.recordsSender] at dropped
            exact ⟨dropped, nothing⟩
          main := fun returned =>
            absurd (running.symm.trans (closing.main returned))
              Bool.false_ne_true }
  | signal waiting => exact { closing with main := by rintro ⟨⟩ }
  | ingestJoined waiting returned => exact { closing with main := by rintro ⟨⟩ }
  | engineJoined waiting returned => exact { closing with main := by rintro ⟨⟩ }
  | outputJoined waiting returned =>
      exact { closing with main := fun _ => returned }

end System.Closing

/-! ## Conservation -/

/-- What the events of a run say of the state it has reached. -/
structure Flows
    (setup : Setup cel)
    (events : List (Event F))
    (system : System cel) : Prop where
  /-- The engine is the one that the calls lead to. -/
  engine : system.engine.engine =
    (Engine.machine cel).final setup.engine (inputs cel events)
  /-- The samples of the datagrams have been given to the engine or are on
  their way. -/
  samples : system.samples.Conserves
    ((received events).flatMap (samplesOf setup.catalog)) (sampled events)
    system.ingest.pending
  /-- The records of the reports have been passed to the writer or are on their
  way. -/
  records : system.records.Conserves
    ((setup.reports events).flatMap (·.records)) (passedOn events)
    system.engine.pending

/-- What an observer has seen after one more event. -/
theorem filterMap_concat
    (observe : ι → Option ω)
    (events : List ι)
    (event : ι) :
    (events ++ [event]).filterMap observe =
      events.filterMap observe ++ (observe event).toList := by
  rw [List.filterMap_append]
  cases seen : observe event <;> simp [seen]

/-- The reports after one more event. -/
theorem Setup.reports_concat
    (setup : Setup cel)
    (events : List (Event F))
    (event : Event F) :
    setup.reports (events ++ [event]) =
      setup.reports events ++
        (Engine.machine cel).outputs
          ((Engine.machine cel).final setup.engine (inputs cel events))
          (event.input? cel).toList := by
  rw [reports, inputs, filterMap_concat, Machine.outputs_append]
  rfl

namespace Flows

variable {setup : Setup cel} {events : List (Event F)}
variable {system next : System cel} {event : Event F}

theorem initial (setup : Setup cel) : Flows setup [] setup.initial where
  engine := rfl
  samples := .empty
  records := .empty

/-- The laws after one more event, from what its step has done. -/
theorem extend
    (flows : Flows setup events system)
    (engine : next.engine.engine = (Engine.machine cel).final
      system.engine.engine (event.input? cel).toList)
    (samples : next.samples.Conserves
      ((received events).flatMap (samplesOf setup.catalog) ++
        event.datagram?.toList.flatMap (samplesOf setup.catalog))
      (sampled events ++ event.sample?.toList) next.ingest.pending)
    (records : next.records.Conserves
      ((setup.reports events).flatMap (·.records) ++
        ((Engine.machine cel).outputs system.engine.engine
          (event.input? cel).toList).flatMap (·.records))
      (passedOn events ++ event.record?.toList) next.engine.pending) :
    Flows setup (events ++ [event]) next where
  engine := by
    rw [engine, flows.engine, inputs, inputs, filterMap_concat,
      Machine.final_append]
  samples := by
    rw [received, sampled, filterMap_concat, filterMap_concat,
      List.flatMap_append]
    exact samples
  records := by
    rw [setup.reports_concat, passedOn, filterMap_concat, List.flatMap_append,
      ← flows.engine]
    exact records

/-- A step that cannot be seen and moves neither samples nor records. -/
theorem silent
    (flows : Flows setup events system)
    (engine : next.engine = system.engine)
    (samples : next.samples = system.samples)
    (ingest : next.ingest = system.ingest)
    (records : next.records = system.records) :
    Flows setup (events ++ [.silent]) next := by
  refine flows.extend ?_ ?_ ?_
  · rw [engine]
    rfl
  · rw [samples, ingest]
    simpa [Event.datagram?, Event.sample?] using flows.samples
  · rw [records, engine]
    simpa [Event.input?, Event.record?] using flows.records

/-- Every step keeps both conservation laws. -/
theorem step
    (flows : Flows setup events system)
    (closing : system.Closing)
    (stepped : Step setup system event next) :
    Flows setup (events ++ [event]) next := by
  cases stepped with
  | ingest stepped =>
      obtain ⟨noInput, noSample, noRecord⟩ := stepped.quiet cel
      obtain ⟨running, -, -⟩ := stepped.ends closing.samplesSender
      have present := closing.samplesReceiver.trans
        (closing.engine_running running)
      refine flows.extend ?_ ?_ ?_
      · rw [noInput]
        rfl
      · rw [noSample, Option.toList_none, List.append_nil]
        exact stepped.conserves present flows.samples
      · rw [noInput, noRecord, Option.toList_none, Machine.outputs_nil,
          List.flatMap_nil, List.append_nil, Option.toList_none,
          List.append_nil]
        exact flows.records
  | engine stepped =>
      obtain ⟨noDatagram, noRecord⟩ := stepped.quiet
      obtain ⟨running, -⟩ :=
        stepped.ends closing.samplesReceiver closing.recordsSender
      have present := closing.recordsReceiver.trans
        (closing.output_running running)
      refine flows.extend stepped.engine_eq ?_ ?_
      · rw [noDatagram, Option.toList_none, List.flatMap_nil, List.append_nil]
        exact stepped.samples_conserved flows.samples
      · rw [noRecord, Option.toList_none, List.append_nil]
        exact stepped.records_conserved present flows.records
  | output stepped =>
      obtain ⟨noDatagram, noInput, noSample⟩ := stepped.quiet cel
      refine flows.extend ?_ ?_ ?_
      · rw [noInput]
        rfl
      · rw [noDatagram, noSample, Option.toList_none, List.flatMap_nil,
          List.append_nil, Option.toList_none, List.append_nil]
        exact flows.samples
      · rw [noInput, Option.toList_none, Machine.outputs_nil, List.flatMap_nil,
          List.append_nil]
        exact stepped.conserves flows.records
  | _ => exact flows.silent rfl rfl rfl rfl

end Flows

theorem closing_of_run
    {setup : Setup cel}
    {events : List (Event F)}
    {system : System cel}
    (run : Run (Step setup) setup.initial events system) :
    system.Closing :=
  run.invariant (.initial setup) fun _ _ _ closing => closing.step

theorem flows_of_run
    {setup : Setup cel}
    {events : List (Event F)}
    {system : System cel}
    (run : Run (Step setup) setup.initial events system) :
    Flows setup events system :=
  run.relation (Flows setup) (.initial setup) fun _ _ _ _ run flows =>
    flows.step (closing_of_run run)

/-! ## Terminal states -/

section Terminal

variable {setup : Setup cel} {system : System cel}

/-- The tasks wait for each other in a line only, so some step is possible until
all of them have returned. -/
theorem returned_of_stuck
    (closing : system.Closing)
    (stuck : Stuck (Step setup) system) :
    system.output.hasReturned = true ∧ system.main = .returned := by
  -- An output task that waits, waits for the engine task.
  have outputWaits : system.output.hasReturned = false →
      system.records.receive? = none := by
    intro running
    by_contra ready
    obtain ⟨_, _, _, stepped⟩ :=
      OutputTask.exists_step setup.toVec running ready
    exact stuck _ _ (.output stepped)
  have engineReturned : system.engine.hasReturned = true := by
    by_contra running
    have engineRunning := eq_false_of_ne_true running
    obtain ⟨nothing, -⟩ := Channel.receive?_eq_none
      (outputWaits (closing.output_running engineRunning))
    obtain ⟨_, _, _, _, stepped⟩ :=
      EngineTask.exists_step system.samples engineRunning
        fun record waits => by
          have full := Channel.send?_eq_none waits
          have roomy : ¬ recordQueue ≤ 0 := by decide
          rw [nothing] at full
          exact absurd full roomy
    exact stuck _ _ (.engine stepped)
  have outputReturned : system.output.hasReturned = true := by
    by_contra running
    obtain ⟨-, unclosed⟩ := Channel.receive?_eq_none
      (outputWaits (eq_false_of_ne_true running))
    rw [closing.recordsSender, engineReturned] at unclosed
    cases unclosed
  refine ⟨outputReturned, ?_⟩
  obtain ⟨ingestReturned, -⟩ := closing.engine engineReturned
  cases phase : system.main with
  | running => exact absurd (.ingestJoined (.inl phase) ingestReturned) (stuck _ _)
  | stopping => exact absurd (.ingestJoined (.inr phase) ingestReturned) (stuck _ _)
  | drainingEngine => exact absurd (.engineJoined phase engineReturned) (stuck _ _)
  | drainingOutput => exact absurd (.outputJoined phase outputReturned) (stuck _ _)
  | returned => rfl

/-- The terminal states are those where the main function has returned. -/
theorem stuck_iff_returned
    (closing : system.Closing) :
    Stuck (Step setup) system ↔ system.main = .returned := by
  refine ⟨fun stuck => (returned_of_stuck closing stuck).2, ?_⟩
  intro returned event next stepped
  have outputReturned := closing.main returned
  obtain ⟨engineReturned, -⟩ := closing.output outputReturned
  obtain ⟨ingestReturned, -⟩ := closing.engine engineReturned
  cases stepped with
  | ingest stepped =>
      obtain ⟨running, -⟩ := stepped.ends closing.samplesSender
      exact Bool.false_ne_true (running.symm.trans ingestReturned)
  | engine stepped =>
      obtain ⟨running, -⟩ :=
        stepped.ends closing.samplesReceiver closing.recordsSender
      exact Bool.false_ne_true (running.symm.trans engineReturned)
  | output stepped =>
      obtain ⟨running, -⟩ := stepped.ends closing.recordsReceiver
      exact Bool.false_ne_true (running.symm.trans outputReturned)
  | signal waiting => simp [returned] at waiting
  | ingestJoined waiting => simp [returned] at waiting
  | engineJoined waiting => simp [returned] at waiting
  | outputJoined waiting => simp [returned] at waiting

/-- A line that is written is that of its record. -/
theorem Step.toVec_eq
    {next : System cel}
    {record : LogRecord F}
    {line : List UInt8}
    (stepped : Step setup system (.write record (.ok line)) next) :
    setup.toVec record = .ok line := by
  cases stepped with
  | ingest stepped =>
      obtain ⟨-, -, noRecord⟩ := stepped.quiet cel
      cases noRecord
  | engine stepped => cases stepped.quiet.2
  | output stepped => exact stepped.toVec_eq

omit [F64 F] in
/-- Without failed writes there is a line for every record. -/
theorem map_written
    {toVec : LogRecord F → Except String (List UInt8)}
    {events : List (Event F)}
    (faultless : ∀ record error, Event.write record (.error error) ∉ events)
    (serialized : ∀ event ∈ events, ∀ record line,
      event = .write record (.ok line) → toVec record = .ok line) :
    (written events).map .ok = (passedOn events).map toVec := by
  induction events with
  | nil => rfl
  | cons event events inductionHypothesis =>
      rw [List.forall_mem_cons] at serialized
      have rest := inductionHypothesis
        (fun record error member =>
          faultless record error (List.mem_cons_of_mem event member))
        serialized.2
      cases event with
      | write record result =>
          cases result with
          | error error => exact absurd List.mem_cons_self (faultless record error)
          | ok line =>
              have first := serialized.1 record line rfl
              change Except.ok line :: (written events).map .ok =
                toVec record :: (passedOn events).map toVec
              rw [first, rest]
      | _ => exact rest

/-- Once the output task has returned, nothing is left on the way. -/
theorem drained_of_hasReturned
    {events : List (Event F)}
    (run : Run (Step setup) setup.initial events system)
    (outputReturned : system.output.hasReturned = true) :
    sampled events = (received events).flatMap (samplesOf setup.catalog) ∧
      passedOn events = (setup.reports events).flatMap (·.records) := by
  have closing := closing_of_run run
  have flows := flows_of_run run
  obtain ⟨engineReturned, noRecord⟩ := closing.output outputReturned
  obtain ⟨ingestReturned, noSample⟩ := closing.engine engineReturned
  constructor
  · have samples := flows.samples
    rw [IngestTask.pending_of_hasReturned ingestReturned] at samples
    exact samples.drained noSample
  · have records := flows.records
    rw [EngineTask.pending_of_hasReturned engineReturned] at records
    exact records.drained noRecord

/-- A run without failed writes has written a line for every record passed to
the writer. -/
theorem map_written_of_run
    {events : List (Event F)}
    (run : Run (Step setup) setup.initial events system)
    (faultless : ∀ record error, Event.write record (.error error) ∉ events) :
    (written events).map .ok = (passedOn events).map setup.toVec := by
  apply map_written faultless
  refine run.forall_events fun state event next stepped record line same => ?_
  subst same
  exact stepped.toVec_eq

/-- In a terminal state the engine has been given exactly the samples of the
datagrams received, and exactly the records of all reports have been written,
each once and in order. -/
theorem lossless_of_stuck
    {events : List (Event F)}
    (run : Run (Step setup) setup.initial events system)
    (faultless : ∀ record error, Event.write record (.error error) ∉ events)
    (terminal : Stuck (Step setup) system) :
    sampled events = (received events).flatMap (samplesOf setup.catalog) ∧
      (written events).map .ok =
        ((setup.reports events).flatMap (·.records)).map setup.toVec := by
  obtain ⟨returned, -⟩ := returned_of_stuck (closing_of_run run) terminal
  obtain ⟨samples, records⟩ := drained_of_hasReturned run returned
  refine ⟨samples, ?_⟩
  rw [map_written_of_run run faultless, records]

end Terminal

/-- The record of the opened door. -/
def doorRecord : LogRecord Binary64 where
  tsUs := 9
  vin := "VIN"
  model := "R1S"
  ruleId := "door"
  rulesetVersion := 1
  signal := "door_open"
  value := .bool true
  unit := none

/-- Its line. -/
def doorLine : List UInt8 :=
  ("\x7b\"ts_us\":9,\"vin\":\"VIN\",\"model\":\"R1S\"," ++
    "\"rule_id\":\"door\",\"ruleset_version\":1," ++
    "\"signal\":\"door_open\",\"value\":true\x7d").toUTF8.data.toList

/-- A writer opened in an empty directory. -/
def newLog : Output where
  writer :=
    { maxBytes := 10485760
      maxFiles := 5
      file := BufWriter.new 0
      size := 0 }
  disk :=
    { directory := (∅ : KeyedMap String Nat).insert (path 0) 0
      contents := Function.update (fun _ => []) 0 []
      nextInode := 1
      faults := [] }

/-- The daemon with the rule for the door. -/
def doorSetup : Setup identifierCel where
  catalog := doorCatalog.toCatalog
  vin := "VIN"
  model := "R1S"
  rules := doorRules.compiled
  startedMs := 0
  toVec := fun record =>
    if record = doorRecord then .ok doorLine else .error "another record"
  output := newLog

/-- A rejected datagram, and a signal while the sample of the next one is still
in the channel. -/
def doorEvents : List (Event Binary64) :=
  [.datagram [84], .tick 1, .datagram flagsPacket, .silent, .silent, .silent,
    .onSample 5 ⟨1, "door_open", 9, .bool true⟩, .silent, .tick 6,
    .write doorRecord (.ok doorLine), .silent, .silent, .silent,
    .silent, .silent, .silent]

theorem doorEvents_run :
    ∃ system, Run (Step doorSetup) doorSetup.initial doorEvents system ∧
      system.main = .returned := by
  have spawned : Run (Step doorSetup) doorSetup.initial [] doorSetup.initial :=
    .start
  have rejected := spawned.extend (.ingest (.receive [84] rfl))
  have started := rejected.extend (.engine (.tick 1 rfl))
  have decoded := started.extend (.ingest (.receive flagsPacket rfl))
  have sent := decoded.extend (.ingest (.send rfl rfl))
  have signalled := sent.extend (.signal rfl)
  have stopped := signalled.extend (.ingest (.noticeStop rfl rfl))
  have sampled := stopped.extend (.engine (.onSample 5 rfl rfl))
  have emitted := sampled.extend (.engine (.send rfl rfl))
  have ticked := emitted.extend (.engine (.tick 6 rfl))
  have written := ticked.extend (.output (.receive rfl rfl rfl))
  have flushed := written.extend (.output (.flush rfl rfl))
  have engineDone := flushed.extend (.engine (.closed rfl rfl))
  have outputDone := engineDone.extend (.output (.closed rfl rfl))
  have ingestJoined := outputDone.extend (.ingestJoined (.inr rfl) rfl)
  have engineJoined := ingestJoined.extend (.engineJoined rfl rfl)
  have outputJoined := engineJoined.extend (.outputJoined rfl rfl)
  exact ⟨_, outputJoined, rfl⟩

/-- The sample that was in the channel at the signal ends in the log. -/
theorem doorEvents_lossless :
    sampled doorEvents =
        (received doorEvents).flatMap (samplesOf doorSetup.catalog) ∧
      (written doorEvents).map .ok =
        ((doorSetup.reports doorEvents).flatMap (·.records)).map
          doorSetup.toVec ∧
      written doorEvents = [doorLine] := by
  obtain ⟨system, run, returned⟩ := doorEvents_run
  obtain ⟨samples, lines⟩ := lossless_of_stuck run
    (fun record error => by simp [doorEvents])
    ((stuck_iff_returned (closing_of_run run)).mpr returned)
  exact ⟨samples, lines, rfl⟩

end Telemetryd
end TelemetryEdge
