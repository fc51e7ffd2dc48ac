import TelemetryEdge.Foundation.Progress
import TelemetryEdge.Rules.ReportSize
import TelemetryEdge.Telemetryd.Pipeline

/-!
# Draining at a shutdown

Once no datagrams arrive, the steps that the tasks can take are used up: every
step but the wake-ups of a timer lowers a measure of what is still to be done.
No order of the steps ends in a state where the tasks wait for each other, so
every order ends with everything on the way in the log and the main function
returned.
-/

namespace TelemetryEdge
namespace Telemetryd

open Protocol Rules

variable [F64 F] {cel : Cel F}

/-- Nothing has happened but the end of the wait of the engine task. -/
def System.Idles (system next : System cel) : Prop :=
  next = system ∨
    system.engine.phase = .running [] .select ∧
      next = { system with
        engine := { system.engine with phase := .running [] .tick } }

/-- A step that neither receives a datagram nor only ends a wait. -/
structure WorkStep
    (setup : Setup cel)
    (system : System cel)
    (event : Event F)
    (next : System cel) : Prop where
  stepped : Step setup system event next
  noDatagram : event.datagram? = none
  works : ¬ system.Idles next

/-- Steps that the records of one report take: each is sent, received and
flushed. -/
def Setup.reportWeight (setup : Setup cel) : Nat :=
  setup.rules.rules.length * 3

/-- Steps that a sample in the channel takes: a call of the engine and the tick
after it, with their reports. -/
def Setup.sampleWeight (setup : Setup cel) : Nat :=
  (1 + setup.reportWeight) + (1 + setup.reportWeight)

/-- Steps left for the main function. -/
def MainPhase.weight : MainPhase → Nat
  | .running => 4
  | .stopping => 3
  | .drainingEngine => 2
  | .drainingOutput => 1
  | .returned => 0

/-- Steps left for what ingest still has to send. -/
def IngestTask.weight (task : IngestTask F) (sampleWeight : Nat) : Nat :=
  match task.phase with
  | .running pending => 1 + pending.length * (sampleWeight + 1)
  | .returned _ => 0

/-- Steps left for the records that the engine task still has to send. -/
def EngineTask.weight (task : EngineTask cel) (reportWeight : Nat) : Nat :=
  match task.phase with
  | .running pending .tick => 1 + pending.length * 3 + (1 + reportWeight)
  | .running pending .select => 1 + pending.length * 3
  | .returned => 0

/-- Steps left for the output task without further records. -/
def OutputTask.weight (task : OutputTask) : Nat :=
  match task.phase with
  | .draining => 2
  | .waiting => 1
  | .returned => 0

/-- An upper bound on the steps that are left. -/
def System.weight (setup : Setup cel) (system : System cel) : Nat :=
  system.main.weight +
    (system.ingest.weight setup.sampleWeight +
      system.samples.items.length * setup.sampleWeight) +
    (system.engine.weight setup.reportWeight +
      system.records.items.length * 2) +
    system.output.weight

/-- Ingest hands its samples on one by one. -/
theorem IngestTask.Step.weight_lt
    {catalog : Catalog F}
    {stop : Bool}
    {task task' : IngestTask F}
    {samples samples' : Channel (Sample F) sampleQueue}
    {event : Event F}
    (stepped : IngestTask.Step catalog stop task samples event task' samples')
    (noDatagram : event.datagram? = none)
    (sampleWeight : Nat) :
    task' = task ∧ samples' = samples ∨
      task'.weight sampleWeight + samples'.items.length * sampleWeight <
        task.weight sampleWeight + samples.items.length * sampleWeight := by
  cases stepped with
  | receive bytes selecting => cases noDatagram
  | receiveFails selecting =>
      right
      simp [weight, selecting, Channel.dropSender]
  | send sending sent =>
      right
      obtain ⟨-, items, -⟩ := Channel.send?_eq_ok sent
      simp only [weight, sending, items, List.length_append, List.length_cons,
        List.length_nil]
      ring_nf
      omega
  | sendFails sending refused =>
      right
      simp only [weight, sending, Channel.dropSender]
      omega
  | report selecting => exact .inl ⟨rfl, rfl⟩
  | noticeStop selecting stopped =>
      right
      simp [weight, selecting, Channel.dropSender]

omit [F64 F] in
/-- The output task takes a record or ends a batch. -/
theorem OutputTask.Step.weight_lt
    {toVec : LogRecord F → Except String (List UInt8)}
    {task task' : OutputTask}
    {records records' : Channel (LogRecord F) recordQueue}
    {event : Event F}
    (stepped : OutputTask.Step toVec task records event task' records') :
    records'.items.length * 2 + task'.weight <
      records.items.length * 2 + task.weight := by
  cases stepped with
  | receive waiting received wrote =>
      obtain ⟨items, -⟩ := Channel.receive?_eq_some received
      simp only [weight, waiting, items, List.length_cons]
      omega
  | closed waiting ended =>
      simp [weight, waiting, close, Channel.dropReceiver]
  | tryReceive draining received wrote =>
      obtain ⟨items, -⟩ := Channel.receive?_eq_some received
      simp only [weight, draining, (phase_of_write wrote).trans draining, items,
        List.length_cons]
      omega
  | flush draining empty => simp [weight, draining, OutputTask.flush]

/-- The engine task works off records, then ticks, then samples. -/
theorem EngineTask.Step.weight_lt
    {task task' : EngineTask cel}
    {samples samples' : Channel (Sample F) sampleQueue}
    {records records' : Channel (LogRecord F) recordQueue}
    {event : Event F}
    (stepped : EngineTask.Step task samples records event task' samples' records')
    (indexed : task.engine.onChangeBySignal =
      Engine.indexRules task.engine.rules.rules)
    {reportWeight : Nat}
    (bound : reportWeight = task.engine.rules.rules.length * 3) :
    (task.phase = .running [] .select ∧
        task' = { task with phase := .running [] .tick } ∧
        samples' = samples ∧ records' = records) ∨
      samples'.items.length * ((1 + reportWeight) + (1 + reportWeight)) +
          (task'.weight reportWeight + records'.items.length * 2) <
        samples.items.length * ((1 + reportWeight) + (1 + reportWeight)) +
          (task.weight reportWeight + records.items.length * 2) := by
  cases stepped with
  | tick now ready =>
      right
      have size := task.engine.size_tick_le now
      unfold EvalReport.size at size
      simp only [weight, ready, emit, List.length_nil]
      omega
  | @onSample sample _ now ready received =>
      right
      obtain ⟨items, -⟩ := Channel.receive?_eq_some received
      have size := Engine.size_onSample_le indexed now sample
      unfold EvalReport.size at size
      simp only [weight, ready, emit, countSample, items, List.length_nil,
        List.length_cons, Nat.succ_mul]
      omega
  | closed ready ended =>
      right
      simp [weight, ready, Channel.dropReceiver, Channel.dropSender]
  | wake ready => exact .inl ⟨ready, rfl, rfl, rfl⟩
  | @send _ _ turn _ sending sent =>
      right
      obtain ⟨-, items, -⟩ := Channel.send?_eq_ok sent
      cases turn <;>
        simp only [weight, sending, passOn, items, List.length_append,
          List.length_cons, List.length_nil] <;> omega
  | @sendFails _ _ turn sending refused =>
      right
      cases turn <;>
        simp only [weight, sending, passOn, List.length_cons] <;> omega

/-- What a state needs for its measure to be right. -/
structure System.Drainable (setup : Setup cel) (system : System cel) : Prop where
  closing : system.Closing
  /-- Ingest runs until there is a signal. -/
  stopping : system.main = .running ∨ system.stop = true ∨
    system.ingest.hasReturned = true
  rules : system.engine.engine.rules = setup.rules
  indexed : system.engine.engine.onChangeBySignal =
    Engine.indexRules setup.rules.rules

/-- The calls of the engine task leave the rules and their index alone. -/
theorem EngineTask.Step.rules_eq
    {task task' : EngineTask cel}
    {samples samples' : Channel (Sample F) sampleQueue}
    {records records' : Channel (LogRecord F) recordQueue}
    {event : Event F}
    (stepped :
      EngineTask.Step task samples records event task' samples' records') :
    task'.engine.rules = task.engine.rules ∧
      task'.engine.onChangeBySignal = task.engine.onChangeBySignal := by
  cases stepped with
  | @onSample sample _ now ready received =>
      simp only [emit, countSample, Engine.onSample]
      split <;> exact ⟨rfl, rfl⟩
  | _ => exact ⟨rfl, rfl⟩

namespace System.Drainable

variable {setup : Setup cel} {system next : System cel} {event : Event F}

theorem initial (setup : Setup cel) : setup.initial.Drainable setup where
  closing := .initial setup
  stopping := .inl rfl
  rules := rfl
  indexed := rfl

theorem step
    (drainable : system.Drainable setup)
    (stepped : Step setup system event next) :
    next.Drainable setup := by
  refine ⟨drainable.closing.step stepped, ?_, ?_, ?_⟩
  · cases stepped with
    | ingest stepped =>
        obtain ⟨running, -⟩ := stepped.ends drainable.closing.samplesSender
        rcases drainable.stopping with waiting | stopped | returned
        · exact .inl waiting
        · exact .inr (.inl stopped)
        · exact absurd (running.symm.trans returned) Bool.false_ne_true
    | engine stepped => exact drainable.stopping
    | output stepped => exact drainable.stopping
    | signal waiting => exact .inr (.inl rfl)
    | ingestJoined waiting returned => exact .inr (.inr returned)
    | engineJoined waiting returned =>
        rcases drainable.stopping with running | rest
        · exact absurd (waiting.symm.trans running) (by decide)
        · exact .inr rest
    | outputJoined waiting returned =>
        rcases drainable.stopping with running | rest
        · exact absurd (waiting.symm.trans running) (by decide)
        · exact .inr rest
  · cases stepped with
    | engine stepped => exact stepped.rules_eq.1.trans drainable.rules
    | _ => exact drainable.rules
  · cases stepped with
    | engine stepped => exact stepped.rules_eq.2.trans drainable.indexed
    | _ => exact drainable.indexed

/-- Every step of draining lowers the measure. -/
theorem weight_lt
    (drainable : system.Drainable setup)
    (work : WorkStep setup system event next) :
    next.weight setup < system.weight setup := by
  obtain ⟨stepped, noDatagram, works⟩ := work
  cases stepped with
  | ingest stepped =>
      rcases stepped.weight_lt noDatagram setup.sampleWeight with
        ⟨rfl, rfl⟩ | less
      · exact absurd (.inl rfl) works
      · simp only [weight]
        omega
  | engine stepped =>
      have indexed := drainable.indexed
      rw [← drainable.rules] at indexed
      have bound : setup.reportWeight =
          system.engine.engine.rules.rules.length * 3 := by
        rw [drainable.rules, Setup.reportWeight]
      rcases stepped.weight_lt indexed bound with
        ⟨waiting, rfl, rfl, rfl⟩ | less
      · exact absurd (.inr ⟨waiting, rfl⟩) works
      · simp only [weight, Setup.sampleWeight]
        omega
  | output stepped =>
      have less := stepped.weight_lt
      simp only [weight]
      omega
  | signal waiting =>
      simp only [weight, waiting, MainPhase.weight]
      omega
  | ingestJoined waiting returned =>
      rcases waiting with waiting | waiting <;>
        simp only [weight, waiting, MainPhase.weight] <;> omega
  | engineJoined waiting returned =>
      simp only [weight, waiting, MainPhase.weight]
      omega
  | outputJoined waiting returned =>
      simp only [weight, waiting, MainPhase.weight]
      omega

omit [F64 F] in
/-- A step that changes anything but the phase of the engine task works. -/
theorem frame_of_idles (idles : system.Idles next) :
    next.ingest = system.ingest ∧ next.samples = system.samples ∧
      next.records = system.records ∧ next.output = system.output ∧
      next.main = system.main := by
  rcases idles with rfl | ⟨-, rfl⟩ <;> exact ⟨rfl, rfl, rfl, rfl, rfl⟩

omit [F64 F] in
/-- A step that changes the phase of the engine task otherwise works. -/
theorem phase_of_idles (idles : system.Idles next) :
    next.engine.phase = system.engine.phase ∨
      system.engine.phase = .running [] .select ∧
        next.engine.phase = .running [] .tick := by
  rcases idles with rfl | ⟨waiting, rfl⟩
  · exact .inl rfl
  · exact .inr ⟨waiting, rfl⟩

/-- The output task can work when the channel of records has an answer. -/
theorem exists_work_of_output
    (running : system.output.hasReturned = false)
    (ready : system.records.receive? ≠ none) :
    ∃ event next, WorkStep setup system event next := by
  obtain ⟨event, task', records', stepped⟩ :=
    OutputTask.exists_step setup.toVec running ready
  refine ⟨event, _, .output stepped, (stepped.quiet cel).1, fun idles => ?_⟩
  obtain ⟨-, -, sameRecords, sameOutput, -⟩ := frame_of_idles idles
  have less := stepped.weight_lt
  simp only at sameRecords sameOutput
  rw [sameRecords, sameOutput] at less
  exact lt_irrefl _ less

/-- Ingest can work when it has a sample and the channel has room, and after a
signal. -/
theorem exists_work_of_ingest
    (drainable : system.Drainable setup)
    (running : system.ingest.hasReturned = false)
    (empty : system.samples.items = []) :
    ∃ event next, WorkStep setup system event next := by
  have room : ∀ sample, system.samples.send? sample ≠ none := by
    intro sample waits
    have full := Channel.send?_eq_none waits
    rw [empty] at full
    exact absurd full (Nat.not_succ_le_zero _)
  have moves {phase : IngestPhase F} {task : IngestTask F}
      (before : system.ingest.phase = phase)
      (after : task.phase ≠ phase)
      {samples : Channel (Sample F) sampleQueue} :
      ¬ system.Idles { system with ingest := task, samples } := fun idles =>
    after ((congrArg IngestTask.phase (frame_of_idles idles).1).trans before)
  cases phase : system.ingest.phase with
  | returned failed =>
      rw [IngestTask.hasReturned, phase] at running
      contradiction
  | running pending =>
      cases pending with
      | cons sample rest =>
          have shorter : IngestPhase.running rest ≠
              IngestPhase.running (sample :: rest) := by simp
          cases answer : system.samples.send? sample with
          | none => exact absurd answer (room sample)
          | some result =>
              cases result with
              | ok next =>
                  exact ⟨_, _, .ingest (.send phase answer), rfl,
                    moves phase shorter⟩
              | error returned =>
                  obtain ⟨-, rfl⟩ := Channel.send?_eq_error answer
                  exact ⟨_, _, .ingest (.sendFails phase answer), rfl,
                    moves phase (by simp)⟩
      | nil =>
          rcases drainable.stopping with waiting | stopped | returned
          · refine ⟨_, _, .signal waiting, rfl, fun idles => ?_⟩
            have same := (frame_of_idles idles).2.2.2.2
            cases same.trans waiting
          · exact ⟨_, _, .ingest (.noticeStop phase stopped), rfl,
              moves phase (by simp)⟩
          · exact absurd (running.symm.trans returned) Bool.false_ne_true

/-- The engine task can work when the channel of records has room, or it waits
for ingest. -/
theorem exists_work_of_engine
    (drainable : system.Drainable setup)
    (running : system.engine.hasReturned = false)
    (empty : system.records.items = []) :
    ∃ event next, WorkStep setup system event next := by
  have room : ∀ record, system.records.send? record ≠ none := by
    intro record waits
    have full := Channel.send?_eq_none waits
    rw [empty] at full
    exact absurd full (Nat.not_succ_le_zero _)
  cases phase : system.engine.phase with
  | returned =>
      rw [EngineTask.hasReturned, phase] at running
      contradiction
  | running pending turn =>
      cases pending with
      | cons record rest =>
          have moves {records : Channel (LogRecord F) recordQueue} :
              ¬ system.Idles { system with
                engine := system.engine.passOn rest turn, records } := by
            intro idles
            rcases phase_of_idles idles with same | ⟨waiting, -⟩
            · rw [phase] at same
              simp [EngineTask.passOn] at same
            · rw [phase] at waiting
              simp at waiting
          cases answer : system.records.send? record with
          | none => exact absurd answer (room record)
          | some result =>
              cases result with
              | ok next =>
                  exact ⟨_, _, .engine (.send phase answer), rfl, moves⟩
              | error returned =>
                  obtain ⟨-, rfl⟩ := Channel.send?_eq_error answer
                  exact ⟨_, _, .engine (.sendFails phase answer), rfl, moves⟩
      | nil =>
          cases turn with
          | tick =>
              refine ⟨_, _, .engine (.tick 0 phase), rfl, fun idles => ?_⟩
              rcases phase_of_idles idles with same | ⟨waiting, -⟩
              · rw [phase] at same
                simp [EngineTask.emit] at same
              · rw [phase] at waiting
                simp at waiting
          | select =>
              cases answer : system.samples.receive? with
              | none =>
                  obtain ⟨nothing, sender⟩ := Channel.receive?_eq_none answer
                  rw [drainable.closing.samplesSender] at sender
                  exact drainable.exists_work_of_ingest sender nothing
              | some result =>
                  cases result with
                  | none =>
                      refine ⟨_, _, .engine (.closed phase answer), rfl,
                        fun idles => ?_⟩
                      rcases phase_of_idles idles with same | ⟨-, ticks⟩
                      · rw [phase] at same
                        simp at same
                      · simp at ticks
                  | some received =>
                      refine ⟨_, _, .engine (.onSample 0 phase answer), rfl,
                        fun idles => ?_⟩
                      obtain ⟨items, -⟩ := Channel.receive?_eq_some answer
                      have same := congrArg Channel.items
                        (frame_of_idles idles).2.1
                      rw [items] at same
                      simp at same

/-- As long as the main function has not returned, some step of draining is
possible. -/
theorem exists_work
    (drainable : system.Drainable setup)
    (waiting : system.main ≠ .returned) :
    ∃ event next, WorkStep setup system event next := by
  have closing := drainable.closing
  have joins {event : Event F} {next : System cel}
      (stepped : Step setup system event next)
      (noDatagram : event.datagram? = none)
      (moved : next.main ≠ system.main) :
      ∃ event next, WorkStep setup system event next :=
    ⟨event, next, stepped, noDatagram, fun idles =>
      moved (frame_of_idles idles).2.2.2.2⟩
  cases output : system.output.hasReturned with
  | false =>
      cases answer : system.records.receive? with
      | some result =>
          exact exists_work_of_output output (by simp [answer])
      | none =>
          obtain ⟨nothing, sender⟩ := Channel.receive?_eq_none answer
          rw [closing.recordsSender] at sender
          exact drainable.exists_work_of_engine sender nothing
  | true =>
      obtain ⟨engineReturned, -⟩ := closing.output output
      obtain ⟨ingestReturned, -⟩ := closing.engine engineReturned
      cases phase : system.main with
      | running =>
          exact joins (.ingestJoined (.inl phase) ingestReturned) rfl
            (by simp [phase])
      | stopping =>
          exact joins (.ingestJoined (.inr phase) ingestReturned) rfl
            (by simp [phase])
      | drainingEngine =>
          exact joins (.engineJoined phase engineReturned) rfl (by simp [phase])
      | drainingOutput =>
          exact joins (.outputJoined phase output) rfl (by simp [phase])
      | returned => exact absurd phase waiting

end System.Drainable

/-! ## Every order of the steps drains -/

section Draining

variable {setup : Setup cel} {events : List (Event F)} {system : System cel}

theorem drainable_of_run
    (run : Run (Step setup) setup.initial events system) :
    system.Drainable setup :=
  run.invariant (.initial setup) fun _ _ _ drainable => drainable.step

/-- From every state reached, in any order of the steps, draining takes no more
steps than the measure of the state says, and it cannot stop before the main
function has returned, every sample decoded has been given to the engine and
every record reported has been passed to the writer. -/
theorem drains_of_run
    (run : Run (Step setup) setup.initial events system) :
    (∀ more final, Run (WorkStep setup) system more final →
      more.length ≤ system.weight setup ∧
        (Stuck (WorkStep setup) final → final.main = .returned ∧
          sampled (events ++ more) =
            (received events).flatMap (samplesOf setup.catalog) ∧
          passedOn (events ++ more) =
            (setup.reports (events ++ more)).flatMap (·.records))) ∧
      ∃ more final, Run (WorkStep setup) system more final ∧
        Stuck (WorkStep setup) final := by
  have drainable := drainable_of_run run
  have kept : ∀ state event next, System.Drainable setup state →
      WorkStep setup state event next → System.Drainable setup next :=
    fun _ _ _ drainable work => drainable.step work.stepped
  have lowered : ∀ state event next, System.Drainable setup state →
      WorkStep setup state event next →
        next.weight setup < state.weight setup :=
    fun _ _ _ drainable work => drainable.weight_lt work
  refine ⟨fun more final drain => ⟨?_, fun terminal => ?_⟩, ?_⟩
  · have bound := drain.weight_add_length_le kept lowered drainable
    omega
  · have whole := run.append (drain.mono fun _ _ _ work => work.stepped)
    have returned : final.main = .returned := by
      by_contra waiting
      obtain ⟨event, next, work⟩ :=
        (drainable_of_run whole).exists_work waiting
      exact terminal event next work
    have outputReturned := (closing_of_run whole).main returned
    obtain ⟨samples, records⟩ := drained_of_hasReturned whole outputReturned
    have silent : more.filterMap Event.datagram? = [] := by
      rw [List.filterMap_eq_nil_iff]
      exact drain.forall_events fun _ _ _ work => work.noDatagram
    rw [received, List.filterMap_append, silent, List.append_nil] at samples
    exact ⟨returned, samples, records⟩
  · exact Run.start.exists_stuck kept lowered drainable

end Draining

/-- Events that leave a record and a sample behind: the record of the first
datagram is being sent, and the second datagram has just been decoded. -/
def inFlightEvents : List (Event Binary64) :=
  [.datagram flagsPacket, .tick 1, .silent,
    .onSample 5 ⟨1, "door_open", 9, .bool true⟩, .datagram flagsPacket]

/-- Both samples and the record are drained. -/
theorem doorSetup_drains :
    ∃ system, Run (Step doorSetup) doorSetup.initial inFlightEvents system ∧
      system.ingest.pending.length = 1 ∧
      system.engine.pending = [doorRecord] ∧
      ∃ more final, Run (WorkStep doorSetup) system more final ∧
        more.length ≤ system.weight doorSetup ∧
        final.main = .returned ∧
        (sampled (inFlightEvents ++ more)).length = 2 ∧
        passedOn (inFlightEvents ++ more) =
          (doorSetup.reports (inFlightEvents ++ more)).flatMap (·.records) := by
  have spawned : Run (Step doorSetup) doorSetup.initial [] doorSetup.initial :=
    .start
  have decoded := spawned.extend (.ingest (.receive flagsPacket rfl))
  have ticked := decoded.extend (.engine (.tick 1 rfl))
  have sent := ticked.extend (.ingest (.send rfl rfl))
  have given := sent.extend (.engine (.onSample 5 rfl rfl))
  have again := given.extend (.ingest (.receive flagsPacket rfl))
  obtain ⟨every, more, final, drain, terminal⟩ := drains_of_run again
  obtain ⟨bounded, complete⟩ := every more final drain
  obtain ⟨returned, samples, records⟩ := complete terminal
  refine ⟨_, again, rfl, rfl, more, final, drain, bounded, returned, ?_, records⟩
  exact (congrArg List.length samples).trans rfl

end Telemetryd
end TelemetryEdge
