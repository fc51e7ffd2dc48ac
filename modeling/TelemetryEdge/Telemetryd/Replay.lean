import TelemetryEdge.Rules.Untimed
import TelemetryEdge.Telemetryd.Startup

/-!
# Replaying datagrams

The records of an on-change rule are a function of the samples it names, in the
order in which they were received.  Another daemon of the same vehicle with the
same rules, started at another time and scheduled in another way, logs the same
records for them.
-/

namespace TelemetryEdge
namespace Telemetryd

open Protocol Rules

variable [F64 F] {cel : Cel F}

omit [F64 F] in
/-- The records of a rule id in reports are those in the parts of the reports
that carry it. -/
theorem filter_flatMap_records
    (id : String)
    (reports : List (EvalReport F)) :
    (reports.flatMap (·.records)).filter (·.ruleId == id) =
      (reports.filterMap (Engine.carrying id)).flatMap (·.records) := by
  induction reports with
  | nil => rfl
  | cons report reports inductionHypothesis =>
      rw [List.flatMap_cons, List.filter_append, inductionHypothesis,
        List.filterMap_cons, Engine.carrying]
      split
      · next silent =>
          split at silent
          · next empty =>
              simp only [Bool.and_eq_true, List.isEmpty_iff] at empty
              have noRecords : report.records.filter (·.ruleId == id) = [] :=
                empty.1.1
              rw [noRecords, List.nil_append]
          · cases silent
      · next part carried =>
          split at carried
          · cases carried
          · obtain rfl := Option.some.inj carried
            rfl

/-- The records of a rule id that samples lead to, without any clock. -/
def Setup.replay
    (setup : Setup cel)
    (id : String)
    (samples : List (Sample F)) : List (LogRecord F) :=
  (((Engine.machine cel).outputs
    ((Engine.new setup.vin setup.model).applyRuleset 0 setup.rules)
    (samples.map (.onSample 0))).flatMap (·.records)).filter (·.ruleId == id)

/-- More samples lead to more records. -/
theorem Setup.replay_prefix
    (setup : Setup cel)
    (id : String)
    {samples more : List (Sample F)}
    (start : samples <+: more) :
    setup.replay id samples <+: setup.replay id more := by
  obtain ⟨rest, rfl⟩ := start
  rw [replay, replay, List.map_append, Machine.outputs_append,
    List.flatMap_append, List.filter_append]
  exact List.prefix_append _ _

/-- Daemons of one vehicle with the same rules replay alike. -/
theorem Setup.replay_congr
    {setup other : Setup cel}
    (vin : setup.vin = other.vin)
    (model : setup.model = other.model)
    (rules : setup.rules = other.rules) :
    setup.replay = other.replay := by
  funext id samples
  rw [replay, replay, vin, model, rules]

section Runs

variable
  {setup : Setup cel}
  {events : List (Event F)}
  {system : System cel}

/-- Without time, the calls of the engine are the samples that a rule names. -/
theorem filterMap_untimed_inputs
    (id : String)
    (names : List String)
    (events : List (Event F)) :
    (inputs cel events).filterMap (Engine.untimed id names) =
      ((sampled events).filter (·.name ∈ names)).map (.onSample 0) := by
  rw [inputs, sampled, List.filterMap_filterMap, List.filter_filterMap,
    List.map_filterMap]
  apply List.filterMap_congr
  intro event _
  cases event with
  | onSample now sample =>
      by_cases named : sample.name ∈ names <;>
        simp [Event.input?, Event.sample?, Engine.untimed, named]
  | _ => rfl

/-- An engine with an on-change rule, whenever the rules were applied, and the
engine of the replay. -/
theorem Setup.Started.untimed
    (started : setup.Started)
    {rule : CompiledRule cel}
    (active : rule ∈ setup.rules.rules)
    (onChange : rule.IsOnChange) :
    Engine.Untimed rule.id rule.names setup.engine
      ((Engine.new setup.vin setup.model).applyRuleset 0 setup.rules) := by
  have wellFormed := started.loadedRules.wellFormed
  have valid : (Engine.new setup.vin setup.model : Engine cel).Valid :=
    Engine.valid_new setup.vin setup.model
  have found : setup.rules.withId rule.id = some rule :=
    wellFormed.withId_of_mem active
  have view := valid.view_applyRuleset setup.startedMs wellFormed rule.id
  have replayView := valid.view_applyRuleset 0 wellFormed rule.id
  refine ⟨valid.applyRuleset setup.startedMs wellFormed,
    valid.applyRuleset 0 wellFormed, ⟨rfl, rfl, rfl, fun _ _ => rfl⟩, ?_, ?_⟩
  · refine view.trans (Eq.trans ?_ replayView.symm)
    apply Option.map_congr
    intro other foundOther
    obtain rfl := Option.some.inj (found.symm.trans foundOther)
    rw [Engine.installed_of_isOnChange setup.startedMs 0 _ onChange]
  · intro own viewed
    have installs := view.symm.trans viewed
    obtain ⟨other, foundOther, rfl⟩ := Option.map_eq_some_iff.mp installs
    obtain rfl := Option.some.inj (found.symm.trans foundOther)
    exact ⟨onChange, fun name member => member⟩

/-- The records of an on-change rule in all reports are those of the replay of
the samples that the engine has been given and the rule names. -/
theorem filter_reports_eq_replay
    (started : setup.Started)
    {rule : CompiledRule cel}
    (active : rule ∈ setup.rules.rules)
    (onChange : rule.IsOnChange)
    (events : List (Event F)) :
    ((setup.reports events).flatMap (·.records)).filter
        (·.ruleId == rule.id) =
      setup.replay rule.id
        ((sampled events).filter (·.name ∈ rule.names)) := by
  have brings : ∀ input ∈ inputs cel events,
      Engine.BringsOnChange rule.id rule.names input := by
    intro input called
    cases input with
    | applyRuleset now set =>
        exact absurd ⟨now, set, rfl⟩ (noSwap_inputs events _ called)
    | _ => trivial
  have observed := (started.untimed active onChange).observed_eq brings
  rw [filterMap_untimed_inputs] at observed
  rw [Setup.replay, filter_flatMap_records, filter_flatMap_records]
  exact congrArg (List.flatMap (·.records)) observed

end Runs

section Daemons

variable
  {environment otherEnvironment : Environment F}
  {path otherPath : String}
  {setup otherSetup : Setup cel}
  {events otherEvents : List (Event F)}
  {system otherSystem : System cel}

/-- The samples of the datagrams received that a rule names, in order. -/
def Setup.namedSamples
    (setup : Setup cel)
    (rule : CompiledRule cel)
    (events : List (Event F)) : List (Sample F) :=
  ((received events).flatMap (samplesOf setup.catalog)).filter
    (·.name ∈ rule.names)

/-- At any time the records of an on-change rule that have been passed to the
writer are the first ones of the replay. -/
theorem passedOn_prefix_replay
    (started : setup.Started)
    (run : Run (Step setup) setup.initial events system)
    {rule : CompiledRule cel}
    (active : rule ∈ setup.rules.rules)
    (onChange : rule.IsOnChange) :
    (passedOn events).filter (·.ruleId == rule.id) <+:
      setup.replay rule.id (setup.namedSamples rule events) := by
  have flows := flows_of_run run
  have records := flows.records
  have samples := flows.samples
  unfold Channel.Conserves at records samples
  have first : passedOn events <+: (setup.reports events).flatMap (·.records) := by
    rw [records, List.append_assoc]
    exact List.prefix_append _ _
  have given : sampled events <+:
      (received events).flatMap (samplesOf setup.catalog) := by
    rw [samples, List.append_assoc]
    exact List.prefix_append _ _
  refine (first.filter _).trans ?_
  rw [filter_reports_eq_replay started active onChange]
  exact setup.replay_prefix rule.id (given.filter _)

/-- In a terminal state they are all of the replay. -/
theorem passedOn_eq_replay
    (started : setup.Started)
    (run : Run (Step setup) setup.initial events system)
    (terminal : Stuck (Step setup) system)
    {rule : CompiledRule cel}
    (active : rule ∈ setup.rules.rules)
    (onChange : rule.IsOnChange) :
    (passedOn events).filter (·.ruleId == rule.id) =
      setup.replay rule.id (setup.namedSamples rule events) := by
  obtain ⟨returned, -⟩ := returned_of_stuck (closing_of_run run) terminal
  obtain ⟨samples, records⟩ := drained_of_hasReturned run returned
  rw [records, filter_reports_eq_replay started active onChange, samples]
  rfl

/-- Another daemon of the vehicle with the same rules that has received the same
samples of an on-change rule, perhaps after more of them and in any other
schedule, has passed on the same records of the rule, perhaps before more of
them; when both have come to an end on the same samples, exactly the same. -/
theorem replay_of_runs
    (success : start cel environment path = .ok setup)
    (otherSuccess : start cel otherEnvironment otherPath = .ok otherSetup)
    (vin : setup.vin = otherSetup.vin)
    (model : setup.model = otherSetup.model)
    (rules : setup.rules = otherSetup.rules)
    (run : Run (Step setup) setup.initial events system)
    (otherRun : Run (Step otherSetup) otherSetup.initial otherEvents otherSystem)
    (otherTerminal : Stuck (Step otherSetup) otherSystem)
    {rule : CompiledRule cel}
    (active : rule ∈ setup.rules.rules)
    (onChange : rule.IsOnChange)
    (start : setup.namedSamples rule events <+:
      otherSetup.namedSamples rule otherEvents) :
    (passedOn events).filter (·.ruleId == rule.id) <+:
        (passedOn otherEvents).filter (·.ruleId == rule.id) ∧
      (Stuck (Step setup) system →
        setup.namedSamples rule events =
          otherSetup.namedSamples rule otherEvents →
        (passedOn events).filter (·.ruleId == rule.id) =
          (passedOn otherEvents).filter (·.ruleId == rule.id)) := by
  have started := started_of_start success
  have otherActive : rule ∈ otherSetup.rules.rules := rules ▸ active
  have others := passedOn_eq_replay (started_of_start otherSuccess) otherRun
    otherTerminal otherActive onChange
  rw [← Setup.replay_congr vin model rules] at others
  constructor
  · rw [others]
    exact (passedOn_prefix_replay started run active onChange).trans
      (setup.replay_prefix rule.id start)
  · intro terminal same
    rw [others, passedOn_eq_replay started run terminal active onChange, same]

end Daemons

/-- The same daemon, started later. -/
def laterSetup : Setup identifierCel :=
  { doorSetup with startedMs := 70 }

/-- The datagram of the door without a signal, and at other times. -/
def laterEvents : List (Event Binary64) :=
  [.tick 80, .datagram flagsPacket, .silent,
    .onSample 99 ⟨1, "door_open", 9, .bool true⟩, .silent,
    .write doorRecord (.ok doorLine)]

theorem laterEvents_run :
    ∃ system, Run (Step laterSetup) laterSetup.initial laterEvents system := by
  have spawned : Run (Step laterSetup) laterSetup.initial []
    laterSetup.initial := .start
  have ticked := spawned.extend (.engine (.tick 80 rfl))
  have decoded := ticked.extend (.ingest (.receive flagsPacket rfl))
  have sent := decoded.extend (.ingest (.send rfl rfl))
  have sampled := sent.extend (.engine (.onSample 99 rfl rfl))
  have emitted := sampled.extend (.engine (.send rfl rfl))
  have written := emitted.extend (.output (.receive rfl rfl rfl))
  exact ⟨_, written⟩

/-- Both daemons have passed on the record of the door. -/
theorem laterEvents_replay :
    (passedOn laterEvents).filter (·.ruleId == "door") <+:
      (passedOn doorEvents).filter (·.ruleId == "door") := by
  obtain ⟨system, run⟩ := laterEvents_run
  obtain ⟨otherSystem, otherRun, returned⟩ := doorEvents_run
  have started : start identifierCel
      { doorEnvironment with startedMs := 70 } "dev/config.toml" =
        .ok laterSetup := by rfl
  have active : (⟨doorRule, none, none, .onChange F64.zero⟩ :
      CompiledRule identifierCel) ∈ laterSetup.rules.rules := List.mem_cons_self
  refine (replay_of_runs started doorEnvironment_start rfl rfl rfl run otherRun
    ((stuck_iff_returned (closing_of_run otherRun)).mpr returned) active
    ⟨F64.zero, rfl⟩ ?_).1
  exact ⟨[], rfl⟩

end Telemetryd
end TelemetryEdge
