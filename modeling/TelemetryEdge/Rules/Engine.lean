import TelemetryEdge.Foundation.Machine
import TelemetryEdge.Protocol.Wire
import TelemetryEdge.Rules.Loaded

/-!
# The rule engine

The engine keeps the latest value of every signal and the runtime state of every
active rule.  Its operations take the clock reading of their call as an
argument.
-/

namespace TelemetryEdge
namespace Rules

open Protocol Saturating

/-- One emitted telemetry log line. -/
structure LogRecord (F : Type) where
  tsUs : UInt64
  vin : String
  model : String
  ruleId : String
  rulesetVersion : UInt64
  signal : String
  value : SignalValue F
  unit : Option String
  deriving DecidableEq

/-- What happened during one engine step. -/
@[ext] structure EvalReport (F : Type) where
  records : List (LogRecord F)
  /-- Rules whose condition failed to evaluate. -/
  evalErrors : List (String × EvalError)
  /-- Periodic rules skipped because the latest value was too old. -/
  staleSkips : List String
  deriving DecidableEq

namespace EvalReport

/-- The empty report. -/
instance : Zero (EvalReport F) where
  zero := ⟨[], [], []⟩

/-- Reports are appended list by list. -/
instance : Add (EvalReport F) where
  add left right :=
    ⟨left.records ++ right.records, left.evalErrors ++ right.evalErrors,
      left.staleSkips ++ right.staleSkips⟩

@[simp] theorem zero_records : (0 : EvalReport F).records = [] := rfl

@[simp] theorem zero_evalErrors : (0 : EvalReport F).evalErrors = [] := rfl

@[simp] theorem zero_staleSkips : (0 : EvalReport F).staleSkips = [] := rfl

@[simp] theorem add_records (left right : EvalReport F) :
    (left + right).records = left.records ++ right.records := rfl

@[simp] theorem add_evalErrors (left right : EvalReport F) :
    (left + right).evalErrors = left.evalErrors ++ right.evalErrors := rfl

@[simp] theorem add_staleSkips (left right : EvalReport F) :
    (left + right).staleSkips = left.staleSkips ++ right.staleSkips := rfl

instance : AddMonoid (EvalReport F) where
  add_assoc first second third := by ext1 <;> simp
  zero_add report := by ext1 <;> simp
  add_zero report := by ext1 <;> simp
  nsmul := nsmulRec

/-- The report of one emitted record. -/
def ofRecord (record : LogRecord F) : EvalReport F := ⟨[record], [], []⟩

/-- The report of one failed condition. -/
def ofError (ruleId : String) (error : EvalError) : EvalReport F :=
  ⟨[], [(ruleId, error)], []⟩

/-- The report of one skipped rule. -/
def ofStale (ruleId : String) : EvalReport F := ⟨[], [], [ruleId]⟩

end EvalReport

/-- Latest value of a signal. -/
structure Latest (F : Type) where
  value : SignalValue F
  timestampUs : UInt64
  receivedMs : UInt64

/-- Runtime state of a rule. -/
structure RuleState (F : Type) where
  lastLogged : Option (SignalValue F)
  nextDueMs : Option UInt64

/-- The rule engine. -/
structure Engine (cel : Cel F) where
  vin : String
  model : String
  rules : CompiledRuleSet cel
  latest : KeyedMap String (Latest F)
  state : KeyedMap String (RuleState F)
  /-- Indices of the on-change rules of each signal name. -/
  onChangeBySignal : KeyedMap String (List Nat)

namespace Engine

variable [F64 F] {cel : Cel F}

/-- An engine with the empty rule set. -/
def new (vin model : String) : Engine cel where
  vin := vin
  model := model
  rules := .empty
  latest := ∅
  state := ∅
  onChangeBySignal := ∅

/-! ## Swapping rule sets -/

/-- State of a rule that starts afresh. -/
def freshState (now : UInt64) (rule : CompiledRule cel) : RuleState F where
  lastLogged := none
  nextDueMs :=
    match rule.behaviour with
    | .periodic intervalMs _ => some (saturatingAdd now intervalMs)
    | .onChange _ => none

/-- Whether a rule has the definition it had under its id before. -/
def unchanged
    (oldDefs : KeyedMap String (CompiledRule cel))
    (rule : CompiledRule cel) : Bool :=
  match oldDefs.lookup rule.id with
  | some old => old.definition.eq rule.definition
  | none => false

/-- Give a rule of the new set its state: the old state moves over when the
definition is unchanged. -/
def installRule
    (oldDefs : KeyedMap String (CompiledRule cel))
    (now : UInt64)
    (states : KeyedMap String (RuleState F) × KeyedMap String (RuleState F))
    (rule : CompiledRule cel) :
    KeyedMap String (RuleState F) × KeyedMap String (RuleState F) :=
  let (old, state) := states
  let unchanged := unchanged oldDefs rule
  let kept := if unchanged then old.lookup rule.id else none
  let old := if unchanged then old.erase rule.id else old
  (old, state.insert rule.id (kept.getD (freshState now rule)))

/-- Enter a rule into the index of on-change rules. -/
def indexRule
    (index : KeyedMap String (List Nat))
    (entry : CompiledRule cel × Nat) : KeyedMap String (List Nat) :=
  match entry.1.behaviour with
  | .onChange _ =>
      let signal := entry.1.definition.signal
      index.insert signal ((index.lookup signal).getD [] ++ [entry.2])
  | .periodic _ _ => index

/-- The index of the on-change rules of a rule set. -/
def indexRules (rules : List (CompiledRule cel)) : KeyedMap String (List Nat) :=
  rules.zipIdx.foldl indexRule ∅

/-- Swap in a new rule set. -/
def applyRuleset
    (engine : Engine cel)
    (now : UInt64)
    (new : CompiledRuleSet cel) : Engine cel :=
  let oldDefs := engine.rules.rules.foldl
    (fun defs rule => defs.insert rule.id rule) ∅
  let (_, state) := new.rules.foldl (installRule oldDefs now) (engine.state, ∅)
  { engine with
    rules := new
    state
    onChangeBySignal := indexRules new.rules }

/-! ## Evaluating rules -/

/-- Whether the condition of a rule allows a record, and the report with the
error of its evaluation, if there is one. -/
def conditionPasses
    (rule : CompiledRule cel)
    (latest : KeyedMap String (Latest F))
    (report : EvalReport F) : Bool × EvalReport F :=
  match rule.condition with
  | none => (true, report)
  | some condition =>
      match condition.evaluate fun name => (latest.lookup name).map (·.value) with
      | .ok pass => (pass, report)
      | .error error => (false, report + .ofError rule.id error)

/-- The record of a rule. -/
def record
    (engine : Engine cel)
    (rule : CompiledRule cel)
    (tsUs : UInt64)
    (value : SignalValue F) : LogRecord F where
  tsUs := tsUs
  vin := engine.vin
  model := engine.model
  ruleId := rule.id
  rulesetVersion := engine.rules.version
  signal := rule.definition.signal
  value := value
  unit := rule.unit

/-- Whether a value differs from the last logged one by more than the
deadband. -/
def changed
    (deadband : F)
    (lastLogged : Option (SignalValue F))
    (value : SignalValue F) : Bool :=
  match lastLogged, value with
  | none, _ => true
  | some (.num last), .num new =>
      F64.lt deadband (F64.abs (F64.sub new last))
  | some last, new => !last.eq new

/-- Evaluate an on-change rule for a sample. -/
def sampleRule
    (engine : Engine cel)
    (sample : Sample F)
    (state : KeyedMap String (RuleState F) × EvalReport F)
    (rule : CompiledRule cel) :
    KeyedMap String (RuleState F) × EvalReport F :=
  let (states, report) := state
  match rule.behaviour with
  | .periodic _ _ => (states, report)
  | .onChange deadband =>
      match states.lookup rule.id with
      | none => (states, report)
      | some ruleState =>
          if changed deadband ruleState.lastLogged sample.value then
            let (passes, report) := conditionPasses rule engine.latest report
            if passes then
              (states.insert rule.id
                  { ruleState with lastLogged := some sample.value },
                report + .ofRecord
                  (engine.record rule sample.timestampUs sample.value))
            else (states, report)
          else (states, report)

/-- Record a decoded sample, then evaluate the on-change rules for it. -/
def onSample
    (engine : Engine cel)
    (now : UInt64)
    (sample : Sample F) : Engine cel × EvalReport F :=
  let engine := { engine with
    latest := engine.latest.insert sample.name
      ⟨sample.value, sample.timestampUs, now⟩ }
  match engine.onChangeBySignal.lookup sample.name with
  | none => (engine, 0)
  | some indices =>
      let rules := indices.filterMap fun index => engine.rules.rules[index]?
      let (state, report) :=
        rules.foldl (engine.sampleRule sample) (engine.state, 0)
      ({ engine with state }, report)

/-- Fire a periodic rule if it is due. -/
def tickRule
    (engine : Engine cel)
    (now : UInt64)
    (state : KeyedMap String (RuleState F) × EvalReport F)
    (rule : CompiledRule cel) :
    KeyedMap String (RuleState F) × EvalReport F :=
  let (states, report) := state
  match rule.behaviour with
  | .onChange _ => (states, report)
  | .periodic intervalMs maxAgeMs =>
      match states.lookup rule.id with
      | none => (states, report)
      | some ruleState =>
          match ruleState.nextDueMs.filter (· ≤ now) with
          | none => (states, report)
          | some due =>
              -- A steady cadence; missed slots are skipped, not made up for.
              let next := saturatingAdd due intervalMs
              let ruleState := { ruleState with
                nextDueMs :=
                  some (if now < next then next else saturatingAdd now intervalMs) }
              let states := states.insert rule.id ruleState
              match engine.latest.lookup rule.definition.signal with
              | none => (states, report)
              | some latest =>
                  if maxAgeMs < saturatingSub now latest.receivedMs then
                    (states, report + .ofStale rule.id)
                  else
                    let (passes, report) :=
                      conditionPasses rule engine.latest report
                    if passes then
                      (states.insert rule.id
                          { ruleState with lastLogged := some latest.value },
                        report + .ofRecord (engine.record rule
                          latest.timestampUs latest.value))
                    else (states, report)

/-- Fire every periodic rule that is due. -/
def tick
    (engine : Engine cel)
    (now : UInt64) : Engine cel × EvalReport F :=
  let (state, report) :=
    engine.rules.rules.foldl (engine.tickRule now) (engine.state, 0)
  ({ engine with state }, report)

/-- Earliest clock reading at which a tick has work to do. -/
def nextDeadlineMs (engine : Engine cel) : Option UInt64 :=
  earliest (engine.state.entries.map fun entry => entry.2.nextDueMs)

/-- One call of the engine, with its clock reading. -/
inductive Input (cel : Cel F)
  | onSample (now : UInt64) (sample : Sample F)
  | tick (now : UInt64)
  | applyRuleset (now : UInt64) (set : LoadedRuleSet cel)

/-- The engine as a machine. -/
def machine (cel : Cel F) :
    Machine (Engine cel) (Input cel) (EvalReport F) where
  step engine
    | .onSample now sample => engine.onSample now sample
    | .tick now => engine.tick now
    | .applyRuleset now set => (engine.applyRuleset now set.compiled, 0)

end Engine

end Rules
end TelemetryEdge
