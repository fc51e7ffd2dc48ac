import TelemetryEdge.Rules.Kinds
import TelemetryEdge.Rules.Provenance
import TelemetryEdge.Telemetryd.Pipeline
import TelemetryEdge.Telemetryd.Rotation

/-!
# Starting the daemon

The configuration, the catalog and the rule set are read and checked before the
tasks are spawned.  What the checks establish is all that the tasks rely on
later, so it holds in every state that a started daemon reaches.
-/

namespace TelemetryEdge
namespace Telemetryd

open Protocol Rules

/-- The section `[output]` of a configuration document. -/
structure OutputDocument where
  logDir : String
  maxFileBytes : Option UInt64
  maxFiles : Option UInt32

/-- A configuration document. -/
structure ConfigDocument where
  vin : String
  model : String
  catalogPath : String
  rulesFile : Option String
  udpBind : String
  output : OutputDocument

/-- The section on the output of a configuration, with its defaults. -/
structure OutputConfig where
  logDir : String
  maxFileBytes : UInt64
  maxFiles : UInt32

/-- Daemon configuration. -/
structure Config where
  vin : String
  model : String
  catalogPath : String
  rulesFile : Option String
  udpBind : String
  output : OutputConfig

/-- The default size limit of a file, 10 MiB. -/
def defaultMaxFileBytes : UInt64 := 10 * 1024 * 1024

/-- The default number of files. -/
def defaultMaxFiles : UInt32 := 5

/-- A condition that has to hold, with the message for when it does not. -/
def ensure (holds : Prop) [Decidable holds] (otherwise : ε) : Except ε Unit :=
  if holds then .ok () else .error otherwise

namespace Config

/-- The configuration of a document, with the defaults for what it leaves
out. -/
def ofDocument (document : ConfigDocument) : Config where
  vin := document.vin
  model := document.model
  catalogPath := document.catalogPath
  rulesFile := document.rulesFile
  udpBind := document.udpBind
  output :=
    { logDir := document.output.logDir
      maxFileBytes := document.output.maxFileBytes.getD defaultMaxFileBytes
      maxFiles := document.output.maxFiles.getD defaultMaxFiles }

/-- Parse a configuration and check its values.  `fromToml` reads the
document. -/
def parse
    (fromToml : String → Except String ConfigDocument)
    (text : String) : Except String Config := do
  let config := ofDocument (← fromToml text)
  ensure (Text.isBlank config.vin = false) "vin must not be empty"
  ensure (Text.isBlank config.model = false) "model must not be empty"
  ensure (1024 ≤ config.output.maxFileBytes)
    "output.max_file_bytes must be at least 1024"
  ensure (1 ≤ config.output.maxFiles) "output.max_files must be at least 1"
  return config

/-- What the checks of a configuration establish. -/
structure Valid (config : Config) : Prop where
  vin : Text.isBlank config.vin = false
  model : Text.isBlank config.model = false
  maxFileBytes : 1024 ≤ config.output.maxFileBytes
  maxFiles : 1 ≤ config.output.maxFiles

end Config

/-- Why the daemon does not start. -/
inductive StartError
  | readingConfig (path error : String)
  | invalidConfig (path reason : String)
  | readingCatalog (path error : String)
  | parsingCatalog (path error : String)
  | loadingCatalog (path : String) (error : CatalogError)
  | modelMismatch (config catalog : String)
  | readingRules (path error : String)
  | parsingRules (path error : String)
  | invalidRules (path : String) (errors : List ValidationError)
  | openingOutput (dir : String) (error : IoError)
  | bindingUdp (address error : String)
  deriving DecidableEq

/-- What a start reads from outside, and what it is given by libraries. -/
structure Environment (F : Type) where
  readToString : String → Except String String
  fromToml : String → Except String ConfigDocument
  catalogFromJson : String → Except String (CatalogSpec F)
  rulesFromJson : String → Except String (RuleSet F)
  /-- Outcome of the compiler thread. -/
  thread : Except String Unit
  bindUdp : String → Except String Unit
  /-- Clock reading at which the rules are applied. -/
  startedMs : UInt64
  toVec : LogRecord F → Except String (List UInt8)
  disk : Disk

section Start

variable [F64 F]

/-- Read the configuration file. -/
def Config.load
    (environment : Environment F)
    (path : String) : Except StartError Config := do
  let text ← (environment.readToString path).mapError
    (.readingConfig path)
  (parse environment.fromToml text).mapError (.invalidConfig path)

/-- Read the catalog, which has to be for the model of the configuration. -/
def loadCatalog
    (environment : Environment F)
    (config : Config) : Except StartError (Catalog F) := do
  let path := config.catalogPath
  let json ← (environment.readToString path).mapError (.readingCatalog path)
  let spec ← (environment.catalogFromJson json).mapError (.parsingCatalog path)
  let catalog ← (Catalog.new spec).mapError (.loadingCatalog path)
  ensure (catalog.model = config.model)
    (.modelMismatch config.model catalog.model)
  return catalog

/-- Read and compile the rule set; without a file there are no rules. -/
def loadRules
    (cel : Cel F)
    (environment : Environment F)
    (config : Config)
    (catalog : Catalog F) : Except StartError (CompiledRuleSet cel) :=
  match config.rulesFile with
  | none => .ok .empty
  | some path => do
      let json ← (environment.readToString path).mapError (.readingRules path)
      let rules ← (environment.rulesFromJson json).mapError (.parsingRules path)
      (compileRuleset cel environment.thread rules catalog config.model
        none).mapError (.invalidRules path)

/-- Everything that happens before the tasks are spawned. -/
def start
    (cel : Cel F)
    (environment : Environment F)
    (path : String) : Except StartError (Setup cel) := do
  let config ← Config.load environment path
  let catalog ← loadCatalog environment config
  let rules ← loadRules cel environment config catalog
  let opened := RotatingWriter.open config.output.maxFileBytes.toNat
    config.output.maxFiles.toNat environment.disk
  let writer ← opened.1.mapError (.openingOutput config.output.logDir)
  (environment.bindUdp config.udpBind).mapError (.bindingUdp config.udpBind)
  return {
    catalog
    vin := config.vin
    model := config.model
    rules
    startedMs := environment.startedMs
    toVec := environment.toVec
    output := { writer, disk := opened.2 } }

end Start

/-! ## What a start establishes -/

theorem bind_eq_ok_iff
    {attempt : Except ε α}
    {next : α → Except ε β}
    {result : β} :
    (attempt >>= next) = .ok result ↔
      ∃ value, attempt = .ok value ∧ next value = .ok result := by
  cases attempt with
  | error error => simp [bind, Except.bind]
  | ok value => simp [bind, Except.bind]

theorem mapError_eq_ok_iff
    {attempt : Except ε α}
    {context : ε → ε'}
    {result : α} :
    attempt.mapError context = .ok result ↔ attempt = .ok result := by
  cases attempt <;> simp [Except.mapError]

theorem ensure_eq_ok_iff
    {holds : Prop}
    [Decidable holds]
    {otherwise : ε}
    {result : Unit} :
    ensure holds otherwise = .ok result ↔ holds := by
  unfold ensure
  split <;> simp [*]

/-- A configuration is accepted exactly when its values are valid. -/
theorem Config.parse_eq_ok_iff
    (fromToml : String → Except String ConfigDocument)
    (text : String)
    (config : Config) :
    parse fromToml text = .ok config ↔
      ∃ document, fromToml text = .ok document ∧
        config = ofDocument document ∧ config.Valid := by
  simp only [parse, bind_eq_ok_iff, ensure_eq_ok_iff]
  constructor
  · rintro ⟨document, found, _, vin, _, model, _, bytes, _, files, returned⟩
    obtain rfl := Except.ok.inj returned
    exact ⟨document, found, rfl, vin, model, bytes, files⟩
  · rintro ⟨document, found, rfl, valid⟩
    exact ⟨document, found, (), valid.vin, (), valid.model, (),
      valid.maxFileBytes, (), valid.maxFiles, rfl⟩

/-- The defaults pass the checks. -/
theorem Config.valid_ofDocument_iff
    {document : ConfigDocument}
    (defaultBytes : document.output.maxFileBytes = none)
    (defaultFiles : document.output.maxFiles = none) :
    (ofDocument document).Valid ↔
      Text.isBlank document.vin = false ∧
        Text.isBlank document.model = false := by
  constructor
  · exact fun valid => ⟨valid.vin, valid.model⟩
  · rintro ⟨vin, model⟩
    have bytes : 1024 ≤ defaultMaxFileBytes := by decide
    have files : 1 ≤ defaultMaxFiles := by decide
    refine ⟨vin, model, ?_, ?_⟩
    · rw [ofDocument, defaultBytes]
      exact bytes
    · rw [ofDocument, defaultFiles]
      exact files

section Started

variable [F64 F] {cel : Cel F}

/-- The empty rule set is what an empty document compiles to. -/
theorem compileRuleset_nil
    (catalog : Catalog F)
    (vehicleModel : String) :
    compileRuleset cel (.ok ()) ⟨0, anyModel, []⟩ catalog vehicleModel none =
      .ok .empty := by
  simp [compileRuleset, compileRules, headerProblems, CompiledRuleSet.empty]

/-- What a start establishes. -/
structure Setup.Started (setup : Setup cel) : Prop where
  vin : Text.isBlank setup.vin = false
  model : Text.isBlank setup.model = false
  /-- The catalog has been validated. -/
  catalog : ∃ spec, Catalog.new spec = .ok setup.catalog
  /-- It is the catalog of the model of the vehicle. -/
  sameModel : setup.catalog.model = setup.model
  /-- The rule set has been compiled against it. -/
  rules : ∃ thread rules,
    compileRuleset cel thread rules setup.catalog setup.model none =
      .ok setup.rules
  /-- The writer has been opened with limits that leave room for a file. -/
  output : ∃ maxBytes maxFiles disk, 1024 ≤ maxBytes ∧ 1 ≤ maxFiles ∧
    RotatingWriter.open maxBytes maxFiles disk =
      (.ok setup.output.writer, setup.output.disk)

theorem started_of_start
    {environment : Environment F}
    {path : String}
    {setup : Setup cel}
    (success : start cel environment path = .ok setup) :
    setup.Started := by
  simp only [start, Config.load, loadCatalog, bind_eq_ok_iff,
    mapError_eq_ok_iff, ensure_eq_ok_iff] at success
  obtain ⟨config, ⟨text, -, parsed⟩, catalog,
    ⟨_, -, spec, -, _, accepted, _, sameModel, kept⟩, rules, loaded, writer,
    opened, _, -, returned⟩ := success
  obtain rfl := Except.ok.inj returned
  obtain rfl := Except.ok.inj kept
  obtain ⟨document, -, -, valid⟩ :=
    (Config.parse_eq_ok_iff ..).mp parsed
  refine ⟨valid.vin, valid.model, ⟨spec, accepted⟩, sameModel, ?_, ?_⟩
  · unfold loadRules at loaded
    cases file : config.rulesFile with
    | none =>
        simp only [file, Except.ok.injEq] at loaded
        subst loaded
        exact ⟨_, _, compileRuleset_nil _ config.model⟩
    | some path =>
        simp only [file, bind_eq_ok_iff, mapError_eq_ok_iff] at loaded
        obtain ⟨_, -, rules, -, compiled⟩ := loaded
        exact ⟨_, rules, compiled⟩
  · refine ⟨_, _, environment.disk, UInt64.le_iff_toNat_le.mp
      valid.maxFileBytes, UInt32.le_iff_toNat_le.mp valid.maxFiles, ?_⟩
    exact Prod.ext opened rfl

namespace Setup.Started

variable {setup : Setup cel}

/-- The catalog of a started daemon. -/
def acceptedCatalog (started : setup.Started) : AcceptedCatalog F where
  toCatalog := setup.catalog
  accepted := started.catalog

/-- The rule set of a started daemon. -/
def loadedRules (started : setup.Started) : LoadedRuleSet cel where
  compiled := setup.rules
  loaded := by
    obtain ⟨thread, rules, success⟩ := started.rules
    exact ⟨thread, rules, setup.catalog, setup.model, none, success⟩

/-- Every rule is what its definition compiles to against the catalog. -/
theorem compileRule_eq
    (started : setup.Started)
    {rule : CompiledRule cel}
    (active : rule ∈ setup.rules.rules) :
    compileRule cel rule.definition setup.catalog = .ok rule := by
  obtain ⟨thread, rules, success⟩ := started.rules
  obtain ⟨-, -, -, -, -, results⟩ := (compileRuleset_eq_ok_iff ..).mp success
  exact compileRule_definition results rule active

/-- There is a limited number of rules. -/
theorem length_rules_le (started : setup.Started) :
    setup.rules.rules.length ≤ maxRules := by
  obtain ⟨thread, rules, success⟩ := started.rules
  obtain ⟨-, -, fits, -, -, results⟩ := (compileRuleset_eq_ok_iff ..).mp success
  rw [← results.length_eq]
  exact fits

end Setup.Started

section Reached

variable {setup : Setup cel} {events : List (Event F)} {system : System cel}

/-- A sample of a datagram is one of a packet that has been decoded. -/
theorem exists_packet_of_mem_samplesOf
    {catalog : Catalog F}
    {datagram : List UInt8}
    {sample : Sample F}
    (member : sample ∈ samplesOf catalog datagram) :
    ∃ packet, decodePacket datagram catalog = .ok packet ∧
      sample ∈ packet.samples := by
  unfold samplesOf at member
  cases decoded : decodePacket datagram catalog with
  | error error =>
      rw [decoded] at member
      cases member
  | ok packet =>
      rw [decoded] at member
      exact ⟨packet, rfl, member⟩

/-- A call of the engine is that of an event. -/
theorem mem_inputs_iff (input : Engine.Input cel) :
    input ∈ inputs cel events ↔
      (∃ now sample, input = .onSample now sample ∧
        Event.onSample now sample ∈ events) ∨
      ∃ now, input = .tick now ∧ Event.tick now ∈ events := by
  rw [inputs, List.mem_filterMap]
  constructor
  · rintro ⟨event, member, called⟩
    cases event with
    | onSample now sample =>
        exact .inl ⟨now, sample, (Option.some.inj called).symm, member⟩
    | tick now => exact .inr ⟨now, (Option.some.inj called).symm, member⟩
    | _ => cases called
  · rintro (⟨now, sample, rfl, member⟩ | ⟨now, rfl, member⟩)
    · exact ⟨_, member, rfl⟩
    · exact ⟨_, member, rfl⟩

/-- A sample that the engine is given is one of a datagram received. -/
theorem mem_flatMap_of_sampled
    (run : Run (Step setup) setup.initial events system)
    {sample : Sample F}
    (member : sample ∈ sampled events) :
    sample ∈ (received events).flatMap (samplesOf setup.catalog) := by
  have flow := (flows_of_run run).samples
  unfold Channel.Conserves at flow
  rw [flow, List.append_assoc]
  exact List.mem_append_left _ member

/-- The calls of a started daemon are under its catalog. -/
theorem inputs_under
    (run : Run (Step setup) setup.initial events system) :
    ∀ input ∈ inputs cel events, input.Under setup.catalog := by
  intro input called
  rcases (mem_inputs_iff input).mp called with
    ⟨now, sample, rfl, member⟩ | ⟨now, rfl, -⟩
  · have given : sample ∈ sampled events :=
      List.mem_filterMap.mpr ⟨_, member, rfl⟩
    obtain ⟨datagram, -, decoded⟩ :=
      List.mem_flatMap.mp (mem_flatMap_of_sampled run given)
    exact ⟨datagram, exists_packet_of_mem_samplesOf decoded⟩
  · trivial

/-- In every state of a started daemon the engine holds declared values. -/
theorem kinded_of_run
    (started : setup.Started)
    (run : Run (Step setup) setup.initial events system) :
    system.engine.engine.Kinded setup.catalog := by
  have under : ∀ input ∈ Engine.Input.applyRuleset setup.startedMs
      started.loadedRules :: inputs cel events, input.Under setup.catalog := by
    rw [List.forall_mem_cons]
    obtain ⟨thread, rules, success⟩ := started.rules
    exact ⟨⟨thread, rules, setup.model, none, success⟩, inputs_under run⟩
  rw [(flows_of_run run).engine]
  exact Engine.kinded_final started.acceptedCatalog setup.vin setup.model under

/-- No rule set is swapped in after the start. -/
theorem noSwap_inputs (events : List (Event F)) :
    ∀ input ∈ inputs cel events, ¬ input.Swaps := by
  rintro input member ⟨now, set, rfl⟩
  rcases (mem_inputs_iff _).mp member with ⟨_, _, impossible, -⟩ |
    ⟨_, impossible, -⟩ <;> cases impossible

/-- What holds of every state that a started daemon reaches. -/
structure System.Sound (setup : Setup cel) (system : System cel) : Prop where
  /-- The engine holds values that the catalog declares, and compares only
  values that go together. -/
  keepsKinds : system.engine.engine.KeepsKinds setup.catalog
  /-- Records are made with the identity and the rules of the start. -/
  source : setup.engine.SameSource system.engine.engine
  /-- Exactly the rules of the start have a state. -/
  states : ∀ id, (system.engine.engine.state.lookup id).isSome ↔
    (setup.rules.withId id).isSome
  /-- Exactly the periodic rules have a timer. -/
  timers : ∀ rule ∈ setup.rules.rules, ∀ ruleState,
    system.engine.engine.state.lookup rule.id = some ruleState →
      (ruleState.nextDueMs.isSome ↔ rule.definition.mode = .periodic)
  /-- Samples on the way to the engine have declared values. -/
  inFlight : ∀ sample ∈ system.samples.items ++ system.ingest.pending,
    setup.catalog.Declares sample.name sample.value

/-- The checks of the start carry over to every state that the daemon reaches,
in any order of the steps of its tasks. -/
theorem sound_of_run
    {environment : Environment F}
    {path : String}
    (success : start cel environment path = .ok setup)
    (run : Run (Step setup) setup.initial events system) :
    Text.isBlank setup.vin = false ∧ setup.catalog.model = setup.model ∧
      system.Sound setup := by
  have started := started_of_start success
  have kinded := kinded_of_run started run
  have flows := flows_of_run run
  have source : setup.engine.SameSource system.engine.engine := by
    rw [flows.engine]
    exact Engine.sameSource_final (noSwap_inputs events) setup.engine
  have rules : system.engine.engine.rules = setup.rules := source.rules
  refine ⟨started.vin, started.sameModel, ?_, source, ?_, ?_, ?_⟩
  · refine ⟨kinded.latest, ?_, ?_⟩
    · intro rule member ruleState value stored logged
      have viewed := kinded.valid.view_of_mem member stored
      exact kinded.logged rule.id rule ruleState value viewed logged
    · rintro now sample ⟨buf, packet, decoded, member⟩
      exact kinded.onSampleKinded_eq now
        (started.acceptedCatalog.declares_of_decodePacket decoded member)
  · rw [← rules]
    exact kinded.valid.stateKeys
  · rw [← rules]
    exact kinded.valid.timers
  · intro sample member
    have flow := flows.samples
    unfold Channel.Conserves at flow
    rw [List.append_assoc] at flow
    have decoded : sample ∈
        (received events).flatMap (samplesOf setup.catalog) := by
      rw [flow]
      exact List.mem_append_right _ member
    obtain ⟨datagram, -, ofDatagram⟩ := List.mem_flatMap.mp decoded
    obtain ⟨packet, accepted, inPacket⟩ :=
      exists_packet_of_mem_samplesOf ofDatagram
    exact started.acceptedCatalog.declares_of_decodePacket accepted inPacket

end Reached

end Started

/-- A vehicle with the catalog and the rule of the door. -/
def doorEnvironment : Environment Binary64 where
  readToString path := .ok path
  fromToml _ := .ok
    { vin := "VIN"
      model := "R1S"
      catalogPath := "catalogs/r1s.json"
      rulesFile := some "rulesets/default.json"
      udpBind := "127.0.0.1:5005"
      output :=
        { logDir := "dev/state/out"
          maxFileBytes := none
          maxFiles := none } }
  catalogFromJson _ := .ok ⟨"R1S", 1, [flag 1 "door_open"]⟩
  rulesFromJson _ := .ok ⟨1, "*", [doorRule]⟩
  thread := .ok ()
  bindUdp _ := .ok ()
  startedMs := 0
  toVec := doorSetup.toVec
  disk := .empty

theorem doorEnvironment_start :
    start identifierCel doorEnvironment "dev/config.toml" = .ok doorSetup := by
  rfl

/-- After the door has been opened the engine holds a declared value. -/
theorem doorEvents_sound :
    ∃ system, Run (Step doorSetup) doorSetup.initial doorEvents system ∧
      system.Sound doorSetup := by
  obtain ⟨system, run, -⟩ := doorEvents_run
  exact ⟨system, run, (sound_of_run doorEnvironment_start run).2.2⟩

end Telemetryd
end TelemetryEdge
