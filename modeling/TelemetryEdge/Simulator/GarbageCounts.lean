import TelemetryEdge.Simulator.Simulation
import TelemetryEdge.Telemetryd.Metrics

/-!
# The garbage scenario against the statistics of the daemon

The simulator counts the packets it sends by their kind, and the daemon counts
the errors of the datagrams it receives by their reason.  When every packet has
arrived, in any order, both counts agree, but for what random bytes lead to.
-/

namespace TelemetryEdge
namespace Simulator

open Protocol Rules Telemetryd

/-- Kinds that are counted under the same label are the same. -/
theorem GarbageKind.eq_of_reason
    {kind other : GarbageKind}
    {reason : String}
    (label : kind.reason = some reason)
    (sameLabel : other.reason = some reason) :
    kind = other := by
  have same := label.trans sameLabel.symm
  cases kind <;> cases other <;>
    first | rfl | exact absurd same (by decide) |
      exact absurd label.symm (Option.some_ne_none reason)

/-- No kind is counted as a value out of range. -/
theorem GarbageKind.reason_ne_invalidValue
    {kind : GarbageKind}
    {reason : String}
    (label : kind.reason = some reason) :
    reason ≠ FrameErrorKind.invalidValue.reason := by
  rintro rfl
  cases kind <;> exact absurd label (by decide)

/-- Of all kinds only one is counted under a label. -/
theorem count_reason
    {kind : GarbageKind}
    {reason : String}
    (label : kind.reason = some reason)
    (sent : Option GarbageKind) :
    (sent.bind GarbageKind.reason).toList.count reason =
      if sent = some kind then 1 else 0 := by
  split
  · next same =>
      rw [same, Option.bind_some, label, Option.toList_some,
        List.count_singleton_self]
  · next different =>
      apply List.count_eq_zero_of_not_mem
      intro member
      cases sent with
      | none => cases member
      | some other =>
          apply different
          rw [GarbageKind.eq_of_reason (Option.mem_toList.mp member) label]

/-- Different kinds have different names. -/
theorem kindName_injective : Function.Injective kindName := by
  intro left right same
  rcases left with _ | left <;> rcases right with _ | right
  · rfl
  · cases right <;> exact absurd same (by decide)
  · cases left <;> exact absurd same (by decide)
  · cases left <;> cases right <;>
      first | rfl | exact absurd same (by decide)

/-- The counter of a kind is the number of packets of the kind. -/
theorem garbageCounts_eq_count
    (sent : List (Option GarbageKind × List UInt8))
    (kind : Option GarbageKind) :
    ((garbageCounts sent).lookup (kindName kind)).getD 0 =
      (sent.map Prod.fst).count kind := by
  have counted : garbageCounts sent =
      .tallied (sent.map fun entry => kindName entry.1) := by
    rw [garbageCounts, KeyedMap.foldl_tally_map]
    rfl
  have names : (sent.map fun entry => kindName entry.1) =
      (sent.map Prod.fst).map kindName := by
    rw [List.map_map]
    rfl
  rw [counted, names, KeyedMap.lookup_tallied,
    ← List.count_map_of_injective _ kindName kindName_injective]
  split
  · rfl
  · next absent => rw [List.count_eq_zero_of_not_mem absent, Option.getD_none]

section Counts

variable [F64 F]

/-- The datagrams of random bytes. -/
def randomDatagrams (sent : List (Option GarbageKind × List UInt8)) :
    List (List UInt8) :=
  (sent.filter (·.1 = some .randomBytes)).map Prod.snd

/-- What may be sent for frames that fit the catalog and leave room for one
more. -/
def SendsSpoilable
    (catalog : Catalog F)
    (entry : Option GarbageKind × List UInt8) : Prop :=
  ∃ frames, Spoilable catalog frames ∧ Sends catalog frames entry

variable
  {catalog : Catalog F}
  (free : catalog.byId (freeId catalog) = none)

include free

/-- What is sent leads to the effect of its kind. -/
theorem effect_of_sends
    {sent : Option GarbageKind × List UInt8}
    (sends : SendsSpoilable catalog sent)
    (notRandom : sent.1 ≠ some .randomBytes) :
    ∃ spared, Effect catalog sent.2 spared
      (sent.1.bind GarbageKind.reason).toList
      (if sent.1 = some .unknownSignal then 1 else 0) := by
  obtain ⟨frames, spoilable, within, made⟩ := sends
  obtain ⟨kind, datagram⟩ := sent
  cases kind with
  | none =>
      obtain rfl : datagram = packetBytes frames := made
      exact ⟨frames, effect_valid within spoilable.sized⟩
  | some kind =>
      have different : kind ≠ .randomBytes := fun same =>
        notRandom (congrArg some same)
      have effect := effect_of_made within spoilable (fun _ => free) different made
      simp only [Option.some.injEq, Option.bind_some]
      exact ⟨_, effect⟩

/-- Every label is counted as often as its kind has been sent, and as random
bytes lead to it. -/
theorem count_reasons
    {kind : GarbageKind}
    {reason : String}
    (label : kind.reason = some reason)
    {sent : List (Option GarbageKind × List UInt8)}
    (sends : ∀ entry ∈ sent, SendsSpoilable catalog entry) :
    ((sent.map Prod.snd).flatMap (reasonsOf catalog)).count reason =
      (sent.map Prod.fst).count (some kind) +
        ((randomDatagrams sent).flatMap (reasonsOf catalog)).count reason := by
  induction sent with
  | nil => rfl
  | cons entry rest inductionHypothesis =>
      rw [List.forall_mem_cons] at sends
      have others := inductionHypothesis sends.2
      by_cases random : entry.1 = some .randomBytes
      · have different : entry.1 ≠ some kind := by
          rintro same
          obtain rfl := Option.some.inj (random.symm.trans same)
          cases label
        have kept : randomDatagrams (entry :: rest) =
            entry.2 :: randomDatagrams rest := by
          simp [randomDatagrams, random]
        rw [kept, List.map_cons, List.map_cons, List.flatMap_cons,
          List.flatMap_cons, List.count_append, List.count_append, others,
          List.count_cons_of_ne different]
        omega
      · have skipped : randomDatagrams (entry :: rest) =
            randomDatagrams rest := by
          simp [randomDatagrams, random]
        obtain ⟨spared, effect⟩ := effect_of_sends free sends.1 random
        have own : (reasonsOf catalog entry.2).count reason =
            if entry.1 = some kind then 1 else 0 := by
          rw [effect.reasons _ (GarbageKind.reason_ne_invalidValue label)]
          exact count_reason label entry.1
        rw [skipped, List.map_cons, List.map_cons, List.flatMap_cons,
          List.count_append, others, List.count_cons, own]
        simp only [beq_iff_eq]
        omega

/-- Unknown signals are counted as often as they have been sent, and as random
bytes lead to them. -/
theorem sum_unknown
    {sent : List (Option GarbageKind × List UInt8)}
    (sends : ∀ entry ∈ sent, SendsSpoilable catalog entry) :
    ((sent.map Prod.snd).map (unknownIn catalog)).sum =
      (sent.map Prod.fst).count (some .unknownSignal) +
        ((randomDatagrams sent).map (unknownIn catalog)).sum := by
  induction sent with
  | nil => rfl
  | cons entry rest inductionHypothesis =>
      rw [List.forall_mem_cons] at sends
      have others := inductionHypothesis sends.2
      by_cases random : entry.1 = some .randomBytes
      · have different : entry.1 ≠ some .unknownSignal := by
          rw [random]
          decide
        have kept : randomDatagrams (entry :: rest) =
            entry.2 :: randomDatagrams rest := by
          simp [randomDatagrams, random]
        simp only [kept, List.map_cons, List.sum_cons, others,
          List.count_cons_of_ne different]
        omega
      · have skipped : randomDatagrams (entry :: rest) =
            randomDatagrams rest := by
          simp [randomDatagrams, random]
        obtain ⟨spared, effect⟩ := effect_of_sends free sends.1 random
        simp only [skipped, List.map_cons, List.sum_cons, others,
          List.count_cons, effect.unknown, beq_iff_eq]
        omega

end Counts

section Demonstrated

variable [F64 F]

/-- The statistics of the daemon show what the simulator has sent. -/
structure Demonstrated
    (catalog : Catalog F)
    (sent : List (Option GarbageKind × List UInt8))
    (stats : IngestStats) : Prop where
  packets : stats.packets = sent.length
  /-- Every kind with a label has been counted under it. -/
  errors : ∀ kind reason, GarbageKind.reason kind = some reason →
    (stats.decodeErrors.lookup reason).getD 0 =
      ((garbageCounts sent).lookup (kindName (some kind))).getD 0 +
        ((randomDatagrams sent).flatMap (reasonsOf catalog)).count reason
  /-- Unknown signals have been counted, too. -/
  unknown : stats.unknownSignals =
    ((garbageCounts sent).lookup (kindName (some .unknownSignal))).getD 0 +
      ((randomDatagrams sent).map (unknownIn catalog)).sum

/-- What a run sends comes from frames that fit an accepted catalog. -/
theorem sendsSpoilable_of_run [Elementary F]
    (catalog : AcceptedCatalog F)
    {scenario : Scenario}
    {dtS : F}
    {simulation last : Simulation F}
    {times : List UInt64}
    {sent : List (Option GarbageKind × List UInt8)}
    (ran : simulation.run scenario catalog.toCatalog dtS times =
      some (sent, last)) :
    ∀ entry ∈ sent, SendsSpoilable catalog.toCatalog entry := by
  obtain ⟨found, final, same, -, sends⟩ := Simulation.exists_run scenario
    catalog.toCatalog (fun (_ : Vehicle F) _ (_ : True) => True.intro)
    (True.intro : (fun _ => True) simulation.vehicle) times
  obtain ⟨rfl, rfl⟩ := Prod.ext_iff.mp (Option.some.inj (ran.symm.trans same))
  intro entry member
  obtain ⟨turn, -, frames, encoded, own⟩ :=
    Registration.exists_of_mem_right sends member
  obtain ⟨sized, few⟩ := Vehicle.sized_of_frames encoded
  have short := packetLen_le sized
  rw [packetHeaderLen] at short
  refine ⟨frames, ⟨sized, ?_, ?_⟩, own⟩
  · rw [maxFrames]
    omega
  · rw [maxDatagramLen, frameHeaderLen]
    omega

/-- When the datagrams received are those that a run of the garbage scenario has
sent, in any order, the statistics show how often each kind has been sent. -/
theorem garbage_demonstrated [Elementary F]
    {cel : Cel F}
    {setup : Setup cel}
    (accepted : ∃ spec, Catalog.new spec = .ok setup.catalog)
    (free : setup.catalog.byId (freeId setup.catalog) = none)
    {seed : UInt64}
    {dtS : F}
    {times : List UInt64}
    {sent : List (Option GarbageKind × List UInt8)}
    {last : Simulation F}
    (simulated : (Simulation.new .garbage seed).run .garbage setup.catalog dtS
      times = some (sent, last))
    {events : List (Event F)}
    {system : System cel}
    (run : Run (Step setup) setup.initial events system)
    (arrived : (received events).Perm (sent.map Prod.snd)) :
    Demonstrated setup.catalog sent system.ingest.stats := by
  have sends := sendsSpoilable_of_run ⟨setup.catalog, accepted⟩ simulated
  rw [(counts_of_run run).ingest]
  refine ⟨?_, fun kind reason label => ?_, ?_⟩
  · exact arrived.length_eq.trans (List.length_map _)
  · have counted := (arrived.flatMap_right (reasonsOf setup.catalog)).count_eq
      reason
    rw [garbageCounts_eq_count, ← count_reasons free label sends, ← counted,
      IngestStats.of, KeyedMap.lookup_tallied]
    split
    · rfl
    · next absent => exact (List.count_eq_zero_of_not_mem absent).symm
  · rw [garbageCounts_eq_count, ← sum_unknown free sends]
    exact (arrived.map (unknownIn setup.catalog)).sum_eq

end Demonstrated

/-- The remainder, and the sine of the angles of the first two seconds. -/
@[reducible] def twoSeconds : Elementary Binary64 where
  rem := Binary64.rem
  sin angle :=
    if angle.bits = 0x3F9999999999999A then ⟨0x3F9998EAD7C162CE⟩
    else if angle.bits = 0x3FA999999999999A then ⟨0x3FA996DEA2FF643C⟩
    else if angle.bits = 0x3FE0000000000000 then ⟨0x3FDEAEE8744B05F0⟩
    else if angle.bits = 0x3FF0000000000000 then ⟨0x3FEAED548F090CEE⟩
    else F64.zero

/-- A packet with a wrong magic, and one with trailing bytes. -/
def spoiledPackets : List (Option GarbageKind × List UInt8) :=
  [(some .badMagic, [222, 173, 1, 1, 0, 1, 0, 0, 0, 0, 0, 0, 0, 7, 1, 1]),
    (some .trailingBytes, [84, 69, 1, 1, 0, 1, 0, 0, 0, 0, 0, 15, 66, 71, 1, 1,
      240, 141, 7])]

/-- The second packet arrives before the first one. -/
def spoiledEvents : List (Event Binary64) :=
  [.datagram [84, 69, 1, 1, 0, 1, 0, 0, 0, 0, 0, 15, 66, 71, 1, 1, 240, 141, 7],
    .silent,
    .datagram [222, 173, 1, 1, 0, 1, 0, 0, 0, 0, 0, 0, 0, 7, 1, 1]]

/-- Two turns of the garbage scenario send the two packets. -/
theorem spoiledPackets_sent :
    ∃ last, @Simulation.run Binary64 _ twoSeconds .garbage doorSetup.catalog
      (Binary64.ofInt 1) (.new .garbage 2) [7, 1000007] =
        some (spoiledPackets, last) := by
  have packets : (@Simulation.run Binary64 _ twoSeconds .garbage
      doorSetup.catalog (Binary64.ofInt 1) (.new .garbage 2)
        [7, 1000007]).map Prod.fst = some spoiledPackets := by decide +kernel
  obtain ⟨⟨sent, last⟩, ran, rfl⟩ := Option.map_eq_some_iff.mp packets
  exact ⟨last, ran⟩

/-- Both packets are counted. -/
theorem spoiledEvents_demonstrated :
    ∃ system, Run (Step doorSetup) doorSetup.initial spoiledEvents system ∧
      Demonstrated doorSetup.catalog spoiledPackets system.ingest.stats := by
  have spawned : Run (Step doorSetup) doorSetup.initial [] doorSetup.initial :=
    .start
  have second := spawned.extend (.ingest (.receive
    [84, 69, 1, 1, 0, 1, 0, 0, 0, 0, 0, 15, 66, 71, 1, 1, 240, 141, 7] rfl))
  have decoded := second.extend (.ingest (.send rfl rfl))
  have both := decoded.extend (.ingest (.receive
    [222, 173, 1, 1, 0, 1, 0, 0, 0, 0, 0, 0, 0, 7, 1, 1] rfl))
  obtain ⟨last, simulated⟩ := spoiledPackets_sent
  have free : doorSetup.catalog.byId (freeId doorSetup.catalog) = none := by
    decide +kernel
  have arrived : (received spoiledEvents).Perm
      (spoiledPackets.map Prod.snd) := .swap ..
  exact ⟨_, both, @garbage_demonstrated Binary64 _ twoSeconds _ doorSetup
    doorCatalog.accepted free _ _ _ _ last simulated _ _ both arrived⟩

end Simulator
end TelemetryEdge
