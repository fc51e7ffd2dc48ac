import TelemetryEdge.Telemetryd.Memory
import TelemetryEdge.Telemetryd.VolumeSteps

/-!
# Lives of the daemon in one directory

The daemon is started again and again in one directory, and each time it is
killed at some point or left to return.  A kill loses what is in the buffer and
nothing else: what had been written when the output task last waited for a
record is in the files, and the next life goes on behind it.
-/

namespace TelemetryEdge
namespace Telemetryd

open Attempt Protocol Rules

namespace OutputTask

variable {maxBytes maxFiles : Nat} {volumes : Volumes}
variable {toVec : LogRecord F → Except String (List UInt8)}
variable {task task' : OutputTask}
variable {records records' : Channel (LogRecord F) recordQueue}
variable {event : Event F}

/-- Only while it drains the queue has the task anything in the buffer. -/
def Settled (task : OutputTask) : Prop :=
  task.phase ≠ .draining → task.output.writer.file.buffer = []

/-- A record becomes a line of the volumes, or none if it cannot be
serialized. -/
theorem write_keeps
    {record : LogRecord F}
    {result : Except WriteError (List UInt8)}
    (positive : 0 < maxFiles)
    (keeps : task.output.Keeps maxBytes maxFiles volumes)
    {count : Nat}
    (pending : task.output.Pending count)
    (wrote : task.write toVec record = (result, task')) :
    let lines := (Event.write record result).line?.toList
    task'.output.Keeps maxBytes maxFiles (lines.foldl (.add maxBytes) volumes) ∧
      task'.output.Pending (count + (render lines).length) := by
  unfold write at wrote
  cases serialized : toVec record with
  | error message =>
      simp only [serialized, Prod.mk.injEq] at wrote
      obtain ⟨rfl, rfl⟩ := wrote
      exact ⟨keeps, pending⟩
  | ok line =>
      obtain ⟨_, output, ended, added⟩ :=
        (Output.writeLine_keeps positive volumes line).exists_ok keeps
      have more := Output.writeLine_pending count line task.output pending
      rw [ended] at more
      simp only [serialized, ended, Prod.mk.injEq] at wrote
      obtain ⟨rfl, rfl⟩ := wrote
      refine ⟨added, ?_⟩
      change Output.Pending (count + (render [line]).length) output
      rwa [render_singleton, length_lineBytes]

/-- A flush leaves nothing in the buffer. -/
theorem flushBuf_keeps
    {output : Output}
    (keeps : output.Keeps maxBytes maxFiles volumes) :
    (Output.flushBuf output).2.Keeps maxBytes maxFiles volumes ∧
      (Output.flushBuf output).2.writer.file.buffer = [] := by
  have flushed := Output.flushBuf_spec output output rfl
  rcases ended : Output.flushBuf output with ⟨error | _, after⟩
  · rw [ended] at flushed
    exact absurd keeps.quiet.faults flushed.2.1
  · rw [ended] at flushed
    exact ⟨keeps.flushed flushed.1, flushed.2.1⟩

/-- Closing leaves nothing in the buffer. -/
theorem close_keeps
    (keeps : task.output.Keeps maxBytes maxFiles volumes) :
    task.close.output.Keeps maxBytes maxFiles volumes ∧
      task.close.output.writer.file.buffer = [] := by
  have synced := Output.sync_ok task.output task.output rfl
  unfold close
  rcases ended : Output.sync task.output with ⟨error | _, output⟩
  · rw [ended] at synced
    exact absurd keeps.quiet.faults synced
  · rw [ended] at synced
    exact flushBuf_keeps (keeps.flushed synced.1)

/-- Every step of the output task adds its line to the volumes, and no more than
that to the buffer. -/
theorem Step.keeps
    (positive : 0 < maxFiles)
    (stepped : Step toVec task records event task' records')
    (keeps : task.output.Keeps maxBytes maxFiles volumes)
    {count : Nat}
    (pending : task.output.Pending count) :
    task'.output.Keeps maxBytes maxFiles
        (event.line?.toList.foldl (.add maxBytes) volumes) ∧
      task'.Settled ∧
      task'.output.Pending (count + (render event.line?.toList).length) := by
  have drained {output : Output} (empty : output.writer.file.buffer = []) :
      output.Pending (count + (render []).length) := by
    rw [Output.Pending, empty]
    exact Nat.zero_le _
  cases stepped with
  | receive waiting received wrote =>
      obtain ⟨added, more⟩ := write_keeps positive keeps pending wrote
      exact ⟨added, fun idle => absurd rfl idle, more⟩
  | closed waiting ended =>
      obtain ⟨closed, empty⟩ := close_keeps keeps
      exact ⟨closed, fun _ => empty, drained empty⟩
  | tryReceive draining received wrote =>
      obtain ⟨added, more⟩ := write_keeps positive keeps pending wrote
      have phase := (phase_of_write wrote).trans draining
      exact ⟨added, fun idle => absurd phase idle, more⟩
  | flush draining empty =>
      obtain ⟨flushed, empty⟩ := flushBuf_keeps keeps
      exact ⟨flushed, fun _ => empty, drained empty⟩

end OutputTask

section Lives

variable [F64 F] {cel : Cel F}

/-- From a state that keeps some volumes on, the volumes take up the lines
written, and what is buffered is written from then on or was buffered then. -/
theorem kept_of_run
    {setup : Setup cel}
    {events : List (Event F)}
    {begun system : System cel}
    {maxBytes maxFiles : Nat}
    {volumes : Volumes}
    (positive : 0 < maxFiles)
    (keeps : begun.output.output.Keeps maxBytes maxFiles volumes)
    (settled : begun.output.Settled)
    {count : Nat}
    (pending : begun.output.output.Pending count)
    (run : Run (Step setup) begun events system) :
    system.output.output.Keeps maxBytes maxFiles
        ((written events).foldl (.add maxBytes) volumes) ∧
      system.output.Settled ∧
      system.output.output.Pending
        (count + (render (written events)).length) := by
  induction run with
  | start => exact ⟨keeps, settled, pending⟩
  | @extend events state next event run stepped inductionHypothesis =>
      obtain ⟨kept, idle, few⟩ := inductionHypothesis
      have unwritten (silent : event.line? = none)
          (same : next.output = state.output) :
          next.output.output.Keeps maxBytes maxFiles
              ((written (events ++ [event])).foldl (.add maxBytes) volumes) ∧
            next.output.Settled ∧
            next.output.output.Pending
              (count + (render (written (events ++ [event]))).length) := by
        rw [written, filterMap_concat, silent, same]
        simp only [Option.toList_none, List.append_nil]
        exact ⟨kept, idle, few⟩
      cases stepped with
      | ingest stepped => exact unwritten (by cases stepped <;> rfl) rfl
      | engine stepped => exact unwritten (by cases stepped <;> rfl) rfl
      | output stepped =>
          obtain ⟨added, settled, more⟩ := stepped.keeps positive kept few
          rw [written, filterMap_concat, List.foldl_append, render_append,
            List.length_append, ← Nat.add_assoc]
          exact ⟨added, settled, more⟩
      | _ => exact unwritten rfl rfl

/-- A life of the daemon: how it was started, what it has done until it returned
or was killed, and how much of the buffer a flush had stored by then. -/
structure Life (cel : Cel F) where
  environment : Environment F
  path : String
  setup : Setup cel
  events : List (Event F)
  system : System cel
  stored : Nat

namespace Life

/-- What is left of the buffer. -/
def lost (life : Life cel) : Nat :=
  life.system.output.output.writer.file.buffer.length - life.stored

/-- The life as the files see it. -/
def stretch (life : Life cel) : Stretch where
  maxBytes := life.setup.output.writer.maxBytes
  lines := written life.events
  lost := life.lost

end Life

/-- Lives in one directory that is empty at first.  Each starts on what the one
before has left, with any limit on the size of a file. -/
inductive Lives (cel : Cel F) (maxFiles : Nat) : List (Life cel) → Disk → Prop
  | none : Lives cel maxFiles [] .empty
  | next
      {lives : List (Life cel)}
      {life : Life cel}
      (earlier : Lives cel maxFiles lives life.environment.disk)
      (started : start cel life.environment life.path = .ok life.setup)
      (limit : life.setup.output.writer.maxFiles = maxFiles)
      (run : Run (Step life.setup) life.setup.initial life.events life.system) :
      Lives cel maxFiles (lives ++ [life])
        (life.system.output.output.killed life.stored)

/-- What some lives have left. -/
structure Recovered (maxFiles : Nat) (lives : List (Life cel))
    (disk : Disk) : Prop where
  /-- A life loses no more than a buffer. -/
  lost : ∀ life ∈ lives, life.lost ≤ BufWriter.capacity
  /-- It loses nothing written before the output task last waited. -/
  durable : ∀ life ∈ lives, ∀ past future middle,
    life.events = past ++ future →
    Run (Step life.setup) life.setup.initial past middle →
    Run (Step life.setup) middle future life.system →
    middle.output.phase ≠ .draining →
      render (written past) <+: life.stretch.text
  /-- The files are the newest volumes of what is left, and there are no
  others. -/
  files : ∀ index, disk.read (path index) =
    (Volumes.after (lives.map Life.stretch)).files maxFiles index
  alone : ∀ name, (disk.read name).isSome →
    ∃ index < maxFiles, name = path index
  /-- Read in order they are the last part of what the lives have left. -/
  newest : disk.logged maxFiles <:+ lives.flatMap (·.stretch.text)
  /-- A file within no limit holds no more than a single line. -/
  bounded : ∀ limit,
    (∀ life ∈ lives, life.setup.output.writer.maxBytes ≤ limit) →
    ∀ name bytes, disk.read name = some bytes →
      bytes.length ≤ limit ∨
        ∃ life ∈ lives, ∃ line ∈ written life.events,
          bytes <+: lineBytes line
  /-- Lives under one limit that have lost nothing are like one life. -/
  lossless : ∀ maxBytes,
    (∀ life ∈ lives, life.setup.output.writer.maxBytes = maxBytes) →
    (∀ life ∈ lives, life.lost = 0) →
    (∀ life ∈ lives, ∀ line ∈ written life.events, newline ∉ line) →
      KeepsNewest maxBytes maxFiles (lives.flatMap fun life =>
        written life.events) disk

/-- The output of a started daemon has been opened on the disk that it was
started on. -/
theorem opened_of_start
    {environment : Environment F}
    {path : String}
    {setup : Setup cel}
    (success : start cel environment path = .ok setup) :
    0 < setup.output.writer.maxFiles ∧
      RotatingWriter.open setup.output.writer.maxBytes
          setup.output.writer.maxFiles environment.disk =
        (.ok setup.output.writer, setup.output.disk) := by
  simp only [start, Config.load, bind_eq_ok_iff, mapError_eq_ok_iff] at success
  obtain ⟨config, ⟨text, -, parsed⟩, catalog, -, rules, -, writer, opened, _, -,
    returned⟩ := success
  obtain rfl := Except.ok.inj returned
  obtain ⟨document, -, -, valid⟩ := (Config.parse_eq_ok_iff ..).mp parsed
  have allowed : 0 < config.output.maxFiles.toNat :=
    UInt32.le_iff_toNat_le.mp valid.maxFiles
  have whole : RotatingWriter.open config.output.maxFileBytes.toNat
      config.output.maxFiles.toNat environment.disk = (.ok writer, _) :=
    Prod.ext opened rfl
  obtain ⟨-, bytes, files⟩ := RotatingWriter.fields_of_open whole
  dsimp only
  rw [bytes, files, Nat.max_eq_left allowed]
  exact ⟨allowed, whole⟩

/-- A life goes on where the volumes before it end, and loses bytes of its own
only. -/
theorem leaves_of_life
    {life : Life cel}
    {maxFiles : Nat}
    {volumes : Volumes}
    (resumes : life.environment.disk.Resumes maxFiles volumes)
    (started : start cel life.environment life.path = .ok life.setup)
    (limit : life.setup.output.writer.maxFiles = maxFiles)
    (run : Run (Step life.setup) life.setup.initial life.events life.system) :
    (life.system.output.output.killed life.stored).Leaves maxFiles
        (volumes.live life.stretch) ∧
      (volumes.live life.stretch).text = volumes.text ++ life.stretch.text := by
  obtain ⟨positive, opened⟩ := opened_of_start started
  rw [limit] at positive opened
  obtain ⟨begun, drained⟩ := resumes.keeps positive opened
  have pending : life.setup.output.Pending 0 := by
    rw [Output.Pending, drained]
    exact Nat.le_refl 0
  obtain ⟨kept, -, few⟩ :=
    kept_of_run positive begun (fun _ => drained) pending run
  have short : life.lost ≤
      life.system.output.output.writer.file.buffer.length := Nat.sub_le _ _
  refine ⟨kept.killed positive life.stored, Volumes.text_live ?_ ?_⟩
  · refine short.trans ?_
    have whole := congrArg List.length (kept.content_current positive)
    rw [Output.content_self, List.length_append] at whole
    exact (Nat.le_add_left _ _).trans_eq whole
  · rw [Output.Pending, Nat.zero_add] at few
    exact short.trans few

/-- The files of some lives, and their text. -/
theorem leaves_of_lives
    {maxFiles : Nat}
    {lives : List (Life cel)}
    {disk : Disk}
    (positive : 0 < maxFiles)
    (lived : Lives cel maxFiles lives disk) :
    let volumes := Volumes.after (lives.map Life.stretch)
    disk.Resumes maxFiles volumes ∧
      (lives ≠ [] → disk.Leaves maxFiles volumes) ∧
      volumes.text = lives.flatMap (·.stretch.text) := by
  induction lived with
  | none => exact ⟨Disk.empty_resumes positive, fun none => absurd rfl none, rfl⟩
  | @next lives life earlier started limit run inductionHypothesis =>
      obtain ⟨resumes, -, text⟩ := inductionHypothesis
      obtain ⟨left, added⟩ := leaves_of_life resumes started limit run
      rw [List.map_append, List.map_singleton, Volumes.after,
        List.foldl_concat, ← Volumes.after, List.flatMap_append,
        List.flatMap_singleton]
      exact ⟨left.resumes positive, fun _ => left, added.trans (by rw [text])⟩

/-- What is said of one life in any state of its directory holds of all. -/
theorem forall_lives
    {maxFiles : Nat}
    {lives : List (Life cel)}
    {disk : Disk}
    {good : Life cel → Prop}
    (lived : Lives cel maxFiles lives disk)
    (each : ∀ earlier life,
      Lives cel maxFiles earlier life.environment.disk →
      start cel life.environment life.path = .ok life.setup →
      life.setup.output.writer.maxFiles = maxFiles →
      Run (Step life.setup) life.setup.initial life.events life.system →
        good life) :
    ∀ life ∈ lives, good life := by
  induction lived with
  | none => exact fun life member => absurd member List.not_mem_nil
  | next earlier started limit run inductionHypothesis =>
      rw [List.forall_mem_append, List.forall_mem_singleton]
      exact ⟨inductionHypothesis, each _ _ earlier started limit run⟩

/-- What had been written when the output task last waited is in the files. -/
theorem durable_of_runs
    {life : Life cel}
    {maxFiles : Nat}
    {volumes : Volumes}
    {past future : List (Event F)}
    {middle : System cel}
    (resumes : life.environment.disk.Resumes maxFiles volumes)
    (started : start cel life.environment life.path = .ok life.setup)
    (limit : life.setup.output.writer.maxFiles = maxFiles)
    (split : life.events = past ++ future)
    (before : Run (Step life.setup) life.setup.initial past middle)
    (after : Run (Step life.setup) middle future life.system)
    (idle : middle.output.phase ≠ .draining) :
    render (written past) <+: life.stretch.text := by
  obtain ⟨positive, opened⟩ := opened_of_start started
  rw [limit] at positive opened
  obtain ⟨begun, drained⟩ := resumes.keeps positive opened
  have pending : life.setup.output.Pending 0 := by
    rw [Output.Pending, drained]
    exact Nat.le_refl 0
  obtain ⟨kept, settled, -⟩ :=
    kept_of_run positive begun (fun _ => drained) pending before
  have nothing : middle.output.output.Pending 0 := by
    rw [Output.Pending, settled idle]
    exact Nat.le_refl 0
  obtain ⟨-, -, few⟩ := kept_of_run positive kept settled nothing after
  rw [Output.Pending, Nat.zero_add] at few
  have later : life.lost ≤ (render (written future)).length :=
    (Nat.sub_le _ _).trans few
  have whole : written life.events = written past ++ written future := by
    rw [split, written, List.filterMap_append]
    rfl
  have text : life.stretch.text =
      (render (written life.events)).rdrop life.lost := rfl
  rw [text, whole, render_append, rdrop_append_of_le later]
  exact List.prefix_append _ _

/-- Any number of lives of the daemon in one directory, each killed at any point
or left to return: what is lost and what the files hold. -/
theorem recovered_of_lives
    {maxFiles : Nat}
    {lives : List (Life cel)}
    {disk : Disk}
    (any : lives ≠ [])
    (lived : Lives cel maxFiles lives disk) :
    Recovered maxFiles lives disk := by
  have positive : 0 < maxFiles := by
    cases lived with
    | none => exact absurd rfl any
    | next _ started limit _ => exact limit ▸ (opened_of_start started).1
  obtain ⟨-, leaves, text⟩ := leaves_of_lives positive lived
  have left := leaves any
  refine
    { lost := ?lost
      durable := ?durable
      files := left.read_path
      alone := fun name present => ?alone
      newest := text ▸ left.logged_suffix
      bounded := fun limit below name bytes held => ?bounded
      lossless := fun maxBytes limit nothing newlineFree => ?lossless }
  case lost =>
    refine forall_lives lived fun earlier life _ started _ run => ?_
    have few := (started_of_start started).length_rules_le
    obtain ⟨-, opened⟩ := opened_of_start started
    obtain ⟨-, -, buffered⟩ := pending_of_run few
      (Output.buffered_of_eq_nil (RotatingWriter.fields_of_open opened).1) run
    exact (Nat.sub_le _ _).trans buffered
  case durable =>
    refine forall_lives lived fun earlier life before started limit run => ?_
    intro past future middle split first second idle
    exact durable_of_runs (leaves_of_lives positive before).1 started limit split
      first second idle
  case alone =>
    obtain ⟨bytes, held⟩ := Option.isSome_iff_exists.mp present
    obtain ⟨index, low, same, -⟩ := left.exists_of_read held
    exact ⟨index, low, same⟩
  case bounded =>
    obtain ⟨index, -, -, member⟩ := left.exists_of_read held
    have limits : ∀ stretch ∈ lives.map Life.stretch,
        stretch.maxBytes ≤ limit := List.forall_mem_map.mpr below
    rcases Volumes.fits_after limits bytes member with
      small | ⟨line, passed, single⟩
    · exact .inl small
    · rw [List.flatMap_map] at passed
      obtain ⟨life, lived, among⟩ := List.mem_flatMap.mp passed
      exact .inr ⟨life, lived, line, among, single⟩
  case lossless =>
    have stores : disk.Stores maxFiles
        (Partition.of maxBytes (lives.flatMap fun life =>
          written life.events)) := by
      refine ⟨left.sound, left.quiet, ?_⟩
      rw [left.stored, Volumes.after_eq_volumes
        (List.forall_mem_map.mpr limit) (List.forall_mem_map.mpr nothing),
        Partition.volumes_files, List.flatMap_map]
      rfl
    refine stores.keepsNewest positive fun line member => ?_
    obtain ⟨life, lived, passed⟩ := List.mem_flatMap.mp member
    exact newlineFree life lived line passed

end Lives

/-- The writer of the door with its line in the buffer. -/
def bufferedLog : Output where
  writer :=
    { newLog.writer with
      file := ⟨0, lineBytes doorLine⟩
      size := doorLine.length + 1 }
  disk := newLog.disk

theorem bufferedLog_run :
    ∃ events system, Run (Step doorSetup) doorSetup.initial events system ∧
      system.output.output = bufferedLog := by
  have spawned : Run (Step doorSetup) doorSetup.initial [] doorSetup.initial :=
    .start
  have ticked := spawned.extend (.engine (.tick 1 rfl))
  have decoded := ticked.extend (.ingest (.receive flagsPacket rfl))
  have sent := decoded.extend (.ingest (.send rfl rfl))
  have sampled := sent.extend (.engine (.onSample 5 rfl rfl))
  have emitted := sampled.extend (.engine (.send rfl rfl))
  have written := emitted.extend (.output (.receive rfl rfl rfl))
  exact ⟨_, _, written, rfl⟩

/-- The door's vehicle after a kill that left eight bytes of the line. -/
def restartedEnvironment : Environment Binary64 :=
  { doorEnvironment with disk := bufferedLog.killed 8 }

/-- The setup after the kill: the writer goes on behind the eight bytes. -/
def restartedSetup : Setup identifierCel :=
  { doorSetup with
    output :=
      { writer := { newLog.writer with size := 8 }
        disk := bufferedLog.killed 8 } }

theorem restartedEnvironment_start :
    start identifierCel restartedEnvironment "dev/config.toml" =
      .ok restartedSetup := by rfl

theorem restartedSetup_run :
    ∃ events system,
      Run (Step restartedSetup) restartedSetup.initial events system ∧
        (system.output.output.killed 0).read fileName =
          some (doorLine.take 8 ++ lineBytes doorLine) := by
  have spawned : Run (Step restartedSetup) restartedSetup.initial []
      restartedSetup.initial := .start
  have ticked := spawned.extend (.engine (.tick 1 rfl))
  have decoded := ticked.extend (.ingest (.receive flagsPacket rfl))
  have sent := decoded.extend (.ingest (.send rfl rfl))
  have sampled := sent.extend (.engine (.onSample 5 rfl rfl))
  have emitted := sampled.extend (.engine (.send rfl rfl))
  have written := emitted.extend (.output (.receive rfl rfl rfl))
  have flushed := written.extend (.output (.flush rfl rfl))
  exact ⟨_, _, flushed, by decide +kernel⟩

/-- A life that is killed when eight bytes of its line are in the file, and one
that goes on behind them with a whole line. -/
theorem doorLives_recovered :
    ∃ lives disk, lives.length = 2 ∧ Lives identifierCel 5 lives disk ∧
      Recovered 5 lives disk ∧
      disk.read fileName = some (doorLine.take 8 ++ lineBytes doorLine) := by
  obtain ⟨events, system, run, output⟩ := bufferedLog_run
  let first : Life identifierCel :=
    ⟨doorEnvironment, "dev/config.toml", doorSetup, events, system, 8⟩
  have lived : Lives identifierCel 5 ([] ++ [first]) (bufferedLog.killed 8) := by
    rw [← output]
    exact .next .none doorEnvironment_start rfl run
  obtain ⟨later, last, again, held⟩ := restartedSetup_run
  let second : Life identifierCel :=
    ⟨restartedEnvironment, "dev/config.toml", restartedSetup, later, last, 0⟩
  have both : Lives identifierCel 5 ([first] ++ [second]) _ :=
    .next lived restartedEnvironment_start rfl again
  exact ⟨_, _, rfl, both, recovered_of_lives (by simp) both, held⟩

end Telemetryd
end TelemetryEdge
