import TelemetryEdge.Telemetryd.Grouping
import TelemetryEdge.Telemetryd.WriterSteps

/-!
# The log across rotations and restarts

Without faults the files of the log are the newest groups of the greedy
partition of all lines written so far.  The invariant is kept by every line,
and a restart only reads the size of the current group back from its file.
-/

namespace TelemetryEdge
namespace Telemetryd

open Attempt

/-- No operation will fail and all names are names of log files. -/
structure Disk.Quiet (disk : Disk) : Prop where
  faults : disk.faults = []
  alone : ∀ name, (∀ index, name ≠ path index) →
    disk.directory.lookup name = none

/-- The open writer has written the lines of a partition. -/
structure Output.Holds (maxBytes maxFiles : Nat) (partition : Partition)
    (output : Output) : Prop where
  sound : output.disk.Sound
  quiet : output.disk.Quiet
  current : output.disk.slot 0 = some output.writer.file.inode
  slot : output.slot = partition.files maxFiles
  size : output.writer.size = (render partition.current).length
  maxBytes : output.writer.maxBytes = maxBytes
  maxFiles : output.writer.maxFiles = maxFiles

/-- Between two runs of the program the files hold a partition. -/
structure Disk.Stores (maxFiles : Nat) (partition : Partition)
    (disk : Disk) : Prop where
  sound : disk.Sound
  quiet : disk.Quiet
  stored : disk.stored = partition.files maxFiles

/-- A program that starts on the disk continues a partition. -/
structure Disk.Continues (maxFiles : Nat) (partition : Partition)
    (disk : Disk) : Prop where
  sound : disk.Sound
  quiet : disk.Quiet
  opened : disk.stored.put 0 (some ((disk.stored 0).getD [])) =
    partition.files maxFiles

theorem Disk.Quiet.of_keeps
    {before after : Disk}
    (quiet : before.Quiet)
    (foreign : Disk.KeepsForeign before after)
    (faults : after.faults <:+ before.faults) :
    after.Quiet where
  faults := by
    rw [quiet.faults] at faults
    exact List.suffix_nil.mp faults
  alone name other := (foreign name other).trans (quiet.alone name other)

theorem Disk.Stores.continues
    {maxFiles : Nat}
    {partition : Partition}
    {disk : Disk}
    (stores : disk.Stores maxFiles partition)
    (positive : 0 < maxFiles) :
    disk.Continues maxFiles partition where
  sound := stores.sound
  quiet := stores.quiet
  opened := by
    have first : partition.files maxFiles 0 = some (render partition.current) :=
      partition.files_of_lt positive
    rw [stores.stored, first, Option.getD_some, Slots.put_eq_self first]

/-- A program that starts in an empty directory starts with no lines. -/
theorem Disk.empty_continues
    {maxFiles : Nat}
    (positive : 0 < maxFiles) :
    Disk.empty.Continues maxFiles Partition.empty where
  sound :=
    { distinct := fun _ _ _ held => by cases held
      fresh := fun _ _ held => by cases held }
  quiet := ⟨rfl, fun _ _ => rfl⟩
  opened := by
    funext index
    cases index with
    | zero => exact (Partition.empty.files_of_lt positive).symm
    | succ index =>
        have nothing : Partition.empty.files maxFiles (index + 1) = none := by
          unfold Partition.files
          split <;> rfl
        rw [nothing]
        rfl

namespace Output

/-- Bytes written to the current group. -/
theorem Holds.push
    {maxBytes maxFiles : Nat}
    {partition : Partition}
    {before after : Output}
    {line : List UInt8}
    (holds : before.Holds maxBytes maxFiles partition)
    (positive : 0 < maxFiles)
    (wrote : Wrote (lineBytes line) before after) :
    Holds maxBytes maxFiles (partition.push line)
      { after with
        writer.size := after.writer.size + (line.length + 1) } where
  sound := wrote.sound holds.sound
  quiet := holds.quiet.of_keeps
    (fun name _ => congrArg (fun map => map.lookup name) wrote.directory)
    wrote.faults
  current := by
    change after.disk.slot 0 = some after.writer.file.inode
    rw [wrote.diskSlot, wrote.inode, holds.current]
  slot := by
    have first : before.slot 0 = some (render partition.current) := by
      rw [holds.slot]
      exact partition.files_of_lt positive
    have written : before.content before.writer.file.inode =
        render partition.current := by
      rw [Output.slot, Slots.map_apply, holds.current] at first
      exact Option.some.inj first
    refine (wrote.slot_eq_put holds.sound holds.current).trans ?_
    rw [written, holds.slot]
    funext index
    cases index with
    | zero =>
        rw [Slots.put_self, Partition.files_of_lt _ positive]
        simp [Partition.group, Partition.groups, Partition.push, render_append]
    | succ index => exact Slots.put_of_ne _ _ (Nat.succ_ne_zero index)
  size := by
    change after.writer.size + (line.length + 1) = _
    rw [wrote.size, holds.size, Partition.push, render_append,
      render_singleton, List.length_append, length_lineBytes]
  maxBytes := wrote.maxBytes.trans holds.maxBytes
  maxFiles := wrote.maxFiles.trans holds.maxFiles

/-- A rotation closes the current group. -/
theorem rotate_spec
    {maxBytes maxFiles : Nat}
    (positive : 0 < maxFiles)
    (partition : Partition) :
    Ensures (Holds maxBytes maxFiles partition) rotate
      (fun _ => Holds maxBytes maxFiles partition.close)
      (fun _ _ => False) := by
  refine Ensures.of_each fun output holds => ?_
  refine (rotate_ok holds.sound).mono ?_
    fun _ _ faulty => faulty holds.quiet.faults
  rintro _ after ⟨sound, current, slot, writer, foreign, faults⟩
  refine ⟨sound, holds.quiet.of_keeps foreign faults, current, ?_, ?_, ?_, ?_⟩
  · rw [slot, holds.slot, holds.maxFiles, partition.cascade_files positive]
  · rw [writer]
    rfl
  · rw [writer]
    exact holds.maxBytes
  · rw [writer]
    exact holds.maxFiles

/-- The writer and the partition start a new group at the same lines. -/
theorem Holds.overflows_iff
    {maxBytes maxFiles : Nat}
    {partition : Partition}
    {output : Output}
    (holds : output.Holds maxBytes maxFiles partition)
    (line : List UInt8) :
    output.overflows line ↔ partition.overflows maxBytes line := by
  rw [overflows, Partition.overflows, holds.size, holds.maxBytes,
    length_render_pos_iff]

/-- Every line is added to the partition. -/
theorem writeLine_spec
    {maxBytes maxFiles : Nat}
    (positive : 0 < maxFiles)
    (partition : Partition)
    (line : List UInt8) :
    Ensures (Holds maxBytes maxFiles partition) (writeLine line)
      (fun _ => Holds maxBytes maxFiles (partition.add maxBytes line))
      (fun _ _ => False) := by
  refine Ensures.of_each fun output holds => ?_
  let opened :=
    if partition.overflows maxBytes line then partition.close else partition
  have grows : partition.add maxBytes line = opened.push line := by
    unfold Partition.add
    split
    · next starts => rw [show opened = partition.close from if_pos starts]
    · next joins => rw [show opened = partition from if_neg joins]
  have rotated : Ensures (output = ·)
      (runIf (output.overflows line) rotate)
      (fun _ => Holds maxBytes maxFiles opened) (fun _ _ => False) := by
    refine Ensures.runIf (fun starts => ?_) fun joins _ same => ?_
    · rw [show opened = partition.close from
        if_pos ((holds.overflows_iff line).mp starts)]
      exact (rotate_spec positive partition).strengthen
        fun _ same => same ▸ holds
    · rw [show opened = partition from
        if_neg (mt (holds.overflows_iff line).mpr joins)]
      exact same ▸ holds
  refine (writeLine_ok rotated fun _ now => now.quiet.faults).mono ?_
    fun _ _ => id
  rintro _ _ ⟨current, whole, now, wrote, rfl⟩
  rw [grows]
  exact now.push positive wrote

theorem Holds.flushed
    {maxBytes maxFiles : Nat}
    {partition : Partition}
    {before after : Output}
    (holds : before.Holds maxBytes maxFiles partition)
    (wrote : Wrote [] before after) :
    after.Holds maxBytes maxFiles partition where
  sound := wrote.sound holds.sound
  quiet := holds.quiet.of_keeps
    (fun name _ => congrArg (fun map => map.lookup name) wrote.directory)
    wrote.faults
  current := by rw [wrote.diskSlot, wrote.inode, holds.current]
  slot := wrote.slot.trans holds.slot
  size := wrote.size.trans holds.size
  maxBytes := wrote.maxBytes.trans holds.maxBytes
  maxFiles := wrote.maxFiles.trans holds.maxFiles

end Output

/-- On a quiet disk an operation succeeds and leaves a quiet disk. -/
theorem Disk.Quiet.advance {disk : Disk} (quiet : disk.Quiet) :
    disk.advance.Quiet where
  faults := faults_advance quiet.faults
  alone := quiet.alone

theorem Disk.createDirAll_spec (maxFiles : Nat) (partition : Partition) :
    Ensures (Disk.Continues maxFiles partition) Disk.createDirAll
      (fun _ => Disk.Continues maxFiles partition) (fun _ _ => False) := by
  refine Ensures.of_each fun disk continues => ?_
  refine (operation_ok continues.quiet.faults _ _).mono ?_ fun _ _ => id
  intro _ after done
  obtain ⟨-, rfl⟩ := Prod.mk.inj done
  exact ⟨⟨continues.sound.distinct, continues.sound.fresh⟩,
    continues.quiet.advance, continues.opened⟩

/-- A writer opened on a partition holds it. -/
theorem RotatingWriter.open_spec
    {maxBytes maxFiles : Nat}
    (positive : 0 < maxFiles)
    (partition : Partition) :
    Ensures (Disk.Continues maxFiles partition)
      (RotatingWriter.open maxBytes maxFiles)
      (fun writer disk =>
        Output.Holds maxBytes maxFiles partition { writer, disk })
      (fun _ _ => False) := by
  refine (Disk.createDirAll_spec maxFiles partition).andThen (fun _ _ => id)
    fun _ disk continues => ?_
  refine (Disk.openFile_spec false continues.sound).andThen
    (fun _ _ failed =>
      Disk.faults_ne_nil_of_not_calm failed.1 continues.quiet.faults)
    fun inode opened made => ?_
  obtain ⟨sound, current, stored, foreign, faults⟩ := made
  have quiet := continues.quiet.of_keeps foreign faults
  have files : opened.stored = partition.files maxFiles :=
    stored.trans continues.opened
  have first : opened.contents inode = render partition.current := by
    have held := congrFun files 0
    rw [Disk.stored, Slots.map_apply, current,
      partition.files_of_lt positive] at held
    exact Option.some.inj held
  refine (Disk.operation_ok quiet.faults _ _).andThen (fun _ _ => id)
    fun size measured done => ?_
  obtain ⟨rfl, rfl⟩ := Prod.mk.inj done
  refine Ensures.pure ?_
  rintro _ rfl
  exact
    { sound := ⟨sound.distinct, sound.fresh⟩
      quiet := quiet.advance
      current := current
      slot := (Output.slot_of_drained rfl).trans files
      size := congrArg List.length first
      maxBytes := rfl
      maxFiles := Nat.max_eq_left positive }

/-- Work that ends with an empty buffer leaves what it has written. -/
theorem RotatingWriter.using_spec
    {writer : RotatingWriter}
    {attempt : Attempt IoError Output α}
    {before : Output → Prop}
    {after : α → Disk → Prop}
    {failed : IoError → Disk → Prop}
    (ensures : Ensures before attempt
      (fun value output => output.writer.file.buffer = [] ∧
        after value output.disk)
      (fun _ _ => False)) :
    Ensures (fun disk => before { writer, disk }) (writer.using attempt)
      after failed := by
  intro disk holds
  obtain ⟨value, output, ended, drained, done⟩ := ensures.exists_ok holds
  unfold RotatingWriter.using
  rw [ended]
  dsimp only
  rw [Output.flushBuf, if_pos drained]
  exact done

/-- A run of the program adds its lines to the partition. -/
theorem session_spec
    {maxBytes maxFiles : Nat}
    (positive : 0 < maxFiles)
    (partition : Partition)
    (lines : List (List UInt8)) :
    Ensures (Disk.Continues maxFiles partition)
      (session maxBytes maxFiles lines)
      (fun _ => Disk.Stores maxFiles
        (lines.foldl (Partition.add maxBytes) partition))
      (fun _ _ => False) := by
  refine Ensures.bind (RotatingWriter.open_spec positive partition)
    fun writer => RotatingWriter.using_spec ?_
  have written : Ensures (Output.Holds maxBytes maxFiles partition)
      (lines.forM Output.writeLine)
      (fun _ => Output.Holds maxBytes maxFiles
        (lines.foldl (Partition.add maxBytes) partition))
      (fun _ _ => False) :=
    Ensures.forM lines
      (fun reached line _ => Output.writeLine_spec positive reached line)
      partition
  refine written.andThen (fun _ _ => id) fun _ output holds => ?_
  refine (Output.sync_ok output).mono ?_
    fun _ _ faulty => faulty holds.quiet.faults
  rintro _ after ⟨wrote, drained⟩
  have synced := holds.flushed wrote
  exact ⟨drained, synced.sound, synced.quiet,
    (Output.slot_of_drained drained).symm.trans synced.slot⟩

/-- Runs of the program that start in an empty directory partition all lines
they write. -/
theorem sessions_spec
    {maxBytes maxFiles : Nat}
    {sessions : List (List (List UInt8))}
    (positive : 0 < maxFiles)
    (started : sessions ≠ []) :
    Ensures (Disk.empty = ·) (sessions.forM (session maxBytes maxFiles))
      (fun _ => Disk.Stores maxFiles
        (Partition.of maxBytes sessions.flatten))
      (fun _ _ => False) := by
  obtain ⟨first, rest, rfl⟩ := List.exists_cons_of_ne_nil started
  rw [Partition.of, List.foldl_flatten]
  refine Ensures.bind
    ((session_spec positive Partition.empty first).strengthen ?_) fun _ => ?_
  · rintro _ rfl
    exact Disk.empty_continues positive
  refine Ensures.forM rest (fun reached lines _ => ?_) _
  exact (session_spec positive reached lines).strengthen
    fun _ stores => stores.continues positive

/-! ## What the files hold -/

theorem Disk.Stores.read_path
    {maxFiles : Nat}
    {partition : Partition}
    {disk : Disk}
    (stores : disk.Stores maxFiles partition)
    (index : Nat) :
    disk.read (path index) = partition.files maxFiles index :=
  congrFun stores.stored index

theorem Disk.Stores.read_foreign
    {maxFiles : Nat}
    {partition : Partition}
    {disk : Disk}
    (stores : disk.Stores maxFiles partition)
    {name : String}
    (foreign : ∀ index, name ≠ path index) :
    disk.read name = none := by
  rw [Disk.read, stores.quiet.alone name foreign]
  rfl

/-- What can be read is a group of the partition in its place. -/
theorem Disk.Stores.exists_of_read
    {maxFiles : Nat}
    {partition : Partition}
    {disk : Disk}
    {name : String}
    {bytes : List UInt8}
    (stores : disk.Stores maxFiles partition)
    (held : disk.read name = some bytes) :
    ∃ index < maxFiles, name = path index ∧
      ∃ group ∈ partition.groups, bytes = render group := by
  by_cases foreign : ∀ index, name ≠ path index
  · rw [stores.read_foreign foreign] at held
    contradiction
  · obtain ⟨index, same⟩ := not_forall_not.mp foreign
    rw [same, stores.read_path] at held
    by_cases low : index < maxFiles
    · rw [partition.files_of_lt low, Option.map_eq_some_iff] at held
      obtain ⟨group, found, rfl⟩ := held
      exact ⟨index, low, same, group, List.mem_of_getElem? found, rfl⟩
    · rw [partition.files_of_le (Nat.le_of_not_lt low)] at held
      contradiction

/-- The files under all names are determined by the partition. -/
theorem Disk.Stores.read_eq
    {maxFiles : Nat}
    {partition : Partition}
    {left right : Disk}
    (storesLeft : left.Stores maxFiles partition)
    (storesRight : right.Stores maxFiles partition)
    (name : String) :
    left.read name = right.read name := by
  by_cases foreign : ∀ index, name ≠ path index
  · rw [storesLeft.read_foreign foreign, storesRight.read_foreign foreign]
  · obtain ⟨index, same⟩ := not_forall_not.mp foreign
    rw [same, storesLeft.read_path, storesRight.read_path]

/-- The lines of the newest groups, in order. -/
theorem Disk.Stores.logged
    {maxFiles : Nat}
    {partition : Partition}
    {disk : Disk}
    (stores : disk.Stores maxFiles partition) :
    disk.logged maxFiles =
      render (partition.groups.take maxFiles).reverse.flatten := by
  have files : (fun index => disk.read (path index)) =
      partition.files maxFiles := funext stores.read_path
  rw [Disk.logged, files, List.filterMap_reverse, ← Slots.listed,
    Partition.listed_files, render_flatten, List.map_reverse]

/-- The lines of the newest groups are the last lines. -/
theorem Partition.newest_suffix (maxFiles : Nat) (partition : Partition) :
    (partition.groups.take maxFiles).reverse.flatten <:+ partition.lines := by
  refine ⟨(partition.groups.drop maxFiles).reverse.flatten, ?_⟩
  rw [← List.flatten_append, ← List.reverse_append, List.take_append_drop]
  rfl

/-- The log keeps exactly the newest lines: the current file holds the last
group, the file with an index the group that many places before it, and there
are no others.  The files in order hold whole lines, the last ones written. -/
structure KeepsNewest (maxBytes maxFiles : Nat) (lines : List (List UInt8))
    (disk : Disk) : Prop where
  current : disk.read fileName =
    some (render (Partition.of maxBytes lines).current)
  rotated : ∀ index, 1 ≤ index → index < maxFiles →
    disk.read (path index) =
      ((Partition.of maxBytes lines).group index).map render
  alone : ∀ name, (disk.read name).isSome →
    ∃ index < maxFiles, name = path index
  whole : render (linesOf (disk.logged maxFiles)) = disk.logged maxFiles
  newest : linesOf (disk.logged maxFiles) <:+ lines
  bounded : ∀ name bytes, disk.read name = some bytes →
    bytes.length ≤ maxBytes ∨ ∃ line ∈ lines, bytes = lineBytes line

theorem Disk.Stores.keepsNewest
    {maxBytes maxFiles : Nat}
    {lines : List (List UInt8)}
    {disk : Disk}
    (positive : 0 < maxFiles)
    (newlineFree : ∀ line ∈ lines, newline ∉ line)
    (stores : disk.Stores maxFiles (Partition.of maxBytes lines)) :
    KeepsNewest maxBytes maxFiles lines disk := by
  have lineage := Partition.lines_of maxBytes lines
  have suffix := Partition.newest_suffix maxFiles (Partition.of maxBytes lines)
  rw [lineage] at suffix
  have read : linesOf (disk.logged maxFiles) =
      ((Partition.of maxBytes lines).groups.take maxFiles).reverse.flatten := by
    rw [stores.logged]
    exact linesOf_render fun line member =>
      newlineFree line (suffix.subset member)
  refine
    { current := ?_
      rotated := fun index _ low => ?_
      alone := fun name present => ?_
      whole := ?_
      newest := ?_
      bounded := fun name bytes held => ?_ }
  · rw [show fileName = path 0 from rfl, stores.read_path,
      Partition.files_of_lt _ positive]
    rfl
  · rw [stores.read_path, Partition.files_of_lt _ low]
  · obtain ⟨bytes, held⟩ := Option.isSome_iff_exists.mp present
    obtain ⟨index, low, same, -⟩ := stores.exists_of_read held
    exact ⟨index, low, same⟩
  · rw [read, stores.logged]
  · rw [read]
    exact suffix
  · obtain ⟨index, low, same, group, member, rfl⟩ := stores.exists_of_read held
    rcases Partition.fits_of maxBytes lines group member with small | single
    · exact .inl small
    · obtain ⟨line, rfl⟩ := single
      refine .inr ⟨line, ?_, render_singleton line⟩
      rw [← lineage]
      exact List.mem_flatten_of_mem (List.mem_reverse.mpr member)
        (List.mem_singleton_self line)

/-- The rotating writer keeps exactly the newest lines, whole and in order,
across any number of runs of the program, wherever it was restarted. -/
theorem sessions_keepNewest
    {maxBytes maxFiles : Nat}
    {sessions : List (List (List UInt8))}
    (positive : 1 ≤ maxFiles)
    (started : sessions ≠ [])
    (newlineFree : ∀ line ∈ sessions.flatten, newline ∉ line) :
    ∃ disk,
      sessions.forM (session maxBytes maxFiles) Disk.empty = (.ok (), disk) ∧
      KeepsNewest maxBytes maxFiles sessions.flatten disk ∧
      ∀ others, others ≠ [] → others.flatten = sessions.flatten →
        ∃ other,
          others.forM (session maxBytes maxFiles) Disk.empty =
            (.ok (), other) ∧
          ∀ name, other.read name = disk.read name := by
  obtain ⟨_, disk, ended, stores⟩ :=
    (sessions_spec positive started).exists_ok rfl
  refine ⟨disk, ended, stores.keepsNewest positive newlineFree,
    fun others startedOthers same => ?_⟩
  obtain ⟨_, other, endedOther, storesOther⟩ :=
    (sessions_spec positive startedOthers).exists_ok rfl
  rw [same] at storesOther
  exact ⟨other, endedOther, storesOther.read_eq stores⟩

/-- Five lines in two runs, two lines to a file and two files. -/
def twoRuns : List (List (List UInt8)) :=
  [[[97], [98], [99]], [[100], [101]]]

/-- The second run continues the file of the first and rotates once more. -/
theorem twoRuns_keepNewest :
    ∃ disk,
      twoRuns.forM (session 5 2) Disk.empty = (.ok (), disk) ∧
      disk.read "telemetry.ndjson" = some [101, 10] ∧
      disk.read "telemetry.ndjson.1" = some [99, 10, 100, 10] := by
  obtain ⟨disk, ended, keeps, -⟩ :=
    @sessions_keepNewest 5 2 twoRuns (by decide) (by decide) (by decide)
  exact ⟨disk, ended, keeps.current.trans (by decide),
    (keeps.rotated 1 (by decide) (by decide)).trans (by decide)⟩

end Telemetryd
end TelemetryEdge
