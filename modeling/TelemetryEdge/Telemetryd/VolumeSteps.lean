import TelemetryEdge.Telemetryd.Rotation
import TelemetryEdge.Telemetryd.Volumes

/-!
# The writer keeps the volumes

On a disk without faults the writer and its files, with what is buffered, are
the volumes of the lines written so far.  A kill leaves of the buffer what a
flush has stored by then, and a writer that is opened on what a kill has left
goes on behind it.
-/

namespace TelemetryEdge
namespace Telemetryd

open Attempt

/-- The open writer and its files hold some volumes. -/
structure Output.Keeps (maxBytes maxFiles : Nat) (volumes : Volumes)
    (output : Output) : Prop where
  sound : output.disk.Sound
  quiet : output.disk.Quiet
  current : output.disk.slot 0 = some output.writer.file.inode
  slot : output.slot = volumes.files maxFiles
  size : output.writer.size = volumes.current.length
  maxBytes : output.writer.maxBytes = maxBytes
  maxFiles : output.writer.maxFiles = maxFiles

/-- The files hold some volumes, and no program has them open. -/
structure Disk.Leaves (maxFiles : Nat) (volumes : Volumes)
    (disk : Disk) : Prop where
  sound : disk.Sound
  quiet : disk.Quiet
  stored : disk.stored = volumes.files maxFiles

/-- The files hold some volumes once the current file has been created. -/
structure Disk.Resumes (maxFiles : Nat) (volumes : Volumes)
    (disk : Disk) : Prop where
  sound : disk.Sound
  quiet : disk.Quiet
  opened : disk.stored.put 0 (some ((disk.stored 0).getD [])) =
    volumes.files maxFiles

namespace Output

variable {maxBytes maxFiles : Nat} {volumes : Volumes}
variable {before after output : Output}

theorem Keeps.content_current
    (keeps : output.Keeps maxBytes maxFiles volumes)
    (positive : 0 < maxFiles) :
    output.content output.writer.file.inode = volumes.current := by
  have first := congrFun keeps.slot 0
  rw [Output.slot, Slots.map_apply, keeps.current, Volumes.files, Slots.ofList,
    if_pos positive] at first
  exact Option.some.inj first

/-- A line written to the current file. -/
theorem Keeps.push
    {line : List UInt8}
    (keeps : before.Keeps maxBytes maxFiles volumes)
    (positive : 0 < maxFiles)
    (wrote : Wrote (lineBytes line) before after) :
    Keeps maxBytes maxFiles (volumes.push line)
      { after with
        writer.size := after.writer.size + (line.length + 1) } where
  sound := wrote.sound keeps.sound
  quiet := keeps.quiet.of_keeps
    (fun name _ => congrArg (fun map => map.lookup name) wrote.directory)
    wrote.faults
  current := by
    change after.disk.slot 0 = some after.writer.file.inode
    rw [wrote.diskSlot, wrote.inode, keeps.current]
  slot := by
    refine (wrote.slot_eq_put keeps.sound keeps.current).trans ?_
    rw [keeps.content_current positive, keeps.slot]
    exact Slots.put_ofList positive ..
  size := by
    change after.writer.size + (line.length + 1) = _
    rw [wrote.size, keeps.size, Volumes.push, List.length_append,
      length_lineBytes]
  maxBytes := wrote.maxBytes.trans keeps.maxBytes
  maxFiles := wrote.maxFiles.trans keeps.maxFiles

/-- A flush changes nothing. -/
theorem Keeps.flushed
    (keeps : before.Keeps maxBytes maxFiles volumes)
    (wrote : Wrote [] before after) :
    after.Keeps maxBytes maxFiles volumes where
  sound := wrote.sound keeps.sound
  quiet := keeps.quiet.of_keeps
    (fun name _ => congrArg (fun map => map.lookup name) wrote.directory)
    wrote.faults
  current := by rw [wrote.diskSlot, wrote.inode, keeps.current]
  slot := wrote.slot.trans keeps.slot
  size := wrote.size.trans keeps.size
  maxBytes := wrote.maxBytes.trans keeps.maxBytes
  maxFiles := wrote.maxFiles.trans keeps.maxFiles

/-- A rotation closes the current file. -/
theorem rotate_keeps
    (positive : 0 < maxFiles)
    (volumes : Volumes) :
    Ensures (Keeps maxBytes maxFiles volumes) rotate
      (fun _ => Keeps maxBytes maxFiles volumes.close)
      (fun _ _ => False) := by
  refine Ensures.of_each fun output keeps => ?_
  refine (rotate_ok keeps.sound).mono ?_
    fun _ _ faulty => faulty keeps.quiet.faults
  rintro _ after ⟨sound, current, slot, writer, foreign, faults⟩
  refine ⟨sound, keeps.quiet.of_keeps foreign faults, current, ?_, ?_, ?_, ?_⟩
  · rw [slot, keeps.slot, keeps.maxFiles, volumes.cascade_files positive]
  · rw [writer]
    rfl
  · rw [writer]
    exact keeps.maxBytes
  · rw [writer]
    exact keeps.maxFiles

/-- Every line is added to the volumes. -/
theorem writeLine_keeps
    (positive : 0 < maxFiles)
    (volumes : Volumes)
    (line : List UInt8) :
    Ensures (Keeps maxBytes maxFiles volumes) (writeLine line)
      (fun _ => Keeps maxBytes maxFiles (volumes.add maxBytes line))
      (fun _ _ => False) := by
  refine Ensures.of_each fun output keeps => ?_
  have same : output.overflows line ↔ volumes.overflows maxBytes line := by
    rw [overflows, Volumes.overflows, keeps.size, keeps.maxBytes,
      List.length_pos_iff]
  let opened :=
    if volumes.overflows maxBytes line then volumes.close else volumes
  have grows : volumes.add maxBytes line = opened.push line :=
    (apply_ite (Volumes.push · line) ..).symm
  have rotated : Ensures (output = ·)
      (runIf (output.overflows line) rotate)
      (fun _ => Keeps maxBytes maxFiles opened) (fun _ _ => False) := by
    refine Ensures.runIf (fun starts => ?_) fun joins _ unchanged => ?_
    · rw [show opened = volumes.close from if_pos (same.mp starts)]
      exact (rotate_keeps positive volumes).from_state keeps
    · rw [show opened = volumes from if_neg (mt same.mpr joins)]
      exact unchanged ▸ keeps
  refine (writeLine_ok rotated fun _ now => now.quiet.faults).mono ?_
    fun _ _ => id
  rintro _ _ ⟨current, whole, now, wrote, rfl⟩
  rw [grows]
  exact now.push positive wrote

/-- No more than a number of bytes is buffered. -/
def Pending (count : Nat) (output : Output) : Prop :=
  output.writer.file.buffer.length ≤ count

theorem flushBuf_pending (count : Nat) :
    Ensures (Pending count) flushBuf (fun _ => Pending count)
      (fun _ => Pending count) := by
  intro output pending
  by_cases empty : output.writer.file.buffer = []
  · rw [flushBuf, if_pos empty]
    exact pending
  · rw [flushBuf_of_buffered empty]
    have shorter : (output.writer.file.buffer.drop
        (output.writeFile output.writer.file.buffer).1).length ≤ count := by
      rw [List.length_drop]
      exact (Nat.sub_le _ _).trans pending
    dsimp only
    by_cases short : (output.writeFile output.writer.file.buffer).1 <
        output.writer.file.buffer.length
    · rw [if_pos short]
      exact shorter
    · rw [if_neg short]
      exact shorter

/-- A write adds no more than its bytes to the buffer. -/
theorem writeAll_pending (count : Nat) (bytes : List UInt8) :
    Ensures (Pending count) (writeAll bytes)
      (fun _ => Pending (count + bytes.length))
      (fun _ => Pending (count + bytes.length)) := by
  have more {output : Output} (pending : output.Pending count) :
      output.Pending (count + bytes.length) :=
    Nat.le_add_right_of_le pending
  have added : Ensures (Pending count) (buffer bytes)
      (fun _ => Pending (count + bytes.length))
      (fun _ => Pending (count + bytes.length)) :=
    Ensures.modify fun output pending =>
      (List.length_append ..).trans_le (Nat.add_le_add_right pending _)
  refine Ensures.of_each fun output pending => Ensures.bind_read ?_
  dsimp only
  split
  · exact added.from_state pending
  · have made : Ensures (output = ·)
        (runIf (BufWriter.capacity - output.writer.file.buffer.length <
          bytes.length) flushBuf)
        (fun _ => Pending count) (fun _ => Pending (count + bytes.length)) := by
      refine Ensures.runIf (fun _ => ?_) fun _ _ same => same ▸ pending
      exact ((flushBuf_pending count).from_state pending).mono
        (fun _ _ => id) fun _ _ => more
    refine made.bind fun _ => ?_
    split
    · intro middle kept
      rw [writeDirect_eq]
      dsimp only
      by_cases short : (middle.writeFile bytes).1 < bytes.length
      · rw [if_pos short]
        exact more kept
      · rw [if_neg short]
        exact more kept
    · exact added

theorem onDisk_pending (count : Nat) (attempt : Attempt IoError Disk α) :
    Ensures (Pending count) (onDisk attempt) (fun _ => Pending count)
      (fun _ => Pending count) := by
  intro output pending
  unfold onDisk
  rcases attempt output.disk with ⟨error | value, disk⟩ <;> exact pending

theorem rotate_pending (count : Nat) :
    Ensures (Pending count) rotate (fun _ => Pending count)
      (fun _ => Pending count) := by
  refine (flushBuf_pending count).bind fun _ =>
    Ensures.of_each fun output pending => Ensures.bind_read ?_
  refine ((onDisk_pending count _).from_state pending).bind fun _ =>
    (onDisk_pending count _).bind fun _ => Ensures.modify fun _ _ => ?_
  exact Nat.zero_le count

/-- A line adds no more than its bytes to the buffer. -/
theorem writeLine_pending (count : Nat) (line : List UInt8) :
    Ensures (Pending count) (writeLine line)
      (fun _ => Pending (count + (line.length + 1)))
      (fun _ => Pending (count + (line.length + 1))) := by
  have more {fewer : Nat} (within : fewer ≤ line.length + 1) {output : Output}
      (pending : output.Pending (count + fewer)) :
      output.Pending (count + (line.length + 1)) :=
    Nat.le_trans pending (Nat.add_le_add_left within count)
  refine Ensures.of_each fun output pending => Ensures.bind_read ?_
  have rotated : Ensures (output = ·)
      (runIf (output.overflows line) rotate) (fun _ => Pending count)
      (fun _ => Pending (count + (line.length + 1))) := by
    refine Ensures.runIf (fun _ => ?_) fun _ _ same => same ▸ pending
    exact ((rotate_pending count).from_state pending).mono (fun _ _ => id)
      fun _ _ => more (Nat.zero_le _)
  refine rotated.bind fun _ => ?_
  refine Ensures.bind ((writeAll_pending count line).mono (fun _ _ => id)
    fun _ _ => more (Nat.le_succ _)) fun _ => ?_
  exact (writeAll_pending _ [newline]).bind fun _ =>
    Ensures.modify fun _ kept => kept

/-- What a kill leaves on the disk when a flush has stored some of the
buffer. -/
def killed (output : Output) (stored : Nat) : Disk :=
  { output.disk with
    contents := Function.update output.disk.contents output.writer.file.inode
      (output.disk.contents output.writer.file.inode ++
        output.writer.file.buffer.take stored) }

/-- A kill cuts what is left of the buffer off the current file. -/
theorem Keeps.killed
    (keeps : output.Keeps maxBytes maxFiles volumes)
    (positive : 0 < maxFiles)
    (stored : Nat) :
    (output.killed stored).Leaves maxFiles
      (volumes.cut (output.writer.file.buffer.length - stored)) where
  sound := ⟨keeps.sound.distinct, keeps.sound.fresh⟩
  quiet := ⟨keeps.quiet.faults, keeps.quiet.alone⟩
  stored := by
    have apart (index : Nat) (other : index ≠ 0) :
        output.disk.slot index ≠ some output.writer.file.inode := fun held =>
      other (keeps.sound.distinct index 0 _ held keeps.current)
    have change (bytes : List UInt8) :
        output.disk.slot.map (Function.update output.disk.contents
            output.writer.file.inode bytes) =
          output.disk.stored.put 0 (some bytes) := by
      rw [Disk.stored, ← Slots.map_update_put _ _ apart,
        Slots.put_eq_self keeps.current]
    have held := keeps.content_current positive
    rw [content_self] at held
    have left : output.disk.contents output.writer.file.inode ++
        output.writer.file.buffer.take stored =
          volumes.current.rdrop (output.writer.file.buffer.length - stored) := by
      rw [← held, rdrop_append_of_le (Nat.sub_le _ _), List.rdrop]
      congr 1
      rw [List.take_eq_take_iff]
      omega
    have whole : output.slot = output.disk.stored.put 0
        (some volumes.current) := by
      rw [← change, ← held]
      refine congrArg (Slots.map · output.disk.slot) (funext fun inode => ?_)
      by_cases opened : inode = output.writer.file.inode
      · rw [opened, Function.update_self, content_self]
      · rw [Function.update_of_ne opened, content, if_neg opened,
          List.append_nil]
    refine (change _).trans ?_
    rw [left]
    calc output.disk.stored.put 0 (some (volumes.current.rdrop _))
      _ = output.slot.put 0 (some (volumes.current.rdrop _)) := by
        rw [whole, Slots.put_put]
      _ = _ := by
        rw [keeps.slot]
        exact Slots.put_ofList positive ..

end Output

/-- Without faults opening the writer makes sure that there is a current file,
and reads its size. -/
theorem RotatingWriter.open_ok
    (maxBytes : Nat)
    {maxFiles : Nat}
    (positive : 0 < maxFiles)
    {disk : Disk}
    (sound : disk.Sound)
    (quiet : disk.Quiet) :
    Ensures (disk = ·) (RotatingWriter.open maxBytes maxFiles)
      (fun writer opened => opened.Sound ∧ opened.Quiet ∧
        opened.slot 0 = some writer.file.inode ∧
        opened.stored = disk.stored.put 0 (some ((disk.stored 0).getD [])) ∧
        writer =
          { maxBytes
            maxFiles
            file := BufWriter.new writer.file.inode
            size := (opened.contents writer.file.inode).length })
      (fun _ _ => False) := by
  refine (Disk.operation_ok quiet.faults .createDirAll
    fun disk => ((), disk)).andThen (fun _ _ => id) fun _ made done => ?_
  obtain ⟨-, rfl⟩ := Prod.mk.inj done
  have calm := quiet.advance
  have moved : disk.advance.Sound := ⟨sound.distinct, sound.fresh⟩
  refine (Disk.openFile_spec false moved).andThen
    (fun _ _ failed => Disk.faults_ne_nil_of_not_calm failed.1 calm.faults)
    fun inode opened found => ?_
  obtain ⟨soundOpened, current, stored, foreign, faults⟩ := found
  have still := calm.of_keeps foreign faults
  refine (Disk.operation_ok still.faults _ _).andThen (fun _ _ => id)
    fun size measured read => ?_
  obtain ⟨rfl, rfl⟩ := Prod.mk.inj read
  refine Ensures.pure ?_
  rintro _ rfl
  refine ⟨⟨soundOpened.distinct, soundOpened.fresh⟩, still.advance, current,
    stored, ?_⟩
  rw [Nat.max_eq_left positive]
  rfl

/-- A writer opened on some volumes keeps them, with nothing buffered. -/
theorem Disk.Resumes.keeps
    {maxBytes maxFiles : Nat}
    {volumes : Volumes}
    {disk opened : Disk}
    {writer : RotatingWriter}
    (resumes : disk.Resumes maxFiles volumes)
    (positive : 0 < maxFiles)
    (success : RotatingWriter.open maxBytes maxFiles disk =
      (.ok writer, opened)) :
    Output.Keeps maxBytes maxFiles volumes { writer, disk := opened } ∧
      writer.file.buffer = [] := by
  have result := RotatingWriter.open_ok maxBytes positive resumes.sound
    resumes.quiet disk rfl
  rw [success] at result
  obtain ⟨sound, quiet, current, stored, same⟩ := result
  have drained : writer.file.buffer = [] := by rw [same, BufWriter.new]
  have files : opened.stored = volumes.files maxFiles :=
    stored.trans resumes.opened
  have first : opened.contents writer.file.inode = volumes.current := by
    have held := congrFun files 0
    rw [Disk.stored, Slots.map_apply, current, Volumes.files, Slots.ofList,
      if_pos positive] at held
    exact Option.some.inj held
  refine ⟨⟨sound, quiet, current, ?_, ?_, ?_, ?_⟩, drained⟩
  · exact (Output.slot_of_drained drained).trans files
  · rw [← first, same]
    rfl
  · rw [same]
  · rw [same]

namespace Disk.Leaves

variable {maxFiles : Nat} {volumes : Volumes} {disk : Disk}

/-- What a run has left can be gone on with. -/
theorem resumes
    (leaves : disk.Leaves maxFiles volumes)
    (positive : 0 < maxFiles) :
    disk.Resumes maxFiles volumes where
  sound := leaves.sound
  quiet := leaves.quiet
  opened := by
    have first : disk.stored 0 = some volumes.current := by
      rw [leaves.stored, Volumes.files, Slots.ofList, if_pos positive]
      rfl
    rw [first, Option.getD_some, Slots.put_eq_self first, leaves.stored]

theorem read_path (leaves : disk.Leaves maxFiles volumes) (index : Nat) :
    disk.read (path index) = volumes.files maxFiles index :=
  congrFun leaves.stored index

/-- What can be read is one of the volumes in its place. -/
theorem exists_of_read
    {name : String}
    {bytes : List UInt8}
    (leaves : disk.Leaves maxFiles volumes)
    (held : disk.read name = some bytes) :
    ∃ index < maxFiles, name = path index ∧ bytes ∈ volumes.all := by
  by_cases foreign : ∀ index, name ≠ path index
  · rw [Disk.read, leaves.quiet.alone name foreign] at held
    cases held
  · obtain ⟨index, same⟩ := not_forall_not.mp foreign
    rw [same, leaves.read_path, Volumes.files, Slots.ofList] at held
    split at held
    · next low => exact ⟨index, low, same, List.mem_of_getElem? held⟩
    · cases held

/-- The log read in order is the last part of the text. -/
theorem logged_suffix (leaves : disk.Leaves maxFiles volumes) :
    disk.logged maxFiles <:+ volumes.text := by
  have files : (fun index => disk.read (path index)) =
      volumes.files maxFiles := funext leaves.read_path
  rw [Disk.logged, files, List.filterMap_reverse, ← Slots.listed]
  exact volumes.newest_suffix maxFiles

end Disk.Leaves

/-- A program that starts in an empty directory starts with empty volumes. -/
theorem Disk.empty_resumes
    {maxFiles : Nat}
    (positive : 0 < maxFiles) :
    Disk.empty.Resumes maxFiles Volumes.empty where
  sound :=
    { distinct := fun _ _ _ held => by cases held
      fresh := fun _ _ held => by cases held }
  quiet := ⟨rfl, fun _ _ => rfl⟩
  opened := by
    funext index
    cases index with
    | zero => exact (if_pos positive).symm
    | succ index =>
        have nothing : Volumes.empty.files maxFiles (index + 1) = none := by
          unfold Volumes.files Slots.ofList
          split <;> rfl
        rw [nothing]
        rfl

end Telemetryd
end TelemetryEdge
