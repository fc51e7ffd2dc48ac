import TelemetryEdge.Telemetryd.FailedRotation

/-!
# How much a failing write has appended

A write through the buffer that fails has appended nothing, unless it was a
direct write that stopped after some bytes.  The line feed of a line needs a
flush exactly if the line has just filled the buffer.  A rotation that fails has
appended nothing and leaves files of the log where they were or moves them.
-/

namespace TelemetryEdge
namespace Telemetryd

open Attempt

namespace Disk

/-- Files have been renamed or removed, and nothing else has changed. -/
structure Moved (before after : Disk) : Prop where
  relinked : Relinked before after
  slots : Slots.Rearranges before.slot after.slot

namespace Moved

theorem refl (disk : Disk) : Moved disk disk :=
  ⟨Relinked.refl disk, Slots.Rearranges.refl disk.slot⟩

theorem trans
    {first second third : Disk}
    (early : Moved first second)
    (late : Moved second third) :
    Moved first third :=
  ⟨early.relinked.trans late.relinked, early.slots.trans late.slots⟩

theorem sound
    {before after : Disk}
    (moved : Moved before after)
    (sound : before.Sound) :
    after.Sound where
  distinct := moved.slots.distinct sound.distinct
  fresh index inode held := by
    obtain ⟨source, earlier⟩ := moved.slots.source index inode held
    rw [moved.relinked.nextInode]
    exact sound.fresh source inode earlier

end Moved

/-- A round of a rotation moves files, whether it succeeds or fails. -/
theorem shift_moved (start : Disk) (index : Nat) :
    Ensures (Moved start) (shift (index + 1))
      (fun _ => Moved start) (fun _ => Moved start) := by
  refine Ensures.of_each fun disk moved => ?_
  refine (shift_spec index disk).mono ?_ ?_
  · rintro _ after ⟨relinked, raised, -⟩
    refine moved.trans ⟨relinked, ?_⟩
    rw [raised]
    exact Slots.Rearranges.raise disk.slot index
  · rintro _ after ⟨relinked, -, cleared⟩
    refine moved.trans ⟨relinked, ?_⟩
    rw [cleared, Disk.cleared]
    split
    · exact Slots.Rearranges.put_none disk.slot (index + 1)
    · exact Slots.Rearranges.refl disk.slot

/-- So does a cascade. -/
theorem countdown_shift_moved (count : Nat) (disk : Disk) :
    Ensures (disk = ·) (countdown shift count)
      (fun _ => Moved disk) (fun _ => Moved disk) := by
  let invariant : Nat → Disk → Prop := fun _ => Moved disk
  have rounds : Ensures (invariant count) (countdown shift count)
      (fun _ => invariant 0) (fun _ => Moved disk) :=
    Ensures.countdown count fun left _ => shift_moved disk left
  exact rounds.strengthen fun _ same => same ▸ Moved.refl disk

end Disk

namespace Output

/-- Nothing has been appended, but files may have been moved. -/
structure Moved (before after : Output) : Prop where
  content : after.content = before.content
  sound : before.disk.Sound → after.disk.Sound
  source : ∀ index inode, after.disk.slot index = some inode →
    ∃ other, before.disk.slot other = some inode
  inode : after.writer.file.inode = before.writer.file.inode
  size : after.writer.size = before.writer.size

theorem Wrote.moved
    {before after : Output}
    (flushed : Wrote [] before after) :
    Moved before after where
  content := flushed.content_eq
  sound := flushed.sound
  source index _ held := ⟨index, flushed.diskSlot ▸ held⟩
  inode := flushed.inode
  size := flushed.size

/-- Files moved on the disk after a flush. -/
theorem Wrote.moved_of_disk
    {output flushed after : Output}
    (wrote : Wrote [] output flushed)
    (moved : Disk.Moved flushed.disk after.disk)
    (unwritten : after.writer = flushed.writer) :
    Moved output after where
  content := by
    have same : after.content = flushed.content := by
      funext inode
      rw [Output.content, Output.content, moved.relinked.contents, unwritten]
    rw [same, wrote.content_eq]
  sound sound := moved.sound (wrote.sound sound)
  source index inode held := by
    obtain ⟨other, earlier⟩ := moved.slots.source index inode held
    exact ⟨other, wrote.diskSlot ▸ earlier⟩
  inode := by rw [unwritten, wrote.inode]
  size := by rw [unwritten, wrote.size]

/-- A rotation that fails appends nothing. -/
theorem rotate_moved (output : Output) :
    Ensures (output = ·) rotate
      (fun _ _ => True) (fun _ => Moved output) := by
  refine (flushBuf_spec output).andThen
    (fun _ _ failed => failed.1.moved) fun _ flushed made => ?_
  obtain ⟨wrote, -, -⟩ := made
  refine Ensures.bind_read ?_
  refine (onDisk_spec (Disk.countdown_shift_moved _ flushed.disk)).andThen
    ?_ fun _ shifted done => ?_
  · rintro _ after ⟨moved, unwritten⟩
    exact wrote.moved_of_disk moved unwritten
  obtain ⟨moved, unwritten⟩ := done
  refine (onDisk_spec (Disk.operation_spec _ _ shifted.disk)).andThen ?_
    fun _ _ _ _ _ => trivial
  rintro _ after ⟨⟨-, stopped⟩, unopened⟩
  refine wrote.moved_of_disk ?_ (unopened.trans unwritten)
  rw [stopped]
  exact moved.trans ⟨Disk.advance_relinked shifted.disk,
    Slots.Rearranges.refl shifted.disk.slot⟩

/-- Whether a write of some bytes goes past the buffer and stops after some of
them. -/
def splits (output : Output) (bytes : List UInt8) : Prop :=
  BufWriter.capacity ≤ bytes.length ∧
    (output.writer.file.buffer = [] ∨ output.disk.calm) ∧
    ∃ written ∈ (if output.writer.file.buffer = [] then output.disk
        else output.disk.advance).faults.head?.join,
      0 < written

instance (output : Output) (bytes : List UInt8) :
    Decidable (output.splits bytes) :=
  inferInstanceAs (Decidable (_ ∧ _ ∧ ∃ written ∈ _, _))

/-- Whether a line just fills the buffer, so that its line feed needs a flush,
and this fails. -/
def strands (output : Output) (line : List UInt8) : Prop :=
  line ≠ [] ∧ line.length < BufWriter.capacity ∧
    output.writer.file.buffer.length + line.length = BufWriter.capacity ∧
    output.disk.calm = false

instance (output : Output) (line : List UInt8) :
    Decidable (output.strands line) :=
  inferInstanceAs (Decidable (_ ∧ _ ∧ _ ∧ _))

/-- A flush that fails has tried to write what was buffered. -/
theorem flushBuf_cases (output : Output) :
    Ensures (output = ·) flushBuf
      (fun _ after => Wrote [] output after ∧ after.writer.file.buffer = [] ∧
        (output.writer.file.buffer = [] ∨ output.disk.calm) ∧
        after.disk.faults =
          (if output.writer.file.buffer = [] then output.disk
            else output.disk.advance).faults)
      (fun _ after => Wrote [] output after ∧
        output.writer.file.buffer ≠ [] ∧ output.disk.calm = false) := by
  rintro _ rfl
  have spec := flushBuf_spec output output rfl
  by_cases buffered : output.writer.file.buffer = []
  · rw [flushBuf, if_pos buffered]
    exact ⟨Wrote.refl output, buffered, .inl buffered,
      by rw [if_pos buffered]⟩
  · have fails := writeFile_lt_iff output buffered
    rw [flushBuf_of_buffered buffered] at spec ⊢
    dsimp only at spec ⊢
    by_cases short : (output.writeFile output.writer.file.buffer).1 <
        output.writer.file.buffer.length
    · rw [if_pos short] at spec ⊢
      exact ⟨spec.1, buffered, fails.mp short⟩
    · rw [if_neg short] at spec ⊢
      refine ⟨spec.1, spec.2.1,
        .inr (eq_true_of_ne_false (mt fails.mpr short)), ?_⟩
      rw [if_neg buffered]
      rfl

/-- A direct write that fails has stored as many bytes as the fault says. -/
theorem writeDirect_cases
    {bytes : List UInt8}
    (long : 2 ≤ bytes.length)
    {output : Output}
    (drained : output.writer.file.buffer = []) :
    Ensures (output = ·) (writeDirect bytes)
      (fun _ after => Wrote bytes output after ∧
        after.writer.file.buffer = [] ∧
        ¬ ∃ written ∈ output.disk.faults.head?.join, 0 < written)
      (fun _ after => ∃ stored < bytes.length,
        Wrote (bytes.take stored) output after ∧
        (0 < stored ↔
          ∃ written ∈ output.disk.faults.head?.join, 0 < written)) := by
  rintro _ rfl
  have nonempty : bytes ≠ [] := List.length_pos_iff.mp (by omega)
  have spec := writeDirect_spec bytes drained output rfl
  have fails := writeFile_lt_iff output nonempty
  have wrote : Wrote (bytes.take (output.writeFile bytes).1) output
      (output.writeFile bytes).2 := by
    have split : output.writer.file.buffer ++
        bytes.take (output.writeFile bytes).1 =
          bytes.take (output.writeFile bytes).1 ++ [] := by
      rw [drained, List.nil_append, List.append_nil]
    have whole := wrote_writeFile split
    rwa [show (output.writeFile bytes).2.setBuffer [] =
      (output.writeFile bytes).2 by rw [← drained]; rfl] at whole
  rw [writeDirect_eq] at spec ⊢
  dsimp only at spec ⊢
  by_cases short : (output.writeFile bytes).1 < bytes.length
  · rw [if_pos short]
    refine ⟨_, short, wrote, ?_⟩
    unfold writeFile Disk.append at short ⊢
    cases fault : output.disk.faults.head?.join with
    | none =>
        rw [fault] at short
        exact absurd short (Nat.lt_irrefl _)
    | some written =>
        simp only [Option.mem_some_iff, exists_eq_left']
        omega
  · rw [if_neg short] at spec ⊢
    refine ⟨spec, drained, ?_⟩
    have calm : output.disk.calm = true :=
      eq_true_of_ne_false (mt fails.mpr short)
    rw [Disk.calm, Option.isNone_iff_eq_none] at calm
    rw [calm]
    rintro ⟨written, held, -⟩
    cases held

/-- Bytes put into the buffer. -/
theorem buffer_cases (bytes : List UInt8) (output : Output) :
    Ensures (output = ·) (buffer bytes)
      (fun _ after => Wrote bytes output after ∧
        after.disk = output.disk ∧
        after.writer.file.buffer = output.writer.file.buffer ++ bytes)
      (fun _ _ => False) := by
  rintro _ rfl
  exact ⟨buffer_spec bytes output output rfl, rfl, rfl⟩

/-- A line that overfills the buffer does not just fill it. -/
theorem not_strands_of_overfull
    {output : Output}
    {bytes : List UInt8}
    (overfull : BufWriter.capacity - output.writer.file.buffer.length <
      bytes.length) :
    ¬ output.strands bytes := by
  rintro ⟨-, -, full, -⟩
  omega

/-- Making room for bytes.  Bytes that are longer than the buffer find it empty;
shorter ones find it empty or with room for them. -/
theorem makeRoom_cases (output : Output) (bytes : List UInt8) :
    Ensures (output = ·)
      (runIf (BufWriter.capacity - output.writer.file.buffer.length <
        bytes.length) flushBuf)
      (fun _ after => Wrote [] output after ∧
        (BufWriter.capacity ≤ bytes.length →
          after.writer.file.buffer = [] ∧
          ((∃ written ∈ after.disk.faults.head?.join, 0 < written) ↔
            output.splits bytes)) ∧
        (bytes.length < BufWriter.capacity →
          (after.writer.file.buffer = [] ∧ ¬ output.strands bytes) ∨
            after = output ∧ bytes.length ≤
              BufWriter.capacity - output.writer.file.buffer.length))
      (fun _ after => Wrote [] output after ∧ bytes ≠ [] ∧
        ¬ output.splits bytes ∧ ¬ output.strands bytes) := by
  refine Ensures.runIf (fun overfull => ?_) fun room _ same => ?_
  · have unfilled := not_strands_of_overfull overfull
    refine (flushBuf_cases output).mono ?_ ?_
    · rintro _ after ⟨wrote, drained, reached, faults⟩
      refine ⟨wrote, fun long => ⟨drained, ?_⟩, fun _ => .inl ⟨drained, unfilled⟩⟩
      rw [faults]
      exact ⟨fun stops => ⟨long, reached, stops⟩, fun stops => stops.2.2⟩
    · rintro _ after ⟨wrote, buffered, stormy⟩
      refine ⟨wrote, List.length_pos_iff.mp (Nat.zero_lt_of_lt overfull), ?_,
        unfilled⟩
      rintro ⟨-, drained | calm, -⟩
      · exact absurd drained buffered
      · rw [stormy] at calm
        contradiction
  · subst same
    have room := Nat.le_of_not_lt room
    refine ⟨Wrote.refl output, fun long => ?_, fun _ => .inr ⟨rfl, room⟩⟩
    have positive : 0 < BufWriter.capacity := by decide
    have drained : output.writer.file.buffer = [] := by
      rw [← List.length_eq_zero_iff]
      omega
    refine ⟨drained, fun stops => ⟨long, .inl drained, ?_⟩, fun stops => ?_⟩
    · rwa [if_pos drained]
    · have head := stops.2.2
      rwa [if_pos drained] at head

/-- What is known of a write of some bytes that has succeeded. -/
structure Stored (bytes : List UInt8) (before after : Output) : Prop where
  wrote : Wrote bytes before after
  unsplit : ¬ before.splits bytes
  /-- A line feed after bytes that just fill the buffer needs a flush. -/
  full : before.strands bytes →
    BufWriter.capacity ≤ after.writer.file.buffer.length ∧
      after.disk.calm = false
  /-- It needs none after other bytes. -/
  strands : bytes ≠ [] →
    BufWriter.capacity ≤ after.writer.file.buffer.length →
      after.disk.calm = false → before.strands bytes

/-- What is known of a write of some bytes that has failed: it has stored some
of them if it was split, and nothing otherwise. -/
structure Stopped (bytes : List UInt8) (before after : Output) : Prop where
  wrote : ∃ stored < bytes.length, Wrote (bytes.take stored) before after ∧
    (0 < stored ↔ before.splits bytes)
  unfilled : ¬ before.strands bytes

/-- Bytes that go through the buffer are stored. -/
theorem buffer_stored
    {output middle : Output}
    {bytes : List UInt8}
    (flushed : Wrote [] output middle)
    (small : bytes.length < BufWriter.capacity)
    (filled : (middle.writer.file.buffer = [] ∧ ¬ output.strands bytes) ∨
      middle = output ∧ bytes.length ≤
        BufWriter.capacity - output.writer.file.buffer.length) :
    Ensures (middle = ·) (buffer bytes)
      (fun _ => Stored bytes output) (fun _ _ => False) := by
  refine (buffer_cases bytes middle).mono ?_ fun _ _ => id
  rintro _ after ⟨wrote, disk, buffered⟩
  have length := congrArg List.length buffered
  rw [List.length_append] at length
  refine ⟨flushed.trans wrote, fun splits => ?_, ?_, ?_⟩
  · exact absurd splits.1 (Nat.not_le_of_lt small)
  · rintro ⟨nonempty, short, full, stormy⟩
    rcases filled with ⟨-, unfilled⟩ | ⟨rfl, -⟩
    · exact absurd ⟨nonempty, short, full, stormy⟩ unfilled
    · exact ⟨by omega, by rw [disk, stormy]⟩
  · intro nonempty full stormy
    rcases filled with ⟨drained, -⟩ | ⟨rfl, room⟩
    · rw [drained, List.length_nil] at length
      omega
    · have positive := List.length_pos_iff.mpr nonempty
      exact ⟨nonempty, small, by omega, by rw [← disk, stormy]⟩

/-- A write appends its bytes.  If it fails it has appended some of them when it
was split, and nothing otherwise. -/
theorem writeAll_cases (bytes : List UInt8) (output : Output) :
    Ensures (output = ·) (writeAll bytes)
      (fun _ => Stored bytes output) (fun _ => Stopped bytes output) := by
  have positive : 2 ≤ BufWriter.capacity := by decide
  refine Ensures.bind_read ?_
  dsimp only
  split
  · next room =>
      have small : bytes.length < BufWriter.capacity := by omega
      exact (buffer_stored (Wrote.refl output) small
        (.inr ⟨rfl, Nat.le_of_lt room⟩)).mono (fun _ _ => id)
        fun _ _ => False.elim
  · refine (makeRoom_cases output bytes).andThen ?_ fun _ middle made => ?_
    · rintro _ after ⟨wrote, nonempty, unsplit, unfilled⟩
      refine ⟨⟨0, List.length_pos_iff.mpr nonempty, wrote, ?_⟩, unfilled⟩
      simp only [Nat.lt_irrefl, unsplit]
    obtain ⟨flushed, direct, filled⟩ := made
    split
    · next long =>
        obtain ⟨drained, splits⟩ := direct long
        have unfilled : ¬ output.strands bytes := fun strands =>
          absurd long (Nat.not_le_of_lt strands.2.1)
        refine (writeDirect_cases (Nat.le_trans positive long) drained).mono
          ?_ ?_
        · rintro _ after ⟨wrote, drainedAfter, whole⟩
          refine ⟨flushed.trans wrote, mt splits.mpr whole,
            fun strands => absurd strands unfilled, fun _ full => ?_⟩
          rw [drainedAfter, List.length_nil] at full
          omega
        · rintro _ after ⟨stored, short, wrote, stops⟩
          exact ⟨⟨stored, short, flushed.trans wrote, stops.trans splits⟩,
            unfilled⟩
    · next long =>
        have small := Nat.lt_of_not_le long
        exact (buffer_stored flushed small (filled small)).mono
          (fun _ _ => id) fun _ _ => False.elim

/-- The line feed fails exactly if it needs a flush and this fails, and then
nothing is appended. -/
theorem writeAll_newline (output : Output) :
    Ensures (output = ·) (writeAll [newline])
      (fun _ after => Wrote [newline] output after ∧
        (BufWriter.capacity ≤ output.writer.file.buffer.length →
          output.disk.calm))
      (fun _ after => Wrote [] output after ∧
        BufWriter.capacity ≤ output.writer.file.buffer.length ∧
        output.disk.calm = false) := by
  have positive : 2 ≤ BufWriter.capacity := by decide
  refine Ensures.bind_read ?_
  dsimp only
  rw [List.length_singleton]
  split
  · next room =>
      refine (buffer_spec [newline] output).mono
        (fun _ _ wrote => ⟨wrote, fun full => ?_⟩) fun _ _ => False.elim
      omega
  · have flushes : Ensures (output = ·)
        (runIf (BufWriter.capacity - output.writer.file.buffer.length < 1)
          flushBuf)
        (fun _ after => Wrote [] output after ∧
          (BufWriter.capacity ≤ output.writer.file.buffer.length →
            output.disk.calm))
        (fun _ after => Wrote [] output after ∧
          BufWriter.capacity ≤ output.writer.file.buffer.length ∧
          output.disk.calm = false) := by
      refine Ensures.runIf (fun overfull => ?_) fun room _ same => ?_
      · refine (flushBuf_cases output).mono ?_ ?_
        · rintro _ after ⟨wrote, -, drained | calm, -⟩
          · rw [drained, List.length_nil] at overfull
            omega
          · exact ⟨wrote, fun _ => calm⟩
        · rintro _ after ⟨wrote, -, stormy⟩
          exact ⟨wrote, by omega, stormy⟩
      · subst same
        exact ⟨Wrote.refl output, fun full => by omega⟩
    refine flushes.andThen (fun _ _ => id) fun _ flushed made => ?_
    rw [if_neg (by omega)]
    exact (buffer_spec [newline] flushed).mono
      (fun _ _ wrote => ⟨made.1.trans wrote, made.2⟩) fun _ _ => False.elim

end Output
end Telemetryd
end TelemetryEdge
