import TelemetryEdge.Telemetryd.WriterSteps

/-!
# Rotations that fail

A rotation that fails leaves its files half shifted, and the next line rotates
again.  Every such attempt keeps the files and their order, except that it may
remove the file in the topmost slot to make room.  How many files a run of
failing attempts loses is therefore the number of attempts that get that far.
-/

namespace TelemetryEdge
namespace Telemetryd

open Attempt

namespace Output

/-- The files a rotation can touch, newest first. -/
def files (output : Output) : List (List UInt8) :=
  Slots.listed output.writer.maxFiles output.slot

/-- Whether a rotation has to remove the topmost file to make room. -/
def discards (output : Output) : Prop :=
  (output.slot (output.writer.maxFiles - 2)).isSome ∧
    (output.slot (output.writer.maxFiles - 1)).isSome

instance : DecidablePred discards := fun _ => inferInstanceAs (Decidable (_ ∧ _))

/-- Whether a rotation gets to remove that file: the slots call for it, and
neither the flush nor the removal fails. -/
def evicts (output : Output) : Prop :=
  output.discards ∧ output.calmPastFlush

instance : DecidablePred evicts := fun _ => inferInstanceAs (Decidable (_ ∧ _))

theorem discards_iff
    {output : Output}
    {count : Nat}
    (bound : output.writer.maxFiles = count + 2) :
    output.discards ↔
      (output.slot count).isSome ∧ (output.slot (count + 1)).isSome := by
  rw [discards, bound]
  rfl

/-- The files but the one a single successful rotation would discard. -/
def others (output : Output) : List (List UInt8) :=
  if output.discards then output.files.dropLast else output.files

/-- A successful rotation starts an empty file, keeps the others and discards
the topmost file if it has to make room. -/
theorem rotate_files
    {output : Output}
    (sound : output.disk.Sound)
    (several : 2 ≤ output.writer.maxFiles) :
    Ensures (output = ·) rotate
      (fun _ after => after.files = [] :: output.others)
      (fun _ _ => output.disk.faults ≠ []) := by
  refine (rotate_ok sound).mono ?_ fun _ _ => id
  rintro _ after ⟨-, -, slots, writer, -, -⟩
  obtain ⟨count, bound⟩ := Nat.exists_eq_add_of_le' several
  have vacant : Slots.cascade (count + 1) output.slot 0 = none := by
    rw [Slots.cascade_succ_apply, if_pos rfl]
  have limit : after.writer.maxFiles = count + 2 := by rw [writer, bound]
  have rounds : output.writer.maxFiles - 1 = count + 1 := by omega
  rw [files, limit, slots, rounds, Slots.listed_put_zero vacant,
    Slots.listed_cascade, others, files, bound]
  simp only [discards_iff bound]

/-- Renaming files leaves their contents. -/
theorem slot_of_relinked
    {before after : Output}
    (relinked : Disk.Relinked before.disk after.disk)
    (unwritten : after.writer = before.writer) :
    after.slot = after.disk.slot.map before.content := by
  have same : after.content = before.content := by
    funext inode
    rw [content, content, relinked.contents, unwritten]
  rw [slot, same]

/-- What a failed attempt leaves: the files in their order, less the topmost one
if it got to remove that, and everything beyond the limit. -/
structure Stalled (before after : Output) : Prop where
  maxFiles : after.writer.maxFiles = before.writer.maxFiles
  files : after.files =
    if before.evicts then before.files.dropLast else before.files
  beyond : ∀ index, before.writer.maxFiles ≤ index →
    after.slot index = before.slot index

/-- After a flush an attempt is known by what it does to the directory. -/
theorem Wrote.stalled
    {output flushed after : Output}
    {count : Nat}
    (wrote : Wrote [] output flushed)
    (bound : output.writer.maxFiles = count + 2)
    (relinked : Disk.Relinked flushed.disk after.disk)
    (unwritten : after.writer = flushed.writer)
    (listed : Slots.listed (count + 2) after.disk.slot =
      if output.evicts then
        (Slots.listed (count + 2) flushed.disk.slot).dropLast
      else Slots.listed (count + 2) flushed.disk.slot)
    (above : ∀ index, count + 1 < index →
      after.disk.slot index = flushed.disk.slot index) :
    Stalled output after where
  maxFiles := by rw [unwritten, wrote.maxFiles]
  files := by
    have start : Slots.listed (count + 2) output.slot =
        (Slots.listed (count + 2) flushed.disk.slot).map flushed.content := by
      rw [← Slots.listed_map, ← wrote.slot]
      rfl
    rw [files, files, unwritten, wrote.maxFiles, bound, start,
      slot_of_relinked relinked unwritten, Slots.listed_map, listed]
    split <;> simp
  beyond index high := by
    rw [slot_of_relinked relinked unwritten, Slots.map_apply,
      above index (by omega), ← wrote.slot]
    rfl

/-- A rotation that fails has failed in its flush, in its cascade or when it
opened the new file, and is a stalled attempt in each case. -/
theorem rotate_stalled
    {output : Output}
    (several : 2 ≤ output.writer.maxFiles) :
    Ensures (output = ·) rotate
      (fun _ _ => True)
      (fun _ after => Stalled output after) := by
  obtain ⟨count, bound⟩ := Nat.exists_eq_add_of_le' several
  refine (flushBuf_spec output).andThen ?_ fun _ flushed made => ?_
  · rintro _ after ⟨wrote, -, stormy⟩
    refine ⟨wrote.maxFiles, ?_, fun _ _ => by rw [wrote.slot]⟩
    rw [if_neg fun evicted => absurd evicted.2 (by simp [stormy]), files,
      wrote.slot, wrote.maxFiles, files]
  obtain ⟨wrote, drained, calm⟩ := made
  have evicts : output.evicts ↔ flushed.disk.removes count := by
    rw [Output.evicts, discards_iff bound, calm, ← wrote.slot, Disk.removes,
      and_assoc, slot, Slots.map_apply, Slots.map_apply, Option.isSome_map,
      Option.isSome_map]
  have rounds := onDisk_spec (Disk.countdown_shift_spec count flushed.disk)
  have limit : flushed.writer.maxFiles - 1 = count + 1 := by
    rw [wrote.maxFiles]
    omega
  refine Ensures.bind_read ?_
  dsimp only
  rw [limit]
  refine rounds.andThen ?_ fun _ shifted done => ?_
  · rintro _ after ⟨⟨relinked, -, listed, above⟩, unwritten⟩
    refine wrote.stalled bound relinked unwritten ?_ above
    simp only [evicts, listed]
  obtain ⟨⟨relinked, raised, removable⟩, unwritten⟩ := done
  refine (onDisk_spec (Disk.operation_spec _ _ shifted.disk)).andThen ?_
    fun _ _ _ _ _ => trivial
  rintro _ after ⟨⟨-, stopped⟩, unopened⟩
  have discarded : output.evicts ↔
      (flushed.disk.slot count).isSome ∧
        (flushed.disk.slot (count + 1)).isSome :=
    evicts.trans ⟨fun removed => ⟨removed.1, removed.2.1⟩,
      fun both => ⟨both.1, both.2, removable both.1 both.2⟩⟩
  have slots : after.disk.slot = shifted.disk.slot := by
    rw [stopped]
    rfl
  refine wrote.stalled bound ?_ (unopened.trans unwritten) ?_ ?_
  · rw [stopped]
    exact relinked.trans (Disk.advance_relinked shifted.disk)
  · rw [slots, raised, Slots.listed_cascade]
    simp only [discarded]
  · intro index high
    rw [slots, raised, Slots.cascade_succ_apply, if_neg (by omega),
      if_neg (by omega), if_neg (by omega)]

/-- A line whose write ends with an error inside the rotation. -/
def FailsInRotation (output : Output) (line : List UInt8) : Prop :=
  output.overflows line ∧ (rotate output).1.isOk = false

instance (output : Output) (line : List UInt8) :
    Decidable (output.FailsInRotation line) :=
  inferInstanceAs (Decidable (_ ∧ _))

/-- Every line of a sequence fails in that way. -/
def AllFailInRotation : Output → List (List UInt8) → Prop
  | _, [] => True
  | output, line :: lines =>
      output.FailsInRotation line ∧
        AllFailInRotation (machine.step output line).1 lines

/-- The number of attempts that get to remove the topmost file. -/
def evictions : Output → List (List UInt8) → Nat
  | _, [] => 0
  | output, line :: lines =>
      (if output.evicts then 1 else 0) +
        evictions (machine.step output line).1 lines

/-- The files but the one a single successful rotation would discard are still
there with their contents and in their order. -/
def KeepsHistory (before after : Output) : Prop :=
  before.others.Sublist after.files ∧
    ∀ index, before.writer.maxFiles ≤ index →
      after.slot index = before.slot index

/-- A write that fails in its rotation has done what the rotation has done. -/
theorem writeLine_of_failed
    {output : Output}
    {line : List UInt8}
    (failed : output.FailsInRotation line) :
    ∃ error, rotate output = (.error error, (rotate output).2) ∧
      writeLine line output = (.error error, (rotate output).2) := by
  obtain ⟨overflows, notOk⟩ := failed
  rcases ended : rotate output with ⟨error | value, after⟩
  · refine ⟨error, rfl, ?_⟩
    change (Attempt.runIf (output.overflows line) rotate >>= _) output = _
    rw [bind_apply, runIf, if_pos overflows, ended]
  · rw [ended] at notOk
    contradiction

theorem step_stalled
    {output : Output}
    {line : List UInt8}
    (several : 2 ≤ output.writer.maxFiles)
    (failed : output.FailsInRotation line) :
    Stalled output (machine.step output line).1 := by
  obtain ⟨error, rotated, written⟩ := writeLine_of_failed failed
  have reached : (machine.step output line).1 = (rotate output).2 := by
    change (writeLine line output).2 = _
    rw [written]
  rw [reached]
  exact (rotate_stalled several).of_error rfl rotated

theorem length_files_of_discards
    {output : Output}
    (several : 2 ≤ output.writer.maxFiles)
    (discards : output.discards) :
    2 ≤ output.files.length := by
  obtain ⟨count, bound⟩ := Nat.exists_eq_add_of_le' several
  obtain ⟨below, top⟩ := (discards_iff bound).mp discards
  rw [files, bound, Slots.listed_succ, Slots.listed_succ]
  obtain ⟨lower, holdsLower⟩ := Option.isSome_iff_exists.mp below
  obtain ⟨upper, holdsUpper⟩ := Option.isSome_iff_exists.mp top
  simp [holdsLower, holdsUpper]

/-- One attempt loses nothing or the oldest file. -/
theorem Stalled.exists_lost
    {before after : Output}
    (several : 2 ≤ before.writer.maxFiles)
    (stalled : Stalled before after) :
    ∃ lost, before.files = after.files ++ lost ∧
      lost.length = if before.evicts then 1 else 0 := by
  rw [stalled.files]
  split
  · next evicted =>
      have several := length_files_of_discards several evicted.1
      have nonempty : before.files ≠ [] := by
        intro empty
        rw [empty] at several
        contradiction
      exact ⟨[before.files.getLast nonempty],
        (List.dropLast_concat_getLast nonempty).symm, rfl⟩
  · exact ⟨[], (List.append_nil _).symm, rfl⟩

/-- A run of failing attempts loses the oldest files, one for each attempt that
gets to remove the topmost file. -/
theorem final_stalled
    {output : Output}
    {lines : List (List UInt8)}
    (several : 2 ≤ output.writer.maxFiles)
    (failed : output.AllFailInRotation lines) :
    (∃ lost, output.files = (machine.final output lines).files ++ lost ∧
        lost.length = output.evictions lines) ∧
      ∀ index, output.writer.maxFiles ≤ index →
        (machine.final output lines).slot index = output.slot index := by
  induction lines generalizing output with
  | nil => exact ⟨⟨[], by simp, rfl⟩, fun _ _ => rfl⟩
  | cons line lines inductionHypothesis =>
      have stalled := step_stalled several failed.1
      have several' : 2 ≤ (machine.step output line).1.writer.maxFiles := by
        rwa [stalled.maxFiles]
      obtain ⟨gone, splitFirst, countFirst⟩ := stalled.exists_lost several
      obtain ⟨⟨lost, split, count⟩, beyond⟩ :=
        inductionHypothesis several' failed.2
      refine ⟨⟨lost ++ gone, ?_, ?_⟩, fun index high => ?_⟩
      · rw [splitFirst, split, Machine.final_cons, List.append_assoc]
      · rw [List.length_append, count, countFirst, evictions, Nat.add_comm]
      · rw [Machine.final_cons, beyond index (by rwa [stalled.maxFiles]),
          stalled.beyond index high]

/-- A run of failing attempts keeps the history exactly if the attempts that
get to remove the topmost file are no more than the files that one successful
rotation would discard. -/
theorem keepsHistory_iff
    {output : Output}
    {lines : List (List UInt8)}
    (several : 2 ≤ output.writer.maxFiles)
    (failed : output.AllFailInRotation lines) :
    KeepsHistory output (machine.final output lines) ↔
      output.evictions lines ≤ if output.discards then 1 else 0 := by
  obtain ⟨⟨lost, split, count⟩, beyond⟩ := final_stalled several failed
  constructor
  · rintro ⟨kept, -⟩
    have shorter := kept.length_le
    have lengths := congrArg List.length split
    rw [List.length_append] at lengths
    unfold others at shorter
    split at shorter
    · next discards =>
        have several := length_files_of_discards several discards
        rw [List.length_dropLast] at shorter
        rw [if_pos discards]
        omega
    · next free =>
        rw [if_neg free]
        omega
  · intro few
    refine ⟨?_, beyond⟩
    rw [← count] at few
    unfold others
    split
    · next discards =>
        rw [if_pos discards] at few
        cases lost with
        | nil =>
            rw [split, List.append_nil]
            exact List.dropLast_sublist _
        | cons last rest =>
            have single : rest = [] :=
              List.length_eq_zero_iff.mp
                (Nat.le_zero.mp (Nat.le_of_succ_le_succ few))
            rw [split, single, List.dropLast_concat]
    · next free =>
        rw [if_neg free, Nat.le_zero, List.length_eq_zero_iff] at few
        rw [split, few, List.append_nil]

/-- A file is removed only when two are left. -/
theorem evictions_le
    {output : Output}
    {lines : List (List UInt8)}
    (several : 2 ≤ output.writer.maxFiles)
    (failed : output.AllFailInRotation lines) :
    output.evictions lines ≤ output.files.length - 1 := by
  induction lines generalizing output with
  | nil => exact Nat.zero_le _
  | cons line lines inductionHypothesis =>
      have stalled := step_stalled several failed.1
      have rest := inductionHypothesis (stalled.maxFiles ▸ several) failed.2
      rw [evictions]
      rw [stalled.files] at rest
      split
      · next evicted =>
          have several := length_files_of_discards several evicted.1
          rw [if_pos evicted, List.length_dropLast] at rest
          omega
      · next spared =>
          rw [if_neg spared] at rest
          omega

/-- A log of two files survives every run of failing rotations. -/
theorem keepsHistory_of_maxFiles_eq_two
    {output : Output}
    {lines : List (List UInt8)}
    (two : output.writer.maxFiles = 2)
    (failed : output.AllFailInRotation lines) :
    KeepsHistory output (machine.final output lines) := by
  have several : 2 ≤ output.writer.maxFiles := Nat.le_of_eq two.symm
  have few := evictions_le several failed
  rw [keepsHistory_iff several failed]
  have count : output.files.length =
      (output.slot 0).toList.length + (output.slot 1).toList.length := by
    rw [files, two, Slots.listed_succ, Slots.listed_succ]
    simp [Slots.listed]
  rw [count] at few
  have both : output.discards ↔
      (output.slot 0).isSome ∧ (output.slot 1).isSome :=
    discards_iff two
  simp only [both]
  cases lower : output.slot 0 <;> cases upper : output.slot 1 <;>
    simpa [lower, upper] using few

/-- A single failing rotation never loses more than a successful one. -/
theorem keepsHistory_singleton
    {output : Output}
    {line : List UInt8}
    (several : 2 ≤ output.writer.maxFiles)
    (failed : output.FailsInRotation line) :
    KeepsHistory output (machine.final output [line]) := by
  have all : output.AllFailInRotation [line] := ⟨failed, trivial⟩
  rw [keepsHistory_iff several all, evictions, evictions]
  split
  · next evicted => rw [if_pos evicted.1]
  · exact Nat.zero_le _

/-- Three files, the limit, and a disk where the current file cannot be opened
after either of the next two rotations. -/
def threeFiles : Output where
  writer :=
    { maxBytes := 3
      maxFiles := 3
      file := BufWriter.new 2
      size := 2 }
  disk :=
    { directory :=
        ((∅ : KeyedMap String Nat).insert (path 2) 0 |>.insert (path 1) 1).insert
          (path 0) 2
      contents := fun inode => [UInt8.ofNat (97 + inode), newline]
      nextInode := 3
      faults := [none, none, none, some 0, none, none, some 0] }

/-- Two failing attempts on it lose two files, where one rotation would have
discarded one. -/
theorem threeFiles_not_keepsHistory :
    2 ≤ threeFiles.writer.maxFiles ∧
      threeFiles.others = [[99, 10], [98, 10]] ∧
      threeFiles.AllFailInRotation [[100], [101]] ∧
      (machine.final threeFiles [[100], [101]]).files = [[99, 10]] ∧
      ¬ KeepsHistory threeFiles (machine.final threeFiles [[100], [101]]) := by
  have others : threeFiles.others = [[99, 10], [98, 10]] := by decide +kernel
  have left : (machine.final threeFiles [[100], [101]]).files = [[99, 10]] := by
    decide +kernel
  refine ⟨by decide, others, ⟨by decide +kernel, by decide +kernel, trivial⟩,
    left, fun kept => ?_⟩
  have tooMany := kept.1.length_le
  rw [others, left] at tooMany
  contradiction

/-- The first of the two attempts removes only the file that a rotation would
have discarded. -/
theorem threeFiles_keepsHistory :
    KeepsHistory threeFiles (machine.final threeFiles [[100]]) := by
  have failed : threeFiles.AllFailInRotation [[100]] :=
    ⟨by decide +kernel, trivial⟩
  exact (keepsHistory_iff (by decide) failed).mpr (by decide +kernel)

end Output
end Telemetryd
end TelemetryEdge
