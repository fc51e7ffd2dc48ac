import TelemetryEdge.Telemetryd.Rotation

/-!
# The number of log files under changing limits

A rotation looks at the files below the limit of its session only, so files that
an earlier session with a higher limit has left beyond it stay where they are.
The files of the log are numbered without gaps, and a session whose lines rotate
keeps its limit exactly if it finds no more files than the limit allows.
-/

namespace TelemetryEdge
namespace Telemetryd

open Attempt

/-- Index of a log file, read from its name. -/
def indexOf (name : String) : Nat :=
  Nat.ofDigitChars 10 (name.toList.drop (fileName.length + 1)) 0

/-- Number of log files in the directory, the current one and the rotated
ones. -/
def Disk.fileCount (disk : Disk) : Nat :=
  (disk.directory.keys.filter fun name => path (indexOf name) = name).card

theorem indexOf_path (index : Nat) : indexOf (path index) = index := by
  unfold path
  split
  · next current =>
      rw [current]
      rfl
  · have digits : (fileName ++ "." ++ index.repr).toList.drop
        (fileName.length + 1) = index.repr.toList := by
      rw [String.toList_append]
      exact List.drop_left' rfl
    rw [indexOf, digits, Nat.toList_repr, Nat.ofDigitChars_ten_toDigits]

/-- A directory without gaps: the log files are those with an index below a
number. -/
structure Disk.Numbered (count : Nat) (disk : Disk) : Prop where
  sound : disk.Sound
  faults : disk.faults = []
  occupied : ∀ index, (disk.slot index).isSome ↔ index < count

theorem Disk.Numbered.fileCount
    {count : Nat}
    {disk : Disk}
    (numbered : disk.Numbered count) :
    disk.fileCount = count := by
  have files : (disk.directory.keys.filter
      fun name => path (indexOf name) = name) =
        (Finset.range count).image path := by
    ext name
    simp only [Finset.mem_filter, Finmap.mem_keys, Finset.mem_image,
      Finset.mem_range]
    constructor
    · rintro ⟨present, named⟩
      rw [← named] at present
      exact ⟨_, (numbered.occupied _).mp
        ((disk.slot_isSome_iff _).mpr present), named⟩
    · rintro ⟨index, below, rfl⟩
      refine ⟨(disk.slot_isSome_iff index).mp
        ((numbered.occupied index).mpr below), ?_⟩
      rw [indexOf_path]
  rw [Disk.fileCount, files,
    Finset.card_image_of_injective _ fun _ _ => path_injective,
    Finset.card_range]

/-- Number of files after a rotation under a limit. -/
def grown (maxFiles count : Nat) : Nat :=
  max count (min (count + 1) maxFiles)

/-- A rotation fits into its limit exactly if the files did before. -/
theorem grown_le_iff
    {maxFiles count : Nat} :
    grown maxFiles count ≤ maxFiles ↔ count ≤ maxFiles := by
  unfold grown
  omega

/-- A cascade and a new current file leave no gap. -/
theorem isSome_cascade_put
    {slots : Slots α}
    {maxFiles count : Nat}
    (allowed : 0 < maxFiles)
    (positive : 0 < count)
    (occupied : ∀ index, (slots index).isSome ↔ index < count)
    (value : α)
    (index : Nat) :
    ((Slots.cascade (maxFiles - 1) slots).put 0 (some value) index).isSome ↔
      index < grown maxFiles count := by
  unfold grown
  cases index with
  | zero =>
      rw [Slots.put_self]
      simp only [Option.isSome_some, true_iff]
      omega
  | succ index =>
      rw [Slots.put_of_ne _ _ (Nat.succ_ne_zero index)]
      obtain ⟨rounds, rfl⟩ := Nat.exists_eq_add_one_of_ne_zero
        (Nat.ne_of_gt allowed)
      rw [Nat.add_sub_cancel]
      cases rounds with
      | zero =>
          rw [Slots.cascade, occupied]
          omega
      | succ rounds =>
          rw [Slots.cascade_succ_apply, if_neg (Nat.succ_ne_zero index),
            Nat.succ_sub_one]
          split
          · rw [occupied]
            omega
          · split
            · rw [Option.isSome_or, Bool.or_eq_true, occupied, occupied]
              omega
            · rw [occupied]
              omega

/-- A writer with a limit on a directory without gaps. -/
structure Output.Numbered (maxFiles count : Nat) (output : Output) : Prop where
  disk : output.disk.Numbered count
  maxFiles : output.writer.maxFiles = maxFiles
  positive : 0 < count

namespace Output

/-- Writing to the open file leaves the directory alone. -/
theorem Numbered.wrote
    {maxFiles count : Nat}
    {before after : Output}
    {bytes : List UInt8}
    (numbered : before.Numbered maxFiles count)
    (wrote : Wrote bytes before after) :
    after.Numbered maxFiles count where
  disk :=
    { sound := wrote.sound numbered.disk.sound
      faults := wrote.faults_eq_nil numbered.disk.faults
      occupied := by
        rw [wrote.diskSlot]
        exact numbered.disk.occupied }
  maxFiles := wrote.maxFiles.trans numbered.maxFiles
  positive := numbered.positive

/-- A rotation adds a file unless the limit is reached. -/
theorem rotate_numbered
    {maxFiles count : Nat}
    (allowed : 0 < maxFiles) :
    Ensures (Numbered maxFiles count) rotate
      (fun _ => Numbered maxFiles (grown maxFiles count))
      (fun _ _ => False) := by
  refine Ensures.of_each fun output numbered => ?_
  refine (rotate_ok numbered.disk.sound).mono ?_
    fun _ _ faulty => faulty numbered.disk.faults
  rintro _ after ⟨sound, -, slot, writer, -, faults⟩
  refine ⟨⟨sound, ?_, fun index => ?_⟩, ?_, ?_⟩
  · rwa [numbered.disk.faults, List.suffix_nil] at faults
  · have before : ∀ index, (output.slot index).isSome ↔ index < count := by
      intro index
      rw [Output.slot, Slots.map_apply, Option.isSome_map]
      exact numbered.disk.occupied index
    have same : (after.slot index).isSome = (after.disk.slot index).isSome := by
      rw [Output.slot, Slots.map_apply, Option.isSome_map]
    rw [← same, slot, numbered.maxFiles]
    exact isSome_cascade_put allowed numbered.positive before [] index
  · rw [writer]
    exact numbered.maxFiles
  · exact Nat.lt_of_lt_of_le numbered.positive (Nat.le_max_left _ _)

/-- Number of files after a line is written. -/
def countAfter (count : Nat) (output : Output) (line : List UInt8) : Nat :=
  if output.overflows line then grown output.writer.maxFiles count else count

/-- A line leaves no gap. -/
theorem writeLine_numbered
    {maxFiles count : Nat}
    (allowed : 0 < maxFiles)
    {output : Output}
    (numbered : output.Numbered maxFiles count)
    (line : List UInt8) :
    Ensures (output = ·) (writeLine line)
      (fun _ => Numbered maxFiles (output.countAfter count line))
      (fun _ _ => False) := by
  have rotated : Ensures (output = ·)
      (runIf (output.overflows line) rotate)
      (fun _ => Numbered maxFiles (output.countAfter count line))
      (fun _ _ => False) := by
    unfold countAfter
    refine Ensures.runIf (fun starts => ?_) fun joins _ same => ?_
    · rw [if_pos starts, numbered.maxFiles]
      exact (rotate_numbered allowed).strengthen fun _ same => same ▸ numbered
    · rw [if_neg joins]
      exact same ▸ numbered
  refine (writeLine_ok rotated fun _ now => now.disk.faults).mono ?_
    fun _ _ => id
  rintro _ _ ⟨current, whole, now, wrote, rfl⟩
  have done := now.wrote wrote
  exact ⟨⟨⟨done.disk.sound.distinct, done.disk.sound.fresh⟩, done.disk.faults,
    done.disk.occupied⟩, done.maxFiles, done.positive⟩

/-- Whether every line that rotates leaves no more files than the limit. -/
def RespectsLimit : Output → List (List UInt8) → Prop
  | _, [] => True
  | output, line :: lines =>
      (output.overflows line →
        (machine.step output line).1.disk.fileCount ≤
          output.writer.maxFiles) ∧
        RespectsLimit (machine.step output line).1 lines

instance decidableRespectsLimit :
    ∀ output lines, Decidable (RespectsLimit output lines)
  | _, [] => .isTrue trivial
  | output, line :: lines =>
      let _ := decidableRespectsLimit (machine.step output line).1 lines
      inferInstanceAs (Decidable (_ ∧ _))

/-- Whether some line rotates. -/
def Rotates : Output → List (List UInt8) → Prop
  | _, [] => False
  | output, line :: lines =>
      output.overflows line ∨ Rotates (machine.step output line).1 lines

instance decidableRotates :
    ∀ output lines, Decidable (Rotates output lines)
  | _, [] => .isFalse id
  | output, line :: lines =>
      let _ := decidableRotates (machine.step output line).1 lines
      inferInstanceAs (Decidable (_ ∨ _))

/-- The limit is respected exactly if nothing rotates or there were no more
files at the start. -/
theorem respectsLimit_iff
    {maxFiles count : Nat}
    (allowed : 0 < maxFiles)
    {output : Output}
    (numbered : output.Numbered maxFiles count)
    (lines : List (List UInt8)) :
    output.RespectsLimit lines ↔ (output.Rotates lines → count ≤ maxFiles) := by
  induction lines generalizing output count with
  | nil => simp only [RespectsLimit, Rotates, false_imp_iff]
  | cons line lines inductionHypothesis =>
      obtain ⟨_, after, ended, next⟩ :=
        (writeLine_numbered allowed numbered line).exists_ok rfl
      have reached : (machine.step output line).1 = after := by
        change (writeLine line output).2 = after
        rw [ended]
      rw [RespectsLimit, Rotates, reached, next.disk.fileCount,
        inductionHypothesis next, numbered.maxFiles]
      unfold countAfter
      by_cases starts : output.overflows line
      · simp only [starts, if_true, numbered.maxFiles, grown_le_iff, true_or,
          true_imp_iff]
        exact ⟨fun fits => fits.1, fun fits => ⟨fits, fun _ => fits⟩⟩
      · simp only [starts, if_false, false_or, false_imp_iff, true_and]

end Output

/-! ## Sessions with their own limits -/

/-- A run of the program with its own limits. -/
structure Session where
  maxBytes : Nat
  maxFiles : Nat
  lines : List (List UInt8)

namespace Session

/-- Open the writer, write the lines and sync. -/
def run (self : Session) : Attempt IoError Disk Unit :=
  session self.maxBytes self.maxFiles self.lines

/-- The writer as the session has opened it. -/
def opened (self : Session) (disk : Disk) : Option Output :=
  match RotatingWriter.open self.maxBytes self.maxFiles disk with
  | (.ok writer, disk) => some { writer, disk }
  | (.error _, _) => none

/-- Whether every line of the session that rotates leaves no more files than the
limit of the session. -/
def RespectsLimit (self : Session) (disk : Disk) : Prop :=
  ∃ output ∈ self.opened disk, output.RespectsLimit self.lines

instance (self : Session) (disk : Disk) :
    Decidable (self.RespectsLimit disk) :=
  inferInstanceAs (Decidable (∃ output ∈ self.opened disk, _))

/-- Whether some line of the session rotates. -/
def Rotates (self : Session) (disk : Disk) : Prop :=
  ∃ output ∈ self.opened disk, output.Rotates self.lines

instance (self : Session) (disk : Disk) : Decidable (self.Rotates disk) :=
  inferInstanceAs (Decidable (∃ output ∈ self.opened disk, _))

end Session

/-- Whether all sessions of a run respect their limits. -/
def AllRespectLimits : Disk → List Session → Prop
  | _, [] => True
  | disk, first :: sessions =>
      first.RespectsLimit disk ∧ AllRespectLimits (first.run disk).2 sessions

instance decidableAllRespectLimits :
    ∀ disk sessions, Decidable (AllRespectLimits disk sessions)
  | _, [] => .isTrue trivial
  | disk, first :: sessions =>
      let _ := decidableAllRespectLimits (first.run disk).2 sessions
      inferInstanceAs (Decidable (_ ∧ _))

/-- Whether every session of a run that rotates finds no more files than its
limit when it starts. -/
def RotateBelowLimits : Disk → List Session → Prop
  | _, [] => True
  | disk, first :: sessions =>
      (first.Rotates disk → disk.fileCount ≤ first.maxFiles) ∧
        RotateBelowLimits (first.run disk).2 sessions

instance decidableRotateBelowLimits :
    ∀ disk sessions, Decidable (RotateBelowLimits disk sessions)
  | _, [] => .isTrue trivial
  | disk, first :: sessions =>
      let _ := decidableRotateBelowLimits (first.run disk).2 sessions
      inferInstanceAs (Decidable (_ ∧ _))

theorem Disk.Numbered.advance
    {count : Nat}
    {disk : Disk}
    (numbered : disk.Numbered count) :
    disk.advance.Numbered count where
  sound := ⟨numbered.sound.distinct, numbered.sound.fresh⟩
  faults := faults_advance numbered.faults
  occupied := numbered.occupied

/-- Opening the writer makes sure that there is a current file. -/
theorem RotatingWriter.open_numbered
    (maxBytes : Nat)
    {maxFiles : Nat}
    (allowed : 0 < maxFiles)
    (count : Nat) :
    Ensures (Disk.Numbered count) (RotatingWriter.open maxBytes maxFiles)
      (fun writer disk =>
        Output.Numbered maxFiles (max count 1) { writer, disk })
      (fun _ _ => False) := by
  refine Ensures.of_each fun start begun => ?_
  refine (Disk.operation_ok begun.faults .createDirAll
    fun disk => ((), disk)).andThen (fun _ _ => id) fun _ disk made => ?_
  obtain ⟨-, rfl⟩ := Prod.mk.inj made
  have numbered := begun.advance
  refine (Disk.openFile_spec false numbered.sound).andThen
    (fun _ _ failed => Disk.faults_ne_nil_of_not_calm failed.1 numbered.faults)
    fun inode opened done => ?_
  obtain ⟨sound, -, stored, -, faults⟩ := done
  rw [numbered.faults, List.suffix_nil] at faults
  have renumbered : opened.Numbered (max count 1) := by
    refine ⟨sound, faults, fun index => ?_⟩
    have same : (opened.slot index).isSome = (opened.stored index).isSome := by
      rw [Disk.stored, Slots.map_apply, Option.isSome_map]
    rw [same, stored]
    cases index with
    | zero =>
        rw [Slots.put_self]
        simp only [Option.isSome_some, true_iff]
        omega
    | succ index =>
        rw [Slots.put_of_ne _ _ (Nat.succ_ne_zero index), Disk.stored,
          Slots.map_apply, Option.isSome_map, numbered.occupied]
        omega
  refine (Disk.operation_ok renumbered.faults .metadata _).andThen
    (fun _ _ => id) fun size measured read => ?_
  obtain ⟨rfl, rfl⟩ := Prod.mk.inj read
  refine Ensures.pure ?_
  rintro _ rfl
  exact ⟨renumbered.advance, Nat.max_eq_left allowed,
    Nat.lt_of_lt_of_le Nat.one_pos (Nat.le_max_right _ _)⟩

/-- A session leaves no gap, and no more files than there were or its limit
allows. -/
theorem Session.run_numbered
    {first : Session}
    (allowed : 0 < first.maxFiles)
    (count : Nat) :
    Ensures (Disk.Numbered count) first.run
      (fun _ disk => ∃ left, disk.Numbered left ∧
        left ≤ max count first.maxFiles)
      (fun _ _ => False) := by
  refine Ensures.bind (RotatingWriter.open_numbered _ allowed count)
    fun writer => RotatingWriter.using_spec ?_
  let reachable := fun output => ∃ left,
    Output.Numbered first.maxFiles left output ∧
      left ≤ max count first.maxFiles
  have written : Ensures reachable (first.lines.forM Output.writeLine)
      (fun _ => reachable) (fun _ _ => False) := by
    refine Ensures.forM_invariant first.lines fun line _ => ?_
    refine Ensures.of_each fun output ⟨left, numbered, bounded⟩ => ?_
    refine (Output.writeLine_numbered allowed numbered line).mono ?_
      fun _ _ => id
    refine fun _ after next => ⟨_, next, ?_⟩
    unfold Output.countAfter grown
    rw [numbered.maxFiles]
    split <;> omega
  refine (written.strengthen ?_).andThen (fun _ _ => id)
    fun _ output ⟨left, numbered, bounded⟩ => ?_
  · exact fun output begun => ⟨_, begun, by omega⟩
  refine (Output.sync_ok output).mono ?_
    fun _ _ faulty => faulty numbered.disk.faults
  rintro _ after ⟨wrote, drained⟩
  exact ⟨drained, left, (numbered.wrote wrote).disk, bounded⟩

/-- A session respects its limit exactly if it does not rotate or finds no more
files than the limit. -/
theorem Session.respectsLimit_iff
    {first : Session}
    (allowed : 0 < first.maxFiles)
    {count : Nat}
    {disk : Disk}
    (numbered : disk.Numbered count) :
    first.RespectsLimit disk ↔
      (first.Rotates disk → disk.fileCount ≤ first.maxFiles) := by
  obtain ⟨writer, after, ended, begun⟩ :=
    (RotatingWriter.open_numbered first.maxBytes allowed count).exists_ok
      numbered
  have opened : first.opened disk = some { writer, disk := after } := by
    rw [Session.opened, ended]
  have within : max count 1 ≤ first.maxFiles ↔ count ≤ first.maxFiles := by
    omega
  simp only [Session.RespectsLimit, Session.Rotates, opened,
    Option.mem_some_iff, exists_eq_left', numbered.fileCount,
    Output.respectsLimit_iff allowed begun, within]

/-- The sessions of a run on a directory without gaps. -/
theorem allRespectLimits_iff_of_numbered
    {sessions : List Session}
    (allowed : ∀ each ∈ sessions, 0 < each.maxFiles)
    {count : Nat}
    {disk : Disk}
    (numbered : disk.Numbered count) :
    AllRespectLimits disk sessions ↔ RotateBelowLimits disk sessions := by
  induction sessions generalizing disk count with
  | nil => exact Iff.rfl
  | cons first sessions inductionHypothesis =>
      rw [List.forall_mem_cons] at allowed
      obtain ⟨_, after, ended, left, next, -⟩ :=
        (Session.run_numbered allowed.1 count).exists_ok numbered
      rw [AllRespectLimits, RotateBelowLimits, ended,
        Session.respectsLimit_iff allowed.1 numbered,
        inductionHypothesis allowed.2 next]

/-- On a directory that starts without log files, all sessions respect their
limits exactly if every session that rotates finds no more files than its
limit. -/
theorem allRespectLimits_iff
    {disk : Disk}
    (faultless : disk.faults = [])
    (fresh : ∀ index, disk.slot index = none)
    {sessions : List Session}
    (allowed : ∀ each ∈ sessions, 1 ≤ each.maxFiles) :
    AllRespectLimits disk sessions ↔ RotateBelowLimits disk sessions := by
  have vacant {index inode : Nat} : disk.slot index ≠ some inode := by
    rw [fresh index]
    exact nofun
  have numbered : disk.Numbered 0 :=
    ⟨⟨fun _ _ _ held => absurd held vacant, fun _ _ held => absurd held vacant⟩,
      faultless, fun index => by simp [fresh index]⟩
  exact allRespectLimits_iff_of_numbered allowed numbered

/-- Sessions whose limits never decrease find no more files than their
limits. -/
theorem rotateBelowLimits_of_sorted
    {sessions : List Session}
    (sorted : sessions.Pairwise fun first later =>
      first.maxFiles ≤ later.maxFiles)
    (allowed : ∀ each ∈ sessions, 0 < each.maxFiles)
    {count : Nat}
    {disk : Disk}
    (numbered : disk.Numbered count)
    (below : ∀ each ∈ sessions, count ≤ each.maxFiles) :
    RotateBelowLimits disk sessions := by
  induction sessions generalizing disk count with
  | nil => trivial
  | cons first sessions inductionHypothesis =>
      rw [List.forall_mem_cons] at allowed below
      rw [List.pairwise_cons] at sorted
      obtain ⟨_, after, ended, left, next, bounded⟩ :=
        (Session.run_numbered allowed.1 count).exists_ok numbered
      rw [RotateBelowLimits, ended, numbered.fileCount]
      refine ⟨fun _ => below.1, ?_⟩
      apply inductionHypothesis sorted.2 allowed.2 next
      intro each member
      rw [Nat.max_eq_right below.1] at bounded
      exact Nat.le_trans bounded (sorted.1 each member)

/-- A line of which only one fits into the smallest file that can be
configured. -/
def wideLine (byte : UInt8) : List UInt8 :=
  .replicate 600 byte

/-- A session that fills three files, and one under a lower limit. -/
def loweredLimit : List Session :=
  [⟨1024, 3, [wideLine 97, wideLine 98, wideLine 99]⟩,
    ⟨1024, 2, [wideLine 100]⟩]

/-- The rotation of the second session leaves the third file of the first. -/
theorem loweredLimit_not_respected :
    (∀ each ∈ loweredLimit, 1 ≤ each.maxFiles) ∧
      (loweredLimit.forM Session.run Disk.empty).2.fileCount = 3 ∧
      (loweredLimit.forM Session.run Disk.empty).2.read (path 2) =
        some (lineBytes (wideLine 97)) ∧
      ¬ AllRespectLimits Disk.empty loweredLimit := by
  decide +kernel

/-- In the other order the limit is raised and all rotations respect it. -/
theorem raisedLimit_respected :
    AllRespectLimits Disk.empty loweredLimit.reverse :=
  (allRespectLimits_iff rfl (fun _ => rfl) (by decide)).mpr (by decide +kernel)

end Telemetryd
end TelemetryEdge
