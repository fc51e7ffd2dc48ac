import TelemetryEdge.Telemetryd.Output

/-!
# The cascade of a rotation on a disk with faults

A triple for every file operation that changes the directory, for one round of
the rotation and for all rounds.  A cascade that is stopped by a fault keeps the
files in their order; the one file it can lose is the topmost, removed to make
room.
-/

namespace TelemetryEdge
namespace Telemetryd

open Attempt

namespace Disk

/-- The files of the log by index. -/
def slot (disk : Disk) : Slots Nat :=
  fun index => disk.directory.lookup (path index)

theorem slot_isSome_iff (disk : Disk) (index : Nat) :
    (disk.slot index).isSome ↔ path index ∈ disk.directory :=
  Finmap.lookup_isSome

/-- What is stored in the files of the log, by index. -/
def stored (disk : Disk) : Slots (List UInt8) :=
  disk.slot.map disk.contents

/-- The names that are not names of log files mean what they meant. -/
def KeepsForeign (before after : Disk) : Prop :=
  ∀ name, (∀ index, name ≠ path index) →
    after.directory.lookup name = before.directory.lookup name

/-- Only names of log files have changed. -/
structure Relinked (before after : Disk) : Prop where
  contents : after.contents = before.contents
  nextInode : after.nextInode = before.nextInode
  foreign : KeepsForeign before after
  faults : after.faults <:+ before.faults

namespace Relinked

theorem refl (disk : Disk) : Relinked disk disk :=
  ⟨rfl, rfl, fun _ _ => rfl, List.suffix_rfl⟩

theorem trans
    {first second third : Disk}
    (early : Relinked first second)
    (late : Relinked second third) :
    Relinked first third where
  contents := late.contents.trans early.contents
  nextInode := late.nextInode.trans early.nextInode
  foreign name other :=
    (late.foreign name other).trans (early.foreign name other)
  faults := late.faults.trans early.faults

end Relinked

theorem advance_relinked (disk : Disk) : Relinked disk disk.advance :=
  ⟨rfl, rfl, fun _ _ => rfl, List.tail_suffix disk.faults⟩

/-- An operation cannot fail on a disk without faults. -/
theorem faults_ne_nil_of_not_calm
    {disk : Disk}
    (stormy : disk.calm = false) :
    disk.faults ≠ [] := by
  intro none
  rw [calm, none] at stormy
  contradiction

/-- An operation either fails without effect or does its work. -/
theorem operation_spec
    (error : IoError)
    (effect : Disk → α × Disk)
    (disk : Disk) :
    Ensures (disk = ·) (operation error effect)
      (fun value after => disk.calm ∧ effect disk.advance = (value, after))
      (fun _ after => disk.calm = false ∧ after = disk.advance) := by
  rintro _ rfl
  unfold operation
  split <;> grind

/-- Without faults an operation does its work. -/
theorem operation_ok
    {disk : Disk}
    (quiet : disk.faults = [])
    (error : IoError)
    (effect : Disk → α × Disk) :
    Ensures (disk = ·) (operation error effect)
      (fun value after => effect disk.advance = (value, after))
      (fun _ _ => False) :=
  (operation_spec error effect disk).mono (fun _ _ done => done.2)
    fun _ _ failed => faults_ne_nil_of_not_calm failed.1 quiet

/-- Making an operation brings no faults. -/
theorem faults_advance
    {disk : Disk}
    (quiet : disk.faults = []) :
    disk.advance.faults = [] := by
  rw [advance, quiet, List.tail_nil]

theorem removeFile_spec (index : Nat) (disk : Disk) :
    Ensures (disk = ·) (removeFile (path index))
      (fun _ after => disk.calm ∧ Relinked disk after ∧
        after.slot = disk.slot.put index none)
      (fun _ after => disk.calm = false ∧ Relinked disk after ∧
        after.slot = disk.slot) := by
  refine (operation_spec _ _ disk).mono ?_ ?_
  · rintro _ after ⟨calm, done⟩
    obtain ⟨-, rfl⟩ := Prod.mk.inj done
    refine ⟨calm, ⟨rfl, rfl, ?_, List.tail_suffix disk.faults⟩, ?_⟩
    · intro name other
      exact Finmap.lookup_erase_ne (other index)
    · funext other
      simp only [slot, Slots.put, KeyedMap.lookup_erase_eq_ite, path_inj]
      rfl
  · rintro _ after ⟨stormy, rfl⟩
    exact ⟨stormy, advance_relinked disk, rfl⟩

theorem rename_spec
    (index : Nat)
    {disk : Disk}
    (occupied : (disk.slot index).isSome) :
    Ensures (disk = ·) (rename (path index) (path (index + 1)))
      (fun _ after => Relinked disk after ∧
        after.slot = disk.slot.raise index)
      (fun _ after => disk.calm = false ∧ Relinked disk after ∧
        after.slot = disk.slot) := by
  obtain ⟨inode, found⟩ := Option.isSome_iff_exists.mp occupied
  refine (operation_spec _ _ disk).mono ?_ ?_
  · rintro _ after ⟨-, done⟩
    have found' : disk.advance.directory.lookup (path index) = some inode :=
      found
    simp only [found'] at done
    obtain ⟨-, rfl⟩ := Prod.mk.inj done
    refine ⟨⟨rfl, rfl, ?_, List.tail_suffix disk.faults⟩, ?_⟩
    · intro name other
      rw [Finmap.lookup_insert_of_ne _ (other (index + 1)),
        Finmap.lookup_erase_ne (other index)]
      rfl
    · funext other
      rw [Slots.raise, found, Option.some_or]
      simp only [slot, KeyedMap.lookup_insert_eq_ite,
        KeyedMap.lookup_erase_eq_ite, path_inj]
      rfl
  · rintro _ after ⟨stormy, rfl⟩
    exact ⟨stormy, advance_relinked disk, rfl⟩

/-- Whether a round that writes to the slot above an index removes a file. -/
def removes (disk : Disk) (index : Nat) : Prop :=
  (disk.slot index).isSome ∧ (disk.slot (index + 1)).isSome ∧ disk.calm

instance (disk : Disk) (index : Nat) : Decidable (disk.removes index) :=
  inferInstanceAs (Decidable (_ ∧ _ ∧ _))

/-- The slots once a round has made room, if it gets that far. -/
def cleared (disk : Disk) (index : Nat) : Slots Nat :=
  if disk.removes index then disk.slot.put (index + 1) none else disk.slot

theorem cleared_self (disk : Disk) (index : Nat) :
    disk.cleared index index = disk.slot index := by
  unfold cleared
  split
  · rw [Slots.put, if_neg (by omega)]
  · rfl

theorem raise_cleared (disk : Disk) (index : Nat) :
    (disk.cleared index).raise index = disk.slot.raise index := by
  unfold cleared
  split
  · next removed => exact (Slots.raise_eq_raise_put removed.1).symm
  · rfl

/-- Making room removes the file above, if there is one. -/
theorem clear_spec
    {index : Nat}
    {disk : Disk}
    (occupied : (disk.slot index).isSome) :
    Ensures (disk = ·)
      (runIf (path (index + 1) ∈ disk.directory)
        (removeFile (path (index + 1))))
      (fun _ after => Relinked disk after ∧
        after.slot = disk.cleared index ∧
        ((disk.slot (index + 1)).isSome → disk.calm))
      (fun _ after => Relinked disk after ∧ disk.faults ≠ [] ∧
        after.slot = disk.cleared index) := by
  refine Ensures.runIf (fun taken => ?_) fun free _ same => ?_
  · have above := (disk.slot_isSome_iff (index + 1)).mpr taken
    refine (removeFile_spec (index + 1) disk).mono ?_ ?_
    · rintro _ after ⟨calm, relinked, emptied⟩
      refine ⟨relinked, ?_, fun _ => calm⟩
      rw [emptied, cleared, if_pos ⟨occupied, above, calm⟩]
    · rintro _ after ⟨stormy, relinked, unchanged⟩
      refine ⟨relinked, faults_ne_nil_of_not_calm stormy, ?_⟩
      rw [unchanged, cleared, if_neg fun removed => ?_]
      exact absurd removed.2.2 (by simp [stormy])
  · subst same
    have vacant : ¬ (disk.slot (index + 1)).isSome :=
      mt (disk.slot_isSome_iff (index + 1)).mp free
    refine ⟨Relinked.refl disk, ?_, fun above => absurd above vacant⟩
    rw [cleared, if_neg fun removed => vacant removed.2.1]

/-- One round raises a file.  A round that fails has moved nothing, but it may
have removed the file above. -/
theorem shift_spec (index : Nat) (disk : Disk) :
    Ensures (disk = ·) (shift (index + 1))
      (fun _ after => Relinked disk after ∧
        after.slot = disk.slot.raise index ∧
        ((disk.slot index).isSome → (disk.slot (index + 1)).isSome →
          disk.calm))
      (fun _ after => Relinked disk after ∧ disk.faults ≠ [] ∧
        after.slot = disk.cleared index) := by
  refine Ensures.bind_read (Ensures.runIf (fun present => ?_)
    fun absent _ same => ?_)
  · have occupied : (disk.slot index).isSome :=
      (disk.slot_isSome_iff index).mpr present
    refine (clear_spec occupied).andThen (fun _ _ => id)
      fun _ middle made => ?_
    obtain ⟨relinked, room, removable⟩ := made
    have stillOccupied : (middle.slot index).isSome := by
      rwa [room, cleared_self]
    refine (rename_spec index stillOccupied).mono ?_ ?_
    · rintro _ after ⟨renamed, raised⟩
      refine ⟨relinked.trans renamed, ?_, fun _ => removable⟩
      rw [raised, room, raise_cleared]
    · rintro _ after ⟨stormy, renamed, unchanged⟩
      exact ⟨relinked.trans renamed,
        relinked.faults.ne_nil (faults_ne_nil_of_not_calm stormy),
        unchanged.trans room⟩
  · subst same
    have nothing : disk.slot index = none :=
      Option.not_isSome_iff_eq_none.mp (mt (disk.slot_isSome_iff index).mp absent)
    refine ⟨Relinked.refl disk, (Slots.raise_eq_self nothing).symm,
      fun occupied => ?_⟩
    rw [nothing] at occupied
    contradiction

theorem cleared_of_vacant
    {disk : Disk}
    {index : Nat}
    (vacant : disk.slot (index + 1) = none) :
    disk.cleared index = disk.slot := by
  rw [cleared, if_neg fun removed => ?_]
  have above := removed.2.1
  rw [vacant] at above
  contradiction

/-- What holds while files are raised below a vacant slot with some rounds left:
the rounds left bring about the whole cascade, and the files are the same in the
same order. -/
structure Cascading (bound count : Nat) (start : Disk) (left : Nat)
    (disk : Disk) : Prop where
  relinked : Relinked start disk
  vacant : disk.slot left = none
  cascade : Slots.cascade left disk.slot = Slots.cascade count start.slot
  listed : Slots.listed bound disk.slot = Slots.listed bound start.slot
  above : ∀ index, count < index → disk.slot index = start.slot index

theorem shift_cascading
    {bound count left : Nat}
    (start : Disk)
    (below : count < bound)
    (bounded : left < count) :
    Ensures (Cascading bound count start (left + 1)) (shift (left + 1))
      (fun _ => Cascading bound count start left)
      (fun _ after => start.faults ≠ [] ∧ Relinked start after ∧
        Slots.listed bound after.slot = Slots.listed bound start.slot ∧
        ∀ index, count < index → after.slot index = start.slot index) := by
  refine Ensures.of_each fun disk so => ?_
  refine (shift_spec left disk).mono ?_ ?_
  · rintro _ after ⟨relinked, raised, -⟩
    refine ⟨so.relinked.trans relinked, ?_, ?_, ?_, fun index beyond => ?_⟩
    · rw [raised, Slots.raise_self]
    · rw [raised]
      exact so.cascade
    · rw [raised, Slots.listed_raise so.vacant (by omega), so.listed]
    · rw [raised, Slots.raise, if_neg (by omega), if_neg (by omega),
        so.above index beyond]
  · rintro _ after ⟨relinked, faulty, unchanged⟩
    rw [cleared_of_vacant so.vacant] at unchanged
    refine ⟨so.relinked.faults.ne_nil faulty, so.relinked.trans relinked,
      ?_, ?_⟩
    · rw [unchanged, so.listed]
    · rw [unchanged]
      exact so.above

/-- The cascade either raises all files or stops somewhere.  The files below the
bound then stand in the order they had, without the topmost one if that was
removed to make room. -/
theorem countdown_shift_spec (count : Nat) (disk : Disk) :
    Ensures (disk = ·) (countdown shift (count + 1))
      (fun _ after => Relinked disk after ∧
        after.slot = Slots.cascade (count + 1) disk.slot ∧
        ((disk.slot count).isSome → (disk.slot (count + 1)).isSome →
          disk.calm))
      (fun _ after => Relinked disk after ∧ disk.faults ≠ [] ∧
        Slots.listed (count + 2) after.slot =
          (if disk.removes count then
            (Slots.listed (count + 2) disk.slot).dropLast
          else Slots.listed (count + 2) disk.slot) ∧
        ∀ index, count + 1 < index → after.slot index = disk.slot index) := by
  have listedCleared : Slots.listed (count + 2) (disk.cleared count) =
      if disk.removes count then
        (Slots.listed (count + 2) disk.slot).dropLast
      else Slots.listed (count + 2) disk.slot := by
    unfold cleared
    split
    · next removed => exact Slots.listed_put_none removed.2.1
    · rfl
  have aboveCleared (index : Nat) (beyond : count + 1 < index) :
      disk.cleared count index = disk.slot index := by
    unfold cleared
    split
    · rw [Slots.put, if_neg (by omega)]
    · rfl
  refine (shift_spec count disk).andThen ?_ fun _ middle made => ?_
  · rintro _ after ⟨relinked, faulty, room⟩
    rw [room, listedCleared]
    exact ⟨relinked, faulty, rfl, aboveCleared⟩
  · obtain ⟨relinked, raised, removable⟩ := made
    have start : Cascading (count + 2) count middle count middle :=
      ⟨Relinked.refl middle, by rw [raised, Slots.raise_self], rfl, rfl,
        fun _ _ => rfl⟩
    have rounds := Ensures.countdown count fun left bounded =>
      shift_cascading middle (Nat.lt_add_of_pos_right Nat.two_pos) bounded
    refine (rounds.mono ?_ ?_).strengthen fun _ same => same ▸ start
    · intro _ after done
      refine ⟨relinked.trans done.relinked, ?_, removable⟩
      have whole := done.cascade
      rwa [raised] at whole
    · rintro _ after ⟨faulty, stopped, listed, above⟩
      refine ⟨relinked.trans stopped, relinked.faults.ne_nil faulty, ?_, ?_⟩
      · have removes : disk.removes count ↔
            (disk.slot count).isSome ∧ (disk.slot (count + 1)).isSome :=
          ⟨fun removed => ⟨removed.1, removed.2.1⟩,
            fun both => ⟨both.1, both.2, removable both.1 both.2⟩⟩
        rw [listed, raised, Slots.listed_raise_top]
        simp only [removes]
      · intro index beyond
        rw [above index (by omega), raised, Slots.raise, if_neg (by omega),
          if_neg (by omega)]

/-- A cascade that is not stopped, whatever the number of rounds. -/
theorem countdown_shift_ok (count : Nat) (disk : Disk) :
    Ensures (disk = ·) (countdown shift count)
      (fun _ after => Relinked disk after ∧
        after.slot = Slots.cascade count disk.slot)
      (fun _ _ => disk.faults ≠ []) := by
  cases count with
  | zero =>
      refine Ensures.pure ?_
      rintro _ rfl
      exact ⟨Relinked.refl disk, rfl⟩
  | succ count =>
      exact (countdown_shift_spec count disk).mono
        (fun _ _ done => ⟨done.1, done.2.1⟩) fun _ _ stopped => stopped.2.1

/-- Different indices name different files, and no file has an inode that is
still to be given out. -/
structure Sound (disk : Disk) : Prop where
  distinct : disk.slot.Distinct
  fresh : ∀ index inode, disk.slot index = some inode → inode < disk.nextInode

/-- A cascade keeps a disk sound. -/
theorem Sound.cascade
    {before after : Disk}
    {count : Nat}
    (sound : before.Sound)
    (relinked : Relinked before after)
    (raised : after.slot = Slots.cascade count before.slot) :
    after.Sound where
  distinct := by
    rw [raised]
    exact sound.distinct.cascade count
  fresh index inode held := by
    rw [raised] at held
    obtain ⟨source, earlier⟩ := Slots.exists_of_cascade held
    rw [relinked.nextInode]
    exact sound.fresh source inode earlier

end Disk
end Telemetryd
end TelemetryEdge
