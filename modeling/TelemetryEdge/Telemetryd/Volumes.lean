import Mathlib.Data.List.DropRight
import TelemetryEdge.Telemetryd.Grouping

/-!
# The log as volumes of bytes

What the log files are meant to hold when the program may be killed.  A kill
loses the last bytes of the current file, wherever in a line that cuts it off,
and the next run of the program goes on behind the cut.  Without kills these are
the groups of lines of the greedy partition.
-/

namespace TelemetryEdge
namespace Telemetryd

/-- The bytes of the log files, the last one first. -/
structure Volumes where
  current : List UInt8
  older : List (List UInt8)
  deriving DecidableEq

/-- A run of the program as its files see it: the lines it has written, and the
number of their last bytes that have not reached the file. -/
structure Stretch where
  maxBytes : Nat
  lines : List (List UInt8)
  lost : Nat

/-- The bytes that a run has left in the files. -/
def Stretch.text (stretch : Stretch) : List UInt8 :=
  (render stretch.lines).rdrop stretch.lost

/-- Bytes dropped at the end are those of the last part. -/
theorem rdrop_append_of_le
    {count : Nat}
    {first second : List α}
    (within : count ≤ second.length) :
    (first ++ second).rdrop count = first ++ second.rdrop count := by
  unfold List.rdrop
  rw [List.length_append, Nat.add_sub_assoc within, List.take_length_add_append]

namespace Volumes

/-- The log before its first line. -/
def empty : Volumes where
  current := []
  older := []

/-- Whether a line has to start a new file. -/
def overflows (maxBytes : Nat) (volumes : Volumes) (line : List UInt8) : Prop :=
  volumes.current ≠ [] ∧
    maxBytes < volumes.current.length + (line.length + 1)

instance (maxBytes : Nat) (volumes : Volumes) (line : List UInt8) :
    Decidable (volumes.overflows maxBytes line) :=
  inferInstanceAs (Decidable (_ ∧ _))

/-- Close the current file. -/
def close (volumes : Volumes) : Volumes where
  current := []
  older := volumes.current :: volumes.older

/-- Add a line to the current file. -/
def push (volumes : Volumes) (line : List UInt8) : Volumes where
  current := volumes.current ++ lineBytes line
  older := volumes.older

/-- A line joins the current file if that is empty or stays within the limit,
and starts a new file otherwise. -/
def add (maxBytes : Nat) (volumes : Volumes) (line : List UInt8) : Volumes :=
  if volumes.overflows maxBytes line then volumes.close.push line
  else volumes.push line

/-- The current file without some of its last bytes. -/
def cut (volumes : Volumes) (lost : Nat) : Volumes where
  current := volumes.current.rdrop lost
  older := volumes.older

/-- What a run of the program leaves of the files it has found. -/
def live (volumes : Volumes) (stretch : Stretch) : Volumes :=
  (stretch.lines.foldl (add stretch.maxBytes) volumes).cut stretch.lost

/-- What some runs of the program leave, one after the other. -/
def after (stretches : List Stretch) : Volumes :=
  stretches.foldl live empty

/-- All files, the last one first. -/
def all (volumes : Volumes) : List (List UInt8) :=
  volumes.current :: volumes.older

/-- The files of the log, of which the oldest ones go. -/
def files (maxFiles : Nat) (volumes : Volumes) : Slots (List UInt8) :=
  Slots.ofList maxFiles volumes.all

/-- The bytes of all files in order. -/
def text (volumes : Volumes) : List UInt8 :=
  volumes.all.reverse.flatten

theorem text_eq (volumes : Volumes) :
    volumes.text = volumes.older.reverse.flatten ++ volumes.current := by
  simp [text, all]

theorem text_add
    (maxBytes : Nat)
    (volumes : Volumes)
    (line : List UInt8) :
    (volumes.add maxBytes line).text = volumes.text ++ lineBytes line := by
  unfold add
  split <;> simp [text_eq, close, push]

/-- The lines are added to the text, wherever the files end. -/
theorem text_foldl
    (maxBytes : Nat)
    (volumes : Volumes)
    (lines : List (List UInt8)) :
    (lines.foldl (add maxBytes) volumes).text =
      volumes.text ++ render lines := by
  induction lines generalizing volumes with
  | nil => exact (List.append_nil _).symm
  | cons line lines inductionHypothesis =>
      rw [List.foldl_cons, inductionHypothesis, text_add, List.append_assoc]
      rfl

theorem text_cut
    {lost : Nat}
    {volumes : Volumes}
    (within : lost ≤ volumes.current.length) :
    (volumes.cut lost).text = volumes.text.rdrop lost := by
  rw [text_eq, text_eq, rdrop_append_of_le within]
  rfl

/-- A run that loses nothing but bytes of its own adds the others to the
text. -/
theorem text_live
    {volumes : Volumes}
    {stretch : Stretch}
    (buffered : stretch.lost ≤
      (stretch.lines.foldl (add stretch.maxBytes) volumes).current.length)
    (own : stretch.lost ≤ (render stretch.lines).length) :
    (volumes.live stretch).text = volumes.text ++ stretch.text := by
  rw [live, text_cut buffered, text_foldl, rdrop_append_of_le own]
  rfl

/-- The files in order are the last part of the text. -/
theorem newest_suffix (maxFiles : Nat) (volumes : Volumes) :
    (Slots.listed maxFiles (volumes.files maxFiles)).reverse.flatten <:+
      volumes.text := by
  rw [files, Slots.listed_ofList]
  refine ⟨(volumes.all.drop maxFiles).reverse.flatten, ?_⟩
  rw [← List.flatten_append, ← List.reverse_append, List.take_append_drop]
  rfl

/-- A cascade and a new empty file close the current file. -/
theorem cascade_files
    {maxFiles : Nat}
    (volumes : Volumes)
    (positive : 0 < maxFiles) :
    (Slots.cascade (maxFiles - 1) (volumes.files maxFiles)).put 0 (some []) =
      volumes.close.files maxFiles :=
  Slots.cascade_ofList positive volumes.all []

/-- Every file is within a limit or holds no more than a single line. -/
def Fits (limit : Nat) (lines : List (List UInt8)) (volumes : Volumes) : Prop :=
  ∀ bytes ∈ volumes.all,
    bytes.length ≤ limit ∨ ∃ line ∈ lines, bytes <+: lineBytes line

theorem Fits.mono
    {limit : Nat}
    {lines more : List (List UInt8)}
    {volumes : Volumes}
    (fits : volumes.Fits limit lines)
    (grows : lines ⊆ more) :
    volumes.Fits limit more := by
  intro bytes member
  rcases fits bytes member with small | ⟨line, passed, single⟩
  · exact .inl small
  · exact .inr ⟨line, grows passed, single⟩

theorem Fits.add
    {limit maxBytes : Nat}
    {lines : List (List UInt8)}
    {volumes : Volumes}
    (fits : volumes.Fits limit lines)
    (below : maxBytes ≤ limit)
    {line : List UInt8}
    (passed : line ∈ lines) :
    (volumes.add maxBytes line).Fits limit lines := by
  unfold Volumes.add
  split
  · intro bytes member
    rcases List.mem_cons.mp member with rfl | older
    · exact .inr ⟨line, passed, List.prefix_rfl⟩
    · exact fits bytes older
  · next joins =>
      intro bytes member
      rcases List.mem_cons.mp member with rfl | older
      · by_cases start : volumes.current = []
        · refine .inr ⟨line, passed, ?_⟩
          rw [push, start, List.nil_append]
        · have room := not_and.mp joins start
          left
          simp only [push, List.length_append, length_lineBytes]
          omega
      · exact fits bytes (List.mem_cons_of_mem _ older)

theorem Fits.cut
    {limit : Nat}
    {lines : List (List UInt8)}
    {volumes : Volumes}
    (fits : volumes.Fits limit lines)
    (lost : Nat) :
    (volumes.cut lost).Fits limit lines := by
  intro bytes member
  rcases List.mem_cons.mp member with rfl | older
  · have shorter : volumes.current.rdrop lost <+: volumes.current :=
      List.take_prefix _ _
    rcases fits _ List.mem_cons_self with small | ⟨line, passed, single⟩
    · exact .inl (shorter.length_le.trans small)
    · exact .inr ⟨line, passed, shorter.trans single⟩
  · exact fits bytes (List.mem_cons_of_mem _ older)

/-- A run under a limit leaves files that fit into it. -/
theorem Fits.live
    {limit : Nat}
    {lines : List (List UInt8)}
    {volumes : Volumes}
    {stretch : Stretch}
    (fits : volumes.Fits limit lines)
    (below : stretch.maxBytes ≤ limit) :
    (volumes.live stretch).Fits limit (lines ++ stretch.lines) := by
  refine Fits.cut ?_ stretch.lost
  have keep (passed : List (List UInt8)) (known : passed ⊆ stretch.lines) :
      (passed.foldl (Volumes.add stretch.maxBytes) volumes).Fits limit
        (lines ++ stretch.lines) := by
    induction passed using List.reverseRecOn with
    | nil => exact fits.mono (List.subset_append_left _ _)
    | append_singleton passed line inductionHypothesis =>
        rw [List.foldl_concat]
        rw [List.append_subset] at known
        exact (inductionHypothesis known.1).add below
          (List.mem_append_right _ (known.2 (List.mem_singleton_self line)))
  exact keep stretch.lines (List.Subset.refl _)

/-- All files of some runs fit into the largest of their limits. -/
theorem fits_after
    {limit : Nat}
    {stretches : List Stretch}
    (below : ∀ stretch ∈ stretches, stretch.maxBytes ≤ limit) :
    (after stretches).Fits limit (stretches.flatMap Stretch.lines) := by
  induction stretches using List.reverseRecOn with
  | nil =>
      intro bytes member
      rw [List.mem_singleton.mp member]
      exact .inl (Nat.zero_le _)
  | append_singleton stretches last inductionHypothesis =>
      rw [List.forall_mem_append, List.forall_mem_singleton] at below
      rw [after, List.foldl_concat, List.flatMap_append, List.flatMap_singleton]
      exact (inductionHypothesis below.1).live below.2

end Volumes

/-- The bytes of the groups of a partition. -/
def Partition.volumes (partition : Partition) : Volumes where
  current := render partition.current
  older := partition.older.map render

/-- A partition and its bytes start new groups and files at the same lines. -/
theorem Partition.volumes_add
    (maxBytes : Nat)
    (partition : Partition)
    (line : List UInt8) :
    (partition.add maxBytes line).volumes =
      partition.volumes.add maxBytes line := by
  have same : partition.volumes.overflows maxBytes line ↔
      partition.overflows maxBytes line := by
    rw [Volumes.overflows, overflows, ← length_render_pos_iff,
      List.length_pos_iff]
    rfl
  unfold add Volumes.add
  simp only [same]
  split <;>
    simp [volumes, close, push, Volumes.close, Volumes.push, render]

/-- The files of a partition hold its bytes. -/
theorem Partition.volumes_files (maxFiles : Nat) (partition : Partition) :
    partition.volumes.files maxFiles = partition.files maxFiles := by
  funext index
  rw [Volumes.files, Slots.ofList, files, group, ← List.getElem?_map]
  rfl

/-- Runs under one limit that lose nothing leave the groups of the partition of
all their lines. -/
theorem Volumes.after_eq_volumes
    {maxBytes : Nat}
    {stretches : List Stretch}
    (limit : ∀ stretch ∈ stretches, stretch.maxBytes = maxBytes)
    (lossless : ∀ stretch ∈ stretches, stretch.lost = 0) :
    after stretches =
      (Partition.of maxBytes (stretches.flatMap Stretch.lines)).volumes := by
  have whole (partition : Partition) (lines : List (List UInt8)) :
      lines.foldl (add maxBytes) partition.volumes =
        (lines.foldl (Partition.add maxBytes) partition).volumes := by
    induction lines generalizing partition with
    | nil => rfl
    | cons line lines inductionHypothesis =>
        rw [List.foldl_cons, List.foldl_cons, ← Partition.volumes_add,
          inductionHypothesis]
  induction stretches using List.reverseRecOn with
  | nil => rfl
  | append_singleton stretches last inductionHypothesis =>
      rw [List.forall_mem_append, List.forall_mem_singleton] at limit lossless
      rw [after, List.foldl_concat, ← after,
        inductionHypothesis limit.1 lossless.1, live, limit.2, lossless.2,
        whole, List.flatMap_append, List.flatMap_singleton, Partition.of,
        Partition.of, List.foldl_append, cut, List.rdrop_zero]

end Telemetryd
end TelemetryEdge
