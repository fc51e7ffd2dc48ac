import TelemetryEdge.Foundation.Slots
import TelemetryEdge.Telemetryd.Output

/-!
# Lines in groups that fit a limit

What the files of the log are meant to hold: the sequence of all lines is cut
greedily into groups, one for each file, and the newest groups are kept.
-/

namespace TelemetryEdge
namespace Telemetryd

/-- The bytes of a line with its line feed. -/
def lineBytes (line : List UInt8) : List UInt8 :=
  line ++ [newline]

/-- The bytes of a group of lines. -/
def render (group : List (List UInt8)) : List UInt8 :=
  group.flatMap lineBytes

/-- The complete lines in some bytes. -/
def linesOf (bytes : List UInt8) : List (List UInt8) :=
  (bytes.splitOn newline).dropLast

@[simp] theorem length_lineBytes (line : List UInt8) :
    (lineBytes line).length = line.length + 1 :=
  List.length_append

theorem render_append (first second : List (List UInt8)) :
    render (first ++ second) = render first ++ render second :=
  List.flatMap_append

@[simp] theorem render_singleton (line : List UInt8) :
    render [line] = lineBytes line :=
  List.append_nil _

theorem render_flatten (groups : List (List (List UInt8))) :
    render groups.flatten = (groups.map render).flatten := by
  induction groups with
  | nil => rfl
  | cons group groups inductionHypothesis =>
      rw [List.flatten_cons, render_append, inductionHypothesis]
      rfl

/-- Only an empty group has no bytes. -/
theorem length_render_pos_iff (group : List (List UInt8)) :
    0 < (render group).length ↔ group ≠ [] := by
  cases group with
  | nil => simp [render]
  | cons line group =>
      have longer : (render (line :: group)).length =
          line.length + 1 + (render group).length := by
        simp [render, lineBytes]
        omega
      have positive : 0 < (render (line :: group)).length := by omega
      simp only [positive, ne_eq, reduceCtorEq, not_false_eq_true]

theorem splitOn_render
    {group : List (List UInt8)}
    (newlineFree : ∀ line ∈ group, newline ∉ line) :
    (render group).splitOn newline = group ++ [[]] := by
  induction group with
  | nil => exact List.splitOn_nil newline
  | cons line group inductionHypothesis =>
      rw [List.forall_mem_cons] at newlineFree
      have start : render (line :: group) = line ++ newline :: render group := by
        simp [render, lineBytes]
      rw [start, List.splitOn_append_cons_self,
        List.splitOn_eq_singleton newlineFree.1,
        inductionHypothesis newlineFree.2]
      rfl

/-- Lines without line feeds are read back from their bytes. -/
theorem linesOf_render
    {group : List (List UInt8)}
    (newlineFree : ∀ line ∈ group, newline ∉ line) :
    linesOf (render group) = group := by
  rw [linesOf, splitOn_render newlineFree, List.dropLast_concat]

/-- The first line of some bytes is the one before the first line feed. -/
theorem linesOf_append_cons
    {line : List UInt8}
    (newlineFree : newline ∉ line)
    (bytes : List UInt8) :
    linesOf (line ++ newline :: bytes) = line :: linesOf bytes := by
  rw [linesOf, List.splitOn_append_cons_self,
    List.splitOn_eq_singleton newlineFree]
  exact List.dropLast_cons_of_ne_nil (List.splitOn_ne_nil newline bytes)

/-- Bytes without a line feed hold no complete line. -/
theorem linesOf_eq_nil
    {bytes : List UInt8}
    (newlineFree : newline ∉ bytes) :
    linesOf bytes = [] := by
  rw [linesOf, List.splitOn_eq_singleton newlineFree]
  rfl

/-- More bytes leave the complete lines as they are. -/
theorem prefix_linesOf_append (bytes more : List UInt8) :
    linesOf bytes <+: linesOf (bytes ++ more) := by
  induction size : bytes.length using Nat.strong_induction_on
    generalizing bytes with
  | _ size inductionHypothesis =>
      by_cases present : newline ∈ bytes
      · obtain ⟨line, rest, rfl, newlineFree⟩ :=
          List.eq_append_cons_of_mem present
        rw [List.append_assoc, List.cons_append,
          linesOf_append_cons newlineFree, linesOf_append_cons newlineFree,
          List.prefix_cons_inj]
        refine inductionHypothesis rest.length ?_ rest rfl
        rw [← size, List.length_append, List.length_cons]
        omega
      · rw [linesOf_eq_nil present]
        exact List.nil_prefix

/-- Groups of lines, the last one first. -/
structure Partition where
  current : List (List UInt8)
  older : List (List (List UInt8))

namespace Partition

/-- No line yet. -/
def empty : Partition where
  current := []
  older := []

/-- Whether a line has to start a new group. -/
def overflows (maxBytes : Nat) (partition : Partition)
    (line : List UInt8) : Prop :=
  partition.current ≠ [] ∧
    maxBytes < (render partition.current).length + (line.length + 1)

instance (maxBytes : Nat) (partition : Partition) (line : List UInt8) :
    Decidable (partition.overflows maxBytes line) :=
  inferInstanceAs (Decidable (_ ∧ _))

/-- Close the current group. -/
def close (partition : Partition) : Partition where
  current := []
  older := partition.current :: partition.older

/-- Put a line into the current group. -/
def push (partition : Partition) (line : List UInt8) : Partition where
  current := partition.current ++ [line]
  older := partition.older

/-- A line joins the current group if that is empty or the bytes stay within the
limit, and starts a new group otherwise. -/
def add (maxBytes : Nat) (partition : Partition)
    (line : List UInt8) : Partition :=
  if partition.overflows maxBytes line then partition.close.push line
  else partition.push line

/-- The partition of a sequence of lines. -/
def of (maxBytes : Nat) (lines : List (List UInt8)) : Partition :=
  lines.foldl (add maxBytes) empty

/-- All groups, the last one first. -/
def groups (partition : Partition) : List (List (List UInt8)) :=
  partition.current :: partition.older

/-- The group a number of places before the last one. -/
def group (partition : Partition) (index : Nat) :
    Option (List (List UInt8)) :=
  partition.groups[index]?

/-- The files that hold the newest groups. -/
def files (maxFiles : Nat) (partition : Partition) : Slots (List UInt8) :=
  fun index =>
    if index < maxFiles then (partition.group index).map render else none

/-- The lines of all groups in order. -/
def lines (partition : Partition) : List (List UInt8) :=
  partition.groups.reverse.flatten

theorem lines_add
    (maxBytes : Nat)
    (partition : Partition)
    (line : List UInt8) :
    (partition.add maxBytes line).lines = partition.lines ++ [line] := by
  unfold add
  split <;> simp [lines, groups, close, push]

/-- The groups are a partition of the lines. -/
theorem lines_foldl
    (maxBytes : Nat)
    (partition : Partition)
    (added : List (List UInt8)) :
    (added.foldl (add maxBytes) partition).lines = partition.lines ++ added := by
  induction added generalizing partition with
  | nil => exact (List.append_nil _).symm
  | cons line added inductionHypothesis =>
      rw [List.foldl_cons, inductionHypothesis, lines_add, List.append_assoc]
      rfl

theorem lines_of (maxBytes : Nat) (lines : List (List UInt8)) :
    (of maxBytes lines).lines = lines :=
  lines_foldl maxBytes empty lines

/-- Every group is within the limit or made of a single line. -/
def Fits (maxBytes : Nat) (partition : Partition) : Prop :=
  ∀ group ∈ partition.groups,
    (render group).length ≤ maxBytes ∨ ∃ line, group = [line]

theorem fits_add
    {maxBytes : Nat}
    {partition : Partition}
    (fits : partition.Fits maxBytes)
    (line : List UInt8) :
    (partition.add maxBytes line).Fits maxBytes := by
  unfold add
  split
  · intro group member
    rcases List.mem_cons.mp member with rfl | older
    · exact .inr ⟨line, rfl⟩
    · exact fits group older
  · next joins =>
      intro group member
      rcases List.mem_cons.mp member with rfl | older
      · by_cases start : partition.current = []
        · exact .inr ⟨line, by rw [push, start, List.nil_append]⟩
        · have room := not_and.mp joins start
          left
          simp only [push, render_append, render_singleton,
            List.length_append, length_lineBytes]
          omega
      · exact fits group (List.mem_cons_of_mem _ older)

theorem fits_of (maxBytes : Nat) (lines : List (List UInt8)) :
    (of maxBytes lines).Fits maxBytes := by
  have keep (partition : Partition) (fits : partition.Fits maxBytes) :
      (lines.foldl (add maxBytes) partition).Fits maxBytes := by
    induction lines generalizing partition with
    | nil => exact fits
    | cons line lines inductionHypothesis =>
        exact inductionHypothesis _ (fits_add fits line)
  refine keep empty fun group member => .inl ?_
  rw [List.mem_singleton.mp member]
  exact Nat.zero_le maxBytes

theorem files_of_le
    {maxFiles index : Nat}
    (partition : Partition)
    (high : maxFiles ≤ index) :
    partition.files maxFiles index = none :=
  if_neg (Nat.not_lt_of_le high)

theorem files_of_lt
    {maxFiles index : Nat}
    (partition : Partition)
    (low : index < maxFiles) :
    partition.files maxFiles index = (partition.group index).map render :=
  if_pos low

/-- Groups are closed one after the other, so a missing group has no older
ones. -/
theorem group_succ_eq_none
    {partition : Partition}
    {index : Nat}
    (missing : partition.group index = none) :
    partition.group (index + 1) = none := by
  unfold group at missing ⊢
  rw [List.getElem?_eq_none_iff] at missing ⊢
  exact Nat.le_succ_of_le missing

theorem close_group_succ (partition : Partition) (index : Nat) :
    partition.close.group (index + 1) = partition.group index := rfl

/-- A cascade and a new empty file close the current group. -/
theorem cascade_files
    {maxFiles : Nat}
    (partition : Partition)
    (positive : 0 < maxFiles) :
    (Slots.cascade (maxFiles - 1) (partition.files maxFiles)).put 0 (some []) =
      partition.close.files maxFiles := by
  obtain ⟨rounds, rfl⟩ := Nat.exists_eq_succ_of_ne_zero (Nat.ne_of_gt positive)
  funext index
  cases index with
  | zero =>
      rw [Slots.put_self, files_of_lt _ positive]
      rfl
  | succ index =>
      have above : index + 1 ≠ 0 := Nat.succ_ne_zero index
      rw [Slots.put_of_ne _ _ above]
      cases rounds with
      | zero =>
          rw [files_of_le _ (Nat.le_add_left 1 index)]
          exact files_of_le _ (Nat.le_add_left 1 index)
      | succ rounds =>
          rw [Nat.succ_eq_add_one, Nat.add_sub_cancel,
            Slots.cascade_succ_apply, if_neg above,
            Nat.add_sub_cancel]
          split
          · rw [files_of_lt _ (by omega), files_of_lt _ (by omega),
              close_group_succ]
          · split
            · next top =>
                -- The topmost file is replaced if there is one below it.
                have same : index = rounds := Nat.succ_injective top
                subst same
                rw [files_of_lt _ (by omega), files_of_lt _ (by omega),
                  files_of_lt _ (by omega), close_group_succ]
                cases below : partition.group index with
                | none => rw [group_succ_eq_none below]; rfl
                | some group => rfl
            · rw [files_of_le _ (by omega), files_of_le _ (by omega)]

/-- The files below the limit hold the newest groups. -/
theorem listed_files (maxFiles : Nat) (partition : Partition) :
    Slots.listed maxFiles (partition.files maxFiles) =
      (partition.groups.take maxFiles).map render := by
  have below : Slots.listed maxFiles (partition.files maxFiles) =
      Slots.listed maxFiles (Slots.map render fun index =>
        partition.groups[index]?) :=
    Slots.listed_congr fun index low => files_of_lt partition low
  rw [below, Slots.listed_map, Slots.listed_getElem?]

end Partition

end Telemetryd
end TelemetryEdge
