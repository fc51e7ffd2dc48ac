import TelemetryEdge.Telemetryd.FaultyWrites
import TelemetryEdge.Telemetryd.Grouping

/-!
# Lines torn by write errors

The output task goes on with the next record after an error.  A write that fails
with a part of a line already appended leaves that part in the file, where the
next line joins it, and leaves it out of the size.  As long as no write does so,
the files hold whole lines and the size is that of the current file.
-/

namespace TelemetryEdge
namespace Telemetryd

open Attempt

/-- A call of the output task on its writer. -/
inductive Call
  | line (bytes : List UInt8)
  | flush
  deriving DecidableEq

/-- The line that a call passes to the writer. -/
def Call.line? : Call → Option (List UInt8)
  | .line bytes => some bytes
  | .flush => none

/-- The lines that some calls pass to the writer. -/
def passed (calls : List Call) : List (List UInt8) :=
  calls.filterMap Call.line?

namespace Output

/-- The calls of the output task, which goes on after errors. -/
def daemon : Machine Output Call (Except IoError Unit) where
  step output
    | .line bytes =>
        let (result, after) := writeLine bytes output
        (after, result)
    | .flush =>
        let (result, after) := flush output
        (after, result)

/-- Whether a line is torn: it fails after its rotation, if there is one, with a
part of it appended. -/
def tears (output : Output) (line : List UInt8) : Prop :=
  match runIf (output.overflows line) rotate output with
  | (.ok _, ready) => ready.splits line ∨ ready.strands line
  | (.error _, _) => False

instance (output : Output) (line : List UInt8) :
    Decidable (output.tears line) := by
  unfold tears
  split <;> infer_instance

/-- What is promised after every call: the complete lines in the log files are
lines passed to the writer, and the size is that of the current file with the
bytes still buffered for it. -/
structure Intact (lines : List (List UInt8)) (output : Output) : Prop where
  lines : ∀ index bytes, output.disk.read (path index) = some bytes →
    ∀ line ∈ linesOf bytes, line ∈ lines
  size : output.writer.size =
    (output.content output.writer.file.inode).length

/-- A line written to the open file.  If it fails, what it has appended is empty
unless it was split or stranded. -/
theorem appendLine_cases (line : List UInt8) (ready : Output) :
    Ensures (ready = ·)
      (do
        writeAll line
        writeAll [newline]
        Attempt.modify fun output =>
          { output with
            writer.size := output.writer.size + (line.length + 1) })
      (fun _ after => ¬ (ready.splits line ∨ ready.strands line) ∧
        ∃ whole, Wrote (lineBytes line) ready whole ∧
          after =
            { whole with
              writer.size := whole.writer.size + (line.length + 1) })
      (fun _ after => ∃ part, Wrote part ready after ∧
        (part ≠ [] ↔ ready.splits line ∨ ready.strands line)) := by
  refine (writeAll_cases line ready).andThen ?_ fun _ half stored => ?_
  · rintro _ after ⟨⟨count, short, wrote, splits⟩, unfilled⟩
    refine ⟨_, wrote, ?_⟩
    rw [← splits, ← List.length_pos_iff, List.length_take,
      Nat.min_eq_left (Nat.le_of_lt short), or_iff_left unfilled]
  refine (writeAll_newline half).andThen ?_ fun _ whole made => ?_
  · rintro _ after ⟨wrote, full, stormy⟩
    refine ⟨_, stored.wrote.trans wrote, ?_⟩
    rw [List.append_nil]
    constructor
    · exact fun nonempty => .inr (stored.strands nonempty full stormy)
    · rintro (splits | strands)
      · exact absurd splits stored.unsplit
      · exact strands.1
  refine Ensures.modify ?_
  rintro _ rfl
  obtain ⟨wrote, calm⟩ := made
  refine ⟨?_, _, stored.wrote.trans wrote, rfl⟩
  rintro (splits | strands)
  · exact stored.unsplit splits
  · obtain ⟨full, stormy⟩ := stored.full strands
    rw [calm full] at stormy
    contradiction

/-- A line is appended whole, or its rotation fails and nothing is appended, or
a part of it is appended. -/
theorem writeLine_cases (line : List UInt8) (output : Output) :
    Ensures (output = ·) (writeLine line)
      (fun _ after => ¬ output.tears line ∧ ∃ ready whole,
        runIf (output.overflows line) rotate output = (.ok (), ready) ∧
        Wrote (lineBytes line) ready whole ∧
          after =
            { whole with
              writer.size := whole.writer.size + (line.length + 1) })
      (fun _ after => (¬ output.tears line ∧ Moved output after) ∨
        ∃ ready part,
          runIf (output.overflows line) rotate output = (.ok (), ready) ∧
          Wrote part ready after ∧ (part ≠ [] ↔ output.tears line)) := by
  refine Ensures.bind_read ?_
  rcases ended : runIf (output.overflows line) rotate output with
    ⟨error | _, ready⟩
  · have moved : Moved output ready := by
      by_cases starts : output.overflows line
      · rw [runIf, if_pos starts] at ended
        exact (rotate_moved output).of_error rfl ended
      · rw [runIf, if_neg starts] at ended
        cases ended
    have untorn : ¬ output.tears line := by
      rw [tears, ended]
      exact id
    rintro _ rfl
    rw [bind_apply, ended]
    exact .inl ⟨untorn, moved⟩
  · have tears : output.tears line ↔
        ready.splits line ∨ ready.strands line := by
      rw [tears, ended]
    have appended := appendLine_cases line ready ready rfl
    rintro _ rfl
    rw [bind_apply, ended]
    dsimp only
    simp only [tears]
    split at appended
    · next value after result =>
        rw [result]
        obtain ⟨untorn, whole, wrote, same⟩ := appended
        exact ⟨untorn, ready, whole, rfl, wrote, same⟩
    · next error after result =>
        rw [result]
        obtain ⟨part, wrote, torn⟩ := appended
        exact .inr ⟨ready, part, rfl, wrote, torn⟩

/-- Bytes that are lines of a list, in any order. -/
def AreLines (lines : List (List UInt8)) (bytes : List UInt8) : Prop :=
  ∃ group, (∀ line ∈ group, line ∈ lines) ∧ bytes = render group

theorem AreLines.mono
    {lines more : List (List UInt8)}
    {bytes : List UInt8}
    (are : AreLines lines bytes)
    (grows : ∀ line ∈ lines, line ∈ more) :
    AreLines more bytes := by
  obtain ⟨group, members, same⟩ := are
  exact ⟨group, fun line member => grows line (members line member), same⟩

/-- A line added to lines. -/
theorem AreLines.append
    {lines : List (List UInt8)}
    {bytes : List UInt8}
    (are : AreLines lines bytes)
    (line : List UInt8) :
    AreLines (lines ++ [line]) (bytes ++ lineBytes line) := by
  obtain ⟨group, members, rfl⟩ := are
  refine ⟨group ++ [line], ?_, ?_⟩
  · intro other member
    rw [List.mem_append] at member ⊢
    exact member.imp_left (members other)
  · rw [render_append, render_singleton]

/-- The first part of some lines holds complete lines of them only. -/
theorem AreLines.mem_of_linesOf
    {lines : List (List UInt8)}
    {bytes more : List UInt8}
    (are : AreLines lines (bytes ++ more))
    (newlineFree : ∀ line ∈ lines, newline ∉ line) :
    ∀ line ∈ linesOf bytes, line ∈ lines := by
  obtain ⟨group, members, same⟩ := are
  intro line complete
  have whole := (prefix_linesOf_append bytes more).subset complete
  rw [same, linesOf_render fun other member =>
    newlineFree other (members other member)] at whole
  exact members line whole

/-- The files hold whole lines, and the size is that of the current file. -/
structure Whole (lines : List (List UInt8)) (output : Output) : Prop where
  sound : output.disk.Sound
  files : ∀ index inode, output.disk.slot index = some inode →
    AreLines lines (output.content inode)
  current : AreLines lines (output.content output.writer.file.inode)
  size : output.writer.size =
    (output.content output.writer.file.inode).length

namespace Whole

variable
  {lines : List (List UInt8)}
  {before after : Output}

theorem mono
    {more : List (List UInt8)}
    (whole : before.Whole lines)
    (grows : ∀ line ∈ lines, line ∈ more) :
    before.Whole more where
  sound := whole.sound
  files index inode held := (whole.files index inode held).mono grows
  current := whole.current.mono grows
  size := whole.size

/-- What is whole is intact. -/
theorem intact
    (whole : before.Whole lines)
    (newlineFree : ∀ line ∈ lines, newline ∉ line) :
    before.Intact lines where
  lines index bytes held := by
    obtain ⟨inode, found, rfl⟩ := Option.map_eq_some_iff.mp held
    exact (whole.files index inode found).mem_of_linesOf newlineFree
  size := whole.size

/-- Moving files leaves their lines. -/
theorem moved
    (whole : before.Whole lines)
    (moved : Moved before after) :
    after.Whole lines where
  sound := moved.sound whole.sound
  files index inode held := by
    obtain ⟨other, earlier⟩ := moved.source index inode held
    rw [moved.content]
    exact whole.files other inode earlier
  current := by
    rw [moved.content, moved.inode]
    exact whole.current
  size := by
    rw [moved.content, moved.inode, moved.size]
    exact whole.size

/-- A rotation that succeeds starts an empty file. -/
theorem rotated
    (whole : before.Whole lines)
    (ended : rotate before = (.ok (), after)) :
    after.Whole lines := by
  have spec := rotate_ok whole.sound before rfl
  rw [ended] at spec
  obtain ⟨sound, current, slot, writer, -, -⟩ := spec
  have files : ∀ index bytes, after.slot index = some bytes →
      AreLines lines bytes := by
    intro index bytes held
    rw [slot] at held
    by_cases first : index = 0
    · rw [first, Slots.put_self] at held
      cases held
      exact ⟨[], fun _ member => absurd member List.not_mem_nil, rfl⟩
    · rw [Slots.put_of_ne _ _ first] at held
      obtain ⟨source, earlier⟩ := Slots.exists_of_cascade held
      obtain ⟨inode, found, rfl⟩ := Option.map_eq_some_iff.mp earlier
      exact whole.files source inode found
  have start : after.content after.writer.file.inode = [] := by
    have held := congrFun slot 0
    rw [Slots.put_self, Output.slot, Slots.map_apply, current] at held
    exact Option.some.inj held
  refine ⟨sound, fun index inode held => ?_, ?_, ?_⟩
  · refine files index _ ?_
    rw [Output.slot, Slots.map_apply, held]
    rfl
  · rw [start]
    exact ⟨[], fun _ member => absurd member List.not_mem_nil, rfl⟩
  · rw [start, writer]
    rfl

theorem ready
    {line : List UInt8}
    (whole : before.Whole lines)
    (ended : runIf (before.overflows line) rotate before = (.ok (), after)) :
    after.Whole lines := by
  by_cases starts : before.overflows line
  · rw [runIf, if_pos starts] at ended
    exact whole.rotated ended
  · rw [runIf, if_neg starts] at ended
    cases ended
    exact whole

/-- A line appended to the open file. -/
theorem appended
    {line : List UInt8}
    (whole : before.Whole lines)
    (wrote : Wrote (lineBytes line) before after) :
    Whole (lines ++ [line])
      { after with
        writer.size := after.writer.size + (line.length + 1) } where
  sound := wrote.sound whole.sound
  files index inode held := by
    change AreLines _ (after.content inode)
    rw [wrote.content]
    by_cases opened : inode = before.writer.file.inode
    · rw [opened, Function.update_self]
      exact whole.current.append line
    · rw [Function.update_of_ne opened]
      exact (whole.files index inode (wrote.diskSlot ▸ held)).mono
        fun _ member => List.mem_append_left _ member
  current := by
    change AreLines _ (after.content after.writer.file.inode)
    rw [wrote.content, wrote.inode, Function.update_self]
    exact whole.current.append line
  size := by
    change after.writer.size + _ =
      (after.content after.writer.file.inode).length
    rw [wrote.content, wrote.inode, Function.update_self, List.length_append,
      length_lineBytes, wrote.size, whole.size]

/-- A part appended without its size leaves the size wrong. -/
theorem size_ne_of_part
    {part : List UInt8}
    (whole : before.Whole lines)
    (wrote : Wrote part before after)
    (nonempty : part ≠ []) :
    after.writer.size ≠ (after.content after.writer.file.inode).length := by
  have positive := List.length_pos_iff.mpr nonempty
  rw [wrote.content, wrote.inode, Function.update_self, List.length_append,
    wrote.size, whole.size]
  omega

end Whole

/-! ## Every run -/

section Steps

variable
  {lines : List (List UInt8)}
  {output : Output}
  (whole : output.Whole lines)

include whole

/-- A line that is not torn leaves whole lines. -/
theorem Whole.step_line
    {line : List UInt8}
    (untorn : ¬ output.tears line) :
    (daemon.step output (.line line)).1.Whole (lines ++ [line]) := by
  have cases := writeLine_cases line output output rfl
  have grows : ∀ other ∈ lines, other ∈ lines ++ [line] :=
    fun _ member => List.mem_append_left _ member
  change (writeLine line output).2.Whole _
  split at cases
  · next value after result =>
      rw [result]
      obtain ⟨-, ready, written, ended, wrote, rfl⟩ := cases
      exact (whole.ready ended).appended wrote
  · next error after result =>
      rw [result]
      rcases cases with ⟨-, moved⟩ | ⟨ready, part, ended, wrote, torn⟩
      · exact (whole.moved moved).mono grows
      · obtain rfl : part = [] := not_not.mp (mt torn.mp untorn)
        exact ((whole.ready ended).moved wrote.moved).mono grows

/-- A line that is torn leaves a wrong size. -/
theorem Whole.size_ne_of_tears
    {line : List UInt8}
    (torn : output.tears line) :
    ¬ (daemon.step output (.line line)).1.Intact (lines ++ [line]) := by
  have cases := writeLine_cases line output output rfl
  change ¬ (writeLine line output).2.Intact _
  split at cases
  · next value after result => exact absurd torn cases.1
  · next error after result =>
      rw [result]
      rcases cases with ⟨untorn, -⟩ | ⟨ready, part, ended, wrote, left⟩
      · exact absurd torn untorn
      · intro intact
        exact (whole.ready ended).size_ne_of_part wrote (left.mpr torn)
          intact.size

/-- A flush leaves whole lines. -/
theorem Whole.step_flush :
    (daemon.step output .flush).1.Whole lines := by
  have spec := flushBuf_spec output output rfl
  change (flushBuf output).2.Whole lines
  split at spec
  · next value after result =>
      rw [result]
      exact whole.moved spec.1.moved
  · next error after result =>
      rw [result]
      exact whole.moved spec.1.moved

end Steps

/-- A writer on a directory with an empty current file and no other holds no
lines. -/
theorem whole_of_created
    {inode : Nat}
    {writer : RotatingWriter}
    {disk : Disk}
    (sound : disk.Sound)
    (current : disk.slot 0 = some inode)
    (stored : disk.stored = Slots.put (fun _ => none) 0 (some []))
    (file : writer.file = BufWriter.new inode)
    (size : writer.size = (disk.contents inode).length) :
    Whole [] { writer, disk } := by
  have empty : ∀ index held, disk.slot index = some held →
      disk.contents held = [] := by
    intro index held found
    have content := congrFun stored index
    rw [Disk.stored, Slots.map_apply, found, Slots.put] at content
    split at content
    · exact Option.some.inj content
    · cases content
  have unbuffered : ∀ held,
      Output.content { writer, disk } held = disk.contents held := by
    intro held
    rw [Output.content, file, BufWriter.new, ite_self, List.append_nil]
  have nothing : AreLines [] [] :=
    ⟨[], fun _ member => absurd member List.not_mem_nil, rfl⟩
  refine ⟨sound, fun index held found => ?_, ?_, ?_⟩
  · rw [unbuffered, empty index held found]
    exact nothing
  · rw [unbuffered, file, BufWriter.new, empty 0 inode current]
    exact nothing
  · rw [unbuffered, file, BufWriter.new]
    exact size

/-- A writer opened in an empty directory holds no lines. -/
theorem whole_of_open
    {maxBytes maxFiles : Nat}
    {faults : List (Option Nat)}
    {writer : RotatingWriter}
    {disk : Disk}
    (opened : RotatingWriter.open maxBytes maxFiles
      { Disk.empty with faults } = (.ok writer, disk)) :
    Whole [] { writer, disk } := by
  have sound : Disk.Sound (Disk.advance { Disk.empty with faults }) :=
    ⟨fun _ _ _ held => (nomatch held), fun _ _ held => (nomatch held)⟩
  have spec : Ensures ({ Disk.empty with faults } = ·)
      (RotatingWriter.open maxBytes maxFiles)
      (fun writer disk => Whole [] { writer, disk }) (fun _ _ => True) := by
    refine (Disk.operation_spec .createDirAll (fun disk => ((), disk))
      _).andThen (fun _ _ _ => trivial) fun _ made done => ?_
    obtain ⟨-, rfl⟩ := Prod.mk.inj done.2
    refine (Disk.openFile_spec false sound).andThen
      (fun _ _ _ => trivial) fun inode created fresh => ?_
    obtain ⟨sound, current, stored, -, -⟩ := fresh
    refine (Disk.operation_spec .metadata _ created).andThen
      (fun _ _ _ => trivial) fun size measured read => ?_
    obtain ⟨rfl, rfl⟩ := Prod.mk.inj read.2
    refine Ensures.pure ?_
    rintro _ rfl
    exact whole_of_created ⟨sound.distinct, sound.fresh⟩ current stored rfl rfl
  have result := spec _ rfl
  rw [opened] at result
  exact result

@[simp] theorem passed_append (calls more : List Call) :
    passed (calls ++ more) = passed calls ++ passed more :=
  List.filterMap_append

/-- The lines of the calls up to some point are lines of all calls. -/
theorem passed_subset
    {past calls : List Call}
    (before : past <+: calls) :
    ∀ line ∈ passed past, line ∈ passed calls := by
  obtain ⟨rest, rfl⟩ := before
  intro line member
  rw [passed_append]
  exact List.mem_append_left _ member

/-- A run that has torn no line so far holds whole lines. -/
theorem whole_final
    {start : Output}
    (whole : start.Whole [])
    {past : List Call}
    (untorn : ∀ before line, before ++ [.line line] <+: past →
      ¬ (daemon.final start before).tears line) :
    (daemon.final start past).Whole (passed past) := by
  induction past using List.reverseRecOn with
  | nil => exact whole
  | append_singleton past call inductionHypothesis =>
      have holds := inductionHypothesis fun before line earlier =>
        untorn before line (earlier.trans (List.prefix_append past [call]))
      rw [Machine.final_append, Machine.final_cons, Machine.final_nil,
        passed_append]
      cases call with
      | line line =>
          exact holds.step_line (untorn past line List.prefix_rfl)
      | flush =>
          rw [show passed [Call.flush] = [] from rfl, List.append_nil]
          exact holds.step_flush

/-- A run stays intact after every call exactly if no call tears a line. -/
theorem intact_iff
    {maxBytes maxFiles : Nat}
    {faults : List (Option Nat)}
    {writer : RotatingWriter}
    {disk : Disk}
    (opened : RotatingWriter.open maxBytes maxFiles
      { Disk.empty with faults } = (.ok writer, disk))
    {calls : List Call}
    (newlineFree : ∀ line ∈ passed calls, newline ∉ line) :
    (∀ past, past <+: calls →
        (daemon.final { writer, disk } past).Intact (passed past)) ↔
      ∀ past line, past ++ [.line line] <+: calls →
        ¬ (daemon.final { writer, disk } past).tears line := by
  have whole := whole_of_open opened
  constructor
  · intro intact past
    -- Up to the first torn line everything is whole.
    induction size : past.length using Nat.strong_induction_on
      generalizing past with
    | _ size inductionHypothesis =>
        intro line before torn
        have untorn : ∀ earlier other, earlier ++ [.line other] <+: past →
            ¬ (daemon.final { writer, disk } earlier).tears other := by
          intro earlier other inPast
          have shorter := inPast.length_le
          rw [List.length_append, List.length_singleton] at shorter
          exact inductionHypothesis earlier.length (by omega) earlier rfl other
            (inPast.trans ((List.prefix_append past _).trans before))
        have holds := whole_final whole untorn
        have next := intact _ before
        rw [Machine.final_append, Machine.final_cons, Machine.final_nil,
          passed_append] at next
        exact holds.size_ne_of_tears torn next
  · intro untorn past before
    have holds := whole_final whole fun earlier line inPast =>
      untorn earlier line (inPast.trans before)
    exact holds.intact fun line member =>
      newlineFree line (passed_subset before line member)

/-- A line that goes past the buffer and a short one. -/
def tornCalls : List Call :=
  [.line (.replicate 8192 97), .line [98], .flush]

/-- A writer opened in an empty directory on a disk where the next write fails
with three bytes stored. -/
def tornStart : Output where
  writer :=
    { maxBytes := 10485760
      maxFiles := 5
      file := BufWriter.new 0
      size := 0 }
  disk :=
    { directory := (∅ : KeyedMap String Nat).insert (path 0) 0
      contents := Function.update (fun _ => []) 0 []
      nextInode := 1
      faults := [some 3] }

theorem tornStart_opened :
    RotatingWriter.open 10485760 5
        { Disk.empty with faults := [none, none, none, some 3] } =
      (.ok tornStart.writer, tornStart.disk) := rfl

/-- The short line joins what is left of the long one. -/
theorem tornCalls_not_intact :
    (∀ line ∈ passed tornCalls, newline ∉ line) ∧
      (daemon.final tornStart tornCalls).disk.read (path 0) =
        some [97, 97, 97, 98, 10] ∧
      [97, 97, 97, 98] ∉ passed tornCalls ∧
      ¬ (daemon.final tornStart tornCalls).Intact (passed tornCalls) := by
  have held : (daemon.final tornStart tornCalls).disk.read (path 0) =
      some [97, 97, 97, 98, 10] := by
    decide +kernel
  have absent : [97, 97, 97, 98] ∉ passed tornCalls := by
    decide +kernel
  refine ⟨by decide +kernel, held, absent, fun intact => ?_⟩
  exact absent (intact.lines 0 _ held _ (by decide))

/-- Two short lines with a flush between them. -/
def shortCalls : List Call :=
  [.line [97, 97, 97, 97], .flush, .line [98]]

/-- The same fault hits the flush and tears no short line: what was buffered is
still there. -/
theorem shortCalls_intact :
    (daemon.final tornStart shortCalls).disk.read (path 0) =
        some [97, 97, 97] ∧
      (daemon.final tornStart shortCalls).Intact (passed shortCalls) := by
  have untorn : ∀ past line, past ++ [.line line] <+: shortCalls →
      ¬ (daemon.final tornStart past).tears line := by
    rintro past line ⟨rest, same⟩
    rcases past with _ | ⟨first, _ | ⟨second, _ | ⟨third, more⟩⟩⟩
    · obtain ⟨rfl, -⟩ := by simpa [shortCalls] using same
      decide +kernel
    · simp [shortCalls] at same
    · obtain ⟨rfl, rfl, rfl, -⟩ := by simpa [shortCalls] using same
      decide +kernel
    · simp [shortCalls] at same
  refine ⟨by decide +kernel, ?_⟩
  exact (intact_iff tornStart_opened (by decide)).mpr untorn shortCalls
    List.prefix_rfl

end Output
end Telemetryd
end TelemetryEdge
