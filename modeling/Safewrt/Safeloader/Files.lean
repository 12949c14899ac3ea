/-
  Files the tool writes (tools/tplink-safeloader/tplink-safeloader.c, `write_partition`,
  `write_ff`).

  1. A disk is its files, by path.  A stream writes where it stands: `fwrite` over what is there,
     with zeros up to it if it stands behind the end.

  2. **`copyLoop_eq`** — `write_partition`: chunks of 4096 bytes and what is left come to the
     bytes of the partition, whatever the buffer held before.  The invariant (`Copying`) is that
     the output is what it was and behind it the file's bytes up to where the input stands.

  3. **`writeFFLoop_eq`** — `write_ff`: as many 0xff as asked for, as long as they can be counted in
     the `int` the loop counts with.

  The results of `fread` and `fwrite` are compared with `< 0`, which an unsigned number never is: no
  read and no write stops a run.
-/
import Safewrt.Safeloader.Table

namespace Safewrt.Safeloader

open Safewrt.Lib

/-! ## Disks and streams -/

/-- A path is its bytes, without the zero. -/
abbrev Path := Bytes

/-- The files there are, by path; directories are left to the operating system. -/
abbrev Disk := Path → Option Bytes

/-- What can be read of a path: nothing, if there is no file. -/
def Disk.content (disk : Disk) (path : Path) : Bytes := (disk path).getD []

/-- The file with this content. -/
def Disk.write (disk : Disk) (path : Path) (content : Bytes) : Disk :=
  Function.update disk path (some content)

theorem Disk.content_of_eq {disk : Disk} {path : Path} {content : Bytes}
    (h : disk path = some content) : disk.content path = content := by
  rw [Disk.content, h, Option.getD_some]

@[simp] theorem Disk.write_same (disk : Disk) (path : Path) (content : Bytes) :
    disk.write path content path = some content := Function.update_self ..

theorem Disk.write_other (disk : Disk) {path other : Path} (content : Bytes) (h : other ≠ path) :
    disk.write path content other = disk other := Function.update_of_ne h ..

@[simp] theorem Disk.write_write (disk : Disk) (path : Path) (a b : Bytes) :
    (disk.write path a).write path b = disk.write path b := Function.update_idem ..

theorem Disk.write_eq_self {disk : Disk} {path : Path} {content : Bytes}
    (h : disk path = some content) : disk.write path content = disk := by
  rw [Disk.write, ← h, Function.update_eq_self]

/-- `fwrite` at `pos`. -/
def fwrite (content : Bytes) (pos : Nat) (data : Bytes) : Bytes :=
  content.take pos ++ List.replicate (pos - content.length) 0 ++ data ++
    content.drop (pos + data.length)

/-- At the end, a write appends. -/
theorem fwrite_end {content : Bytes} {pos : Nat} (h : content.length = pos) (data : Bytes) :
    fwrite content pos data = content ++ data := by
  subst h
  rw [fwrite, List.take_length, Nat.sub_self, List.drop_eq_nil_of_le (Nat.le_add_right ..)]
  simp

/-! ## `write_partition` -/

/-- The variables of `write_partition`, the positions of its two streams, and the disk. -/
structure Copy where
  disk : Disk
  buf : Bytes
  inPos : Nat
  outPos : Nat

/-- `n` bytes are read into the buffer and written. -/
def copyChunk (input output : Path) (n : Nat) (c : Copy) : Copy :=
  let rest := (c.disk.content input).drop c.inPos
  let buf := fread (c.buf.take n) rest ++ c.buf.drop n
  { disk := c.disk.write output (fwrite (c.disk.content output) c.outPos (buf.take n))
    buf
    inPos := c.inPos + min n rest.length
    outPos := c.outPos + n }

/-- The loop of `write_partition`, and the last chunk. -/
def copyLoop (input output : Path) (size offset : Nat) (c : Copy) : Copy :=
  if 4096 + offset ≤ size then
    copyLoop input output size (offset + 4096) (copyChunk input output 4096 c)
  else if offset < size then copyChunk input output (size - offset) c
  else c
termination_by size - offset

/-- `write_partition`; `outPos` is where the output stands. -/
def writePartition (stale : Nat → UInt8) (input output : Path) (firmwareOffset : Nat)
    (entry : FlashPartition) (disk : Disk) (outPos : Nat) : Disk × Nat :=
  let c := copyLoop input output entry.size.toNat 0
    ⟨disk, malloc stale 4096, entry.base.toNat + firmwareOffset, outPos⟩
  (c.disk, c.outPos)

/-- A copy that stands at the end of its output, with its input beside it. -/
structure Copying (input output : Path) (file old : Bytes) (c : Copy) : Prop where
  apart : input ≠ output
  isInput : c.disk input = some file
  isOutput : c.disk output = some old
  atEnd : old.length = c.outPos
  isBuffer : c.buf.length = 4096

/-- **One chunk**, where the input is long enough. -/
theorem copyChunk_spec {input output : Path} {file old : Bytes} {c : Copy} {n : Nat}
    (h : Copying input output file old c) (hn : n ≤ 4096) (hfile : c.inPos + n ≤ file.length) :
    Copying input output file (old ++ (file.drop c.inPos).take n) (copyChunk input output n c) ∧
      (copyChunk input output n c).disk =
        c.disk.write output (old ++ (file.drop c.inPos).take n) ∧
      (copyChunk input output n c).inPos = c.inPos + n ∧
      (copyChunk input output n c).outPos = c.outPos + n := by
  have hrest : (file.drop c.inPos).length = file.length - c.inPos := List.length_drop
  have hchunk : ((file.drop c.inPos).take n).length = n := by
    rw [List.length_take]
    omega
  have hbuf : (c.buf.take n).length = n := by
    rw [List.length_take, h.isBuffer]
    omega
  -- the chunk is all there, so no byte of the old buffer is left in front
  have hover : (c.buf.take n).drop (file.drop c.inPos).length = [] :=
    List.drop_eq_nil_of_le (by omega)
  have hread : fread (c.buf.take n) (file.drop c.inPos) = (file.drop c.inPos).take n := by
    rw [fread, hbuf, hover, List.append_nil]
  have heq : copyChunk input output n c =
      ⟨c.disk.write output (old ++ (file.drop c.inPos).take n),
        (file.drop c.inPos).take n ++ c.buf.drop n, c.inPos + n, c.outPos + n⟩ := by
    unfold copyChunk
    dsimp only
    rw [Disk.content_of_eq h.isInput, Disk.content_of_eq h.isOutput, hread,
      List.take_left' hchunk, fwrite_end h.atEnd, hrest, Nat.min_eq_left (by omega)]
  rw [heq]
  refine ⟨⟨h.apart, ?_, Disk.write_same .., ?_, ?_⟩, rfl, rfl, rfl⟩
  · exact (Disk.write_other _ _ h.apart).trans h.isInput
  · show (old ++ (file.drop c.inPos).take n).length = c.outPos + n
    rw [List.length_append, h.atEnd, hchunk]
  · show ((file.drop c.inPos).take n ++ c.buf.drop n).length = 4096
    rw [List.length_append, List.length_drop, hchunk, h.isBuffer]
    omega

/-- **All chunks.** -/
theorem copyLoop_eq {input output : Path} {file : Bytes} (size n : Nat) :
    ∀ (offset : Nat) {old : Bytes} {c : Copy}, size - offset = n →
      Copying input output file old c → c.inPos + n ≤ file.length →
        (copyLoop input output size offset c).disk =
            c.disk.write output (old ++ (file.drop c.inPos).take n) ∧
          (copyLoop input output size offset c).outPos = c.outPos + n := by
  induction n using Nat.strong_induction_on with
  | h n ih =>
    intro offset old c hn h hfile
    rw [copyLoop]
    -- strong induction on what is left: a chunk of 4096, or a last one, or none
    by_cases hmore : 4096 + offset ≤ size
    · rw [if_pos hmore]
      obtain ⟨hcopy, hdisk, hin, hout⟩ := copyChunk_spec h (Nat.le_refl 4096) (by omega)
      obtain ⟨hdisk', hout'⟩ := ih (n - 4096) (by omega) (offset + 4096) (by omega)
        hcopy (by omega)
      have hsum : n = 4096 + (n - 4096) := by omega
      rw [hdisk', hout', hdisk, hin, hout, Disk.write_write]
      refine ⟨?_, by omega⟩
      conv_rhs => rw [hsum, List.take_add, List.drop_drop]
      rw [List.append_assoc]
    · rw [if_neg hmore]
      by_cases hlast : offset < size
      · rw [if_pos hlast, hn]
        obtain ⟨-, hdisk, -, hout⟩ := copyChunk_spec h (by omega) hfile
        exact ⟨hdisk, hout⟩
      · have hzero : n = 0 := by omega
        rw [if_neg hlast, hzero, List.take_zero, List.append_nil, Disk.write_eq_self h.isOutput]
        exact ⟨rfl, rfl⟩

/-- **A partition that the input holds is appended to the output.** -/
theorem writePartition_eq (stale : Nat → UInt8) {input output : Path} {firmwareOffset outPos : Nat}
    {entry : FlashPartition} {disk : Disk} {file old data tail : Bytes} (hne : input ≠ output)
    (hinput : disk input = some file) (houtput : disk output = some old)
    (hend : old.length = outPos) (hsize : entry.size.toNat = data.length)
    (hbound : entry.base.toNat + firmwareOffset ≤ file.length)
    (hfile : file.drop (entry.base.toNat + firmwareOffset) = data ++ tail) :
    writePartition stale input output firmwareOffset entry disk outPos =
      (disk.write output (old ++ data), outPos + data.length) := by
  have hbuf : (malloc stale 4096).length = 4096 := length_malloc stale 4096
  have hcopy : Copying input output file old
      ⟨disk, malloc stale 4096, entry.base.toNat + firmwareOffset, outPos⟩ :=
    { apart := hne, isInput := hinput, isOutput := houtput, atEnd := hend, isBuffer := by
        dsimp only
        exact hbuf }
  have hlength := congrArg List.length hfile
  rw [List.length_drop, List.length_append] at hlength
  obtain ⟨hdisk, hout⟩ := copyLoop_eq entry.size.toNat data.length 0 (by omega) hcopy
    (by dsimp only; omega)
  unfold writePartition
  dsimp only
  rw [hdisk, hout, hfile, List.take_left]

/-! ## `write_ff` -/

/-- `INT_MAX` -/
def intMax : Nat := 2147483647

/-- `n` bytes 0xff are written. -/
def putFF (output : Path) (n : Nat) (disk : Disk) (outPos : Nat) : Disk :=
  disk.write output (fwrite (disk.content output) outPos (List.replicate n 0xff))

/-- The loop of `write_ff`, and the last chunk; `offset` is an `int`.  Where it leaves the range of
    one, which C does not define, the run ends here; with gcc the sum wraps, compares as a huge
    unsigned number, and `write_ff` returns with 2^31 bytes written and the rest missing. -/
def writeFFLoop (output : Path) (size offset : Nat) (disk : Disk) (outPos : Nat) :
    Run (Disk × Nat) :=
  if offset + 4096 < size then
    if intMax < offset + 4096 then .error .fault
    else writeFFLoop output size (offset + 4096) (putFF output 4096 disk outPos) (outPos + 4096)
  else if offset < size then
    .ok (putFF output (size - offset) disk outPos, outPos + (size - offset))
  else .ok (disk, outPos)
termination_by size - offset
decreasing_by omega

/-- `write_ff` -/
def writeFF (output : Path) (size : Nat) (disk : Disk) (outPos : Nat) : Run (Disk × Nat) :=
  writeFFLoop output size 0 disk outPos

theorem putFF_eq {output : Path} {n outPos : Nat} {old : Bytes} {disk : Disk}
    (houtput : disk output = some old) (hend : old.length = outPos) :
    putFF output n disk outPos = disk.write output (old ++ List.replicate n 0xff) := by
  rw [putFF, Disk.content_of_eq houtput, fwrite_end hend]

/-- The loop at `offset` writes what is left.  By induction on the number of bytes that are left,
    `n`. -/
theorem writeFFLoop_eq {output : Path} {size : Nat} (hsize : size ≤ intMax + 1) (n : Nat) :
    ∀ (offset : Nat) {outPos : Nat} {old : Bytes} {disk : Disk}, size - offset = n →
      disk output = some old → old.length = outPos →
        writeFFLoop output size offset disk outPos =
          .ok (disk.write output (old ++ List.replicate n 0xff), outPos + n) := by
  induction n using Nat.strong_induction_on with
  | h n ih =>
    intro offset outPos old disk hn houtput hend
    rw [writeFFLoop, putFF_eq houtput hend, putFF_eq houtput hend, hn]
    by_cases hmore : offset + 4096 < size
    · have hsum : 4096 + (n - 4096) = n := by omega
      have hlen : (old ++ List.replicate 4096 (0xff : UInt8)).length = outPos + 4096 := by
        rw [List.length_append, List.length_replicate, hend]
      have hrest := ih (n - 4096) (by omega) (offset + 4096) (by omega)
        (Disk.write_same disk output _) hlen
      -- `offset + 4096` is below `size`, so the counter does not overflow
      rw [if_pos hmore, if_neg (by omega), hrest, Disk.write_write, List.append_assoc,
        ← List.replicate_add, Nat.add_assoc, hsum]
    · rw [if_neg hmore]
      by_cases hlast : offset < size
      · rw [if_pos hlast]
      · have hzero : n = 0 := by omega
        rw [if_neg hlast, hzero, List.replicate_zero, List.append_nil,
          Disk.write_eq_self houtput]
        rfl

/-- **Bytes 0xff are appended to the output.** -/
theorem writeFF_eq {output : Path} {size outPos : Nat} {old : Bytes} {disk : Disk}
    (hsize : size ≤ intMax + 1) (houtput : disk output = some old) (hend : old.length = outPos) :
    writeFF output size disk outPos =
      .ok (disk.write output (old ++ List.replicate size 0xff), outPos + size) :=
  writeFFLoop_eq hsize size 0 (Nat.sub_zero _) houtput hend

end Safewrt.Safeloader
