/-
  Copying a partition out of any file (tools/tplink-safeloader/tplink-safeloader.c,
  `write_partition`).

  1. **`writePartitionChecked`** — the loop with the error exits it has: each `fread` and each
     `fwrite` is asked for one item, and the number of items is compared with `< 0`.  The number
     is a `size_t`, so no exit is ever taken (`writePartitionChecked_eq`), and what is left is
     `writePartition`.

  2. **`writePartition_holds`** — where the file holds the partition, its bytes are appended.

  3. **`writePartitionChecked_appendsOrFails_iff`** — and only there is the result right: a file
     that ends early is not noticed, and what the buffer held before is written.

  A partition of no bytes is held by every file; of any other the file must reach to its end.  The
  buffer is on the stack and its old bytes are a parameter.  Where a file ends early the run
  finishes like any other, so it is wrong whatever the buffer held.
-/
import Safewrt.Safeloader.Files

namespace Safewrt.Safeloader

open Safewrt.Lib

/-! ## The program -/

/-- What `fread(buf, n, 1, file)` returns, with `rest` left of the file. -/
def freadItems (n : Nat) (rest : Bytes) : UInt64 := if n ≤ rest.length then 1 else 0

/-- What `fwrite(buf, n, 1, file)` returns: the disk takes everything. -/
def fwriteItems : UInt64 := 1

/-- One round of `write_partition`, with its tests. -/
def checkedChunk (input output : Path) (n : Nat) (c : Copy) : Run Copy :=
  if freadItems n ((c.disk.content input).drop c.inPos) < 0 then
    .error (.ofText "Can not read partition from input_file".toList)
  else if fwriteItems < 0 then
    .error (.ofText "Can not write partition to output_file".toList)
  else .ok (copyChunk input output n c)

/-- The loop of `write_partition`, and the last chunk. -/
def checkedLoop (input output : Path) (size offset : Nat) (c : Copy) : Run Copy :=
  if 4096 + offset ≤ size then
    checkedChunk input output 4096 c >>= checkedLoop input output size (offset + 4096)
  else if offset < size then checkedChunk input output (size - offset) c
  else .ok c
termination_by size - offset

/-- `write_partition`, with its tests; `outPos` is where the output stands. -/
def writePartitionChecked (stale : Nat → UInt8) (input output : Path) (firmwareOffset : Nat)
    (entry : FlashPartition) (disk : Disk) (outPos : Nat) : Run (Disk × Nat) := do
  let c ← checkedLoop input output entry.size.toNat 0
    ⟨disk, malloc stale 4096, entry.base.toNat + firmwareOffset, outPos⟩
  .ok (c.disk, c.outPos)

/-- No number of items is below zero. -/
theorem checkedChunk_eq (input output : Path) (n : Nat) (c : Copy) :
    checkedChunk input output n c = .ok (copyChunk input output n c) := by
  have hnever : ∀ items : UInt64, ¬ items < 0 := by
    intro items h
    rw [UInt64.lt_iff_toNat_lt] at h
    exact Nat.not_lt_zero _ h
  rw [checkedChunk, if_neg (hnever _), if_neg (hnever _)]

/-- None of the four exits of the loop is ever taken.  By induction on the bytes that are left. -/
theorem checkedLoop_eq (input output : Path) (size n : Nat) : ∀ (offset : Nat) (c : Copy),
    size - offset = n →
      checkedLoop input output size offset c = .ok (copyLoop input output size offset c) := by
  induction n using Nat.strong_induction_on with
  | h n ih =>
    intro offset c hn
    rw [checkedLoop, copyLoop]
    by_cases hmore : 4096 + offset ≤ size
    · rw [if_pos hmore, if_pos hmore, checkedChunk_eq, ok_bind]
      exact ih (n - 4096) (by omega) (offset + 4096) _ (by omega)
    · rw [if_neg hmore, if_neg hmore]
      by_cases hlast : offset < size
      · rw [if_pos hlast, if_pos hlast, checkedChunk_eq]
      · rw [if_neg hlast, if_neg hlast]

/-- **No exit is taken.** -/
theorem writePartitionChecked_eq (stale : Nat → UInt8) (input output : Path) (firmwareOffset : Nat)
    (entry : FlashPartition) (disk : Disk) (outPos : Nat) :
    writePartitionChecked stale input output firmwareOffset entry disk outPos =
      .ok (writePartition stale input output firmwareOffset entry disk outPos) := by
  rw [writePartitionChecked, checkedLoop_eq input output _ _ 0 _ rfl, ok_bind]
  rfl

/-! ## A file that holds the partition -/

/-- The file holds every byte of the partition. -/
def HoldsPartition (file : Bytes) (firmwareOffset : Nat) (entry : FlashPartition) : Prop :=
  entry.size.toNat = 0 ∨ entry.base.toNat + firmwareOffset + entry.size.toNat ≤ file.length

instance (file : Bytes) (firmwareOffset : Nat) (entry : FlashPartition) :
    Decidable (HoldsPartition file firmwareOffset entry) := inferInstanceAs (Decidable (_ ∨ _))

/-- The bytes of the partition in the file. -/
def partitionBytes (file : Bytes) (firmwareOffset : Nat) (entry : FlashPartition) : Bytes :=
  (file.drop (entry.base.toNat + firmwareOffset)).take entry.size.toNat

/-- All bytes of the partition are there. -/
theorem length_partitionBytes {file : Bytes} {firmwareOffset : Nat} {entry : FlashPartition}
    (h : HoldsPartition file firmwareOffset entry) :
    (partitionBytes file firmwareOffset entry).length = entry.size.toNat := by
  rw [partitionBytes, List.length_take, List.length_drop]
  rcases h with h | h <;> omega

/-- **What the file holds is appended.** -/
theorem writePartition_holds (stale : Nat → UInt8) {input output : Path} {firmwareOffset outPos : Nat}
    {entry : FlashPartition} {disk : Disk} {file old : Bytes} (hne : input ≠ output)
    (hinput : disk input = some file) (houtput : disk output = some old)
    (hend : old.length = outPos) (h : HoldsPartition file firmwareOffset entry) :
    writePartition stale input output firmwareOffset entry disk outPos =
      (disk.write output (old ++ partitionBytes file firmwareOffset entry),
        outPos + entry.size.toNat) := by
  have hlength := length_partitionBytes h
  rcases h with hzero | hfits
  · -- no byte is read, wherever the partition should be
    have hnone : partitionBytes file firmwareOffset entry = [] := by
      rw [partitionBytes, hzero, List.take_zero]
    rw [writePartition, hzero, copyLoop, if_neg (by omega), if_neg (by omega), hnone,
      List.append_nil, Disk.write_eq_self houtput]
    rfl
  · have hsplit : file.drop (entry.base.toNat + firmwareOffset) =
        partitionBytes file firmwareOffset entry ++
          (file.drop (entry.base.toNat + firmwareOffset)).drop entry.size.toNat :=
      (List.take_append_drop ..).symm
    rw [writePartition_eq stale hne hinput houtput hend hlength.symm (by omega) hsplit, hlength]

/-! ## Any file -/

/-- A copy that does what it says: it finishes only where the file holds the partition, and has
    then appended its bytes; where the file ends early, it reports that. -/
structure AppendsOrFails (file old : Bytes) (firmwareOffset : Nat) (entry : FlashPartition)
    (output : Path) (disk : Disk) (result : Run (Disk × Nat)) : Prop where
  finished : ∀ r, result = .ok r → HoldsPartition file firmwareOffset entry ∧
    r.1 = disk.write output (old ++ partitionBytes file firmwareOffset entry)
  truncated : ¬ HoldsPartition file firmwareOffset entry →
    ∃ message, result = .error (.error message)

/-- **`write_partition` on any file and any entry**: right exactly where the file holds all of the
    partition. -/
theorem writePartitionChecked_appendsOrFails_iff (stale : Nat → UInt8) {input output : Path}
    {firmwareOffset outPos : Nat} {entry : FlashPartition} {disk : Disk} {file old : Bytes}
    (hne : input ≠ output) (hinput : disk input = some file) (houtput : disk output = some old)
    (hend : old.length = outPos) :
    AppendsOrFails file old firmwareOffset entry output disk
        (writePartitionChecked stale input output firmwareOffset entry disk outPos) ↔
      HoldsPartition file firmwareOffset entry := by
  rw [writePartitionChecked_eq]
  constructor
  · intro h
    exact (h.finished _ rfl).1
  · intro h
    refine ⟨fun r hr => ⟨h, ?_⟩, fun hnot => absurd h hnot⟩
    rw [← Except.ok.inj hr, writePartition_holds stale hne hinput houtput hend h]

/-! ### A file of two bytes -/

/-- The file and an empty output. -/
def twoBytes : Disk := fun path =>
  if path = asBytes "in".toList then some [1, 2]
  else if path = asBytes "out".toList then some [] else none

/-- A file that holds its partition is copied. -/
theorem writePartitionChecked_twoBytes :
    ∃ r, writePartitionChecked (fun _ => 0xcc) (asBytes "in".toList) (asBytes "out".toList) 0
        ⟨cstring "os-image", 0, 2⟩ twoBytes 0 = .ok r ∧
      r.1 = twoBytes.write (asBytes "out".toList) ([] ++ [1, 2]) := by
  have happends : AppendsOrFails [1, 2] [] 0 ⟨cstring "os-image", 0, 2⟩ (asBytes "out".toList)
      twoBytes (writePartitionChecked (fun _ => 0xcc) (asBytes "in".toList) (asBytes "out".toList) 0
        ⟨cstring "os-image", 0, 2⟩ twoBytes 0) :=
    (writePartitionChecked_appendsOrFails_iff (fun _ => 0xcc) (by decide) (by decide) (by decide)
      rfl).mpr (by decide)
  exact ⟨_, writePartitionChecked_eq .., (happends.finished _ (writePartitionChecked_eq ..)).2⟩

/-- Three bytes are asked for: the third is what the stack held, and no error is reported. -/
theorem writePartitionChecked_stale :
    ¬ HoldsPartition [1, 2] 0 ⟨cstring "os-image", 0, 3⟩ ∧
      ∃ r, writePartitionChecked (fun _ => 0xcc) (asBytes "in".toList) (asBytes "out".toList) 0
          ⟨cstring "os-image", 0, 3⟩ twoBytes 0 = .ok r ∧
        r.1 (asBytes "out".toList) = some [1, 2, 0xcc] := by
  refine ⟨by decide, _, writePartitionChecked_eq .., ?_⟩
  rw [writePartition]
  have hsize : (⟨cstring "os-image", 0, 3⟩ : FlashPartition).size.toNat = 3 := rfl
  rw [hsize, copyLoop, if_neg (by omega), if_pos (by omega)]
  decide +kernel

end Safewrt.Safeloader
