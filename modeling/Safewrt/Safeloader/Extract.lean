/-
  Extracting an image (tools/tplink-safeloader/tplink-safeloader.c, `extract_firmware`).

  1. `extractFirmware` — the table is read, then a file is written for each entry.  What the
     operating system decides is a parameter: which directories there are, which files can be
     opened.

  2. **`extractFirmware_generateFactoryImage`** — extraction is the inverse of
     `generateFactoryImage`: every partition comes out as a file of its name with its bytes, and
     nothing else on the disk changes.  The invariant of the loop: what stands in the image from the
     next entry on is the data of the partitions that are still to be written.

  3. `PlainName` — the names for which this is so: short, without spaces, line feeds and slashes,
     and neither "." nor "..".  What other names lead to is in `Safeloader.Paths`.
-/
import Safewrt.Safeloader.Files

namespace Safewrt.Safeloader

open Safewrt.Lib

/-! ## The program -/

/-- What the operating system decides.  A path of `PATH_MAX` bytes or more is refused. -/
structure Os where
  isDirectory : Path → Option Bool
  opens : Path → Bool
  opens_short : ∀ path, opens path → path.length < 4096

/-- `"%s/%s"` -/
def partitionPath (directory : Path) (name : CString) : Path := directory ++ 0x2f :: name.bytes

/-- `extract_firmware_partition`, with an output path of at most `PATH_MAX - 1` bytes. -/
def extractFirmwarePartition (os : Os) (stale : Nat → UInt8) (input : Path) (firmwareOffset : Nat)
    (entry : FlashPartition) (directory : Path) (disk : Disk) : Run Disk :=
  let output := (partitionPath directory entry.name).take 4095
  if os.opens output then
    .ok (writePartition stale input output firmwareOffset entry (disk.write output []) 0).1
  else .error (.error (asBytes "Can not open output file ".toList ++ output))

/-- The loop of `extract_firmware`; `stack i` is what the stack holds at call `i`. -/
def extractEntries (os : Os) (stack : Nat → Nat → UInt8) (input : Path) (firmwareOffset : Nat)
    (directory : Path) : List FlashPartition → Nat → Disk → Run Disk
  | [], _, disk => .ok disk
  | entry :: entries, i, disk => do
    let disk ← extractFirmwarePartition os (stack i) input firmwareOffset entry directory disk
    extractEntries os stack input firmwareOffset directory entries (i + 1) disk

/-- `extract_firmware` -/
def extractFirmware (os : Os) (stack : Nat → Nat → UInt8) (disk : Disk)
    (input directory : Path) : Run Disk :=
  match disk input with
  | none => .error (.error (asBytes "Can not read input firmware ".toList ++ input))
  | some file =>
    match os.isDirectory directory with
    | none => .error (.error (asBytes "Failed to stat output directory ".toList ++ directory))
    | some false => .error (.error
        (asBytes "Given output directory is not a directory ".toList ++ directory))
    | some true => do
      match ← readPartitionTable (stack 0) file 0x1014 16 .fwup with
      | none =>
        .error (.ofText "Error can not read the partition table (fwup-ptn): Success".toList)
      | some entries => extractEntries os stack input 0x1014 directory entries 1 disk

/-! ## Extraction is the inverse -/

/-- The name of a file, and one that the table can hold. -/
structure PlainName (name : CString) : Prop where
  nonempty : name.bytes ≠ []
  short : name.bytes.length ≤ 31
  noSpace : (0x20 : UInt8) ∉ name.bytes
  noLineFeed : (0x0a : UInt8) ∉ name.bytes
  noSlash : (0x2f : UInt8) ∉ name.bytes
  notDot : name.bytes ≠ [0x2e]
  notDotDot : name.bytes ≠ [0x2e, 0x2e]

/-- A name that can be a file can stand in a table. -/
theorem PlainName.readable {name : CString} (h : PlainName name) : Readable name :=
  ⟨h.noSpace, h.noLineFeed, h.short⟩

/-- Different names make different paths. -/
theorem partitionPath_inj {directory : Path} {a b : CString}
    (h : partitionPath directory a = partitionPath directory b) : a = b := by
  have hbytes := (List.cons.inj (List.append_cancel_left h)).2
  cases a
  cases b
  simp_all

/-- `disk` after the files of `ps` were written. -/
def written (directory : Path) (disk : Disk) (ps : List ImagePartition) : Disk :=
  ps.foldl (fun disk p => disk.write (partitionPath directory p.name) p.data) disk

/-- A file of another path is as it was. -/
theorem written_other {directory path : Path} (ps : List ImagePartition) : ∀ {disk : Disk},
    (∀ p ∈ ps, path ≠ partitionPath directory p.name) →
      written directory disk ps path = disk path := by
  induction ps with
  | nil => exact fun _ => rfl
  | cons p ps ih =>
    intro disk h
    rw [List.forall_mem_cons] at h
    exact (ih h.2).trans (Disk.write_other _ _ h.1)

/-- A file of a partition holds its bytes, since no later one has its name. -/
theorem written_mem {directory : Path} (ps : List ImagePartition) : ∀ {disk : Disk}
    {p : ImagePartition}, (ps.map ImagePartition.name).Nodup → p ∈ ps →
      written directory disk ps (partitionPath directory p.name) = some p.data := by
  induction ps with
  | nil => exact fun _ h => absurd h (by simp)
  | cons q ps ih =>
    intro disk p hnodup hp
    rw [List.map_cons, List.nodup_cons] at hnodup
    rcases List.mem_cons.mp hp with rfl | hp
    · have hrest : ∀ q ∈ ps, partitionPath directory p.name ≠ partitionPath directory q.name := by
        intro q hq hpath
        exact hnodup.1 (partitionPath_inj hpath ▸ List.mem_map_of_mem hq)
      exact (written_other ps hrest).trans (Disk.write_same ..)
    · exact ih hnodup.2 hp

/-- One entry is extracted. -/
theorem extractFirmwarePartition_eq {os : Os} (stale : Nat → UInt8) {input directory : Path}
    {firmwareOffset : Nat} (entry : FlashPartition) {disk : Disk} {file data tail : Bytes}
    (hopens : os.opens (partitionPath directory entry.name))
    (hinput : disk input = some file) (hne : input ≠ partitionPath directory entry.name)
    (hsize : entry.size.toNat = data.length)
    (hbound : entry.base.toNat + firmwareOffset ≤ file.length)
    (hfile : file.drop (entry.base.toNat + firmwareOffset) = data ++ tail) :
    extractFirmwarePartition os stale input firmwareOffset entry directory disk =
      .ok (disk.write (partitionPath directory entry.name) data) := by
  have hshort := os.opens_short _ hopens
  have hpath : (partitionPath directory entry.name).take 4095 =
      partitionPath directory entry.name := List.take_of_length_le (by omega)
  have hwrite := writePartition_eq stale hne ((Disk.write_other disk [] hne).trans hinput)
    (Disk.write_same ..) rfl hsize hbound hfile
  rw [List.length_nil] at hwrite
  unfold extractFirmwarePartition
  dsimp only
  rw [hpath, if_pos hopens, hwrite, Disk.write_write, List.nil_append]

/-- **The loop over the entries**: `image` holds the data of the partitions that are left, from the
    place of the next one on. -/
theorem extractEntries_eq {os : Os} (stack : Nat → Nat → UInt8) {input directory : Path}
    {image : Bytes} (ps : List ImagePartition) : ∀ (base i : Nat) {disk : Disk},
      (∀ p ∈ ps, os.opens (partitionPath directory p.name)) →
      (∀ p ∈ ps, input ≠ partitionPath directory p.name) →
      base + (payload ps).length < 2 ^ 32 → disk input = some image →
      base + 0x1014 ≤ image.length → image.drop (base + 0x1014) = payload ps →
        extractEntries os stack input 0x1014 directory (fwupEntries ps base) i disk =
          .ok (written directory disk ps) := by
  induction ps with
  | nil => exact fun _ _ _ _ _ _ _ _ _ => rfl
  | cons p ps ih =>
    intro base i disk hopens hne hlt hinput hbound himage
    rw [List.forall_mem_cons] at hopens hne
    rw [payload_cons, List.length_append] at hlt
    have hbase : (UInt32.ofNat base).toNat = base := toNat_ofNat (by omega)
    have hsize : (UInt32.ofNat p.size).toNat = p.data.length :=
      @toNat_ofNat p.data.length (by omega)
    -- what stands at the entry's place is its data, and behind it the data of the others
    have hfile : image.drop ((UInt32.ofNat base).toNat + 0x1014) = p.data ++ payload ps := by
      rw [hbase, himage, payload_cons]
    have hrest : image.drop (base + p.size + 0x1014) = payload ps := drop_payload himage
    have hone := extractFirmwarePartition_eq (stack i)
      ⟨p.name, UInt32.ofNat base, UInt32.ofNat p.size⟩ hopens.1 hinput hne.1 hsize
      (by rw [hbase]; exact hbound) hfile
    -- so the next entry still lies in the image
    have hlength := congrArg List.length himage
    rw [List.length_drop, payload_cons, List.length_append] at hlength
    rw [fwupEntries, extractEntries, hone, ok_bind]
    exact ih _ _ hopens.2 hne.2 (by unfold ImagePartition.size; omega)
      ((Disk.write_other _ _ hne.1).trans hinput) (by unfold ImagePartition.size; omega) hrest

/-- Where extraction may write. -/
structure Target (os : Os) (input directory : Path) (names : List CString) : Prop where
  isDirectory : os.isDirectory directory = some true
  opens : ∀ name ∈ names, os.opens (partitionPath directory name)
  apart : ∀ name ∈ names, input ≠ partitionPath directory name

/-- One file is written for each partition of an image, with the bytes that were put in. -/
theorem extract_of_image {md5 : Md5} {info : DeviceInfo} {parts : List ImagePartition}
    {image : Bytes} {disk : Disk} {input directory : Path} {os : Os}
    (himage : generateFactoryImage md5 info parts = .ok image) (hnonempty : parts ≠ [])
    (hcount : parts.length ≤ 16) (hnames : ∀ p ∈ parts, Readable p.name)
    (hsize : (payload parts).length < 2 ^ 31)
    (htarget : Target os input directory (parts.map ImagePartition.name))
    (hinput : disk input = some image) (stack : Nat → Nat → UInt8) :
    extractFirmware os stack disk input directory = .ok (written directory disk parts) := by
  obtain ⟨hlength, hpayload, -⟩ := factory_parts himage
  have htable := factory_table (stack 0) himage hnonempty hnames hcount
  -- entries begin behind the table, which is where `payload` begins
  have hentries : extractEntries os stack input 0x1014 directory (fwupEntries parts 0x800) 1 disk =
      .ok (written directory disk parts) := by
    apply extractEntries_eq stack parts
    · exact fun p hp => htarget.opens _ (List.mem_map_of_mem hp)
    · exact fun p hp => htarget.apart _ (List.mem_map_of_mem hp)
    · omega
    · exact hinput
    · omega
    · exact hpayload
  unfold extractFirmware
  rw [hinput]
  dsimp only
  rw [htarget.isDirectory]
  dsimp only
  rw [htable, ok_bind]
  exact hentries

/-- **Extracting a factory image gives back its partitions**, and the image begins with its own
    length. -/
theorem extractFirmware_generateFactoryImage (md5 : Md5) (info : DeviceInfo)
    (parts : List ImagePartition) (hnonempty : parts ≠ []) (hcount : parts.length ≤ 16)
    (hdistinct : (parts.map ImagePartition.name).Nodup) (hnames : ∀ p ∈ parts, PlainName p.name)
    (htotal : (parts.map ImagePartition.size).sum < 2 ^ 31) (image : Bytes)
    (himage : generateFactoryImage md5 info parts = .ok image) (os : Os)
    (stack : Nat → Nat → UInt8) (disk : Disk) (input directory : Path)
    (hinput : disk input = some image) (hdirectory : os.isDirectory directory = some true)
    (hopens : ∀ p ∈ parts, os.opens (partitionPath directory p.name))
    (hapart : ∀ p ∈ parts, input ≠ partitionPath directory p.name) :
    (∃ disk', extractFirmware os stack disk input directory = .ok disk' ∧
      (∀ p ∈ parts, disk' (partitionPath directory p.name) = some p.data) ∧
      ∀ path, (∀ p ∈ parts, path ≠ partitionPath directory p.name) → disk' path = disk path) ∧
    be (image.take 4) = image.length := by
  rw [← length_payload] at htotal
  obtain ⟨hlength, -, hhead⟩ := factory_parts himage
  have htarget : Target os input directory (parts.map ImagePartition.name) :=
    ⟨hdirectory, List.forall_mem_map.mpr hopens, List.forall_mem_map.mpr hapart⟩
  have hrun := extract_of_image himage hnonempty hcount (fun p hp => (hnames p hp).readable) htotal
    htarget hinput stack
  refine ⟨⟨written directory disk parts, hrun, fun p hp => written_mem parts hdistinct hp,
    fun path hpath => written_other parts hpath⟩, ?_⟩
  rw [hhead]
  exact be_toBe_of_lt (by omega)

/-! ### Two partitions -/

/-- A system with one directory, where every path of fewer than 4096 bytes can be opened. -/
def sampleOs : Os where
  isDirectory path := if path = asBytes "out".toList then some true else none
  opens path := path.length < 4096
  opens_short := fun _ h => of_decide_eq_true h

/-- Two small partitions. -/
def sampleParts : List ImagePartition :=
  [⟨cstring "os-image", [0x27, 0x05]⟩, ⟨cstring "file-system", [0x68, 0x73, 0x71]⟩]

/-- Their names can be file names. -/
theorem sampleParts_plain : ∀ p ∈ sampleParts, PlainName p.name := by
  intro p hp
  simp only [sampleParts, List.mem_cons, List.not_mem_nil, or_false] at hp
  rcases hp with rfl | rfl
  · constructor <;> decide
  · constructor <;> decide

/-- The Archer C7 v4 has room for them. -/
theorem sampleParts_placeable : ∀ p ∈ sampleParts, Placeable archerC7V4.partitions p := by
  intro p hp
  simp only [sampleParts, List.mem_cons, List.not_mem_nil, or_false] at hp
  rcases hp with rfl | rfl
  · exact ⟨⟨cstring "os-image", 0x40000, 0xa00000⟩, by decide +kernel, by decide⟩
  · exact ⟨⟨cstring "file-system", 0xa40000, 0x4c0000⟩, by decide +kernel, by decide⟩

theorem sampleParts_image :
    ∃ image, generateFactoryImage vendoredMd5 archerC7V4 sampleParts = .ok image :=
  (generateFactoryImage_isOk_iff _ _ _).mpr
    ⟨fun _ hv => absurd hv (by simp [archerC7V4]), sampleParts_placeable, by decide +kernel⟩

/-- They come out again, beside the image they came from. -/
theorem extractFirmware_sampleParts :
    ∃ image, generateFactoryImage vendoredMd5 archerC7V4 sampleParts = .ok image ∧
      (∃ disk', extractFirmware sampleOs (fun _ _ => 0xcc)
          (fun path => if path = asBytes "factory.bin".toList then some image else none)
          (asBytes "factory.bin".toList) (asBytes "out".toList) = .ok disk' ∧
        (∀ p ∈ sampleParts,
          disk' (partitionPath (asBytes "out".toList) p.name) = some p.data) ∧
        ∀ path, (∀ p ∈ sampleParts, path ≠ partitionPath (asBytes "out".toList) p.name) →
          disk' path = if path = asBytes "factory.bin".toList then some image else none) ∧
      be (image.take 4) = image.length := by
  obtain ⟨image, himage⟩ := sampleParts_image
  refine ⟨image, himage, extractFirmware_generateFactoryImage vendoredMd5 archerC7V4 sampleParts
    (by decide) (by decide) (by decide) sampleParts_plain (by decide) image himage sampleOs
    (fun _ _ => 0xcc) _ _ _ (if_pos rfl) (by decide) ?_ ?_⟩
  · exact List.forall_mem_cons.mpr ⟨by decide, List.forall_mem_cons.mpr ⟨by decide, by simp⟩⟩
  · exact List.forall_mem_cons.mpr ⟨by decide, List.forall_mem_cons.mpr ⟨by decide, by simp⟩⟩

end Safewrt.Safeloader
