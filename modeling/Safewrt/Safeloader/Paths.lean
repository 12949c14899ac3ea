/-
  Where extracted files go (tools/tplink-safeloader/tplink-safeloader.c, `extract_firmware`).

  1. `extractFirmwareLog` — the run with the files it creates, also where it stops with an error
     (`extractFirmwareLog_run`: it is the same run).

  2. The output path is cut off behind 4095 bytes: what is left of a name is `cutName`.

  3. **`extractFirmware_liesIn_iff`** — every file lies in the output directory, whatever the file
     system, exactly where the names that are reached are direct.  The parser cuts names at spaces,
     line feeds and 31 bytes, and lets "../x" through.
-/
import Safewrt.Lib.Paths
import Safewrt.Safeloader.Lookup

namespace Safewrt.Safeloader

open Safewrt.Lib

/-! ## The files of a run -/

/-- `snprintf(output, PATH_MAX, "%s/%s", ..)` -/
def outputPath (directory : Path) (name : CString) : Path := (partitionPath directory name).take 4095

/-- The loop of `extract_firmware`, with the files that were created. -/
def extractEntriesLog (os : Os) (stack : Nat → Nat → UInt8) (input : Path) (firmwareOffset : Nat)
    (directory : Path) : List FlashPartition → Nat → Disk → List Path × Run Disk
  | [], _, disk => ([], .ok disk)
  | entry :: entries, i, disk =>
    match extractFirmwarePartition os (stack i) input firmwareOffset entry directory disk with
    | .error e => ([], .error e)
    | .ok disk =>
      let (created, run) :=
        extractEntriesLog os stack input firmwareOffset directory entries (i + 1) disk
      (outputPath directory entry.name :: created, run)

/-- `extract_firmware`, with the files that were created. -/
def extractFirmwareLog (os : Os) (stack : Nat → Nat → UInt8) (disk : Disk)
    (input directory : Path) : List Path × Run Disk :=
  match disk input with
  | none => ([], .error (.error (asBytes "Can not read input firmware ".toList ++ input)))
  | some file =>
    match os.isDirectory directory with
    | none =>
      ([], .error (.error (asBytes "Failed to stat output directory ".toList ++ directory)))
    | some false => ([], .error (.error
        (asBytes "Given output directory is not a directory ".toList ++ directory)))
    | some true =>
      match readPartitionTable (stack 0) file 0x1014 16 .fwup with
      | .error e => ([], .error e)
      | .ok none =>
        ([], .error (.ofText
          "Error can not read the partition table (fwup-ptn): Success".toList))
      | .ok (some entries) => extractEntriesLog os stack input 0x1014 directory entries 1 disk

/-- The loop with the log is the loop. -/
theorem extractEntriesLog_run (os : Os) (stack : Nat → Nat → UInt8) (input : Path)
    (firmwareOffset : Nat) (directory : Path) (entries : List FlashPartition) :
    ∀ (i : Nat) (disk : Disk),
      (extractEntriesLog os stack input firmwareOffset directory entries i disk).2 =
        extractEntries os stack input firmwareOffset directory entries i disk := by
  induction entries with
  | nil => exact fun _ _ => rfl
  | cons entry entries ih =>
    intro i disk
    rw [extractEntriesLog, extractEntries]
    cases extractFirmwarePartition os (stack i) input firmwareOffset entry directory disk with
    | error e => rfl
    | ok disk' => exact ih (i + 1) disk'

/-- **It is the same run.** -/
theorem extractFirmwareLog_run (os : Os) (stack : Nat → Nat → UInt8) (disk : Disk)
    (input directory : Path) : (extractFirmwareLog os stack disk input directory).2 =
      extractFirmware os stack disk input directory := by
  unfold extractFirmwareLog extractFirmware
  cases disk input with
  | none => rfl
  | some file =>
    dsimp only
    cases os.isDirectory directory with
    | none => rfl
    | some isDirectory =>
      cases isDirectory with
      | false => rfl
      | true =>
        dsimp only
        cases readPartitionTable (stack 0) file 0x1014 16 .fwup with
        | error e => rfl
        | ok table =>
          cases table with
          | none => rfl
          | some entries => exact extractEntriesLog_run os stack input 0x1014 directory entries 1 disk

/-- The entries that are reached: up to the first one whose file cannot be opened. -/
def reached (os : Os) (directory : Path) (entries : List FlashPartition) : List FlashPartition :=
  entries.takeWhile fun e => os.opens (outputPath directory e.name)

/-- An entry is reached if all files up to its own could be opened. -/
theorem opens_of_reached {os : Os} {directory : Path} {entries : List FlashPartition}
    {e : FlashPartition} (h : e ∈ reached os directory entries) :
    os.opens (outputPath directory e.name) = true := by
  unfold reached at h
  have hopens := List.mem_takeWhile_imp h
  exact hopens

/-- A file for each of them. -/
theorem extractEntriesLog_created (os : Os) (stack : Nat → Nat → UInt8) (input : Path)
    (firmwareOffset : Nat) (directory : Path) (entries : List FlashPartition) :
    ∀ (i : Nat) (disk : Disk),
      (extractEntriesLog os stack input firmwareOffset directory entries i disk).1 =
        (reached os directory entries).map fun e => outputPath directory e.name := by
  induction entries with
  | nil => exact fun _ _ => rfl
  | cons entry entries ih =>
    intro i disk
    rw [extractEntriesLog, extractFirmwarePartition, ← outputPath, reached, List.takeWhile_cons]
    dsimp only
    cases os.opens (outputPath directory entry.name) with
    | false => rfl
    | true =>
      rw [if_pos rfl]
      dsimp only
      rw [ih, reached, if_pos rfl]
      rfl

/-- What the table of a file lists. -/
def listed (stack : Nat → Nat → UInt8) (file : Bytes) : List FlashPartition :=
  match readPartitionTable (stack 0) file 0x1014 16 .fwup with
  | .ok (some entries) => entries
  | _ => []

/-- **The files of a run.** -/
theorem extractFirmwareLog_created {os : Os} (stack : Nat → Nat → UInt8) {disk : Disk}
    {input directory : Path} {file : Bytes} (hinput : disk input = some file)
    (hdirectory : os.isDirectory directory = some true) :
    (extractFirmwareLog os stack disk input directory).1 =
      (reached os directory (listed stack file)).map fun e => outputPath directory e.name := by
  unfold extractFirmwareLog listed
  rw [hinput, hdirectory]
  dsimp only
  cases readPartitionTable (stack 0) file 0x1014 16 .fwup with
  | error e => rfl
  | ok table =>
    cases table with
    | none => rfl
    | some entries => exact extractEntriesLog_created os stack input 0x1014 directory entries 1 disk

/-! ## Names and directories -/

/-- `stat` and `fopen(.., "wb+")`: the path of a directory is not empty and shorter than `PATH_MAX`,
    and it is not opened as a file. -/
structure Os.Posix (os : Os) : Prop where
  nonempty : ∀ path, os.isDirectory path = some true → path ≠ []
  short : ∀ path, os.isDirectory path = some true → path.length < 4096
  closed : ∀ path, os.isDirectory path = some true → os.opens path = false

/-- What the output path has room for of a name. -/
def cutName (directory : Path) (name : CString) : Bytes := name.bytes.take (4094 - directory.length)

/-- In a directory with a short path, the file is the directory, a slash, and the name as it is cut.
    -/
theorem outputPath_eq {directory : Path} (h : directory.length < 4095) (name : CString) :
    outputPath directory name = directory ++ 0x2f :: cutName directory name := by
  have hroom : 4095 - directory.length = (4094 - directory.length) + 1 := by omega
  rw [outputPath, partitionPath, List.take_append, List.take_of_length_le (by omega), hroom,
    List.take_succ_cons, cutName]

/-- A file that is opened has a slash behind the directory. -/
theorem outputPath_of_opens {os : Os} (hos : os.Posix) {directory : Path} {name : CString}
    (hdirectory : os.isDirectory directory = some true)
    (hopens : os.opens (outputPath directory name) = true) :
    outputPath directory name = directory ++ 0x2f :: cutName directory name := by
  refine outputPath_eq ?_ name
  have hshort := hos.short directory hdirectory
  by_contra hlong
  -- all of the path is the directory itself
  have hpath : outputPath directory name = directory := by
    have hlen : directory.length = 4095 := by omega
    rw [outputPath, partitionPath, ← hlen, List.take_left]
  rw [hpath, hos.closed directory hdirectory] at hopens
  exact absurd hopens (by simp)

/-- **Where extracted files go**: every file of a run lies in the output directory, whatever the file
    system, exactly where the names that the run reaches are direct. -/
theorem extractFirmware_liesIn_iff (os : Os) (hos : os.Posix) (stack : Nat → Nat → UInt8)
    {disk : Disk} {input directory : Path} {file : Bytes} (hinput : disk input = some file)
    (hdirectory : os.isDirectory directory = some true) :
    (∀ path ∈ (extractFirmwareLog os stack disk input directory).1, LiesIn directory path) ↔
      ∀ e ∈ reached os directory (listed stack file), Direct (cutName directory e.name) := by
  have hone : ∀ e ∈ reached os directory (listed stack file),
      (LiesIn directory (outputPath directory e.name) ↔ Direct (cutName directory e.name)) := by
    intro e he
    rw [outputPath_of_opens hos hdirectory (opens_of_reached he)]
    exact liesIn_iff_direct (hos.nonempty directory hdirectory) _
  rw [extractFirmwareLog_created stack hinput hdirectory, List.forall_mem_map]
  constructor
  · intro h e he
    exact (hone e he).mp (h e he)
  · intro h e he
    exact (hone e he).mpr (h e he)

/-! ### Two images of one partition -/

theorem outOs_short (path : Path)
    (h : decide (path.length < 4096 ∧ path ≠ asBytes "out".toList) = true) :
    path.length < 4096 := (of_decide_eq_true h).1

/-- A host with the directory `out`. -/
def outOs : Os where
  isDirectory path := if path = asBytes "out".toList then some true else none
  opens path := path.length < 4096 ∧ path ≠ asBytes "out".toList
  opens_short := outOs_short

/-- The sample system lets nobody write to a directory. -/
theorem outOs_posix : outOs.Posix := by
  have hout : ∀ path, outOs.isDirectory path = some true → path = asBytes "out".toList := by
    intro path h
    by_contra hne
    have hnone : outOs.isDirectory path = none := if_neg hne
    rw [hnone] at h
    exact absurd h (by simp)
  refine ⟨fun path h => ?_, fun path h => ?_, fun path h => ?_⟩
  · rw [hout path h]
    decide
  · rw [hout path h]
    decide
  · rw [hout path h]
    decide

/-- A file whose table lists one partition. -/
def oneEntry (p : FlashPartition) : Bytes :=
  List.replicate 0x1014 0 ++ (tableText .fwup [p] ++ [0])

/-- The sample file lists its one entry. -/
theorem oneEntry_listed {p : FlashPartition} (hname : Readable p.name)
    (hlen : (tableText .fwup [p]).length ≤ 2047) : listed (fun _ _ => 0xcc) (oneEntry p) = [p] := by
  have hreadable : ∀ q ∈ [p], Readable q.name := by
    intro q hq
    rw [List.mem_singleton.mp hq]
    exact hname
  have htable : (oneEntry p).drop 0x1014 = tableText .fwup [p] ++ 0 :: [] := by
    unfold oneEntry
    exact List.drop_left' (List.length_replicate ..)
  have hread : readPartitionTable (fun _ => 0xcc) (oneEntry p) 0x1014 16 .fwup = .ok (some [p]) :=
    readPartitionTable_ok [] (by simp) hreadable (by simp) hlen htable
  unfold listed
  rw [hread]

/-- A partition by the name of "../x". -/
def climbing : FlashPartition := ⟨cstring "../x", 0x800, 2⟩

/-- One firmware file. -/
def oneDisk (file : Bytes) : Disk := fun path =>
  if path = asBytes "factory.bin".toList then some file else none

/-- A plain name lies in the directory. -/
theorem extractFirmware_liesIn_kernel :
    (extractFirmwareLog outOs (fun _ _ => 0xcc) (oneDisk (oneEntry kernelEntry))
      (asBytes "factory.bin".toList) (asBytes "out".toList)).1 = [asBytes "out/os-image".toList] ∧
      LiesIn (asBytes "out".toList) (asBytes "out/os-image".toList) := by
  have hinput : oneDisk (oneEntry kernelEntry) (asBytes "factory.bin".toList) =
      some (oneEntry kernelEntry) := if_pos rfl
  have hreadable : Readable kernelEntry.name := by decide
  have hlisted : listed (fun _ _ => 0xcc) (oneEntry kernelEntry) = [kernelEntry] :=
    oneEntry_listed hreadable (by decide +kernel)
  have hfiles : (extractFirmwareLog outOs (fun _ _ => 0xcc) (oneDisk (oneEntry kernelEntry))
      (asBytes "factory.bin".toList) (asBytes "out".toList)).1 =
        [asBytes "out/os-image".toList] := by
    rw [extractFirmwareLog_created _ hinput rfl, hlisted]
    decide
  have hdirect : ∀ e ∈ reached outOs (asBytes "out".toList)
      (listed (fun _ _ => 0xcc) (oneEntry kernelEntry)),
      Direct (cutName (asBytes "out".toList) e.name) := by
    rw [hlisted]
    decide
  have hlies := (extractFirmware_liesIn_iff outOs outOs_posix _ hinput rfl).mpr hdirect
  refine ⟨hfiles, hlies _ ?_⟩
  rw [hfiles]
  exact List.mem_singleton.mpr rfl

/-- The file of `climbing` is created beside the output directory, not in it. -/
theorem extractFirmware_climbs :
    asBytes "out/../x".toList ∈ (extractFirmwareLog outOs (fun _ _ => 0xcc)
        (oneDisk (oneEntry climbing)) (asBytes "factory.bin".toList) (asBytes "out".toList)).1 ∧
      ¬ LiesIn (asBytes "out".toList) (asBytes "out/../x".toList) := by
  have hinput : oneDisk (oneEntry climbing) (asBytes "factory.bin".toList) =
      some (oneEntry climbing) := if_pos rfl
  have hreadable : Readable climbing.name := by decide
  have hpath : asBytes "out/../x".toList =
      asBytes "out".toList ++ 0x2f :: asBytes "../x".toList := by decide
  constructor
  · rw [extractFirmwareLog_created _ hinput rfl, oneEntry_listed hreadable (by decide +kernel)]
    decide
  · rw [hpath, liesIn_iff_direct (by decide)]
    decide

end Safewrt.Safeloader
