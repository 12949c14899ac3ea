/-
  Converting a factory image (tools/tplink-safeloader/tplink-safeloader.c, `convert_firmware`).

  There are two ways to a sysupgrade image: `-S` makes it from the parts, and `-z` from a factory
  image.  The second one knows nothing of the board but what the image tells it.

  1. `convertFirmware` — both tables are read back, the one of the image and the one of the board,
     and two partitions are copied with 0xff behind each.

  2. The sysupgrade image from the board's table: the first loop finds the two ends in any table
     (`findEnds_split`); where they adjoin, the image is the first partition, 0xff up to its size on
     flash, the last partition (`sysupgrade_eq`).

  3. **`convertFirmware_eq_sysupgrade`** — the two routes agree, up to the 0xff behind the last
     partition.  Both are brought to one form: `osImage.data ++ 0xff.. ++ fileSystem.data`.

  The boards this holds of are `Adjacent`: os-image and file-system are the ends of the image, and
  one follows the other on flash.  Any other plan is the subject of `Safeloader.ConvertAny`.
-/
import Mathlib.Data.List.Perm.Subperm
import Safewrt.Safeloader.Extract
import Safewrt.Safeloader.Truncated

namespace Safewrt.Safeloader

open Safewrt.Lib

/-! ## The program

  `convert_firmware` call by call.  `findPartition` looks into the array of 32 slots, and a name that
  is missing from an array that is not full is compared with NULL. -/

/-- `find_partition`; behind the entries in use the names are `NULL`. -/
def findPartition (max : Nat) (entries : List FlashPartition) (name : CString) (message : Text) :
    Run FlashPartition :=
  match entries.find? fun e => e.name = name with
  | some e => .ok e
  | none => if entries.length < max then .error .fault else .error (.ofText message)

/-- The end of `convert_firmware`: both partitions are written. -/
def writeSysupgrade (stack : Nat → Nat → UInt8) (input output : Path)
    (fwupOsImage fwupFileSystem flashOsImage flashFileSystem : FlashPartition) (disk : Disk) :
    Run Disk := do
  let (disk, pos) := writePartition (stack 2) input output 0x1014 fwupOsImage disk 0
  let (disk, _) ← writeFF output (flashOsImage.size - fwupOsImage.size).toNat disk pos
  let pos := (flashFileSystem.base - flashOsImage.base).toNat    -- `fseek`
  let (disk, pos) := writePartition (stack 3) input output 0x1014 fwupFileSystem disk pos
  let (disk, _) ← writeFF output (flashFileSystem.size - fwupFileSystem.size).toNat disk pos
  .ok disk

/-- `convert_firmware` -/
def convertFirmware (os : Os) (stack : Nat → Nat → UInt8) (disk : Disk) (input output : Path) :
    Run Disk :=
  if (disk input).isNone then .error (.error (asBytes "Can not read input firmware ".toList ++ input))
  else if ¬ os.opens output then
    .error (.error (asBytes "Can not open output firmware ".toList ++ output ++
      asBytes ": Success".toList))
  else do
    let disk := disk.write output []
    match ← readPartitionTable (stack 0) (disk.content input) 0x1014 maxPartitions .fwup with
    | none => .error (.ofText "Error can not read the partition table (fwup-ptn): Success".toList)
    | some fwup => do
      let fwupOsImage ← findPartition maxPartitions fwup (cstring "os-image")
        "Error can not find os-image partition (fwup): Success".toList
      let fwupFileSystem ← findPartition maxPartitions fwup (cstring "file-system")
        "Error can not find file-system partition (fwup): Success".toList
      let fwupPartitionTable ← findPartition maxPartitions fwup (cstring "partition-table")
        "Error can not find partition-table partition: Success".toList
      match ← readPartitionTable (stack 1) (disk.content input)
        (0x1014 + fwupPartitionTable.base.toNat + 4) maxPartitions .flash with
      | none => .error (.ofText "Error can not read the partition table (flash): Success".toList)
      | some flash => do
        let flashOsImage ← findPartition maxPartitions flash (cstring "os-image")
          "Error can not find os-image partition (flash): Success".toList
        let flashFileSystem ← findPartition maxPartitions flash (cstring "file-system")
          "Error can not find file-system partition (flash): Success".toList
        writeSysupgrade stack input output fwupOsImage fwupFileSystem flashOsImage
          flashFileSystem disk

/-! ## The board

  What the two routes have in common is the board, once as an entry of the table and once as what
  the image says of it. -/

/-- The first and the last sysupgrade partition, next to each other in the table and on flash. -/
structure Adjacent (info : DeviceInfo) (pre post : List FlashPartition)
    (osImage fileSystem : FlashPartition) : Prop where
  partitions : info.partitions = pre ++ osImage :: fileSystem :: post
  distinct : (info.partitions.map FlashPartition.name).Nodup
  readable : ∀ f ∈ info.partitions, f.name.bytes ≠ [] ∧ Readable f.name
  first : info.firstSysupgradePartition = cstring "os-image"
  last : info.lastSysupgradePartition = cstring "file-system"
  osImage_name : osImage.name = cstring "os-image"
  fileSystem_name : fileSystem.name = cstring "file-system"
  adjacent : osImage.base.toNat + osImage.size.toNat = fileSystem.base.toNat
  osImage_size : osImage.size.toNat < 2 ^ 31
  fileSystem_size : fileSystem.size.toNat < 2 ^ 31

/-! ## The two ends

  The first loop of `generate_sysupgrade_image` on a list of partitions that is split at the two it
  is looking for. -/

/-- A name that stands once is found. -/
theorem find?_of_nodup {α β : Type} [DecidableEq β] {name : α → β} {l : List α} {a : α}
    (hnodup : (l.map name).Nodup) (ha : a ∈ l) : (l.find? fun b => name b = name a) = some a := by
  induction l with
  | nil => exact absurd ha (by simp)
  | cons b l ih =>
    rw [List.map_cons, List.nodup_cons] at hnodup
    rcases List.mem_cons.mp ha with rfl | ha
    · rw [List.find?_cons_of_pos (by simp)]
    · have hne : name b ≠ name a := fun h => hnodup.1 (h ▸ List.mem_map_of_mem ha)
      rw [List.find?_cons_of_neg (by simp [hne]), ih hnodup.2 ha]

/-- The first loop passes over partitions of other names. -/
theorem findEnds_skip (info : DeviceInfo) (fs : List FlashPartition) :
    ∀ (i : Nat) (ends : Option (Nat × FlashPartition) × Option (Nat × FlashPartition)),
      (∀ f ∈ fs, f.name ≠ info.firstSysupgradePartition ∧
        f.name ≠ info.lastSysupgradePartition) →
        (fs.zipIdx i).foldl (fun ends p =>
          if p.1.name = info.firstSysupgradePartition then (some (p.2, p.1), ends.2)
          else if p.1.name = info.lastSysupgradePartition then (ends.1, some (p.2, p.1))
          else ends) ends = ends := by
  induction fs with
  | nil => exact fun _ _ _ => rfl
  | cons f fs ih =>
    intro i ends hfs
    rw [List.forall_mem_cons] at hfs
    rw [List.zipIdx_cons, List.foldl_cons, if_neg hfs.1.1, if_neg hfs.1.2]
    exact ih _ _ hfs.2

section Ends

variable {info : DeviceInfo} {pre mid post : List FlashPartition} {first last : FlashPartition}

/-- Names that stand once: the last partition is not the first one, and all others are neither. -/
theorem names_split
    (hdistinct : ((pre ++ first :: (mid ++ last :: post)).map FlashPartition.name).Nodup) :
    last.name ≠ first.name ∧ ∀ f, f ∈ pre ∨ f ∈ mid ∨ f ∈ post →
      f.name ≠ first.name ∧ f.name ≠ last.name := by
  rw [List.map_append, List.nodup_append] at hdistinct
  obtain ⟨-, hrest, hpre⟩ := hdistinct
  rw [List.map_cons, List.nodup_cons, List.map_append, List.nodup_append] at hrest
  obtain ⟨hfirst, -, hlast, hmid⟩ := hrest
  rw [List.map_cons, List.nodup_cons] at hlast
  refine ⟨fun heq => hfirst ?_, fun f hf => ?_⟩
  · rw [← heq]
    exact List.mem_append_right _ List.mem_cons_self
  rcases hf with hf | hf | hf
  · -- before the first
    have hname := hpre f.name (List.mem_map_of_mem hf)
    exact ⟨hname _ (by simp), hname _ (by simp)⟩
  · -- between the two
    have hname : f.name ∈ mid.map FlashPartition.name := List.mem_map_of_mem hf
    refine ⟨fun heq => hfirst ?_, hmid f.name hname _ (by simp)⟩
    rw [← heq]
    exact List.mem_append_left _ hname
  · -- behind the last
    have hname : f.name ∈ post.map FlashPartition.name := List.mem_map_of_mem hf
    refine ⟨fun heq => hfirst ?_, fun heq => hlast.1 ?_⟩
    · rw [← heq]
      exact List.mem_append_right _ (List.mem_cons_of_mem _ hname)
    · rw [← heq]
      exact hname

/-- **The first loop finds the ends**, whatever is before, between and behind them. -/
theorem findEnds_split (hpartitions : info.partitions = pre ++ first :: (mid ++ last :: post))
    (hdistinct : (info.partitions.map FlashPartition.name).Nodup)
    (hfirst : first.name = info.firstSysupgradePartition)
    (hlast : last.name = info.lastSysupgradePartition) :
    findEnds info = (some (pre.length, first), some (pre.length + 1 + mid.length, last)) := by
  rw [hpartitions] at hdistinct
  obtain ⟨hne, hother⟩ := names_split hdistinct
  rw [hfirst] at hne
  rw [hfirst, hlast] at hother
  rw [findEnds, hpartitions, List.zipIdx_append, List.foldl_append,
    findEnds_skip info pre _ _ fun f hf => hother f (Or.inl hf), List.zipIdx_cons, List.foldl_cons,
    if_pos hfirst, List.zipIdx_append, List.foldl_append,
    findEnds_skip info mid _ _ fun f hf => hother f (Or.inr (Or.inl hf)), List.zipIdx_cons,
    List.foldl_cons, if_neg hne, if_pos hlast,
    findEnds_skip info post _ _ fun f hf => hother f (Or.inr (Or.inr hf)), Nat.zero_add]

/-- The second loop goes from the first to the last. -/
theorem slice_split (hpartitions : info.partitions = pre ++ first :: (mid ++ last :: post)) :
    (info.partitions.drop pre.length).take (pre.length + 1 + mid.length + 1 - pre.length) =
      first :: (mid ++ [last]) := by
  have hcount : pre.length + 1 + mid.length + 1 - pre.length =
      (first :: (mid ++ [last])).length := by
    rw [List.length_cons, List.length_append, List.length_singleton]
    omega
  have hsplit : first :: (mid ++ last :: post) = first :: (mid ++ [last]) ++ post := by
    rw [List.cons_append, List.append_assoc, List.singleton_append]
  rw [hpartitions, List.drop_left, hcount, hsplit, List.take_left]

end Ends

section Board

variable {info : DeviceInfo} {pre post : List FlashPartition}
  {osImage fileSystem : FlashPartition}

theorem Adjacent.mem (h : Adjacent info pre post osImage fileSystem) :
    osImage ∈ info.partitions ∧ fileSystem ∈ info.partitions := by
  rw [h.partitions]
  exact ⟨by simp, by simp⟩

/-- A search by name finds them, since all names are different. -/
theorem Adjacent.find (h : Adjacent info pre post osImage fileSystem) :
    (info.partitions.find? fun f => f.name = cstring "os-image") = some osImage ∧
      (info.partitions.find? fun f => f.name = cstring "file-system") = some fileSystem := by
  rw [← h.osImage_name, ← h.fileSystem_name]
  exact ⟨find?_of_nodup h.distinct h.mem.1, find?_of_nodup h.distinct h.mem.2⟩

/-- The distance of the two bases is the size of the first: this subtraction is what
    `convert_firmware` pads by. -/
theorem Adjacent.distance (h : Adjacent info pre post osImage fileSystem) :
    (fileSystem.base - osImage.base).toNat = osImage.size.toNat := by
  have hadjacent := h.adjacent
  rw [UInt32.toNat_sub_of_le _ _ (by rw [UInt32.le_iff_toNat_le]; omega)]
  omega

/-- The board has the two ends where they were put. -/
theorem Adjacent.findEnds_eq (h : Adjacent info pre post osImage fileSystem) :
    findEnds info = (some (pre.length, osImage), some (pre.length + 1, fileSystem)) := by
  have hpartitions : info.partitions = pre ++ osImage :: ([] ++ fileSystem :: post) := h.partitions
  exact findEnds_split hpartitions h.distinct (h.osImage_name.trans h.first.symm)
    (h.fileSystem_name.trans h.last.symm)

/-- The second loop goes over the two of them. -/
theorem Adjacent.slice (h : Adjacent info pre post osImage fileSystem) :
    (info.partitions.drop pre.length).take (pre.length + 1 + 1 - pre.length) =
      [osImage, fileSystem] := by
  have hpartitions : info.partitions = pre ++ osImage :: ([] ++ fileSystem :: post) := h.partitions
  exact slice_split hpartitions

end Board

/-! ## The sysupgrade image

  Two copies into a buffer of 0xff, with nothing between them but what the first does not fill. -/

/-- One partition is copied into a buffer of 0xff. -/
theorem memcpy_ff {a data : Bytes} {n : Nat} (h : data.length ≤ n) :
    memcpy (a ++ List.replicate n 0xff) a.length data =
      .ok (a ++ (data ++ List.replicate (n - data.length) 0xff)) := by
  have hsplit : List.replicate n (0xff : UInt8) =
      List.replicate data.length 0xff ++ List.replicate (n - data.length) 0xff := by
    rw [← List.replicate_add]
    congr 1
    omega
  rw [memcpy_eq_ok, hsplit]
  exact store_exact a _ _ List.length_replicate.symm

/-- The first of two copies into 0xff .. -/
theorem memcpy_first {data : Bytes} {size rest : Nat} (h : data.length ≤ size) :
    memcpy (List.replicate (size + rest) 0xff) 0 data =
      .ok (data ++ List.replicate (size - data.length) 0xff ++ List.replicate rest 0xff) := by
  have hcopy : memcpy (List.replicate (size + rest) 0xff) 0 data =
      .ok (data ++ List.replicate (size + rest - data.length) 0xff) :=
    @memcpy_ff [] data _ (by omega)
  have hsplit : size + rest - data.length = (size - data.length) + rest := by omega
  rw [hcopy, hsplit, List.append_assoc, ← List.replicate_add]

/-- .. and the last, which fills what is left. -/
theorem memcpy_last {a data : Bytes} {size : Nat} (h : a.length = size) :
    memcpy (a ++ List.replicate data.length 0xff) size data = .ok (a ++ data) := by
  have hcopy := @memcpy_ff a data _ (Nat.le_refl _)
  rw [h, Nat.sub_self, List.replicate_zero, List.append_nil] at hcopy
  exact hcopy

/-- `strcmp` does not care which name comes first. -/
theorem find?_name_comm (parts : List ImagePartition) (name : CString) :
    (parts.find? fun p => name = p.name) = parts.find? fun p => p.name = name := by
  congr 1
  funext p
  exact decide_eq_decide.mpr eq_comm

section Sysupgrade

variable {info : DeviceInfo} {pre post : List FlashPartition}
  {osImage fileSystem : FlashPartition} {parts : List ImagePartition} {p q : ImagePartition}

/-- **The sysupgrade image of a board**: the first partition, 0xff, the last one. -/
theorem sysupgrade_eq (h : Adjacent info pre post osImage fileSystem)
    (hp : (parts.find? fun p => p.name = cstring "os-image") = some p)
    (hq : (parts.find? fun p => p.name = cstring "file-system") = some q)
    (hpsize : p.size ≤ osImage.size.toNat) (hqsize : q.size ≤ fileSystem.size.toNat) :
    generateSysupgradeImage info parts =
      .ok (p.data ++ List.replicate (osImage.size.toNat - p.size) 0xff ++ q.data) := by
  have hp' : (parts.find? fun p => osImage.name = p.name) = some p := by
    rw [find?_name_comm, h.osImage_name, hp]
  have hq' : (parts.find? fun p => fileSystem.name = p.name) = some q := by
    rw [find?_name_comm, h.fileSystem_name, hq]
  have hadjacent := h.adjacent
  have hbase : ¬ fileSystem.base < osImage.base := by
    rw [UInt32.lt_iff_toNat_lt]
    omega
  have hdistance : fileSystem.base.toNat - osImage.base.toNat = osImage.size.toNat := by omega
  have hlen : (p.data ++ List.replicate (osImage.size.toNat - p.size) (0xff : UInt8)).length =
      osImage.size.toNat := by
    rw [List.length_append, List.length_replicate]
    unfold ImagePartition.size at hpsize ⊢
    omega
  have hfirst : memcpy (List.replicate (osImage.size.toNat + q.size) 0xff) 0 p.data =
      .ok (p.data ++ List.replicate (osImage.size.toNat - p.size) 0xff ++
        List.replicate q.size 0xff) := memcpy_first hpsize
  have hlast : memcpy (p.data ++ List.replicate (osImage.size.toNat - p.size) 0xff ++
      List.replicate q.size 0xff) osImage.size.toNat q.data =
        .ok (p.data ++ List.replicate (osImage.size.toNat - p.size) 0xff ++ q.data) :=
    memcpy_last hlen
  unfold generateSysupgradeImage
  rw [h.findEnds_eq]
  dsimp only
  rw [if_pos (Nat.lt_succ_self _), h.last, hq]
  dsimp only
  -- the first copy goes to the beginning, the second behind all of the first flash partition
  rw [h.distance, h.slice, copyParts, hp']
  dsimp only
  rw [if_neg (by omega), if_neg (UInt32.lt_irrefl _), Nat.sub_self, hfirst, ok_bind, copyParts, hq']
  dsimp only
  rw [if_neg (by omega), if_neg hbase, hdistance, hlast, ok_bind]
  rfl

end Sysupgrade

/-! ## The factory image

  What is looked up in the image's own table, and what lies there. -/

section Factory

variable {flash : List FlashPartition} {parts : List ImagePartition}

/-- The name of a partition that was placed is one of the board. -/
theorem Placeable.mem {p : ImagePartition} (h : Placeable flash p) :
    p.name ∈ flash.map FlashPartition.name := by
  obtain ⟨f, hf, -⟩ := h
  have hname := List.find?_some hf
  rw [decide_eq_true_eq] at hname
  exact hname ▸ List.mem_map_of_mem (List.mem_of_find?_eq_some hf)

/-- There are no more partitions than the board has. -/
theorem length_le_of_placeable (hplace : ∀ p ∈ parts, Placeable flash p)
    (hdistinct : (parts.map ImagePartition.name).Nodup) : parts.length ≤ flash.length := by
  have hsubset : parts.map ImagePartition.name ⊆ flash.map FlashPartition.name := by
    intro name hname
    obtain ⟨p, hp, rfl⟩ := List.mem_map.mp hname
    exact (hplace p hp).mem
  have hle := (hdistinct.subperm hsubset).length_le
  rwa [List.length_map, List.length_map] at hle

/-- **The entry of a partition** says where its data is in the image. -/
theorem find_fwupEntries {file : Bytes} (ps : List ImagePartition) : ∀ {base : Nat}
    {p : ImagePartition}, (ps.map ImagePartition.name).Nodup → p ∈ ps →
      base + (payload ps).length < 2 ^ 32 → base + 0x1014 ≤ file.length →
      file.drop (base + 0x1014) = payload ps →
        ∃ e, ((fwupEntries ps base).find? fun e => e.name = p.name) = some e ∧
          e.size.toNat = p.size ∧ e.base.toNat + 0x1014 + p.size ≤ file.length ∧
          ∃ tail, file.drop (e.base.toNat + 0x1014) = p.data ++ tail := by
  induction ps with
  | nil => exact fun _ h => absurd h (by simp)
  | cons q ps ih =>
    intro base p hnodup hp hlt hbound hfile
    rw [List.map_cons, List.nodup_cons] at hnodup
    have hlength := congrArg List.length hfile
    rw [List.length_drop] at hlength
    rw [payload_cons, List.length_append] at hlength hlt
    rw [fwupEntries]
    rcases List.mem_cons.mp hp with rfl | hp
    · have hbase : (UInt32.ofNat base).toNat = base := toNat_ofNat (by omega)
      have hsize : (UInt32.ofNat p.size).toNat = p.size := @toNat_ofNat p.data.length (by omega)
      refine ⟨_, List.find?_cons_of_pos (by simp), hsize, ?_, payload ps, ?_⟩
      · rw [hbase]
        unfold ImagePartition.size
        omega
      · rw [hbase, hfile, payload_cons]
    · -- not this one: names are distinct, so it is among the others
      have hne : q.name ≠ p.name := fun h => hnodup.1 (h ▸ List.mem_map_of_mem hp)
      have hrest : file.drop (base + q.size + 0x1014) = payload ps := drop_payload hfile
      rw [List.find?_cons_of_neg (by simp [hne])]
      exact ih hnodup.2 hp (by unfold ImagePartition.size; omega)
        (by unfold ImagePartition.size; omega) hrest

end Factory

/-! ## Conversion

  The four writes of `convert_firmware`, on the entries that were looked up. -/

/-- `find_partition` returns the first entry of the name. -/
theorem findPartition_of_find {max : Nat} {entries : List FlashPartition} {name : CString}
    {message : Text} {e : FlashPartition}
    (h : (entries.find? fun e => e.name = name) = some e) :
    findPartition max entries name message = .ok e := by
  rw [findPartition, h]

/-- The board's table is read back from the image. -/
theorem factory_flashTable {fresh : Nat → UInt8} (stale : Nat → UInt8) {flash : List FlashPartition}
    {table : ImagePartition} {file tail : Bytes} {e : FlashPartition}
    (htable : makePartitionTable fresh flash = .ok table) (hnonempty : flash ≠ [])
    (hreadable : ∀ f ∈ flash, Readable f.name) (hcount : flash.length ≤ maxPartitions)
    (hfile : file.drop (e.base.toNat + 0x1014) = table.data ++ tail) :
    readPartitionTable stale file (0x1014 + e.base.toNat + 4) maxPartitions .flash =
      .ok (some flash) := by
  obtain ⟨-, htext, zero, hzero, hdata⟩ := makePartitionTable_ok htable
  rw [hzero hnonempty] at hdata
  refine readPartitionTable_ok (List.replicate (0x7fb - (flashText flash).length) 0xff ++ tail)
    hnonempty hreadable hcount (by rw [← flashText_eq]; omega) ?_
  rw [Nat.add_comm 0x1014, ← List.drop_drop, hfile, hdata, ← flashText_eq]
  rw [List.append_assoc, List.append_assoc, List.cons_append]
  exact List.drop_left' rfl

/-- A difference of `uint32_t` that does not wrap. -/
theorem toNat_sub_of_le {a b : UInt32} (h : b.toNat ≤ a.toNat) :
    (a - b).toNat = a.toNat - b.toNat := by
  refine UInt32.toNat_sub_of_le _ _ ?_
  rw [UInt32.le_iff_toNat_le]
  exact h

section Write

variable {input output : Path} {file : Bytes} {e1 e2 f1 f2 : FlashPartition} {disk : Disk}

/-- The first partition and the 0xff behind it; the second is written where `fseek` puts it. -/
theorem writeSysupgrade_first (stack : Nat → Nat → UInt8) (hne : input ≠ output)
    (hinput : disk input = some file) (houtput : disk output = some [])
    (hheld : HoldsPartition file 0x1014 e1) (hle : e1.size.toNat ≤ f1.size.toNat)
    (hmax : f1.size.toNat - e1.size.toNat ≤ 2 ^ 31) :
    writeSysupgrade stack input output e1 e2 f1 f2 disk =
      (do
        let (disk, pos) := writePartition (stack 3) input output 0x1014 e2
          (disk.write output (partitionBytes file 0x1014 e1 ++
            List.replicate (f1.size.toNat - e1.size.toNat) 0xff)) (f2.base - f1.base).toNat
        let (disk, _) ← writeFF output (f2.size - e2.size).toNat disk pos
        .ok disk) := by
  have hwrite := writePartition_holds (stack 2) hne hinput houtput rfl hheld
  have hmax' : f1.size.toNat - e1.size.toNat ≤ intMax + 1 := hmax
  have hff := writeFF_eq hmax' (Disk.write_same disk output (partitionBytes file 0x1014 e1))
    (length_partitionBytes hheld)
  rw [List.length_nil, List.nil_append, Nat.zero_add] at hwrite
  rw [Disk.write_write] at hff
  rw [writeSysupgrade, toNat_sub_of_le hle, hwrite]
  dsimp only
  rw [hff, ok_bind]

/-- **Both partitions are written behind each other**, if their places adjoin. -/
theorem writeSysupgrade_eq (stack : Nat → Nat → UInt8) (hne : input ≠ output)
    (hinput : disk input = some file) (houtput : disk output = some [])
    (hheld1 : HoldsPartition file 0x1014 e1) (hheld2 : HoldsPartition file 0x1014 e2)
    (hle1 : e1.size.toNat ≤ f1.size.toNat) (hle2 : e2.size.toNat ≤ f2.size.toNat)
    (hmax1 : f1.size.toNat - e1.size.toNat ≤ 2 ^ 31)
    (hmax2 : f2.size.toNat - e2.size.toNat ≤ 2 ^ 31)
    (hadjoin : f1.base.toNat + f1.size.toNat = f2.base.toNat) :
    writeSysupgrade stack input output e1 e2 f1 f2 disk =
      .ok (disk.write output (partitionBytes file 0x1014 e1 ++
        List.replicate (f1.size.toNat - e1.size.toNat) 0xff ++ partitionBytes file 0x1014 e2 ++
        List.replicate (f2.size.toNat - e2.size.toNat) 0xff)) := by
  have hlen1 := length_partitionBytes hheld1
  have hlen2 := length_partitionBytes hheld2
  have hdistance : (f2.base - f1.base).toNat = f1.size.toNat := by
    rw [toNat_sub_of_le (by omega)]
    omega
  have hend : (partitionBytes file 0x1014 e1 ++
      List.replicate (f1.size.toNat - e1.size.toNat) (0xff : UInt8)).length = f1.size.toNat := by
    rw [List.length_append, List.length_replicate, hlen1]
    omega
  -- the output has grown to the first flash partition's size when the second is written
  have hwrite := writePartition_holds (stack 3) hne ((Disk.write_other disk _ hne).trans hinput)
    (Disk.write_same ..) hend hheld2
  have hmax' : f2.size.toNat - e2.size.toNat ≤ intMax + 1 := hmax2
  have hff := writeFF_eq hmax' (Disk.write_same disk output (partitionBytes file 0x1014 e1 ++
    List.replicate (f1.size.toNat - e1.size.toNat) 0xff ++ partitionBytes file 0x1014 e2)) rfl
  rw [List.length_append, hend, hlen2] at hff
  rw [Disk.write_write] at hwrite hff
  rw [writeSysupgrade_first stack hne hinput houtput hheld1 hle1 hmax1, hdistance, hwrite,
    toNat_sub_of_le hle2]
  dsimp only
  rw [hff, ok_bind]

end Write

/-- A partition whose bytes stand in the file. -/
theorem holds_of_drop {file data tail : Bytes} {entry : FlashPartition}
    (hsize : entry.size.toNat = data.length)
    (hbound : entry.base.toNat + 0x1014 + data.length ≤ file.length)
    (hfile : file.drop (entry.base.toNat + 0x1014) = data ++ tail) :
    HoldsPartition file 0x1014 entry ∧ partitionBytes file 0x1014 entry = data := by
  refine ⟨Or.inr (by omega), ?_⟩
  rw [partitionBytes, hfile, hsize, List.take_left]

/-- A partition that was placed is no larger than its place. -/
theorem Placeable.size_le {flash : List FlashPartition} {p : ImagePartition} {f : FlashPartition}
    (h : Placeable flash p) (hfind : (flash.find? fun f => f.name = p.name) = some f) :
    p.size ≤ f.size.toNat := by
  obtain ⟨f', hf', hle⟩ := h
  rw [hfind] at hf'
  rw [Option.some.inj hf']
  exact hle

/-- **The two routes to the sysupgrade format agree.** -/
theorem convertFirmware_eq_sysupgrade (md5 : Md5) (info : DeviceInfo)
    (pre post : List FlashPartition) (osImage fileSystem : FlashPartition)
    (hboard : Adjacent info pre post osImage fileSystem) (parts : List ImagePartition)
    (hdistinct : (parts.map ImagePartition.name).Nodup)
    (htotal : (parts.map ImagePartition.size).sum < 2 ^ 31) (fresh : Nat → UInt8)
    (table p q : ImagePartition) (htable : makePartitionTable fresh info.partitions = .ok table)
    (htableMem : table ∈ parts) (hp : p ∈ parts) (hpname : p.name = cstring "os-image")
    (hq : q ∈ parts) (hqname : q.name = cstring "file-system") (image : Bytes)
    (himage : generateFactoryImage md5 info parts = .ok image) (os : Os)
    (stack : Nat → Nat → UInt8) (disk : Disk) (input output : Path)
    (hinput : disk input = some image) (hopens : os.opens output) (hne : input ≠ output) :
    ∃ sysupgrade, generateSysupgradeImage info parts = .ok sysupgrade ∧
      convertFirmware os stack disk input output = .ok (disk.write output
        (sysupgrade ++ List.replicate (fileSystem.size.toNat - q.size) 0xff)) := by
  rw [← length_payload] at htotal
  obtain ⟨hplace, -⟩ := generateFactoryImage_ok himage
  obtain ⟨hlength, hpayload, -⟩ := factory_parts himage
  have hreadable : ∀ p ∈ parts, Readable p.name := by
    intro r hr
    obtain ⟨f, hf, hname⟩ := List.mem_map.mp (hplace r hr).mem
    exact hname ▸ (hboard.readable f hf).2
  have hcount : parts.length ≤ maxPartitions :=
    Nat.le_trans (length_le_of_placeable hplace hdistinct) info.partitions_length
  have hfwup := factory_table (stack 0) himage (List.ne_nil_of_mem hp) hreadable hcount
  -- the three entries of the image's table
  have hentry : ∀ r ∈ parts, ∃ e, ((fwupEntries parts 0x800).find? fun e => e.name = r.name) =
      some e ∧ e.size.toNat = r.size ∧ e.base.toNat + 0x1014 + r.size ≤ image.length ∧
        ∃ tail, image.drop (e.base.toNat + 0x1014) = r.data ++ tail := fun r hr =>
    find_fwupEntries parts hdistinct hr (by omega) (by omega) hpayload
  obtain ⟨e1, he1, hsize1, hbound1, tail1, hfile1⟩ := hentry p hp
  obtain ⟨e2, he2, hsize2, hbound2, tail2, hfile2⟩ := hentry q hq
  obtain ⟨e3, he3, -, -, tail3, hfile3⟩ := hentry table htableMem
  rw [hpname] at he1
  rw [hqname] at he2
  rw [(makePartitionTable_ok htable).1] at he3
  -- the board's table
  have hflashne : info.partitions ≠ [] := List.ne_nil_of_mem hboard.mem.1
  have hflash := factory_flashTable (stack 1) htable hflashne
    (fun f hf => (hboard.readable f hf).2) info.partitions_length hfile3
  obtain ⟨hfind1, hfind2⟩ := hboard.find
  have hle1 : p.size ≤ osImage.size.toNat := (hplace p hp).size_le (by rw [hpname]; exact hfind1)
  have hle2 : q.size ≤ fileSystem.size.toNat :=
    (hplace q hq).size_le (by rw [hqname]; exact hfind2)
  have hpfind : (parts.find? fun p => p.name = cstring "os-image") = some p := by
    rw [← hpname]
    exact find?_of_nodup hdistinct hp
  have hqfind : (parts.find? fun p => p.name = cstring "file-system") = some q := by
    rw [← hqname]
    exact find?_of_nodup hdistinct hq
  refine ⟨_, sysupgrade_eq hboard hpfind hqfind hle1 hle2, ?_⟩
  have hinput' : (disk.write output []) input = some image :=
    (Disk.write_other _ _ hne).trans hinput
  obtain ⟨hheld1, hdata1⟩ := holds_of_drop hsize1 hbound1 hfile1
  obtain ⟨hheld2, hdata2⟩ := holds_of_drop hsize2 hbound2 hfile2
  have hlt1 := hboard.osImage_size
  have hlt2 := hboard.fileSystem_size
  have hwrite := writeSysupgrade_eq stack hne hinput' (Disk.write_same ..) hheld1 hheld2
    (by omega) (by omega) (by omega) (by omega) hboard.adjacent
  rw [hdata1, hdata2, hsize1, hsize2] at hwrite
  have hsome : ¬ (disk input).isNone = true := by simp [hinput]
  unfold convertFirmware
  rw [if_neg hsome, if_neg (not_not.mpr hopens)]
  dsimp only
  rw [Disk.content_of_eq hinput', hfwup, ok_bind]
  dsimp only
  rw [findPartition_of_find he1, ok_bind, findPartition_of_find he2, ok_bind,
    findPartition_of_find he3, ok_bind, hflash, ok_bind]
  dsimp only
  rw [findPartition_of_find hfind1, ok_bind, findPartition_of_find hfind2, ok_bind, hwrite,
    Disk.write_write]

/-! ### The Archer C7 v4 -/

/-- On the flash of the Archer C7 v4, the two partitions adjoin. -/
theorem archerC7V4_adjacent : Adjacent archerC7V4 (archerC7V4.partitions.take 2)
    (archerC7V4.partitions.drop 4) ⟨cstring "os-image", 0x40000, 0xa00000⟩
    ⟨cstring "file-system", 0xa40000, 0x4c0000⟩ where
  partitions := rfl
  distinct := by decide +kernel
  readable := by decide +kernel
  first := rfl
  last := rfl
  osImage_name := rfl
  fileSystem_name := rfl
  adjacent := rfl
  osImage_size := by decide
  fileSystem_size := by decide

/-- The board's table and two partitions make an image. -/
theorem archerC7V4_image : ∃ table image,
    makePartitionTable (fun _ => 0xcc) archerC7V4.partitions = .ok table ∧
      generateFactoryImage vendoredMd5 archerC7V4 (table :: sampleParts) = .ok image := by
  obtain ⟨table, htable⟩ := (makePartitionTable_isOk_iff (fun _ => 0xcc)
    archerC7V4.partitions).mpr (by decide +kernel)
  have hname := (makePartitionTable_ok htable).1
  have hsize := size_partitionTable htable
  have htext : (fwupText (table :: sampleParts) 0x800).length < 0x800 := by
    rw [fwupText, fwupLine, hname, hsize]
    decide +kernel
  have hplace : Placeable archerC7V4.partitions table := by
    refine ⟨⟨cstring "partition-table", 0xfc0000, 0x10000⟩, ?_, ?_⟩
    · rw [hname]
      decide +kernel
    · rw [hsize]
      decide
  obtain ⟨image, himage⟩ := (generateFactoryImage_isOk_iff vendoredMd5 archerC7V4
    (table :: sampleParts)).mpr
      ⟨fun _ hv => absurd hv (by simp [archerC7V4]), List.forall_mem_cons.mpr ⟨hplace, sampleParts_placeable⟩, htext⟩
  exact ⟨table, image, htable, himage⟩

/-- A factory image of two small partitions is converted to their sysupgrade image, and padded. -/
theorem convertFirmware_archerC7V4 : ∃ table image sysupgrade,
    makePartitionTable (fun _ => 0xcc) archerC7V4.partitions = .ok table ∧
      generateFactoryImage vendoredMd5 archerC7V4 (table :: sampleParts) = .ok image ∧
      generateSysupgradeImage archerC7V4 (table :: sampleParts) = .ok sysupgrade ∧
      convertFirmware sampleOs (fun _ _ => 0xcc)
        (fun path => if path = asBytes "factory.bin".toList then some image else none)
        (asBytes "factory.bin".toList) (asBytes "sysupgrade.bin".toList) =
          .ok (Disk.write
            (fun path => if path = asBytes "factory.bin".toList then some image else none)
            (asBytes "sysupgrade.bin".toList) (sysupgrade ++ List.replicate (0x4c0000 - 3) 0xff)) := by
  obtain ⟨table, image, htable, himage⟩ := archerC7V4_image
  have hname := (makePartitionTable_ok htable).1
  have hsize := size_partitionTable htable
  have hdistinct : ((table :: sampleParts).map ImagePartition.name).Nodup := by
    rw [List.map_cons, hname]
    decide
  have htotal : ((table :: sampleParts).map ImagePartition.size).sum < 2 ^ 31 := by
    rw [List.map_cons, hsize]
    decide
  obtain ⟨sysupgrade, hsysupgrade, hconvert⟩ := convertFirmware_eq_sysupgrade vendoredMd5
    archerC7V4 _ _ _ _ archerC7V4_adjacent (table :: sampleParts) hdistinct htotal
    (fun _ => 0xcc) table ⟨cstring "os-image", [0x27, 0x05]⟩
    ⟨cstring "file-system", [0x68, 0x73, 0x71]⟩ htable List.mem_cons_self
    (List.mem_cons_of_mem _ (by decide)) rfl (List.mem_cons_of_mem _ (by decide)) rfl image himage
    sampleOs (fun _ _ => 0xcc)
    (fun path => if path = asBytes "factory.bin".toList then some image else none)
    (asBytes "factory.bin".toList) (asBytes "sysupgrade.bin".toList) (if_pos rfl) (by decide)
    (by decide)
  exact ⟨table, image, sysupgrade, htable, himage, hsysupgrade, hconvert⟩

end Safewrt.Safeloader
