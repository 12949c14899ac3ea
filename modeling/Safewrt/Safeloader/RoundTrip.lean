/-
  A BOARD'S IMAGE, TAKEN APART AGAIN (tools/tplink-safeloader/tplink-safeloader.c).

  The results on extraction and conversion ask of the partitions that they are named, sized and
  placed as the tool expects.  Here the image is one that the tool built for a board of its table,
  and all of that is a fact.

  1. `extract_of_image` — extraction writes one file for each partition of an image, with the bytes
     that were put in.

  2. **`boards_extract`** — so the kernel, the rootfs and, for the Archer C7 v4, the genesis come
     out of a built image as they went in.

  3. **`boards_convert`** — the image of the Archer C7 v4 converts to its sysupgrade image, padded.
     The image of every other board lists no file-system: the search for it runs into the first
     unused entry, whose name is NULL.

  Both are by cases on extra-para, as the images themselves are: with it all eight partitions are in
  the image, without it the four up to os-image.
-/
import Safewrt.Safeloader.ConvertAny
import Safewrt.Safeloader.Outcomes

namespace Safewrt.Safeloader

open Safewrt.Lib

/-! ## Extraction

  The names the tool itself gives to parts are plain, and a board's image is below 2 GiB, so the
  general result applies. -/

/-- Partitions of at most `n` bytes each. -/
theorem length_payload_le {n : Nat} (ps : List ImagePartition) :
    (∀ p ∈ ps, p.size ≤ n) → (payload ps).length ≤ ps.length * n := by
  induction ps with
  | nil => exact fun _ => Nat.zero_le _
  | cons p ps ih =>
    intro h
    obtain ⟨hp, hps⟩ := List.forall_mem_cons.mp h
    have hle := ih hps
    unfold ImagePartition.size at hp
    rw [payload_cons, List.length_append, List.length_cons, Nat.succ_mul]
    omega

section Board

variable {info : DeviceInfo} {disk : Disk} {inputs : Inputs} {kernel rootfs genesis : Bytes}
  {slots : List (Option ImagePartition)} {memory : Memory} {stamp : Stamp} {table : ImagePartition}
  {md5 : Md5} {image : Bytes}

/-- Nothing that a board has room for is large. -/
theorem Supported.payload_lt (hinfo : Supported info)
    (h : Filled slots memory stamp info kernel rootfs genesis table)
    (himage : generateFactoryImage md5 info (visible slots) = .ok image) :
    (payload (visible slots)).length < 2 ^ 31 := by
  obtain ⟨hplace, -⟩ := generateFactoryImage_ok himage
  have hcount := h.length_visible.1
  have hsizes : ∀ p ∈ visible slots, p.size ≤ 0x2000000 := by
    intro p hp
    obtain ⟨f, hfind, hsize⟩ := hplace p hp
    have hsmall := hinfo.small f (List.mem_of_find?_eq_some hfind)
    omega
  have hle := length_payload_le (visible slots) hsizes
  omega

/-- os-image is seen by the consumers on every board. -/
theorem Filled.osImage_visible (h : Filled slots memory stamp info kernel rootfs genesis table) :
    osImage memory kernel rootfs ∈ visible slots := by
  cases hpara : extraParaData info.id with
  | none =>
    rw [(h.visible_none hpara).1]
    simp
  | some mdat =>
    rw [(h.visible_some hpara).1]
    simp

/-- What extraction leaves of a file system: the one that went in, if the image has one. -/
theorem Filled.written_fileSystem (h : Filled slots memory stamp info kernel rootfs genesis table)
    (directory : Path) (disk : Disk) :
    written directory disk (visible slots) (partitionPath directory (cstring "file-system")) =
      if (extraParaData info.id).isSome then some genesis
      else disk (partitionPath directory (cstring "file-system")) := by
  cases hpara : extraParaData info.id with
  | none =>
    apply written_other
    intro p hp hpath
    exact h.absent hpara (by decide : cstring "file-system" ∉ partNames.take 4) p hp
      (partitionPath_inj hpath).symm
  | some mdat =>
    have hmem : fileSystem genesis ∈ visible slots := by
      rw [(h.visible_some hpara).1]
      simp
    exact written_mem (visible slots) h.nodup hmem

/-- **What goes into a built image comes out of it**: the kernel and behind it the rootfs, and the
    genesis of the one board that has it. -/
theorem boards_extract (hboard : info ∈ boards) (hfiles : Given disk inputs kernel rootfs genesis)
    (himage : generateImage md5 memory disk stamp info inputs false = .ok image) (os : Os)
    (stack : Nat → Nat → UInt8) {disk' : Disk} {input directory : Path}
    (hinput : disk' input = some image) (htarget : Target os input directory partNames) :
    ∃ slots disk'', prepare memory disk stamp info inputs = .ok slots ∧
      extractFirmware os stack disk' input directory = .ok disk'' ∧
      (∀ p ∈ visible slots, disk'' (partitionPath directory p.name) = some p.data) ∧
      (∃ rest, disk'' (partitionPath directory (cstring "os-image")) =
        some (kernel ++ rootfs ++ rest)) ∧
      disk'' (partitionPath directory (cstring "file-system")) =
        (if info.id = cstring "ARCHER-C7-V4" then some genesis
          else disk' (partitionPath directory (cstring "file-system"))) ∧
      ∀ path, (∀ name ∈ partNames, path ≠ partitionPath directory name) →
        disk'' path = disk' path := by
  have hinfo := boards_supported hboard
  have hid := boards_rooms hboard
  obtain ⟨slots, table, hslots, hfilled⟩ := hfiles.filled hinfo memory stamp
  rw [generateImage, hslots, ok_bind, if_neg Bool.false_ne_true] at himage
  have hvisible := hfilled.name_mem
  have hcount := hfilled.length_visible
  have htarget' : Target os input directory ((visible slots).map ImagePartition.name) := by
    refine ⟨htarget.isDirectory, fun name hname => ?_, fun name hname => ?_⟩
    · obtain ⟨p, hp, rfl⟩ := List.mem_map.mp hname
      exact htarget.opens _ (hvisible p hp)
    · obtain ⟨p, hp, rfl⟩ := List.mem_map.mp hname
      exact htarget.apart _ (hvisible p hp)
  have hextract := extract_of_image himage hcount.2 (Nat.le_trans hcount.1 (by decide))
    (fun p hp => readable_partNames _ (hvisible p hp)) (hinfo.payload_lt hfilled himage) htarget'
    hinput stack
  have hwritten : ∀ p ∈ visible slots,
      written directory disk' (visible slots) (partitionPath directory p.name) = some p.data :=
    fun p hp => written_mem (visible slots) hfilled.nodup hp
  refine ⟨slots, _, hslots, hextract, hwritten, ?_, ?_, ?_⟩
  · exact ⟨_, hwritten (osImage memory kernel rootfs) hfilled.osImage_visible⟩
  · rw [hfilled.written_fileSystem]
    -- an image with extra-para has a place for identity and sysconf
    cases hpara : extraParaData info.id with
    | none =>
      rw [hpara] at hid
      rw [if_neg hid]
      rfl
    | some mdat =>
      rw [hpara] at hid
      obtain ⟨-, hextra, hidentity, hsysconf, -⟩ := (factory_isOk_some md5 hinfo hfilled
        hpara hfiles.rootfs_ne hfiles.genesis_ne).mp ⟨image, himage⟩
      rw [if_pos (hid.mp ⟨hextra, hidentity, hsysconf⟩)]
      rfl
  · intro path hpath
    apply written_other
    exact fun p hp => hpath _ (hvisible p hp)

/-! ## Conversion

  Whether file-system is in the image decides it: if it is, the plan is exact; if not, the second
  lookup kills the run. -/

/-- The search for file-system runs into an unused entry. -/
theorem readPlan_fault {file : Bytes} {entries : List FlashPartition} {e : FlashPartition}
    (stack : Nat → Nat → UInt8)
    (htable : readPartitionTable (stack 0) file 0x1014 maxPartitions .fwup = .ok (some entries))
    (hcount : entries.length < maxPartitions)
    (hos : (entries.find? fun e => e.name = cstring "os-image") = some e)
    (hfs : (entries.find? fun e => e.name = cstring "file-system") = none) :
    readPlan stack file = .error .fault := by
  unfold readPlan
  rw [htable, ok_bind]
  dsimp only
  rw [findPartition_of_find hos, ok_bind, findPartition, hfs]
  dsimp only
  rw [if_pos hcount, error_bind]

/-- A partition's entry in the image's table, and its data behind it. -/
theorem Supported.entry (hinfo : Supported info)
    (h : Filled slots memory stamp info kernel rootfs genesis table)
    (himage : generateFactoryImage md5 info (visible slots) = .ok image) {p : ImagePartition}
    (hp : p ∈ visible slots) :
    ∃ e, ((fwupEntries (visible slots) 0x800).find? fun e => e.name = p.name) = some e ∧
      e.size.toNat = p.size ∧ e.base.toNat + 0x1014 + p.size ≤ image.length ∧
        ∃ tail, image.drop (e.base.toNat + 0x1014) = p.data ++ tail := by
  obtain ⟨hlength, hpayload, -⟩ := factory_parts himage
  have hlt := hinfo.payload_lt h himage
  exact find_fwupEntries (visible slots) h.nodup hp (by omega) (by omega) hpayload

/-- The partition table is seen by the consumers on every board. -/
theorem Filled.table_visible (h : Filled slots memory stamp info kernel rootfs genesis table) :
    table ∈ visible slots := by
  cases hpara : extraParaData info.id with
  | none =>
    rw [(h.visible_none hpara).1]
    exact List.mem_cons_self
  | some mdat =>
    rw [(h.visible_some hpara).1]
    exact List.mem_cons_self

/-- With extra-para, the plan is found, and it is exact. -/
theorem readPlan_built (hinfo : Supported info)
    (hlast : info.lastSysupgradePartition = cstring "file-system")
    (h : Filled slots memory stamp info kernel rootfs genesis table) {mdat : Bytes}
    (hpara : extraParaData info.id = some mdat)
    (himage : generateFactoryImage md5 info (visible slots) = .ok image)
    (stack : Nat → Nat → UInt8) :
    ∃ plan, readPlan stack image = .ok plan ∧ plan.Exact image ∧
      plan.image image = (osImage memory kernel rootfs).data ++ List.replicate
        (room info (cstring "os-image") - (align kernel.length + rootfs.length)) 0xff ++ genesis ++
          List.replicate (room info (cstring "file-system") - genesis.length) 0xff := by
  obtain ⟨pre, post, o, f, hadjacent, ho, hf⟩ := hinfo.exists_adjacent hlast
  obtain ⟨hplace, -⟩ := generateFactoryImage_ok himage
  have hmemFs : fileSystem genesis ∈ visible slots := by
    rw [(h.visible_some hpara).1]
    simp
  have htable := factory_table (stack 0) himage h.length_visible.2
    (fun p hp => readable_partNames _ (h.name_mem p hp))
    (Nat.le_trans h.length_visible.1 (by decide : 8 ≤ maxPartitions))
  -- the image's entries of the three names, with their bytes
  obtain ⟨e1, he1, hsize1, hbound1, tail1, hfile1⟩ := hinfo.entry h himage h.osImage_visible
  obtain ⟨e2, he2, hsize2, hbound2, tail2, hfile2⟩ := hinfo.entry h himage hmemFs
  rw [show (osImage memory kernel rootfs).name = cstring "os-image" from rfl] at he1
  rw [show (fileSystem genesis).name = cstring "file-system" from rfl] at he2
  obtain ⟨e3, he3, -, -, tail3, hfile3⟩ := hinfo.entry h himage h.table_visible
  rw [(makePartitionTable_ok h.isTable).1] at he3
  have hflash := factory_flashTable (stack 1) h.isTable hinfo.nonempty
    (fun f hf => (hinfo.named f hf).2) info.partitions_length hfile3
  obtain ⟨hfind1, hfind2⟩ := hadjacent.find
  have hle1 : (osImage memory kernel rootfs).size ≤ o.size.toNat :=
    (hplace _ h.osImage_visible).size_le hfind1
  have hle2 : (fileSystem genesis).size ≤ f.size.toNat := (hplace _ hmemFs).size_le hfind2
  obtain ⟨hheld1, hdata1⟩ := holds_of_drop hsize1 hbound1 hfile1
  obtain ⟨hheld2, hdata2⟩ := holds_of_drop hsize2 hbound2 hfile2
  have hlt1 := hadjacent.osImage_size
  have hlt2 := hadjacent.fileSystem_size
  -- so no lookup fails
  have hplan : readPlan stack image = .ok ⟨e1, e2, o, f⟩ := by
    unfold readPlan
    rw [htable, ok_bind]
    dsimp only
    rw [findPartition_of_find he1, ok_bind, findPartition_of_find he2, ok_bind,
      findPartition_of_find he3, ok_bind, hflash, ok_bind]
    dsimp only
    rw [findPartition_of_find hfind1, ok_bind, findPartition_of_find hfind2, ok_bind]
  refine ⟨_, hplan, ⟨⟨?_, ?_, ?_⟩, hadjacent.adjacent, hheld1, hheld2, ?_, ?_⟩, ?_⟩
  · show e1.size.toNat ≤ o.size.toNat
    omega
  · show e2.size.toNat ≤ f.size.toNat
    omega
  · exact Nat.le_of_eq hadjacent.adjacent
  · show o.size.toNat - e1.size.toNat ≤ 2 ^ 31
    omega
  · show f.size.toNat - e2.size.toNat ≤ 2 ^ 31
    omega
  · show partitionBytes image 0x1014 e1 ++ List.replicate (o.size.toNat - e1.size.toNat) 0xff ++
      partitionBytes image 0x1014 e2 ++ List.replicate (f.size.toNat - e2.size.toNat) 0xff = _
    rw [hdata1, hdata2, hsize1, hsize2, ho, hf, size_osImage]
    rfl

/-- **A built image, converted**: for the Archer C7 v4 the image that `-S` makes, with 0xff up to
    the end of file-system; for every other board a NULL name is compared. -/
theorem boards_convert (hboard : info ∈ boards) (hfiles : Given disk inputs kernel rootfs genesis)
    (himage : generateImage md5 memory disk stamp info inputs false = .ok image) (os : Os)
    (stack : Nat → Nat → UInt8) {disk' : Disk} {input output : Path}
    (hinput : disk' input = some image) (hopens : os.opens output) (hne : input ≠ output) :
    if info.id = cstring "ARCHER-C7-V4" then
      ∃ sysupgrade, generateImage md5 memory disk stamp info inputs true = .ok sysupgrade ∧
        convertFirmware os stack disk' input output = .ok (disk'.write output (sysupgrade ++
          List.replicate (room info (cstring "file-system") - genesis.length) 0xff))
    else convertFirmware os stack disk' input output = .error .fault := by
  have hinfo := boards_supported hboard
  have hid := boards_rooms hboard
  obtain ⟨slots, table, hslots, hfilled⟩ := hfiles.filled hinfo memory stamp
  rw [generateImage, hslots, ok_bind, if_neg Bool.false_ne_true] at himage
  rw [convertFirmware_eq_plan stack hinput hopens hne, generateImage, hslots, ok_bind, if_pos rfl]
  cases hpara : extraParaData info.id with
  | none =>
    rw [hpara] at hid
    have hvisible := (hfilled.visible_none hpara).1
    have htable := factory_table (stack 0) himage hfilled.length_visible.2
      (fun p hp => readable_partNames _ (hfilled.name_mem p hp))
      (Nat.le_trans hfilled.length_visible.1 (by decide : 8 ≤ maxPartitions))
    obtain ⟨e, he, -⟩ := hinfo.entry hfilled himage hfilled.osImage_visible
    have hcount : (fwupEntries (visible slots) 0x800).length < maxPartitions := by
      rw [length_fwupEntries, hvisible]
      show 4 < 32
      decide
    have hnone : ((fwupEntries (visible slots) 0x800).find?
        fun e => e.name = cstring "file-system") = none := by
      rw [List.find?_eq_none]
      intro e he
      obtain ⟨p, hp, hname⟩ := name_of_mem_fwupEntries he
      rw [decide_eq_true_eq, ← hname]
      exact hfilled.absent hpara (by decide : cstring "file-system" ∉ partNames.take 4) p hp
    have hplan := readPlan_fault stack htable hcount he hnone
    rw [if_neg hid, hplan, error_bind]
  | some mdat =>
    rw [hpara] at hid
    obtain ⟨hos, hextra, hidentity, hsysconf, hfs⟩ := (factory_isOk_some md5 hinfo hfilled
      hpara hfiles.rootfs_ne hfiles.genesis_ne).mp ⟨image, himage⟩
    have hlast : info.lastSysupgradePartition = cstring "file-system" := by
      rcases boards_kinds hboard with hlast | ⟨-, -, hnone⟩
      · exact hlast
      · rw [hpara] at hnone
        exact absurd hnone (by simp)
    obtain ⟨hok, hsysupgrade⟩ := sysupgrade_some hinfo hfilled hpara hlast
    obtain ⟨sysupgrade, hmade⟩ := hok.mpr ⟨hos, hfs⟩
    obtain ⟨plan, hplan, hexact, hbytes⟩ := readPlan_built hinfo hlast hfilled hpara himage stack
    rw [if_pos (hid.mp ⟨hextra, hidentity, hsysconf⟩)]
    refine ⟨sysupgrade, hmade, ?_⟩
    have hinput' : (disk'.write output []) input = some image :=
      (Disk.write_other _ _ hne).trans hinput
    rw [hplan, ok_bind, write_exact stack hne hinput' (Disk.write_same ..) hexact,
      Disk.write_write, hbytes, hsysupgrade sysupgrade hmade]

end Board

end Safewrt.Safeloader
