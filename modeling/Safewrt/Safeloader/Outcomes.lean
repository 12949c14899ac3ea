/-
  WHAT THE TOOL MAKES FOR EACH BOARD (tools/tplink-safeloader/tplink-safeloader.c, `build_image`).

  1. A partition is placed if the board has room for it.  Of what `build_image` prepares, the sizes
     of three partitions depend on the files: os-image, file-system, and nothing else.  So for a
     board of the table the outcome is a matter of the lengths of three files.

  2. **`boards_factory`** — a factory image is made for every board without extra-para whose
     os-image fits, and it lists no file-system; of the boards with extra-para only the Archer C7 v4
     has a place for identity and sysconf.

  3. **`boards_sysupgrade`** — with `-S` it is the other way round: the boards with extra-para get
     an image with their file-system, the CPE and WBS boards one that erases it, the others none.

  4. The table is asked for two facts, each by one evaluation: which boards have a place for what
     extra-para brings with it (`rooms_all`), and that a sysupgrade image ends with file-system or
     is one of the CPE layout (`kinds_all`).  All else follows from `Supported`.
-/
import Mathlib.Data.List.Nodup
import Safewrt.Safeloader.Boards

namespace Safewrt.Safeloader

open Safewrt.Lib

/-! ## Room

  A board has room for a part if it has a flash partition of its name that is as large.  Of a part
  without bytes nothing is asked but the partition, so sizes are assumed not to be zero. -/

/-- A partition that is not empty is placed where the board has room for it. -/
theorem placeable_iff_room {info : DeviceInfo} {p : ImagePartition} (h : 0 < p.size) :
    Placeable info.partitions p ↔ p.size ≤ room info p.name := by
  unfold Placeable room
  cases info.partitions.find? fun f => f.name = p.name with
  | none =>
    refine iff_of_false ?_ (Nat.not_le_of_lt h)
    rintro ⟨f, hf, -⟩
    exact absurd hf (by simp)
  | some f =>
    constructor
    · rintro ⟨g, hg, hsize⟩
      rw [Option.some.inj hg]
      exact hsize
    · exact fun hsize => ⟨f, rfl, hsize⟩

/-- The date and the revision have their place whatever they are. -/
theorem size_softVersion (stamp stamp' : Stamp) (info : DeviceInfo) :
    (softVersion stamp info).size = (softVersion stamp' info).size := by
  unfold ImagePartition.size softVersion softVersionData
  cases info.softVer with
  | none => simp only [List.flatten_cons, List.length_append, length_toBe, List.length_cons]
  | some softVer => rfl

/-- How big the support list's partition is. -/
theorem size_supportList (info : DeviceInfo) :
    (supportList info).size = info.supportList.bytes.length + 9 := by
  unfold ImagePartition.size supportList
  simp only [List.flatten_cons, List.flatten_nil, List.length_append, length_toBe,
    List.length_replicate, List.length_cons, List.length_nil]
  omega

/-- soft-version is never empty. -/
theorem size_softVersion_pos (stamp : Stamp) (info : DeviceInfo) :
    0 < (softVersion stamp info).size := by
  unfold ImagePartition.size softVersion softVersionData
  cases info.softVer with
  | none => simp only [List.flatten_cons, List.length_append, length_toBe]; omega
  | some softVer => simp only [List.flatten_cons, List.length_append, length_toBe]; omega

section Board

variable {slots : List (Option ImagePartition)} {memory : Memory} {stamp : Stamp}
  {info : DeviceInfo} {kernel rootfs genesis : Bytes} {table : ImagePartition} {md5 : Md5}

/-- What is the same for every board always fits. -/
theorem Supported.fits (hinfo : Supported info)
    (h : Filled slots memory stamp info kernel rootfs genesis table) :
    Placeable info.partitions table ∧ Placeable info.partitions (softVersion stamp info) ∧
      Placeable info.partitions (supportList info) := by
  refine ⟨?_, ?_, ?_⟩
  · have hsize := size_partitionTable h.isTable
    rw [placeable_iff_room (by omega), hsize, (makePartitionTable_ok h.isTable).1]
    exact hinfo.tableRoom
  · rw [placeable_iff_room (size_softVersion_pos stamp info), size_softVersion stamp sampleStamp]
    exact hinfo.versionRoom
  · rw [placeable_iff_room (by rw [size_supportList]; omega), size_supportList]
    exact hinfo.supportRoom

/-- os-image has to fit with the kernel's gap. -/
theorem placeable_osImage (memory : Memory) (hne : rootfs ≠ []) :
    Placeable info.partitions (osImage memory kernel rootfs) ↔
      align kernel.length + rootfs.length ≤ room info (cstring "os-image") := by
  have hpos := List.length_pos_iff.mpr hne
  rw [placeable_iff_room (by rw [size_osImage]; omega), size_osImage]
  rfl

/-- The vendor information of a supported board fits. -/
theorem Supported.vendorFits (hinfo : Supported info) (parts : List ImagePartition) :
    VendorFits info parts := by
  intro vendor hvendor
  have hle := hinfo.vendor vendor hvendor
  omega

/-- **Without extra-para** the size of the kernel and the rootfs decides. -/
theorem factory_isOk_none (hinfo : Supported info)
    (h : Filled slots memory stamp info kernel rootfs genesis table)
    (hpara : extraParaData info.id = none) (hne : rootfs ≠ []) :
    (∃ image, generateFactoryImage md5 info (visible slots) = .ok image) ↔
      align kernel.length + rootfs.length ≤ room info (cstring "os-image") := by
  obtain ⟨h0, h1, h2⟩ := hinfo.fits h
  have htext := h.text_lt
  rw [generateFactoryImage_isOk_iff, ← placeable_osImage memory hne]
  rw [(h.visible_none hpara).1] at htext ⊢
  constructor
  · rintro ⟨-, hplace, -⟩
    exact hplace _ (by simp)
  · intro h3
    refine ⟨hinfo.vendorFits _, ?_, htext⟩
    simp only [List.forall_mem_cons]
    exact ⟨h0, h1, h2, h3, fun _ h => absurd h (by simp)⟩

/-- **With extra-para** all four partitions behind os-image need a place, too. -/
theorem factory_isOk_some (md5 : Md5) (hinfo : Supported info)
    (h : Filled slots memory stamp info kernel rootfs genesis table) {mdat : Bytes}
    (hpara : extraParaData info.id = some mdat) (hne : rootfs ≠ []) (hne' : genesis ≠ []) :
    (∃ image, generateFactoryImage md5 info (visible slots) = .ok image) ↔
      align kernel.length + rootfs.length ≤ room info (cstring "os-image") ∧
        11 ≤ room info (cstring "extra-para") ∧ 4096 ≤ room info (cstring "identity") ∧
        1024 ≤ room info (cstring "sysconf") ∧
        genesis.length ≤ room info (cstring "file-system") := by
  obtain ⟨h0, h1, h2⟩ := hinfo.fits h
  have htext := h.text_lt
  have hmdat : (⟨cstring "extra-para", mdat⟩ : ImagePartition).size = 11 := length_extraParaData hpara
  have hidentity : (identity memory).size = 4096 := length_identity memory
  have hgenesis : 0 < (fileSystem genesis).size := List.length_pos_iff.mpr hne'
  have hplaces : (∀ p ∈ visible slots, Placeable info.partitions p) ↔
      align kernel.length + rootfs.length ≤ room info (cstring "os-image") ∧
        11 ≤ room info (cstring "extra-para") ∧ 4096 ≤ room info (cstring "identity") ∧
        1024 ≤ room info (cstring "sysconf") ∧
        genesis.length ≤ room info (cstring "file-system") := by
    rw [(h.visible_some hpara).1]
    simp only [List.cons_append, List.nil_append, List.forall_mem_cons, placeable_osImage memory hne,
      placeable_iff_room (show 0 < (⟨cstring "extra-para", mdat⟩ : ImagePartition).size by omega),
      placeable_iff_room (show 0 < (identity memory).size by omega),
      placeable_iff_room (show 0 < sysconf.size by rw [size_sysconf]; omega),
      placeable_iff_room hgenesis, hmdat, hidentity, size_sysconf]
    -- the first three are always placed: table, soft-version and support-list
    exact ⟨fun ⟨_, _, _, h3, h4, h5, h6, h7, _⟩ => ⟨h3, h4, h5, h6, h7⟩,
      fun ⟨h3, h4, h5, h6, h7⟩ => ⟨h0, h1, h2, h3, h4, h5, h6, h7, fun _ h => absurd h (by simp)⟩⟩
  rw [generateFactoryImage_isOk_iff, hplaces]
  exact ⟨fun h => h.2.1, fun hrooms => ⟨hinfo.vendorFits _, hrooms, htext⟩⟩

end Board

/-! ## The factory image of each board

  Without extra-para the image ends with os-image, and only that part depends on the files.  With it
  there are eight parts, and the board must have a place for all of them. -/

/-- The three files, none of them empty. -/
structure Given (disk : Disk) (inputs : Inputs) (kernel rootfs genesis : Bytes) : Prop where
  isKernel : disk inputs.kernelImage = some kernel
  isRootfs : disk inputs.rootfsImage = some rootfs
  isGenesis : disk inputs.genesisImage = some genesis
  kernel_ne : kernel ≠ []
  rootfs_ne : rootfs ≠ []
  genesis_ne : genesis ≠ []

/-- Of the boards with extra-para, one has a place for identity and sysconf. -/
theorem rooms_all : (boards.all fun info => decide
    (if (extraParaData info.id).isSome then
      11 ≤ room info (cstring "extra-para") ∧ 4096 ≤ room info (cstring "identity") ∧
        1024 ≤ room info (cstring "sysconf") ↔ info.id = cstring "ARCHER-C7-V4"
    else info.id ≠ cstring "ARCHER-C7-V4")) = true := by decide +kernel

/-- Which boards have a place for what `build_image` makes by itself. -/
theorem boards_rooms {info : DeviceInfo} (h : info ∈ boards) :
    if (extraParaData info.id).isSome then
      11 ≤ room info (cstring "extra-para") ∧ 4096 ≤ room info (cstring "identity") ∧
        1024 ≤ room info (cstring "sysconf") ↔ info.id = cstring "ARCHER-C7-V4"
    else info.id ≠ cstring "ARCHER-C7-V4" :=
  of_decide_eq_true (List.all_eq_true.mp rooms_all info h)

/-- No board has room for more than 32 MiB. -/
theorem Supported.room_le {info : DeviceInfo} (h : Supported info) (name : CString) :
    room info name ≤ 0x2000000 := by
  unfold room
  cases hfind : info.partitions.find? fun f => f.name = name with
  | none => exact Nat.zero_le _
  | some f =>
    have hsmall := h.small f (List.mem_of_find?_eq_some hfind)
    show f.size.toNat ≤ _
    omega

section Boards

variable {info : DeviceInfo} {disk : Disk} {inputs : Inputs} {kernel rootfs genesis : Bytes}

/-- With three files that are not empty, the slots of every supported board are filled. -/
theorem Given.filled (hfiles : Given disk inputs kernel rootfs genesis) (hinfo : Supported info)
    (memory : Memory) (stamp : Stamp) :
    ∃ slots table, prepare memory disk stamp info inputs = .ok slots ∧
      Filled slots memory stamp info kernel rootfs genesis table := by
  obtain ⟨slots, hslots⟩ := prepare_isOk memory stamp hinfo.text hfiles.isKernel hfiles.isRootfs
    hfiles.isGenesis hfiles.kernel_ne hfiles.rootfs_ne hfiles.genesis_ne
  obtain ⟨table, hfilled⟩ := filled_of_prepare hfiles.isKernel hfiles.isRootfs hfiles.isGenesis
    hslots
  exact ⟨slots, table, hslots, hfilled⟩

/-- An os-image that fits ends below 4 GiB. -/
theorem Supported.base_lt (hinfo : Supported info) (stamp : Stamp)
    (hos : align kernel.length + rootfs.length ≤ room info (cstring "os-image")) :
    fileSystemBase stamp info kernel rootfs < 2 ^ 32 := by
  have h1 := hinfo.room_le (cstring "os-image")
  have h2 := hinfo.room_le (cstring "soft-version")
  have h3 := hinfo.room_le (cstring "support-list")
  have h4 := hinfo.versionRoom
  have h5 := hinfo.supportRoom
  rw [fileSystemBase, size_softVersion stamp sampleStamp, size_supportList]
  omega

/-- **Which boards get a factory image, and which of the images is complete.** -/
theorem boards_factory (md5 : Md5) (memory : Memory) (stamp : Stamp) (h : info ∈ boards)
    (hfiles : Given disk inputs kernel rootfs genesis) :
    ((∃ image, generateImage md5 memory disk stamp info inputs false = .ok image) ↔
      align kernel.length + rootfs.length ≤ room info (cstring "os-image") ∧
        ((extraParaData info.id).isSome → info.id = cstring "ARCHER-C7-V4" ∧
          genesis.length ≤ room info (cstring "file-system"))) ∧
    ∀ image, generateImage md5 memory disk stamp info inputs false = .ok image →
      ∃ slots entries, prepare memory disk stamp info inputs = .ok slots ∧
        tableOf image = .ok (some entries) ∧
        (Complete image (prepared slots) ↔ info.id = cstring "ARCHER-C7-V4") ∧
        ((∃ e ∈ entries, e.name = cstring "file-system") ↔ info.id = cstring "ARCHER-C7-V4") := by
  have hinfo := boards_supported h
  have hrooms := boards_rooms h
  obtain ⟨slots, table, hslots, hfilled⟩ := hfiles.filled hinfo memory stamp
  have hgenerate : generateImage md5 memory disk stamp info inputs false =
      generateFactoryImage md5 info (visible slots) := by
    rw [generateImage, hslots, ok_bind, if_neg Bool.false_ne_true]
  simp only [hgenerate]
  cases hpara : extraParaData info.id with
  | none =>
    rw [hpara] at hrooms
    have hid : info.id ≠ cstring "ARCHER-C7-V4" := hrooms
    refine ⟨?_, fun image himage => ⟨slots, _, hslots, hfilled.tableOf_eq himage, ?_, ?_⟩⟩
    · rw [factory_isOk_none hinfo hfilled hpara hfiles.rootfs_ne]
      simp
    · exact iff_of_false (hfilled.not_complete hpara himage) hid
    · refine iff_of_false ?_ hid
      rintro ⟨e, he, hname⟩
      obtain ⟨p, hp, hpname⟩ := name_of_mem_fwupEntries he
      exact hfilled.absent hpara (by decide : cstring "file-system" ∉ partNames.take 4) p hp
        (hpname.trans hname)
  | some mdat =>
    rw [hpara] at hrooms
    -- extra-para brings identity and sysconf with it, for which one board has room
    have hid : (11 ≤ room info (cstring "extra-para") ∧ 4096 ≤ room info (cstring "identity") ∧
      1024 ≤ room info (cstring "sysconf")) ↔ info.id = cstring "ARCHER-C7-V4" := hrooms
    have hok := factory_isOk_some md5 hinfo hfilled hpara hfiles.rootfs_ne hfiles.genesis_ne
    refine ⟨?_, fun image himage => ⟨slots, _, hslots, hfilled.tableOf_eq himage, ?_, ?_⟩⟩
    · rw [hok, ← hid]
      simp only [Option.isSome_some, forall_const, and_assoc]
    · obtain ⟨hos, hextra, hidentity, hsysconf, -⟩ := hok.mp ⟨image, himage⟩
      exact iff_of_true (hfilled.complete_of_some hpara (hinfo.base_lt stamp hos) himage).2
        (hid.mp ⟨hextra, hidentity, hsysconf⟩)
    · obtain ⟨hos, hextra, hidentity, hsysconf, -⟩ := hok.mp ⟨image, himage⟩
      refine iff_of_true ?_ (hid.mp ⟨hextra, hidentity, hsysconf⟩)
      obtain ⟨entries, htable, hall⟩ :=
        (hfilled.complete_of_some hpara (hinfo.base_lt stamp hos) himage).2
      have hmem : fileSystem genesis ∈ prepared slots := by
        rw [(hfilled.visible_some hpara).2, (hfilled.visible_some hpara).1]
        simp
      obtain ⟨o, ho⟩ := exists_mem_places 0x800 hmem
      obtain ⟨e, he, hname, -⟩ := hall _ ho
      rw [hfilled.tableOf_eq himage] at htable
      obtain rfl := Option.some.inj (Except.ok.inj htable)
      exact ⟨e, he, hname⟩

end Boards

/-- The sample files are there and not empty. -/
theorem sampleGiven : Given sampleDisk sampleInputs [0x27, 0x05] [0x68, 0x73] [0x19, 0x85] where
  isKernel := by decide
  isRootfs := by decide
  isGenesis := by decide
  kernel_ne := by decide
  rootfs_ne := by decide
  genesis_ne := by decide

/-- The Archer C7 v4 gets its image. -/
theorem boards_factory_archerC7V4 : ∃ image, generateImage vendoredMd5 sampleMemory sampleDisk
    sampleStamp archerC7V4 sampleInputs false = .ok image := by
  refine (boards_factory vendoredMd5 sampleMemory sampleStamp mem_boards_archerC7V4
    sampleGiven).1.mpr ⟨by decide +kernel, fun _ => ⟨rfl, by decide +kernel⟩⟩

/-! ## The sysupgrade image of each board

  The image runs from os-image to the last sysupgrade partition of the board: to file-system on most
  of them, to support-list on the CPE and WBS boards, where file-system lies in between. -/

section Ends

variable {info : DeviceInfo} {pre mid post : List FlashPartition} {first last : FlashPartition}
  {parts : List ImagePartition} {imageLast : ImagePartition}

/-- The image ends with the last partition; without it there is none. -/
theorem LaidOut.stops (h : LaidOut info pre mid post first last)
    (hfind : (parts.find? fun p => p.name = info.lastSysupgradePartition) = none) :
    generateSysupgradeImage info parts = .error (.assert "image_last_partition".toList) := by
  unfold generateSysupgradeImage
  rw [h.findEnds_eq]
  dsimp only
  rw [if_pos (by omega), hfind]

/-- **Made if everything between the ends fits.** -/
theorem LaidOut.isOk_iff (h : LaidOut info pre mid post first last)
    (hdistinct : (parts.map ImagePartition.name).Nodup) (hmem : imageLast ∈ parts)
    (hname : imageLast.name = info.lastSysupgradePartition) :
    (∃ image, generateSysupgradeImage info parts = .ok image) ↔
      ∀ f ∈ range first mid last, ∀ p ∈ parts, p.name = f.name → p.size ≤ f.size.toNat := by
  have hname' : imageLast.name = last.name := by rw [h.last_name, hname]
  have hfind : (parts.find? fun p => p.name = info.lastSysupgradePartition) = some imageLast := by
    rw [← hname]
    exact find?_of_nodup hdistinct hmem
  rw [h.run hfind]
  constructor
  · rintro ⟨image, himage⟩ f hf p hp hpname
    obtain ⟨hfits, -⟩ := (copyParts_ok_iff _).mp himage
    refine (hfits f hf p ?_).1
    rw [find?_name_comm, ← hpname]
    exact find?_of_nodup hdistinct hp
  · intro hall
    have hbounds : ∀ f ∈ range first mid last, ∀ p ∈ parts, p.name = f.name →
        p.size ≤ f.size.toNat → place first f + p.size ≤
          (List.replicate (place first last + imageLast.size) (0xff : UInt8)).length := by
      intro f hf p hp hpname hsize
      rw [List.length_replicate]
      exact h.inBounds hdistinct hmem hname' hf hp hpname hsize
    rcases copyParts_tooBig_or (range first mid last) _ (fun f hf => h.first_le hf) hbounds with
      ⟨f, hf, p, hp, hpname, hbig, -⟩ | hok
    · exact absurd (hall f hf p hp hpname) (Nat.not_le_of_lt hbig)
    · exact hok

/-- A sysupgrade image that is made has the layout. -/
theorem LaidOut.layout_of_ok (h : LaidOut info pre mid post first last)
    (hdistinct : (parts.map ImagePartition.name).Nodup) (hmem : imageLast ∈ parts)
    (hname : imageLast.name = info.lastSysupgradePartition) {image : Bytes}
    (himage : generateSysupgradeImage info parts = .ok image) :
    SysupgradeLayout first last (range first mid last) parts imageLast image := by
  have hfind : (parts.find? fun p => p.name = info.lastSysupgradePartition) = some imageLast := by
    rw [← hname]
    exact find?_of_nodup hdistinct hmem
  rw [h.run hfind] at himage
  obtain ⟨hfits, hstore⟩ := (copyParts_ok_iff _).mp himage
  exact h.layout hdistinct hmem (by rw [h.last_name, hname]) hfits hstore

end Ends

/-- With `-S`, the last partition is file-system, or the board is a CPE or a WBS. -/
theorem kinds_all : (boards.all fun info => decide
    (info.lastSysupgradePartition = cstring "file-system" ∨
      info.partitions = cpe210.partitions ∧
        info.lastSysupgradePartition = cstring "support-list" ∧
        extraParaData info.id = none)) = true := by decide +kernel

/-- In the table a sysupgrade image ends with file-system, or it is one of the CPE layout. -/
theorem boards_kinds {info : DeviceInfo} (h : info ∈ boards) :
    info.lastSysupgradePartition = cstring "file-system" ∨
      info.partitions = cpe210.partitions ∧
        info.lastSysupgradePartition = cstring "support-list" ∧ extraParaData info.id = none :=
  of_decide_eq_true (List.all_eq_true.mp kinds_all info h)

section Sysupgrade

variable {info : DeviceInfo} {disk : Disk} {inputs : Inputs} {kernel rootfs genesis : Bytes}

theorem Supported.room_eq (hinfo : Supported info) {f : FlashPartition}
    (hf : f ∈ info.partitions) : room info f.name = f.size.toNat := by
  rw [room, find?_of_nodup hinfo.distinct hf]

/-- Where os-image and file-system are. -/
theorem Supported.exists_adjacent (hinfo : Supported info)
    (hlast : info.lastSysupgradePartition = cstring "file-system") :
    ∃ pre post osImage fileSystem, Adjacent info pre post osImage fileSystem ∧
      osImage.size.toNat = room info (cstring "os-image") ∧
      fileSystem.size.toNat = room info (cstring "file-system") := by
  obtain ⟨i, -, o, ho, f, hf, hoName, hfName, hjoin⟩ := hinfo.adjacent
  obtain ⟨hi, rfl⟩ := List.getElem?_eq_some_iff.mp ho
  obtain ⟨hi', rfl⟩ := List.getElem?_eq_some_iff.mp hf
  have hsplit : info.partitions = info.partitions.take i ++ info.partitions[i] ::
      info.partitions[i + 1] :: info.partitions.drop (i + 1 + 1) := by
    rw [List.getElem_cons_drop, List.getElem_cons_drop, List.take_append_drop]
  have hosmall := hinfo.small _ (List.getElem_mem hi)
  have hfsmall := hinfo.small _ (List.getElem_mem hi')
  refine ⟨_, _, _, _, ⟨hsplit, hinfo.distinct, hinfo.named, hinfo.first, hlast, hoName, hfName,
    hjoin, by omega, by omega⟩, ?_, ?_⟩
  · rw [← hoName, hinfo.room_eq (List.getElem_mem hi)]
  · rw [← hfName, hinfo.room_eq (List.getElem_mem hi')]

/-- Two partitions that adjoin are a layout with nothing between. -/
theorem Adjacent.laidOut {pre post : List FlashPartition} {osImage fileSystem : FlashPartition}
    (h : Adjacent info pre post osImage fileSystem) (hinfo : Supported info) :
    LaidOut info pre [] post osImage fileSystem where
  partitions := h.partitions
  distinct := h.distinct
  sorted := hinfo.sorted
  first_name := by rw [h.first, h.osImage_name]
  last_name := by rw [h.last, h.fileSystem_name]

/-- Os-image and file-system are all there is between them. -/
theorem sysupgrade_some {slots : List (Option ImagePartition)} {memory : Memory} {stamp : Stamp}
    {table : ImagePartition} (hinfo : Supported info)
    (h : Filled slots memory stamp info kernel rootfs genesis table) {mdat : Bytes}
    (hpara : extraParaData info.id = some mdat)
    (hlast : info.lastSysupgradePartition = cstring "file-system") :
    ((∃ image, generateSysupgradeImage info (visible slots) = .ok image) ↔
      align kernel.length + rootfs.length ≤ room info (cstring "os-image") ∧
        genesis.length ≤ room info (cstring "file-system")) ∧
    ∀ image, generateSysupgradeImage info (visible slots) = .ok image →
      image = (osImage memory kernel rootfs).data ++ List.replicate
        (room info (cstring "os-image") - (align kernel.length + rootfs.length)) 0xff ++ genesis := by
  obtain ⟨pre, post, o, f, hadjacent, ho, hf⟩ := hinfo.exists_adjacent hlast
  have hmemOs : osImage memory kernel rootfs ∈ visible slots := by
    rw [(h.visible_some hpara).1]
    simp
  have hmemFs : fileSystem genesis ∈ visible slots := by
    rw [(h.visible_some hpara).1]
    simp
  have hfindOs := find?_of_nodup h.nodup hmemOs
  have hfindFs := find?_of_nodup h.nodup hmemFs
  have hsizes : (∃ image, generateSysupgradeImage info (visible slots) = .ok image) ↔
      align kernel.length + rootfs.length ≤ room info (cstring "os-image") ∧
        genesis.length ≤ room info (cstring "file-system") := by
    rw [(hadjacent.laidOut hinfo).isOk_iff h.nodup hmemFs hlast.symm, ← ho, ← hf,
      ← size_osImage memory]
    constructor
    · intro hall
      exact ⟨hall o List.mem_cons_self _ hmemOs hadjacent.osImage_name.symm,
        hall f (last_mem_range ..) _ hmemFs hadjacent.fileSystem_name.symm⟩
    · rintro ⟨hos, hfs⟩ g hg p hp hpname
      have hg : g = o ∨ g = f := by
        rcases List.mem_cons.mp hg with hg | hg
        · exact Or.inl hg
        · exact Or.inr (List.mem_singleton.mp hg)
      -- a part of the name is the part itself, as names are distinct
      rcases hg with rfl | rfl
      · have hsame := List.inj_on_of_nodup_map h.nodup hp hmemOs
          (hpname.trans hadjacent.osImage_name)
        rw [hsame]
        exact hos
      · have hsame := List.inj_on_of_nodup_map h.nodup hp hmemFs
          (hpname.trans hadjacent.fileSystem_name)
        rw [hsame]
        exact hfs
  refine ⟨hsizes, fun image himage => ?_⟩
  obtain ⟨hos, hfs⟩ := hsizes.mp ⟨image, himage⟩
  rw [sysupgrade_eq hadjacent hfindOs hfindFs (by rw [size_osImage, ho]; exact hos)
    (by rw [hf]; exact hfs), size_osImage, ho] at himage
  exact (Except.ok.inj himage).symm

/-- The partitions of the CPE and WBS boards, without extra-para. -/
theorem cpe_laidOut (hpartitions : info.partitions = cpe210.partitions)
    (hfirst : info.firstSysupgradePartition = cstring "os-image")
    (hlast : info.lastSysupgradePartition = cstring "support-list") :
    LaidOut info (cpe210.partitions.take 5) ((cpe210.partitions.drop 6).take 2)
      (cpe210.partitions.drop 9) ⟨cstring "os-image", 0x40000, 0x1c0000⟩
        ⟨cstring "support-list", 0x7b1000, 0x00400⟩ where
  partitions := hpartitions.trans cpe210_laidOut.partitions
  distinct := by rw [hpartitions]; exact cpe210_laidOut.distinct
  sorted := by rw [hpartitions]; exact cpe210_laidOut.sorted
  first_name := hfirst.symm
  last_name := hlast.symm

/-- What lies between their ends. -/
theorem mem_cpe_range {f : FlashPartition} (h : f ∈ range ⟨cstring "os-image", 0x40000, 0x1c0000⟩
      ((cpe210.partitions.drop 6).take 2) ⟨cstring "support-list", 0x7b1000, 0x00400⟩) :
    f = ⟨cstring "os-image", 0x40000, 0x1c0000⟩ ∨ f = ⟨cstring "file-system", 0x200000, 0x5b0000⟩ ∨
      f = ⟨cstring "soft-version", 0x7b0000, 0x00100⟩ ∨
      f = ⟨cstring "support-list", 0x7b1000, 0x00400⟩ := by
  have hrange : range ⟨cstring "os-image", 0x40000, 0x1c0000⟩
      ((cpe210.partitions.drop 6).take 2) ⟨cstring "support-list", 0x7b1000, 0x00400⟩ =
    [⟨cstring "os-image", 0x40000, 0x1c0000⟩, ⟨cstring "file-system", 0x200000, 0x5b0000⟩,
      ⟨cstring "soft-version", 0x7b0000, 0x00100⟩, ⟨cstring "support-list", 0x7b1000, 0x00400⟩] := rfl
  rw [hrange] at h
  simpa using h

/-- What the CPE layout has room for. -/
theorem cpe_rooms (hpartitions : info.partitions = cpe210.partitions) :
    room info (cstring "os-image") = 0x1c0000 ∧ room info (cstring "file-system") = 0x5b0000 ∧
      room info (cstring "soft-version") = 0x100 ∧ room info (cstring "support-list") = 0x400 := by
  unfold room
  rw [hpartitions]
  decide +kernel

/-- **Their sysupgrade image erases the file system.** -/
theorem sysupgrade_cpe {slots : List (Option ImagePartition)} {memory : Memory} {stamp : Stamp}
    {table : ImagePartition} (hinfo : Supported info)
    (h : Filled slots memory stamp info kernel rootfs genesis table)
    (hpara : extraParaData info.id = none) (hpartitions : info.partitions = cpe210.partitions)
    (hlast : info.lastSysupgradePartition = cstring "support-list") :
    ((∃ image, generateSysupgradeImage info (visible slots) = .ok image) ↔
      align kernel.length + rootfs.length ≤ room info (cstring "os-image")) ∧
    ∀ image, generateSysupgradeImage info (visible slots) = .ok image →
      (image.drop (room info (cstring "os-image"))).take (room info (cstring "file-system")) =
        List.replicate (room info (cstring "file-system")) 0xff := by
  have hlaid := cpe_laidOut hpartitions hinfo.first hlast
  obtain ⟨hroomOs, hroomFs, hroomVersion, hroomSupport⟩ := cpe_rooms hpartitions
  have hvisible := (h.visible_none hpara).1
  have hmem : supportList info ∈ visible slots := by
    rw [hvisible]
    simp
  have hmemOs : osImage memory kernel rootfs ∈ visible slots := by
    rw [hvisible]
    simp
  have hmemVersion : softVersion stamp info ∈ visible slots := by
    rw [hvisible]
    simp
  have hsame : ∀ {p q : ImagePartition}, p ∈ visible slots → q ∈ visible slots → p.name = q.name →
      p = q := fun hp hq hname => List.inj_on_of_nodup_map h.nodup hp hq hname
  -- the sizes of the visible partitions between the ends
  have hsizes : ∀ (f : FlashPartition) (p : ImagePartition), p ∈ visible slots → p.name = f.name →
      f = ⟨cstring "os-image", 0x40000, 0x1c0000⟩ ∨ f = ⟨cstring "file-system", 0x200000, 0x5b0000⟩ ∨
        f = ⟨cstring "soft-version", 0x7b0000, 0x00100⟩ ∨
        f = ⟨cstring "support-list", 0x7b1000, 0x00400⟩ →
      p = osImage memory kernel rootfs ∧ f = ⟨cstring "os-image", 0x40000, 0x1c0000⟩ ∨
        p.size ≤ f.size.toNat ∧ 0x7b0000 ≤ f.base.toNat := by
    intro f p hp hname hf
    rcases hf with rfl | rfl | rfl | rfl
    · exact Or.inl ⟨hsame hp hmemOs hname, rfl⟩
    · exact absurd hname (h.absent hpara
        (by decide : cstring "file-system" ∉ partNames.take 4) p hp)
    · have heq := hsame hp hmemVersion hname
      have hle := hinfo.versionRoom
      rw [hroomVersion] at hle
      refine Or.inr ⟨?_, by decide⟩
      rw [heq, size_softVersion stamp sampleStamp]
      exact hle
    · have heq := hsame hp hmem hname
      have hle := hinfo.supportRoom
      rw [hroomSupport] at hle
      refine Or.inr ⟨?_, by decide⟩
      rw [heq, size_supportList]
      exact hle
  refine ⟨?_, fun image himage => ?_⟩
  · rw [hlaid.isOk_iff h.nodup hmem hlast.symm, hroomOs, ← size_osImage memory]
    constructor
    · exact fun hall => hall _ List.mem_cons_self _ hmemOs rfl
    · intro hos f hf p hp hname
      rcases hsizes f p hp hname (mem_cpe_range hf) with ⟨rfl, rfl⟩ | ⟨hle, -⟩
      · exact hos
      · exact hle
  · have hlayout := hlaid.layout_of_ok h.nodup hmem hlast.symm himage
    have hlength := hlayout.length
    have hplace : place ⟨cstring "os-image", 0x40000, 0x1c0000⟩
      ⟨cstring "support-list", 0x7b1000, 0x00400⟩ = 0x771000 := rfl
    rw [hplace] at hlength
    rw [hroomOs, hroomFs]
    apply List.ext_getElem?
    intro j
    by_cases hj : j < 0x5b0000
    · rw [List.getElem?_take_of_lt hj, List.getElem?_drop, List.getElem?_replicate_of_lt hj]
      apply hlayout.rest _ (by omega)
      -- os-image ends before, the others begin behind
      rintro f hf p hp hname ⟨hfrom, hto⟩
      rcases hsizes f p hp hname (mem_cpe_range hf) with ⟨rfl, rfl⟩ | ⟨-, hbase⟩
      · have hfits := hlayout.fits _ hf _ hp hname
        have hzero : place ⟨cstring "os-image", 0x40000, 0x1c0000⟩
          ⟨cstring "os-image", 0x40000, 0x1c0000⟩ = 0 := rfl
        have hroom : (0x1c0000 : UInt32).toNat = 0x1c0000 := rfl
        rw [hzero] at hto
        rw [hroom] at hfits
        omega
      · have hfirst : (0x40000 : UInt32).toNat = 0x40000 := rfl
        unfold place at hfrom
        rw [hfirst] at hfrom
        omega
    · rw [List.getElem?_eq_none (by rw [List.length_take]; omega),
        List.getElem?_eq_none (by rw [List.length_replicate]; omega)]

/-- **Which boards get a sysupgrade image, and what becomes of their file system.** -/
theorem boards_sysupgrade (md5 : Md5) (memory : Memory) (stamp : Stamp) (h : info ∈ boards)
    (hfiles : Given disk inputs kernel rootfs genesis) :
    ((∃ image, generateImage md5 memory disk stamp info inputs true = .ok image) ↔
      align kernel.length + rootfs.length ≤ room info (cstring "os-image") ∧
        ((extraParaData info.id).isSome ∧ genesis.length ≤ room info (cstring "file-system") ∨
          info.lastSysupgradePartition = cstring "support-list")) ∧
    ∀ image, generateImage md5 memory disk stamp info inputs true = .ok image →
      if (extraParaData info.id).isSome then
        image = (osImage memory kernel rootfs).data ++ List.replicate
          (room info (cstring "os-image") - (align kernel.length + rootfs.length)) 0xff ++ genesis
      else (image.drop (room info (cstring "os-image"))).take (room info (cstring "file-system")) =
        List.replicate (room info (cstring "file-system")) 0xff := by
  have hinfo := boards_supported h
  obtain ⟨slots, table, hslots, hfilled⟩ := hfiles.filled hinfo memory stamp
  have hgenerate : generateImage md5 memory disk stamp info inputs true =
      generateSysupgradeImage info (visible slots) := by
    rw [generateImage, hslots, ok_bind, if_pos rfl]
  simp only [hgenerate]
  rcases boards_kinds h with hlast | ⟨hpartitions, hlast, hnone⟩
  · have hnot : cstring "file-system" ≠ cstring "support-list" := by decide
    rw [hlast]
    cases hpara : extraParaData info.id with
    | none =>
      obtain ⟨pre, post, o, f, hadjacent, -⟩ := hinfo.exists_adjacent hlast
      have hfind : ((visible slots).find? fun p => p.name = info.lastSysupgradePartition) = none := by
        rw [List.find?_eq_none, hlast]
        intro p hp
        rw [decide_eq_true_eq]
        exact hfilled.absent hpara (by decide : cstring "file-system" ∉ partNames.take 4) p hp
      have hstop := (hadjacent.laidOut hinfo).stops hfind
      rw [hstop]
      simp [hnot]
    | some mdat =>
      obtain ⟨hok, himage⟩ := sysupgrade_some hinfo hfilled hpara hlast
      rw [hok]
      refine ⟨?_, himage⟩
      simp [hnot]
  · obtain ⟨hok, himage⟩ := sysupgrade_cpe hinfo hfilled hnone hpartitions hlast
    rw [hok, hnone, hlast]
    refine ⟨?_, himage⟩
    simp

end Sysupgrade

theorem mem_boards_cpe510 : cpe510 ∈ boards := by
  unfold boards
  simp only [List.mem_cons, true_or, or_true]

/-- The CPE510 gets one whose file system is erased. -/
theorem boards_sysupgrade_cpe510 : ∃ image, generateImage vendoredMd5 sampleMemory sampleDisk
      sampleStamp cpe510 sampleInputs true = .ok image ∧
    (image.drop (room cpe510 (cstring "os-image"))).take (room cpe510 (cstring "file-system")) =
      List.replicate (room cpe510 (cstring "file-system")) 0xff := by
  obtain ⟨hok, hall⟩ := boards_sysupgrade vendoredMd5 sampleMemory sampleStamp mem_boards_cpe510
    sampleGiven
  obtain ⟨image, himage⟩ := hok.mpr ⟨by decide +kernel, Or.inr rfl⟩
  have hnone : ¬ (extraParaData cpe510.id).isSome := by decide +kernel
  have hflash := hall image himage
  rw [if_neg hnone] at hflash
  exact ⟨image, himage, hflash⟩

end Safewrt.Safeloader
