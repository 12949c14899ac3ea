/-
  What a factory image of `build_image` contains (tools/tplink-safeloader/tplink-safeloader.c).

  1. `Complete` — the table of an image has an entry for every partition: its name, the place
     where it was put, its size, and its bytes are there.  It is about the image and the list of
     partitions alone, and reads the table as the tool itself does.

  2. The slots of `parts` are filled by fixed index, the one for extra-para only on some boards.
     All consumers stop at the first empty slot, so on the other boards the image ends with
     os-image: identity, sysconf and file-system are neither placed nor missed.

  3. **`buildImage_complete_iff`** — an image that is written is complete if and only if the board
     gets an extra-para partition and file-system begins below 2^32.

  `Filled` is what `prepare` leaves, for given files: the eight slots and the table.  Every fact
  about the images of a board is drawn from it, here and in the modules that follow, so that
  `prepare` is looked into once.
-/
import Safewrt.Safeloader.Build

namespace Safewrt.Safeloader

open Safewrt.Lib

/-! ## Complete images

  What a reader of the image can find, by the tool's own way of reading a table. -/

/-- Partitions one behind the other, with the place of each. -/
def places : List ImagePartition → Nat → List (ImagePartition × Nat)
  | [], _ => []
  | p :: ps, base => (p, base) :: places ps (base + p.size)

/-- The entry of a partition that is at `base`. -/
def Listed (image : Bytes) (entries : List FlashPartition) (p : ImagePartition) (base : Nat) :
    Prop :=
  ∃ e ∈ entries, e.name = p.name ∧ e.base.toNat = base ∧ e.size.toNat = p.size ∧
    (image.drop (e.base.toNat + 0x1014)).take e.size.toNat = p.data

/-- The table of the image, as the tool reads it. -/
def tableOf (image : Bytes) : Run (Option (List FlashPartition)) :=
  readPartitionTable (fun _ => 0) image 0x1014 maxPartitions .fwup

/-- The table in the image has every partition, and its bytes are where the table says. -/
def Complete (image : Bytes) (parts : List ImagePartition) : Prop :=
  ∃ entries, tableOf image = .ok (some entries) ∧
    ∀ place ∈ places parts 0x800, Listed image entries place.1 place.2

/-- The partitions that were prepared. -/
def prepared (slots : List (Option ImagePartition)) : List ImagePartition := slots.filterMap id

/-- What is placed one behind the other is listed so.  By induction on the partitions, from any
    offset. -/
theorem listed_places {image : Bytes} (ps : List ImagePartition) : ∀ {base : Nat},
    image.drop (base + 0x1014) = payload ps → ∀ place ∈ places ps base, place.2 < 2 ^ 32 →
      place.1.size < 2 ^ 32 → Listed image (fwupEntries ps base) place.1 place.2 := by
  induction ps with
  | nil => exact fun _ _ h => absurd h (by simp [places])
  | cons p ps ih =>
    intro base himage place hplace hbase hsize
    rcases List.mem_cons.mp hplace with rfl | hplace
    · have hb : (UInt32.ofNat base).toNat = base := toNat_ofNat hbase
      have hs : (UInt32.ofNat p.size).toNat = p.size := toNat_ofNat hsize
      refine ⟨_, List.mem_cons_self, rfl, hb, hs, ?_⟩
      rw [hb, hs, himage, payload_cons]
      exact List.take_left
    · have hrest : image.drop (base + p.size + 0x1014) = payload ps := drop_payload himage
      obtain ⟨e, he, hlisted⟩ := ih hrest place hplace hbase hsize
      exact ⟨e, List.mem_cons_of_mem _ he, hlisted⟩

/-- Only partitions of the list are placed. -/
theorem mem_of_mem_places {ps : List ImagePartition} : ∀ {base : Nat} {place : ImagePartition × Nat},
    place ∈ places ps base → place.1 ∈ ps := by
  induction ps with
  | nil => exact fun h => absurd h (by simp [places])
  | cons p ps ih =>
    intro base place h
    rcases List.mem_cons.mp h with rfl | h
    · exact List.mem_cons_self
    · exact List.mem_cons_of_mem _ (ih h)

/-- Every partition of the list has a place. -/
theorem exists_mem_places {ps : List ImagePartition} : ∀ (base : Nat) {p : ImagePartition},
    p ∈ ps → ∃ o, (p, o) ∈ places ps base := by
  induction ps with
  | nil => exact fun _ _ h => absurd h (by simp)
  | cons q ps ih =>
    intro base p h
    rcases List.mem_cons.mp h with rfl | h
    · exact ⟨base, List.mem_cons_self⟩
    · obtain ⟨o, ho⟩ := ih (base + q.size) h
      exact ⟨o, List.mem_cons_of_mem _ ho⟩

/-- The last partition is behind all others. -/
theorem le_of_mem_places {ps : List ImagePartition} {q : ImagePartition} : ∀ {base : Nat}
    {place : ImagePartition × Nat}, place ∈ places (ps ++ [q]) base →
      place.2 ≤ base + (payload ps).length := by
  induction ps with
  | nil =>
    intro base place h
    rw [List.nil_append, places, places, List.mem_singleton] at h
    rw [h]
    exact Nat.le_add_right ..
  | cons p ps ih =>
    intro base place h
    rw [payload_cons, List.length_append]
    rcases List.mem_cons.mp h with rfl | h
    · exact Nat.le_add_right ..
    · have hle := ih h
      unfold ImagePartition.size at hle
      omega

/-- The last one begins where the others end. -/
theorem last_mem_places (ps : List ImagePartition) (q : ImagePartition) : ∀ (base : Nat),
    (q, base + (payload ps).length) ∈ places (ps ++ [q]) base := by
  induction ps with
  | nil => exact fun _ => List.mem_cons_self
  | cons p ps ih =>
    intro base
    have hsum : base + (payload (p :: ps)).length = base + p.size + (payload ps).length := by
      rw [payload_cons, List.length_append, ImagePartition.size, Nat.add_assoc]
    rw [hsum]
    exact List.mem_cons_of_mem _ (ih _)

/-! ## What the consumers see

  With extra-para the eight slots are all filled.  Without it the fifth one is empty, and everything
  behind it is as if it were not there. -/

/-- Slots as `prepare` fills them; `para` is the one in the middle. -/
structure Filled (slots : List (Option ImagePartition)) (memory : Memory) (stamp : Stamp)
    (info : DeviceInfo) (kernel rootfs genesis : Bytes) (table : ImagePartition) : Prop where
  isTable : makePartitionTable (memory.heap 0) info.partitions = .ok table
  slots_eq : slots = [some table, some (softVersion stamp info), some (supportList info),
    some (osImage memory kernel rootfs), extraPara info, some (identity memory), some sysconf,
    some (fileSystem genesis), none]

/-- Where file-system begins, if it is placed. -/
def fileSystemBase (stamp : Stamp) (info : DeviceInfo) (kernel rootfs : Bytes) : Nat :=
  0x800 + 0x800 + (softVersion stamp info).size + (supportList info).size +
    (align kernel.length + rootfs.length) + 11 + 4096 + 1024

/-- The names that partitions of an image have. -/
def partNames : List CString :=
  [cstring "partition-table", cstring "soft-version", cstring "support-list", cstring "os-image",
    cstring "extra-para", cstring "identity", cstring "sysconf", cstring "file-system"]

/-- The names that `build_image` gives can stand in a table. -/
theorem readable_partNames : ∀ name ∈ partNames, Readable name := by
  decide +kernel

/-- The kernel takes whole blocks of 64 KiB. -/
theorem size_osImage (memory : Memory) (kernel rootfs : Bytes) :
    (osImage memory kernel rootfs).size = align kernel.length + rootfs.length := by
  have hle := le_align kernel.length
  rw [ImagePartition.size, osImage, List.length_append, List.length_append, List.length_drop,
    length_malloc]
  omega

/-- A line of the table with a short name. -/
theorem length_fwupLine_le {p : ImagePartition} (base : Nat) (h : p.name.bytes.length ≤ 31) :
    (fwupLine p base).length ≤ 75 := by
  have hbase : (padHex 5 (base % 2 ^ 32)).length ≤ 8 :=
    length_padHex_le (by decide) (by decide) (Nat.mod_lt _ (by decide))
  have hsize : (padHex 5 (p.size % 2 ^ 32)).length ≤ 8 :=
    length_padHex_le (by decide) (by decide) (Nat.mod_lt _ (by decide))
  have hwords : (asBytes "fwup-ptn ".toList).length = 9 ∧ (asBytes " base 0x".toList).length = 8 ∧
      (asBytes " size 0x".toList).length = 8 := by decide
  unfold fwupLine
  simp only [List.length_append, List.length_cons, List.length_nil, hwords]
  omega

/-- Eight lines, as `build_image` has at most, fit into the 2048 bytes of the table. -/
theorem length_fwupText_le (ps : List ImagePartition) : ∀ (base : Nat),
    (∀ p ∈ ps, p.name.bytes.length ≤ 31) → (fwupText ps base).length ≤ 75 * ps.length := by
  induction ps with
  | nil => exact fun _ _ => Nat.le_refl 0
  | cons p ps ih =>
    intro base h
    rw [List.forall_mem_cons] at h
    have hline := length_fwupLine_le base h.1
    have hrest := ih (base + p.size) h.2
    rw [fwupText, List.length_append, List.length_cons]
    omega

theorem size_sysconf : sysconf.size = 1024 := by decide +kernel

section Slots

variable {slots : List (Option ImagePartition)} {memory : Memory} {stamp : Stamp}
  {info : DeviceInfo} {kernel rootfs genesis : Bytes} {table : ImagePartition}

/-- What the slots hold if they could be filled: this is what the rest of the tool needs to know of
    `build_image`. -/
theorem filled_of_prepare {disk : Disk} {inputs : Inputs}
    (hkernel : disk inputs.kernelImage = some kernel)
    (hrootfs : disk inputs.rootfsImage = some rootfs)
    (hgenesis : disk inputs.genesisImage = some genesis)
    (h : prepare memory disk stamp info inputs = .ok slots) :
    ∃ table, Filled slots memory stamp info kernel rootfs genesis table := by
  obtain ⟨table, kernel', rootfs', genesis', htable, hk, hr, hg, -, -, -, heq⟩ := prepare_ok h
  rw [hkernel] at hk
  rw [hrootfs] at hr
  rw [hgenesis] at hg
  obtain rfl := Option.some.inj hk
  obtain rfl := Option.some.inj hr
  obtain rfl := Option.some.inj hg
  exact ⟨table, htable, heq⟩

/-- **With the slot in the middle empty, the consumers stop there.** -/
theorem Filled.visible_none (h : Filled slots memory stamp info kernel rootfs genesis table)
    (hpara : extraParaData info.id = none) :
    visible slots =
      [table, softVersion stamp info, supportList info, osImage memory kernel rootfs] ∧
    prepared slots = [table, softVersion stamp info, supportList info,
      osImage memory kernel rootfs, identity memory, sysconf, fileSystem genesis] := by
  rw [h.slots_eq, extraPara, hpara]
  exact ⟨rfl, rfl⟩

/-- With all slots in use, they see what was prepared. -/
theorem Filled.visible_some (h : Filled slots memory stamp info kernel rootfs genesis table)
    {mdat : Bytes} (hpara : extraParaData info.id = some mdat) :
    visible slots = [table, softVersion stamp info, supportList info,
      osImage memory kernel rootfs, ⟨cstring "extra-para", mdat⟩, identity memory, sysconf] ++
        [fileSystem genesis] ∧ prepared slots = visible slots := by
  rw [h.slots_eq, extraPara, hpara]
  exact ⟨rfl, rfl⟩

/-- Without extra-para the consumers stop at its empty slot, four partitions in. -/
theorem Filled.names (h : Filled slots memory stamp info kernel rootfs genesis table) :
    (visible slots).map ImagePartition.name =
      if (extraParaData info.id).isSome then partNames else partNames.take 4 := by
  have hname := (makePartitionTable_ok h.isTable).1
  cases hpara : extraParaData info.id with
  | none =>
    rw [(h.visible_none hpara).1, List.map_cons, hname]
    rfl
  | some mdat =>
    rw [(h.visible_some hpara).1, List.cons_append, List.map_cons, hname]
    rfl

/-- The names that an image shows are different. -/
theorem Filled.nodup (h : Filled slots memory stamp info kernel rootfs genesis table) :
    ((visible slots).map ImagePartition.name).Nodup := by
  rw [h.names]
  split
  · decide
  · decide

/-- No name but those eight is used. -/
theorem Filled.name_mem (h : Filled slots memory stamp info kernel rootfs genesis table) :
    ∀ p ∈ visible slots, p.name ∈ partNames := by
  intro p hp
  have hmem : p.name ∈ (visible slots).map ImagePartition.name := List.mem_map_of_mem hp
  rw [h.names] at hmem
  split at hmem
  · exact hmem
  · exact List.mem_of_mem_take hmem

/-- Without extra-para, only the first four names are seen. -/
theorem Filled.absent (h : Filled slots memory stamp info kernel rootfs genesis table)
    (hpara : extraParaData info.id = none) {name : CString} (hname : name ∉ partNames.take 4) :
    ∀ p ∈ visible slots, p.name ≠ name := by
  rintro p hp rfl
  have hmem : p.name ∈ (visible slots).map ImagePartition.name := List.mem_map_of_mem hp
  rw [h.names, hpara] at hmem
  exact hname hmem

/-- At most eight partitions, and the table itself always. -/
theorem Filled.length_visible (h : Filled slots memory stamp info kernel rootfs genesis table) :
    (visible slots).length ≤ 8 ∧ visible slots ≠ [] := by
  have hnames := h.names
  have hlen := congrArg List.length hnames
  rw [List.length_map] at hlen
  constructor
  · rw [hlen]
    split
    · exact Nat.le_refl 8
    · exact (by decide : 4 ≤ 8)
  · intro hnil
    rw [hnil] at hnames
    split at hnames
    · exact absurd hnames (by decide)
    · exact absurd hnames (by decide)

/-- The table of a factory image lists what the consumers saw. -/
theorem Filled.tableOf_eq (h : Filled slots memory stamp info kernel rootfs genesis table)
    {md5 : Md5} {image : Bytes} (himage : generateFactoryImage md5 info (visible slots) = .ok image) :
    tableOf image = .ok (some (fwupEntries (visible slots) 0x800)) :=
  factory_table _ himage h.length_visible.2
    (fun p hp => readable_partNames _ (h.name_mem p hp))
    (Nat.le_trans h.length_visible.1 (by decide))

/-- The table of an image never overflows. -/
theorem Filled.text_lt (h : Filled slots memory stamp info kernel rootfs genesis table) :
    (fwupText (visible slots) 0x800).length < 0x800 := by
  have hle := length_fwupText_le (visible slots) 0x800
    fun p hp => (readable_partNames _ (h.name_mem p hp)).2.2
  have hlen := h.length_visible.1
  omega

/-- The places of the eight partitions. -/
theorem Filled.base_eq (h : Filled slots memory stamp info kernel rootfs genesis table)
    {mdat : Bytes} (hpara : extraParaData info.id = some mdat) :
    0x800 + (payload [table, softVersion stamp info, supportList info,
      osImage memory kernel rootfs, ⟨cstring "extra-para", mdat⟩, identity memory, sysconf]).length =
        fileSystemBase stamp info kernel rootfs := by
  have htable : table.size = 0x800 := size_partitionTable h.isTable
  have hos := size_osImage memory kernel rootfs
  have hmdat : (⟨cstring "extra-para", mdat⟩ : ImagePartition).size = 11 := by
    rw [ImagePartition.size]
    exact length_extraParaData hpara
  have hidentity : (identity memory).size = 4096 := by
    rw [ImagePartition.size]
    exact length_identity memory
  rw [length_payload, fileSystemBase]
  simp only [List.map_cons, List.map_nil]
  rw [List.sum_cons, List.sum_cons, List.sum_cons, List.sum_cons, List.sum_cons, List.sum_cons,
    List.sum_cons, List.sum_nil, htable, hos, hmdat, hidentity, size_sysconf]
  generalize (softVersion stamp info).size = a
  generalize (supportList info).size = b
  omega

/-- With the slot in the middle in use, an image is complete as far as 32 bits go. -/
theorem Filled.complete_of_some (h : Filled slots memory stamp info kernel rootfs genesis table)
    {mdat : Bytes} (hpara : extraParaData info.id = some mdat)
    (hbase : fileSystemBase stamp info kernel rootfs < 2 ^ 32) {md5 : Md5} {image : Bytes}
    (himage : generateFactoryImage md5 info (visible slots) = .ok image) :
    (∀ p ∈ prepared slots, Placeable info.partitions p) ∧ Complete image (prepared slots) := by
  obtain ⟨hvisible, hprepared⟩ := h.visible_some hpara
  obtain ⟨hplace, -⟩ := generateFactoryImage_ok himage
  obtain ⟨-, hpayload, -⟩ := factory_parts himage
  rw [hprepared]
  refine ⟨hplace, _, h.tableOf_eq himage, fun place hmem => ?_⟩
  obtain ⟨f, -, hsize⟩ := hplace place.1 (mem_of_mem_places hmem)
  have hlt := f.size.toNat_lt
  refine listed_places (visible slots) hpayload place hmem ?_ (by omega)
  rw [hvisible] at hmem
  have hle := le_of_mem_places hmem
  rw [h.base_eq hpara] at hle
  omega

/-- With it empty, identity is prepared and not listed. -/
theorem Filled.not_complete (h : Filled slots memory stamp info kernel rootfs genesis table)
    (hpara : extraParaData info.id = none) {md5 : Md5} {image : Bytes}
    (himage : generateFactoryImage md5 info (visible slots) = .ok image) :
    ¬ Complete image (prepared slots) := by
  rintro ⟨entries, htable, hall⟩
  rw [h.tableOf_eq himage] at htable
  have hentries := Option.some.inj (Except.ok.inj htable)
  subst hentries
  have hmem : identity memory ∈ prepared slots := by
    rw [(h.visible_none hpara).2]
    simp
  obtain ⟨o, ho⟩ := exists_mem_places 0x800 hmem
  obtain ⟨e, he, hname, -⟩ := hall _ ho
  obtain ⟨p, hp, hpname⟩ := name_of_mem_fwupEntries he
  exact h.absent hpara (by decide : cstring "identity" ∉ partNames.take 4) p hp (hpname.trans hname)

/-- file-system is listed at its place only if 32 bits can name it. -/
theorem Filled.base_lt (h : Filled slots memory stamp info kernel rootfs genesis table)
    {mdat : Bytes} (hpara : extraParaData info.id = some mdat) {image : Bytes}
    (hcomplete : Complete image (prepared slots)) :
    fileSystemBase stamp info kernel rootfs < 2 ^ 32 := by
  obtain ⟨entries, -, hall⟩ := hcomplete
  obtain ⟨hvisible, hprepared⟩ := h.visible_some hpara
  have hlast := last_mem_places [table, softVersion stamp info, supportList info,
    osImage memory kernel rootfs, ⟨cstring "extra-para", mdat⟩, identity memory, sysconf]
    (fileSystem genesis) 0x800
  rw [h.base_eq hpara, ← hvisible, ← hprepared] at hlast
  obtain ⟨e, -, -, hbase, -⟩ := hall _ hlast
  have hlt := e.base.toNat_lt
  dsimp only at hbase
  omega

end Slots

/-! ## Which images are complete -/

/-- An image is made first and written then. -/
theorem buildImage_ok {md5 : Md5} {os : Os} {memory : Memory} {disk disk' : Disk} {stamp : Stamp}
    {info : DeviceInfo} {inputs : Inputs} {sysupgrade : Bool} {output : Path}
    (h : buildImage md5 os memory disk stamp info inputs sysupgrade output = .ok disk') :
    ∃ image, generateImage md5 memory disk stamp info inputs sysupgrade = .ok image ∧
      os.opens output ∧ disk' = disk.write output image := by
  obtain ⟨image, himage, h⟩ := bind_eq_ok.mp h
  split at h
  · rename_i hopens
    exact ⟨image, himage, hopens, (Except.ok.inj h).symm⟩
  · exact absurd h (by simp [Stop.ofText])

/-- **A factory image is complete if and only if** the board gets an extra-para partition and
    file-system begins below 2^32. -/
theorem buildImage_complete_iff (md5 : Md5) (os : Os) (memory : Memory) (disk disk' : Disk)
    (stamp : Stamp) (info : DeviceInfo) (inputs : Inputs) (output : Path)
    (kernel rootfs genesis : Bytes) (hkernel : disk inputs.kernelImage = some kernel)
    (hrootfs : disk inputs.rootfsImage = some rootfs)
    (hgenesis : disk inputs.genesisImage = some genesis)
    (h : buildImage md5 os memory disk stamp info inputs false output = .ok disk') :
    ∃ slots image, prepare memory disk stamp info inputs = .ok slots ∧
      disk' = disk.write output image ∧ fileSystem genesis ∈ prepared slots ∧
      ((∀ p ∈ prepared slots, Placeable info.partitions p) ∧ Complete image (prepared slots) ↔
        (extraParaData info.id).isSome ∧ fileSystemBase stamp info kernel rootfs < 2 ^ 32) := by
  obtain ⟨image, himage, -, hdisk⟩ := buildImage_ok h
  obtain ⟨slots, hslots, himage⟩ := bind_eq_ok.mp himage
  obtain ⟨table, hfilled⟩ := filled_of_prepare hkernel hrootfs hgenesis hslots
  refine ⟨slots, image, hslots, hdisk, ?_, ?_⟩
  · rw [hfilled.slots_eq]
    exact List.mem_filterMap.mpr ⟨some (fileSystem genesis), by simp, rfl⟩
  · cases hpara : extraParaData info.id with
    | none =>
      -- the slot in the middle ends the walk of every consumer
      refine iff_of_false (fun hall => hfilled.not_complete hpara himage hall.2) ?_
      rintro ⟨hsome, -⟩
      exact absurd hsome (by simp)
    | some mdat =>
      constructor
      · rintro ⟨-, hcomplete⟩
        exact ⟨rfl, hfilled.base_lt hpara hcomplete⟩
      · rintro ⟨-, hbase⟩
        exact hfilled.complete_of_some hpara hbase himage

/-! ### Two boards, one set of files -/

/-- Three paths. -/
def sampleInputs : Inputs where
  kernelImage := asBytes "kernel".toList
  rootfsImage := asBytes "rootfs".toList
  genesisImage := asBytes "genesis".toList

/-- Three files of two bytes. -/
def sampleDisk : Disk := fun path =>
  if path = sampleInputs.kernelImage then some [0x27, 0x05]
  else if path = sampleInputs.rootfsImage then some [0x68, 0x73]
  else if path = sampleInputs.genesisImage then some [0x19, 0x85]
  else none

/-- The first of January 2018. -/
def sampleStamp : Stamp where
  tm := { mday := 1, mon := 0, year := 118 }
  rev := 0

/-- Memory that was never used. -/
def sampleMemory : Memory where
  heap := fun _ _ => 0xcc
  stack := fun _ => 0xcc

/-- A partition is placed if the first flash partition of its name is large enough. -/
theorem placeable_of_any {flash : List FlashPartition} {p : ImagePartition} {name : CString}
    {size : Nat} (hname : p.name = name) (hsize : p.size = size)
    (hany : ((flash.find? fun f => f.name = name).any fun f => size ≤ f.size.toNat) = true) :
    Placeable flash p := by
  cases hfind : flash.find? fun f => f.name = name with
  | none =>
    rw [hfind] at hany
    exact absurd hany (by simp)
  | some f =>
    rw [hfind] at hany
    exact ⟨f, hname ▸ hfind, hsize ▸ of_decide_eq_true hany⟩

/-- A board with these files fills its slots. -/
theorem sample_slots (info : DeviceInfo) (htext : (flashText info.partitions).length < 0x7fc)
    (memory : Memory) {disk : Disk} {kernel : Bytes}
    (hkernel : disk sampleInputs.kernelImage = some kernel) (hne : kernel ≠ [])
    (hrootfs : disk sampleInputs.rootfsImage = some [0x68, 0x73])
    (hgenesis : disk sampleInputs.genesisImage = some [0x19, 0x85]) :
    ∃ slots table, prepare memory disk sampleStamp info sampleInputs = .ok slots ∧
      Filled slots memory sampleStamp info kernel [0x68, 0x73] [0x19, 0x85] table := by
  obtain ⟨slots, hslots⟩ := prepare_isOk memory sampleStamp htext hkernel hrootfs hgenesis hne
    (by decide) (by decide)
  obtain ⟨table, hfilled⟩ := filled_of_prepare hkernel hrootfs hgenesis hslots
  exact ⟨slots, table, hslots, hfilled⟩

/-- A factory image that can be made is written where the output can be opened. -/
theorem buildImage_isOk {md5 : Md5} {os : Os} {memory : Memory} {disk : Disk} {stamp : Stamp}
    {info : DeviceInfo} {inputs : Inputs} {output : Path} {slots : List (Option ImagePartition)}
    {image : Bytes} (hslots : prepare memory disk stamp info inputs = .ok slots)
    (himage : generateFactoryImage md5 info (visible slots) = .ok image)
    (hopens : os.opens output) :
    buildImage md5 os memory disk stamp info inputs false output =
      .ok (disk.write output image) := by
  rw [buildImage, generateImage, hslots, ok_bind, if_neg Bool.false_ne_true, himage, ok_bind,
    if_pos hopens]

theorem extraParaData_eap120 : extraParaData eap120.id = none := by decide +kernel

/-- The EAP120 gets an image, whatever the memory holds. -/
theorem eap120_image (memory : Memory) (disk : Disk) (kernel : Bytes)
    (hkernel : disk sampleInputs.kernelImage = some kernel) (hne : kernel ≠ [])
    (hrootfs : disk sampleInputs.rootfsImage = some [0x68, 0x73])
    (hgenesis : disk sampleInputs.genesisImage = some [0x19, 0x85])
    (hsize : kernel.length ≤ 0x10000) :
    ∃ slots table image, prepare memory disk sampleStamp eap120 sampleInputs = .ok slots ∧
      Filled slots memory sampleStamp eap120 kernel [0x68, 0x73] [0x19, 0x85] table ∧
      generateFactoryImage vendoredMd5 eap120 (visible slots) = .ok image := by
  obtain ⟨slots, table, hslots, hfilled⟩ := sample_slots eap120 (by decide +kernel) memory
    hkernel hne hrootfs hgenesis
  have hpara := extraParaData_eap120
  have hplace : ∀ p ∈ visible slots, Placeable eap120.partitions p := by
    rw [(hfilled.visible_none hpara).1]
    simp only [List.forall_mem_cons]
    refine ⟨?_, ?_, ?_, ?_, fun _ h => absurd h (by simp)⟩
    · exact placeable_of_any (makePartitionTable_ok hfilled.isTable).1
        (size_partitionTable hfilled.isTable) (by decide +kernel)
    · exact placeable_of_any rfl (by decide +kernel : _ = 21) (by decide +kernel)
    · exact placeable_of_any rfl (by decide +kernel : _ = 54) (by decide +kernel)
    · have hfind : (eap120.partitions.find? fun f => f.name = cstring "os-image") =
          some ⟨cstring "os-image", 0x40000, 0x180000⟩ := by decide +kernel
      have hroom : (0x180000 : UInt32).toNat = 0x180000 := rfl
      refine ⟨_, hfind, ?_⟩
      rw [size_osImage, hroom]
      unfold align
      have hlen : ([0x68, 0x73] : Bytes).length = 2 := rfl
      omega
  have hvendor : VendorFits eap120 (visible slots) := by
    intro vendor hsome
    have hlen : vendor.bytes.length = 31 := by
      rw [← Option.some.inj hsome]
      decide
    omega
  obtain ⟨image, himage⟩ := (generateFactoryImage_isOk_iff vendoredMd5 _ _).mpr
    ⟨hvendor, hplace, hfilled.text_lt⟩
  exact ⟨slots, table, image, hslots, hfilled, himage⟩

/-- It lists no file-system. -/
theorem eap120_no_fileSystem : ∃ image entries,
    buildImage vendoredMd5 sampleOs sampleMemory sampleDisk sampleStamp eap120 sampleInputs false
        (asBytes "factory.bin".toList) =
      .ok (sampleDisk.write (asBytes "factory.bin".toList) image) ∧
    tableOf image = .ok (some entries) ∧ ∀ e ∈ entries, e.name ≠ cstring "file-system" := by
  obtain ⟨slots, table, image, hslots, hfilled, himage⟩ := eap120_image sampleMemory
    sampleDisk [0x27, 0x05] (by decide) (by decide) (by decide) (by decide)
    (by decide)
  have hpara := extraParaData_eap120
  refine ⟨image, _, buildImage_isOk hslots himage (by decide), hfilled.tableOf_eq himage, ?_⟩
  intro e he hname
  obtain ⟨p, hp, hpname⟩ := name_of_mem_fwupEntries he
  exact hfilled.absent hpara (by decide : cstring "file-system" ∉ partNames.take 4) p hp
    (hpname.trans hname)

/-- An image of the Archer C7 v4 is made. -/
theorem archerC7V4_isOk : ∃ disk', buildImage vendoredMd5 sampleOs sampleMemory sampleDisk
    sampleStamp archerC7V4 sampleInputs false (asBytes "factory.bin".toList) = .ok disk' := by
  have hkernel : sampleDisk sampleInputs.kernelImage = some [0x27, 0x05] := by decide
  obtain ⟨slots, table, hslots, hfilled⟩ := sample_slots archerC7V4 (by decide +kernel) sampleMemory
    hkernel (by decide) (by decide) (by decide)
  obtain ⟨mdat, hpara⟩ : ∃ mdat, extraParaData archerC7V4.id = some mdat :=
    Option.isSome_iff_exists.mp (by decide +kernel)
  have hplace : ∀ p ∈ visible slots, Placeable archerC7V4.partitions p := by
    rw [(hfilled.visible_some hpara).1]
    simp only [List.cons_append, List.nil_append, List.forall_mem_cons]
    refine ⟨?_, ?_, ?_, ?_, ?_, ?_, ?_, ?_, fun _ h => absurd h (by simp)⟩
    · exact placeable_of_any (makePartitionTable_ok hfilled.isTable).1
        (size_partitionTable hfilled.isTable) (by decide +kernel)
    · exact placeable_of_any rfl (by decide +kernel : _ = 25) (by decide +kernel)
    · exact placeable_of_any rfl (by decide +kernel : _ = 652) (by decide +kernel)
    · exact placeable_of_any rfl (size_osImage _ _ _) (by decide +kernel)
    · exact placeable_of_any (rfl : _ = cstring "extra-para") (length_extraParaData hpara)
        (by decide +kernel)
    · exact placeable_of_any rfl (length_identity _) (by decide +kernel)
    · exact placeable_of_any rfl size_sysconf (by decide +kernel)
    · exact placeable_of_any rfl (rfl : _ = 2) (by decide +kernel)
  have hvendor : VendorFits archerC7V4 (visible slots) :=
    fun _ hsome => absurd hsome (by simp [archerC7V4])
  obtain ⟨image, himage⟩ := (generateFactoryImage_isOk_iff vendoredMd5 _ _).mpr
    ⟨hvendor, hplace, hfilled.text_lt⟩
  exact ⟨_, buildImage_isOk hslots himage (by decide)⟩

/-- It is complete. -/
theorem archerC7V4_complete : ∃ slots image,
    prepare sampleMemory sampleDisk sampleStamp archerC7V4 sampleInputs = .ok slots ∧
    buildImage vendoredMd5 sampleOs sampleMemory sampleDisk sampleStamp archerC7V4 sampleInputs
        false (asBytes "factory.bin".toList) =
      .ok (sampleDisk.write (asBytes "factory.bin".toList) image) ∧
    (∀ p ∈ prepared slots, Placeable archerC7V4.partitions p) ∧ Complete image (prepared slots) := by
  obtain ⟨disk', hdisk⟩ := archerC7V4_isOk
  obtain ⟨slots, image, hslots, rfl, -, hiff⟩ := buildImage_complete_iff vendoredMd5 sampleOs
    sampleMemory sampleDisk disk' sampleStamp archerC7V4 sampleInputs
    (asBytes "factory.bin".toList) [0x27, 0x05] [0x68, 0x73] [0x19, 0x85] (by decide) (by decide)
    (by decide) hdisk
  exact ⟨slots, image, hslots, hdisk, hiff.mpr ⟨by decide +kernel, by decide +kernel⟩⟩

end Safewrt.Safeloader
