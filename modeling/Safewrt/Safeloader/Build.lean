/-
  Building an image (tools/tplink-safeloader/tplink-safeloader.c, `build_image`).

  1. The makers of the partitions.  A buffer from `malloc` holds what happens to be there (`Memory`)
     until it is written, and so does an array on the stack.  Each call of `malloc` has its own
     contents, by number, and every maker writes over a part of its buffer.

  2. `prepare` — the slots of `parts`; the consumers see them up to the first empty one
     (`visible`).  **`prepare_ok`**: what the slots hold after a run that gets so far.  The values
     it names (`softVersion`, `supportList`, `osImage`, ..) say which bytes are written and which
     are those of the memory.

  3. `prepare_isOk` — when it gets so far, whatever the memory held.

  `add_jffs2_eof` is false in every call of `build_image`, so `read_file` and its like are modelled
  without the padding it would ask for.
-/
import Safewrt.Safeloader.Convert

namespace Safewrt.Safeloader

open Safewrt.Lib

/-! ## The partitions -/

/-- What a run finds in fresh memory: the buffers in the order of their allocation, and the stack. -/
structure Memory where
  heap : Nat → Nat → UInt8
  stack : Nat → UInt8

/-- One copy after the other. -/
def putAll (buf : Bytes) (copies : List (Nat × Bytes)) : Run Bytes :=
  match storeAll buf copies with
  | some buf => .ok buf
  | none => .error .fault

/-- `struct tm`, as far as it is used; `year` counts from 1900, and a time before that has a
    negative one; `mon` counts from 0. -/
structure Tm where
  mday : Nat
  mon : Nat
  year : Int
  deriving Repr, DecidableEq

/-- `bcd`, of an argument that is cut to a byte, negative ones too. -/
def bcd (v : Int) : UInt8 :=
  let v := UInt8.ofInt v
  0x10 * (v / 10) + v % 10

/-- `make_soft_version`: the fields of `struct soft_version`, which is packed. -/
def makeSoftVersion (fresh : Nat → UInt8) (tm : Tm) (rev : UInt32) : Run ImagePartition := do
  let data ← putAll (malloc fresh 21)
    [(0, toBe 4 0x0000000c), (4, toBe 4 0), (8, [0xff]), (9, [0]), (10, [0]), (11, [0]),
      (12, [bcd ((1900 + tm.year).tdiv 100)]), (13, [bcd (tm.year.tmod 100)]), (14, [bcd (tm.mon + 1)]),
      (15, [bcd tm.mday]), (16, toBe 4 rev.toNat), (20, [0xff])]
  .ok ⟨cstring "soft-version", data⟩

/-- `make_soft_version_from_string` -/
def makeSoftVersionFromString (fresh : Nat → UInt8) (softVer : CString) : Run ImagePartition := do
  let verLen := (softVer.bytes.length + 1) % 2 ^ 32
  let partitionLen := 2 * 4 + verLen + 1
  let data ← putAll (malloc fresh partitionLen)
    [(0, toBe 4 verLen), (4, toBe 4 0), (8, (softVer.bytes ++ [0]).take verLen),
      (partitionLen - 1, [0])]
  .ok ⟨cstring "soft-version", data⟩

/-- `make_support_list` -/
def makeSupportList (fresh : Nat → UInt8) (info : DeviceInfo) : Run ImagePartition := do
  let len := info.supportList.bytes.length
  let data ← putAll (malloc fresh (len + 9))
    [(0, toBe 4 len), (4, List.replicate 4 0), (8, info.supportList.bytes),
      (len + 8, [info.supportTrail])]
  .ok ⟨cstring "support-list", data⟩

/-- `stat` -/
def stat (disk : Disk) (path : Path) : Run Bytes :=
  match disk path with
  | none => .error (.error (asBytes "unable to stat file `".toList ++ path ++ asBytes "'".toList))
  | some content => .ok content

/-- `fread` of a whole file as one item; an empty file is no item. -/
def freadAll (buf : Bytes) (o : Nat) (path : Path) (content : Bytes) : Run Bytes :=
  if content = [] then
    .error (.error (asBytes "unable to read file `".toList ++ path ++ asBytes "'".toList))
  else memcpy buf o content

/-- `read_file` -/
def readFile (fresh : Nat → UInt8) (disk : Disk) (partName : CString) (filename : Path) :
    Run ImagePartition := do
  let content ← stat disk filename
  let data ← freadAll (malloc fresh content.length) 0 filename content
  .ok ⟨partName, data⟩

/-- `ALIGN(x, 0x10000)` -/
def align (x : Nat) : Nat := (x + 0xffff) / 0x10000 * 0x10000

/-- `read_file_split2` -/
def readFileSplit2 (fresh : Nat → UInt8) (disk : Disk) (partName : CString)
    (rootfn kernelfn : Path) : Run ImagePartition := do
  let content1 ← stat disk rootfn
  let content2 ← stat disk kernelfn
  let data := malloc fresh (align content1.length + content2.length)
  let data ← freadAll data 0 rootfn content1
  let data ← freadAll data content1.length kernelfn content2
  .ok ⟨partName, data⟩

/-- `put_data` -/
def putData (fresh : Nat → UInt8) (partName : CString) (datain : Bytes) (len : Nat) :
    Run ImagePartition := do
  let data ← memcpy (malloc fresh len) 0 (datain.take len)
  .ok ⟨partName, data⟩

/-! ## The slots -/

/-- `tolower` -/
def toLower (b : UInt8) : UInt8 := if 0x41 ≤ b ∧ b ≤ 0x5a then b + 0x20 else b

/-- `strcasecmp(a, b) == 0` -/
def sameIgnoringCase (a b : CString) : Bool := a.bytes.map toLower = b.bytes.map toLower

/-- The bytes of the extra-para partition, for the boards that get one. -/
def extraParaData (id : CString) : Option Bytes :=
  if sameIgnoringCase id (cstring "ARCHER-C25-V1") ∨ sameIgnoringCase id (cstring "ARCHER-C60-V2") ∨
      sameIgnoringCase id (cstring "TLWR1043NV5") then
    some [0x00, 0x00, 0x00, 0x02, 0x00, 0x00, 0x00, 0x00, 0x01, 0x00, 0x00]
  else if sameIgnoringCase id (cstring "ARCHER-C7-V4") ∨
      sameIgnoringCase id (cstring "ARCHER-C7-V5") then
    some [0x01, 0x00, 0x00, 0x02, 0x00, 0x00, 0xca, 0x00, 0x01, 0x00, 0x00]
  else none

/-- `parts[4]` -/
def makeExtraPara (fresh : Nat → UInt8) (id : CString) : Run (Option ImagePartition) :=
  match extraParaData id with
  | none => .ok none
  | some mdat => do
    let entry ← putData fresh (cstring "extra-para") mdat 11
    .ok (some entry)

/-- What `make_file_identity` begins with. -/
def identityText : Bytes := asBytes "here should be lots of high quality randomness".toList

/-- What `make_file_sysconf` begins with; zeros follow. -/
def sysconfText : Bytes :=
  asBytes "here should be a file system? no idea what to use this for yet".toList

/-- The files of a run. -/
structure Inputs where
  kernelImage : Path
  rootfsImage : Path
  genesisImage : Path

/-- What the revision and the date of a run are. -/
structure Stamp where
  tm : Tm
  rev : UInt32

/-- `parts[1]` -/
def makePart1 (fresh : Nat → UInt8) (stamp : Stamp) (info : DeviceInfo) : Run ImagePartition :=
  match info.softVer with
  | some softVer => makeSoftVersionFromString fresh softVer
  | none => makeSoftVersion fresh stamp.tm stamp.rev

/-- `parts`, filled -/
def prepare (memory : Memory) (disk : Disk) (stamp : Stamp) (info : DeviceInfo)
    (inputs : Inputs) : Run (List (Option ImagePartition)) := do
  let part0 ← makePartitionTable (memory.heap 0) info.partitions
  let part1 ← makePart1 (memory.heap 1) stamp info
  let part2 ← makeSupportList (memory.heap 2) info
  let part3 ← readFileSplit2 (memory.heap 3) disk (cstring "os-image") inputs.kernelImage
    inputs.rootfsImage
  let part4 ← makeExtraPara (memory.heap 4) info.id
  let mdat := malloc memory.stack 4096
  let mdat ← memcpy mdat 0 (identityText ++ [0])
  let part5 ← putData (memory.heap 5) (cstring "identity") mdat 4096
  let mdat ← memcpy mdat 0 (List.replicate 1024 0)
  let mdat ← memcpy mdat 0 (sysconfText ++ [0])
  let part6 ← putData (memory.heap 6) (cstring "sysconf") mdat 1024
  let part7 ← readFile (memory.heap 7) disk (cstring "file-system") inputs.genesisImage
  .ok [some part0, some part1, some part2, some part3, part4, some part5, some part6, some part7,
    none]

/-- What `for (i = 0; parts[i].name; i++)` sees. -/
def visible (slots : List (Option ImagePartition)) : List ImagePartition :=
  (slots.takeWhile Option.isSome).filterMap id

/-- `build_image`, up to the image -/
def generateImage (md5 : Md5) (memory : Memory) (disk : Disk) (stamp : Stamp) (info : DeviceInfo)
    (inputs : Inputs) (sysupgrade : Bool) : Run Bytes := do
  let parts ← prepare memory disk stamp info inputs
  if sysupgrade then generateSysupgradeImage info (visible parts)
  else generateFactoryImage md5 info (visible parts)

/-- `build_image` -/
def buildImage (md5 : Md5) (os : Os) (memory : Memory) (disk : Disk) (stamp : Stamp)
    (info : DeviceInfo) (inputs : Inputs) (sysupgrade : Bool) (output : Path) : Run Disk := do
  let image ← generateImage md5 memory disk stamp info inputs sysupgrade
  if os.opens output then .ok (disk.write output image)
  else .error (.ofText "unable to open output file".toList)

/-! ## What the makers make -/

/-- A buffer that is written from end to end holds nothing else. -/
theorem putAll_row {buf : Bytes} (ds : List Bytes) {copies : List (Nat × Bytes)}
    (hcopies : copies = row 0 ds) (hlen : buf.length = ds.flatten.length) :
    putAll buf copies = .ok ds.flatten := by
  rw [putAll, hcopies, storeAll_row_all hlen]

/-- The data of the soft-version partition. -/
def softVersionData (stamp : Stamp) (info : DeviceInfo) : List Bytes :=
  match info.softVer with
  | some softVer =>
    let verLen := (softVer.bytes.length + 1) % 2 ^ 32
    [toBe 4 verLen, toBe 4 0, (softVer.bytes ++ [0]).take verLen, [0]]
  | none =>
    [toBe 4 0x0000000c, toBe 4 0, [0xff], [0], [0], [0], [bcd ((1900 + stamp.tm.year).tdiv 100)],
      [bcd (stamp.tm.year.tmod 100)], [bcd (stamp.tm.mon + 1)], [bcd stamp.tm.mday],
      toBe 4 stamp.rev.toNat, [0xff]]

/-- The partition of either maker of soft-version. -/
def softVersion (stamp : Stamp) (info : DeviceInfo) : ImagePartition :=
  ⟨cstring "soft-version", (softVersionData stamp info).flatten⟩

/-- A board without a version text gets the numbers and the date. -/
theorem makeSoftVersion_eq (fresh : Nat → UInt8) {stamp : Stamp} {info : DeviceInfo}
    (h : info.softVer = none) :
    makeSoftVersion fresh stamp.tm stamp.rev = .ok (softVersion stamp info) := by
  unfold makeSoftVersion softVersion softVersionData
  rw [h]
  dsimp only
  refine bind_eq_ok.mpr ⟨_, ?_, rfl⟩
  exact putAll_row _ rfl (length_malloc fresh 21)

/-- A board with a version text gets the text. -/
theorem makeSoftVersionFromString_eq (fresh : Nat → UInt8) {stamp : Stamp} {info : DeviceInfo}
    {softVer : CString} (h : info.softVer = some softVer) :
    makeSoftVersionFromString fresh softVer = .ok (softVersion stamp info) := by
  have htake : ((softVer.bytes ++ [0]).take ((softVer.bytes.length + 1) % 2 ^ 32)).length =
      (softVer.bytes.length + 1) % 2 ^ 32 := by
    rw [List.length_take, List.length_append, List.length_singleton]
    exact Nat.min_eq_left (Nat.mod_le ..)
  unfold makeSoftVersionFromString softVersion softVersionData
  rw [h]
  dsimp only
  rw [putAll_row [toBe 4 ((softVer.bytes.length + 1) % 2 ^ 32), toBe 4 0,
    (softVer.bytes ++ [0]).take ((softVer.bytes.length + 1) % 2 ^ 32), [0]]]
  · rfl
  · simp only [row, htake, length_toBe]
    rfl
  · rw [length_malloc]
    simp only [List.flatten_cons, List.flatten_nil, List.length_append, htake, length_toBe,
      List.length_cons, List.length_nil]
    omega

/-- `build_image` chooses between the two. -/
theorem makePart1_eq (fresh : Nat → UInt8) (stamp : Stamp) (info : DeviceInfo) :
    makePart1 fresh stamp info = .ok (softVersion stamp info) := by
  unfold makePart1
  cases h : info.softVer with
  | none => exact makeSoftVersion_eq fresh h
  | some softVer => exact makeSoftVersionFromString_eq fresh h

/-- The partition of the support list: its length, four zeros, the list, one byte behind it. -/
def supportList (info : DeviceInfo) : ImagePartition :=
  ⟨cstring "support-list", [toBe 4 info.supportList.bytes.length, List.replicate 4 0,
    info.supportList.bytes, [info.supportTrail]].flatten⟩

/-- What `make_support_list` makes, whatever `malloc` gave it. -/
theorem makeSupportList_eq (fresh : Nat → UInt8) (info : DeviceInfo) :
    makeSupportList fresh info = .ok (supportList info) := by
  unfold makeSupportList supportList
  dsimp only
  rw [putAll_row [toBe 4 info.supportList.bytes.length, List.replicate 4 0,
    info.supportList.bytes, [info.supportTrail]]]
  · rfl
  · simp only [row, length_toBe, List.length_replicate, Nat.zero_add]
    rw [Nat.add_comm _ 8]
  · rw [length_malloc]
    simp only [List.flatten_cons, List.flatten_nil, List.length_append, length_toBe,
      List.length_replicate, List.length_cons, List.length_nil]
    omega

/-- Filling a buffer of the right length. -/
theorem memcpy_all {buf data : Bytes} (h : buf.length = data.length) :
    memcpy buf 0 data = .ok data := by
  rw [memcpy_eq_ok]
  exact store_end [] buf h.symm

/-- `put_data` takes the first `len` bytes, and has to have them. -/
theorem putData_eq (fresh : Nat → UInt8) (partName : CString) {datain : Bytes} {len : Nat}
    (h : len ≤ datain.length) :
    putData fresh partName datain len = .ok ⟨partName, datain.take len⟩ := by
  unfold putData
  rw [memcpy_all (by rw [length_malloc, List.length_take]; omega), ok_bind]

/-- All three variants have eleven bytes. -/
theorem length_extraParaData {id : CString} {mdat : Bytes} (h : extraParaData id = some mdat) :
    mdat.length = 11 := by
  unfold extraParaData at h
  split at h
  · rw [← Option.some.inj h]
    rfl
  · split at h
    · rw [← Option.some.inj h]
      rfl
    · exact absurd h (by simp)

/-- What `make_extra_para` makes; most boards get none. -/
theorem makeExtraPara_eq (fresh : Nat → UInt8) (id : CString) :
    makeExtraPara fresh id =
      .ok ((extraParaData id).map fun mdat => ⟨cstring "extra-para", mdat⟩) := by
  unfold makeExtraPara
  cases h : extraParaData id with
  | none => rfl
  | some mdat =>
    have hlen := length_extraParaData h
    dsimp only
    rw [putData_eq fresh _ (Nat.le_of_eq hlen.symm), ← hlen, List.take_length]
    rfl

/-- The identity partition: its text, and what the stack held behind it. -/
def identity (memory : Memory) : ImagePartition :=
  ⟨cstring "identity", (identityText ++ [0]) ++ (malloc memory.stack 4096).drop 47⟩

/-- The partition of `make_file_sysconf`. -/
def sysconf : ImagePartition :=
  ⟨cstring "sysconf", (sysconfText ++ [0]) ++ List.replicate 961 0⟩

/-- The os-image partition: both files, and what the heap held up to the end. -/
def osImage (memory : Memory) (kernel rootfs : Bytes) : ImagePartition :=
  ⟨cstring "os-image", kernel ++ rootfs ++
    (malloc (memory.heap 3) (align kernel.length + rootfs.length)).drop
      (kernel.length + rootfs.length)⟩

/-- The partition of the genesis file. -/
def fileSystem (genesis : Bytes) : ImagePartition := ⟨cstring "file-system", genesis⟩

/-- The partition of `make_extra_para`, where there is one. -/
def extraPara (info : DeviceInfo) : Option ImagePartition :=
  (extraParaData info.id).map fun mdat => ⟨cstring "extra-para", mdat⟩

/-- A file is read whole or the run stops; an empty file stops it too. -/
theorem freadAll_ok {buf buf' content : Bytes} {o : Nat} {path : Path}
    (h : freadAll buf o path content = .ok buf') :
    content ≠ [] ∧ memcpy buf o content = .ok buf' := by
  unfold freadAll at h
  split at h
  · exact absurd h (by simp)
  · rename_i hne
    exact ⟨hne, h⟩

theorem le_align (x : Nat) : x ≤ align x := by
  unfold align
  omega

/-- `stat` succeeds on files that are there. -/
theorem stat_ok {disk : Disk} {path : Path} {content : Bytes} (h : stat disk path = .ok content) :
    disk path = some content := by
  unfold stat at h
  split at h
  · exact absurd h (by simp)
  · rename_i hcontent
    rw [hcontent, Except.ok.inj h]

/-- A partition from one file has its bytes. -/
theorem readFile_ok {fresh : Nat → UInt8} {disk : Disk} {partName : CString} {filename : Path}
    {entry : ImagePartition} (h : readFile fresh disk partName filename = .ok entry) :
    ∃ content, disk filename = some content ∧ content ≠ [] ∧ entry = ⟨partName, content⟩ := by
  obtain ⟨content, hstat, h⟩ := bind_eq_ok.mp h
  obtain ⟨data, hread, h⟩ := bind_eq_ok.mp h
  obtain ⟨hne, hcopy⟩ := freadAll_ok hread
  rw [memcpy_all (length_malloc ..)] at hcopy
  have hdata := Except.ok.inj hcopy
  subst hdata
  exact ⟨content, stat_ok hstat, hne, (Except.ok.inj h).symm⟩

/-- The partition from two files is `osImage`: the rootfs behind the kernel's blocks. -/
theorem readFileSplit2_ok {memory : Memory} {disk : Disk} {rootfn kernelfn : Path}
    {entry : ImagePartition}
    (h : readFileSplit2 (memory.heap 3) disk (cstring "os-image") rootfn kernelfn = .ok entry) :
    ∃ content1 content2, disk rootfn = some content1 ∧ disk kernelfn = some content2 ∧
      content1 ≠ [] ∧ content2 ≠ [] ∧ entry = osImage memory content1 content2 := by
  obtain ⟨content1, hstat1, h⟩ := bind_eq_ok.mp h
  obtain ⟨content2, hstat2, h⟩ := bind_eq_ok.mp h
  obtain ⟨data1, hread1, h⟩ := bind_eq_ok.mp h
  obtain ⟨data2, hread2, h⟩ := bind_eq_ok.mp h
  obtain ⟨hne1, hcopy1⟩ := freadAll_ok hread1
  obtain ⟨hne2, hcopy2⟩ := freadAll_ok hread2
  refine ⟨content1, content2, stat_ok hstat1, stat_ok hstat2, hne1, hne2, ?_⟩
  have hle := le_align content1.length
  rw [memcpy_eq_ok] at hcopy1 hcopy2
  have hdata1 := (store_eq hcopy1).2
  rw [List.take_zero, List.nil_append, Nat.zero_add] at hdata1
  -- the second file is read right behind the first, and nothing is written behind the two
  have hdata2 : data2 = content1 ++ content2 ++
      (malloc (memory.heap 3) (align content1.length + content2.length)).drop
        (content1.length + content2.length) := by
    have hbuf := length_malloc (memory.heap 3) (align content1.length + content2.length)
    have htake : data1.take content1.length = content1 := by rw [hdata1, List.take_left]
    have hdrop : data1.drop (content1.length + content2.length) =
        (malloc (memory.heap 3) (align content1.length + content2.length)).drop
          (content1.length + content2.length) := drop_store hcopy1 (by omega)
    rw [(store_eq hcopy2).2, htake, hdrop]
  rw [osImage, ← hdata2]
  exact (Except.ok.inj h).symm

/-- The stack array, once the first text was written. -/
theorem memcpy_identity (memory : Memory) :
    memcpy (malloc memory.stack 4096) 0 (identityText ++ [0]) = .ok (identity memory).data := by
  have hbuf := length_malloc memory.stack 4096
  rw [memcpy_eq_ok, store, if_pos (by rw [hbuf]; decide), List.take_zero, List.nil_append]
  rfl

/-- The identity partition is one block of flash. -/
theorem length_identity (memory : Memory) : (identity memory).data.length = 4096 := by
  rw [identity, List.length_append, List.length_drop, length_malloc]
  rfl

/-- The stack array after the second text: zeros up to 1024. -/
theorem memcpy_sysconf (memory : Memory) :
    ∃ mdat, memcpy (identity memory).data 0 (List.replicate 1024 0) = .ok mdat ∧
      ∃ mdat', memcpy mdat 0 (sysconfText ++ [0]) = .ok mdat' ∧ 1024 ≤ mdat'.length ∧
        mdat'.take 1024 = sysconf.data := by
  have hlen := length_identity memory
  have hzeros : (List.replicate 1024 (0 : UInt8)).length = 1024 := List.length_replicate
  have htext : (sysconfText ++ [0]).length = 63 := by decide +kernel
  obtain ⟨mdat, hmdat⟩ := memcpy_isOk (identity memory).data 0 (List.replicate 1024 0)
    (by rw [hzeros, hlen]; decide)
  obtain ⟨mdat', hmdat'⟩ := memcpy_isOk mdat 0 (sysconfText ++ [0])
    (by rw [length_memcpy hmdat, hlen, htext]; decide)
  refine ⟨mdat, hmdat, mdat', hmdat', by rw [length_memcpy hmdat', length_memcpy hmdat, hlen]; decide,
    ?_⟩
  have hfirst := (store_eq (memcpy_eq_ok.mp hmdat)).2
  have hsecond := (store_eq (memcpy_eq_ok.mp hmdat')).2
  rw [List.take_zero, List.nil_append, Nat.zero_add, hzeros] at hfirst
  rw [List.take_zero, List.nil_append, Nat.zero_add, htext] at hsecond
  -- behind the text the zeros of `memset` are left
  have hdrop : (mdat.drop 63).take 961 = List.replicate 961 0 := by
    rw [hfirst, List.drop_append_of_le_length (by rw [hzeros]; decide), List.drop_replicate]
    exact List.take_left' List.length_replicate
  rw [hsecond, List.take_append, htext, List.take_of_length_le (by rw [htext]; decide)]
  show (sysconfText ++ [0]) ++ (mdat.drop 63).take 961 = sysconf.data
  rw [hdrop]
  rfl

/-- **What the slots hold.** -/
theorem prepare_ok {memory : Memory} {disk : Disk} {stamp : Stamp} {info : DeviceInfo}
    {inputs : Inputs} {slots : List (Option ImagePartition)}
    (h : prepare memory disk stamp info inputs = .ok slots) :
    ∃ table kernel rootfs genesis,
      makePartitionTable (memory.heap 0) info.partitions = .ok table ∧
      disk inputs.kernelImage = some kernel ∧ disk inputs.rootfsImage = some rootfs ∧
      disk inputs.genesisImage = some genesis ∧ kernel ≠ [] ∧ rootfs ≠ [] ∧ genesis ≠ [] ∧
      slots = [some table, some (softVersion stamp info), some (supportList info),
        some (osImage memory kernel rootfs), extraPara info, some (identity memory), some sysconf,
        some (fileSystem genesis), none] := by
  obtain ⟨table, htable, h⟩ := bind_eq_ok.mp h
  rw [makePart1_eq, ok_bind, makeSupportList_eq, ok_bind] at h
  obtain ⟨part3, hpart3, h⟩ := bind_eq_ok.mp h
  obtain ⟨kernel, rootfs, hkernel, hrootfs, hne1, hne2, rfl⟩ := readFileSplit2_ok hpart3
  rw [makeExtraPara_eq, ok_bind] at h
  dsimp only at h
  rw [memcpy_identity, ok_bind] at h
  -- one array for identity and sysconf: the second text goes over the first
  obtain ⟨mdat, hmdat, mdat', hmdat', hlen, htake⟩ := memcpy_sysconf memory
  have hwhole : (identity memory).data.take 4096 = (identity memory).data :=
    List.take_of_length_le (Nat.le_of_eq (length_identity memory))
  rw [putData_eq _ _ (Nat.le_of_eq (length_identity memory).symm), ok_bind, hwhole, hmdat, ok_bind,
    hmdat', ok_bind, putData_eq _ _ hlen, ok_bind, htake] at h
  obtain ⟨part7, hpart7, h⟩ := bind_eq_ok.mp h
  obtain ⟨genesis, hgenesis, hne3, rfl⟩ := readFile_ok hpart7
  exact ⟨table, kernel, rootfs, genesis, htable, hkernel, hrootfs, hgenesis, hne1, hne2, hne3,
    (Except.ok.inj h).symm⟩

/-! ### When the slots are filled -/

theorem stat_eq {disk : Disk} {path : Path} {content : Bytes} (h : disk path = some content) :
    stat disk path = .ok content := by
  rw [stat, h]

theorem freadAll_eq {buf content : Bytes} {o : Nat} {path : Path} (h : content ≠ []) :
    freadAll buf o path content = memcpy buf o content := if_neg h

/-- One file that is there and not empty is enough. -/
theorem readFile_isOk (fresh : Nat → UInt8) {disk : Disk} (partName : CString) {filename : Path}
    {content : Bytes} (h : disk filename = some content) (hne : content ≠ []) :
    ∃ entry, readFile fresh disk partName filename = .ok entry := by
  unfold readFile
  rw [stat_eq h, ok_bind, freadAll_eq hne, memcpy_all (length_malloc ..)]
  exact ⟨_, rfl⟩

/-- Two files that are there and not empty are enough. -/
theorem readFileSplit2_isOk (fresh : Nat → UInt8) {disk : Disk} (partName : CString)
    {rootfn kernelfn : Path} {content1 content2 : Bytes} (h1 : disk rootfn = some content1)
    (h2 : disk kernelfn = some content2) (hne1 : content1 ≠ []) (hne2 : content2 ≠ []) :
    ∃ entry, readFileSplit2 fresh disk partName rootfn kernelfn = .ok entry := by
  have hle := le_align content1.length
  have hbuf := length_malloc fresh (align content1.length + content2.length)
  obtain ⟨data1, hdata1⟩ := memcpy_isOk (malloc fresh (align content1.length +
    content2.length)) 0 content1 (by omega)
  obtain ⟨data2, hdata2⟩ := memcpy_isOk data1 content1.length content2
    (by rw [length_memcpy hdata1]; omega)
  unfold readFileSplit2
  rw [stat_eq h1, ok_bind, stat_eq h2, ok_bind]
  dsimp only
  rw [freadAll_eq hne1, hdata1, ok_bind, freadAll_eq hne2, hdata2]
  exact ⟨_, rfl⟩

/-- The slots are filled, unless the table is too long or a file is missing or empty. -/
theorem prepare_isOk (memory : Memory) {disk : Disk} (stamp : Stamp) {info : DeviceInfo}
    {inputs : Inputs} {kernel rootfs genesis : Bytes}
    (htext : (flashText info.partitions).length < 0x7fc)
    (hkernel : disk inputs.kernelImage = some kernel)
    (hrootfs : disk inputs.rootfsImage = some rootfs)
    (hgenesis : disk inputs.genesisImage = some genesis) (hne1 : kernel ≠ []) (hne2 : rootfs ≠ [])
    (hne3 : genesis ≠ []) : ∃ slots, prepare memory disk stamp info inputs = .ok slots := by
  obtain ⟨table, htable⟩ := (makePartitionTable_isOk_iff (memory.heap 0) _).mpr htext
  obtain ⟨part3, hpart3⟩ := readFileSplit2_isOk (memory.heap 3)
    (cstring "os-image") hkernel hrootfs hne1 hne2
  obtain ⟨part7, hpart7⟩ := readFile_isOk (memory.heap 7)
    (cstring "file-system") hgenesis hne3
  obtain ⟨mdat, hmdat, mdat', hmdat', hlen, htake⟩ := memcpy_sysconf memory
  unfold prepare
  rw [htable, ok_bind, makePart1_eq, ok_bind, makeSupportList_eq, ok_bind, hpart3, ok_bind,
    makeExtraPara_eq, ok_bind]
  dsimp only
  rw [memcpy_identity, ok_bind, putData_eq _ _ (Nat.le_of_eq (length_identity memory).symm),
    ok_bind, hmdat, ok_bind, hmdat', ok_bind, putData_eq _ _ hlen, ok_bind, hpart7]
  exact ⟨_, rfl⟩

end Safewrt.Safeloader
