/-
  Images for the SafeLoader (tools/tplink-safeloader/tplink-safeloader.c): partitions, and the two
  formats they are written in.

  1. The data: image partitions, flash partitions, boards.  A C string has no zero byte, and a board
     has at most 32 partitions, so that the array ends with an empty one.

  2. **`putPartitions`**, `generateFactoryImage`, `generateSysupgradeImage`: as the code computes
     them, on a buffer that is filled by copies.

  3. **How a run stops** — every way has a `Stop`: a message and exit status 1, a failed
     assertion, or an access outside of a buffer or at no address.  What such an access would do is
     not said.

  4. MD5 is a parameter of the formats (`Md5`, a digest of 16 bytes), since nothing but its length
     matters to where things lie; `vendoredMd5` is the one of md5.c.

  The board's partition table (`makePartitionTable`) is here too, since the factory image of a board
  holds one.
-/
import Safewrt.Lib.Bytes
import Safewrt.Lib.Hex
import Safewrt.Lib.Md5
import Safewrt.Lib.Store
import Safewrt.Lib.Text

namespace Safewrt.Safeloader

open Safewrt.Lib

/-- The contents of a buffer or a file. -/
abbrev Bytes := List UInt8

/-! ## Strings and partitions -/

/-- A string of C, which ends at its first zero. -/
structure CString where
  bytes : Bytes
  noZero : (0 : UInt8) ∉ bytes
  deriving Repr, DecidableEq

/-- The C string that starts here. -/
def CString.ofBytes (s : Bytes) : CString :=
  ⟨s.takeWhile (· ≠ 0), fun h => by simpa using List.mem_takeWhile_imp h⟩

/-- A string literal. -/
def cstring (s : String) : CString := CString.ofBytes (asBytes s.toList)

/-- Literals that stand next to each other. -/
instance : Append CString where
  append a b := ⟨a.bytes ++ b.bytes, by
    rw [List.mem_append, not_or]
    exact ⟨a.noZero, b.noZero⟩⟩

/-- `struct image_partition_entry`; `size` is that of `data`. -/
structure ImagePartition where
  name : CString
  data : Bytes
  deriving Repr, DecidableEq

/-- The field `size` of the struct, which is always the length of the data. -/
def ImagePartition.size (p : ImagePartition) : Nat := p.data.length

/-- `struct flash_partition_entry` -/
structure FlashPartition where
  name : CString
  base : UInt32
  size : UInt32
  deriving Repr, DecidableEq

/-- `MAX_PARTITIONS` -/
def maxPartitions : Nat := 32

/-- `struct device_info`; an absent pointer is `none`. -/
structure DeviceInfo where
  id : CString
  vendor : Option CString
  supportList : CString
  supportTrail : UInt8
  softVer : Option CString
  partitions : List FlashPartition
  firstSysupgradePartition : CString
  lastSysupgradePartition : CString
  partitions_length : partitions.length ≤ maxPartitions

/-! ## How a run stops -/

/-- The macro `error` prints its text, a colon and `strerror` of its second argument.  A literal 0
    there gives `Success`; where the source passes `errno`, the message is the text alone, since
    any call before may have set it. -/
inductive Stop
  | error (message : Bytes)     -- `error(1, ..)`
  | assert (condition : Text)
  | fault                       -- a copy outside its buffer, a string at no address
  deriving Repr, DecidableEq

/-- A stage of a run. -/
abbrev Run (α : Type) := Except Stop α

/-- The error with this message. -/
def Stop.ofText (message : Text) : Stop := .error (asBytes message)

/-- A copy that has to stay inside. -/
def memcpy (buf : Bytes) (o : Nat) (data : Bytes) : Run Bytes :=
  match store buf o data with
  | some buf => .ok buf
  | none => .error .fault

/-- `snprintf(buf + o, len, ..)` -/
def snprintf (buf : Bytes) (o len : Nat) (text : Bytes) : Run Bytes :=
  if len = 0 then .ok buf else memcpy buf o (text.take (len - 1) ++ [0])

/-- Every stage of a run that succeeds, succeeds. -/
theorem bind_eq_ok {α β : Type} {x : Run α} {f : α → Run β} {b : β} :
    x >>= f = .ok b ↔ ∃ a, x = .ok a ∧ f a = .ok b := by
  cases x with
  | error e => exact iff_of_false (by intro h; cases h) (by rintro ⟨a, h, -⟩; cases h)
  | ok a =>
    constructor
    · intro h
      exact ⟨a, rfl, h⟩
    · rintro ⟨a', ha, h⟩
      rw [Except.ok.inj ha]
      exact h

@[simp] theorem ok_bind {α β : Type} (a : α) (f : α → Run β) :
    ((.ok a : Run α) >>= f) = f a := rfl

@[simp] theorem error_bind {α β : Type} (e : Stop) (f : α → Run β) :
    ((.error e : Run α) >>= f) = .error e := rfl

/-- `memcpy` is `store`, with a fault where it leaves the buffer. -/
theorem memcpy_eq_ok {buf buf' data : Bytes} {o : Nat} :
    memcpy buf o data = .ok buf' ↔ store buf o data = some buf' := by
  unfold memcpy
  cases store buf o data <;> simp

/-! ## The flash partition table -/

/-- `"partition %s base 0x%05x size 0x%05x\n"` -/
def flashLine (p : FlashPartition) : Bytes :=
  asBytes "partition ".toList ++ p.name.bytes ++ asBytes " base 0x".toList ++
    padHex 5 p.base.toNat ++ asBytes " size 0x".toList ++ padHex 5 p.size.toNat ++ [0x0a]

/-- `malloc(len)`: the bytes that happen to be there. -/
def malloc (fresh : Nat → UInt8) (len : Nat) : Bytes := (List.range len).map fresh

theorem length_malloc (fresh : Nat → UInt8) (len : Nat) : (malloc fresh len).length = len := by
  rw [malloc, List.length_map, List.length_range]

/-- The loop of `make_partition_table`; `s` is where it writes next. -/
def putFlashLines : List FlashPartition → Bytes → Nat → Run (Bytes × Nat)
  | [], data, s => .ok (data, s)
  | p :: ps, data, s => do
    let len := data.length - s
    let w := (flashLine p).length
    let data ← snprintf data s len (flashLine p)
    if w > len - 1 then .error (.ofText "flash partition table overflow?: Success".toList)
    else putFlashLines ps data (s + w)

/-- `make_partition_table` -/
def makePartitionTable (fresh : Nat → UInt8) (p : List FlashPartition) : Run ImagePartition := do
  let data := malloc fresh 0x800
  let data ← memcpy data 0 [0x00, 0x04, 0x00, 0x00]
  let (data, s) ← putFlashLines p data 4
  let data ← memcpy data (s + 1) (List.replicate (0x800 - (s + 1)) 0xff)
  .ok ⟨cstring "partition-table", data⟩

/-! ## The factory format -/

/-- `"fwup-ptn %s base 0x%05x size 0x%05x\t\r\n"`, the numbers as `unsigned` -/
def fwupLine (p : ImagePartition) (base : Nat) : Bytes :=
  asBytes "fwup-ptn ".toList ++ p.name.bytes ++ asBytes " base 0x".toList ++
    padHex 5 (base % 2 ^ 32) ++ asBytes " size 0x".toList ++ padHex 5 (p.size % 2 ^ 32) ++
    [0x09, 0x0d, 0x0a]

/-- `"%s partition too big (more than %u bytes)"` -/
def tooBig (f : FlashPartition) : Stop :=
  .error (f.name.bytes ++ asBytes (" partition too big (more than ".toList ++
    Nat.toDigits 10 f.size.toNat ++ " bytes): Success".toList))

/-- `put_partitions`, from the partition on that is written at `base`; `image_pt` is where its line
    goes. -/
def putPartitions (flash : List FlashPartition) :
    List ImagePartition → Bytes → Nat → Nat → Run Bytes
  | [], buffer, _, _ => .ok buffer
  | p :: ps, buffer, imagePt, base =>
    match flash.find? fun f => f.name = p.name with
    | none => .error (.assert "flash_parts[j].name".toList)
    | some f =>
      if p.size > f.size.toNat then .error (tooBig f)
      else do
        let buffer ← memcpy buffer base p.data
        let len := 0x800 - imagePt
        let w := (fwupLine p base).length
        let buffer ← snprintf buffer imagePt len (fwupLine p base)
        if w > len - 1 then .error (.ofText "image partition table overflow?: Success".toList)
        else putPartitions flash ps buffer (imagePt + w) (base + p.size)

/-- A digest of 16 bytes: what the results need of the MD5 that the tool is linked with. -/
structure Md5 where
  digest : Bytes → Bytes
  length_digest : ∀ data, (digest data).length = 16

/-- The one in `md5.c`. -/
def vendoredMd5 : Md5 := ⟨Lib.Md5.digest, Lib.Md5.length_digest⟩

/-- `md5_salt` -/
def md5Salt : Bytes :=
  [0x7a, 0x2b, 0x15, 0xed, 0x9b, 0x98, 0x59, 0x6d, 0xe5, 0x04, 0xab, 0x44, 0xac, 0x2a, 0x9f, 0x4e]

/-- `put_md5(image + 0x04, image + 0x14, len)` -/
def putMd5 (md5 : Md5) (image : Bytes) (len : Nat) : Run Bytes :=
  memcpy image 0x04 (md5.digest (md5Salt ++ (image.drop 0x14).take (len % 2 ^ 32)))

/-- `put_md5` with the linked MD5: the salt and the data are two updates of one context. -/
theorem putMd5_vendored (image : Bytes) (len : Nat) :
    putMd5 vendoredMd5 image len = memcpy image 0x04 (Lib.Md5.final (Lib.Md5.update
      (Lib.Md5.update Lib.Md5.init md5Salt) ((image.drop 0x14).take (len % 2 ^ 32)))) := by
  rw [Lib.Md5.digest_append]
  rfl

/-- The bytes of all partitions. -/
def payload (parts : List ImagePartition) : Bytes := (parts.map ImagePartition.data).flatten

/-- The vendor information, where the board has some. -/
def putVendor (vendor : Option CString) (image : Bytes) : Run Bytes :=
  match vendor with
  | none => .ok image
  | some vendor => do
    let image ← memcpy image 0x14 (toBe 4 vendor.bytes.length)
    memcpy image 0x18 vendor.bytes

/-- `generate_factory_image` -/
def generateFactoryImage (md5 : Md5) (info : DeviceInfo) (parts : List ImagePartition) :
    Run Bytes := do
  let len := 0x1814 + (parts.map ImagePartition.size).sum
  let image := List.replicate len 0xff
  let image ← memcpy image 0 (toBe 4 len)
  let image ← putVendor info.vendor image
  let buffer ← putPartitions info.partitions parts (image.drop 0x1014) 0 0x800
  putMd5 md5 (image.take 0x1014 ++ buffer) (len - 0x14)

/-! ## The sysupgrade format -/

/-- The first loop of `generate_sysupgrade_image`: the first and the last partition, with their
    index; a later one of the same name replaces an earlier one. -/
def findEnds (info : DeviceInfo) :
    Option (Nat × FlashPartition) × Option (Nat × FlashPartition) :=
  info.partitions.zipIdx.foldl (fun ends p =>
    if p.1.name = info.firstSysupgradePartition then (some (p.2, p.1), ends.2)
    else if p.1.name = info.lastSysupgradePartition then (ends.1, some (p.2, p.1))
    else ends) (none, none)

/-- The second loop, over the flash partitions `fs`. -/
def copyParts (first : FlashPartition) (parts : List ImagePartition) :
    List FlashPartition → Bytes → Run Bytes
  | [], image => .ok image
  | f :: fs, image =>
    match parts.find? fun p => f.name = p.name with
    | none => copyParts first parts fs image
    | some p =>
      if p.size > f.size.toNat then .error (tooBig f)
      else if f.base < first.base then .error .fault
      else do
        let image ← memcpy image (f.base.toNat - first.base.toNat) p.data
        copyParts first parts fs image

/-- `generate_sysupgrade_image` -/
def generateSysupgradeImage (info : DeviceInfo) (parts : List ImagePartition) : Run Bytes :=
  match findEnds info with
  | (some (i, first), some (l, last)) =>
    if i < l then
      match parts.find? fun p => p.name = info.lastSysupgradePartition with
      | none => .error (.assert "image_last_partition".toList)
      | some imageLast =>
        let len := (last.base - first.base).toNat + imageLast.size
        copyParts first parts ((info.partitions.drop i).take (l + 1 - i)) (List.replicate len 0xff)
    else .error (.assert "flash_first_partition_index < flash_last_partition_index".toList)
  | _ => .error (.assert "flash_first_partition && flash_last_partition".toList)

/-! ## Two boards -/

/-- The entry of `boards` for the EAP120. -/
def eap120 : DeviceInfo where
  id := cstring "EAP120"
  vendor := some (cstring "EAP120(TP-LINK|UN|N300-2):1.0\r\n")
  supportList := cstring "SupportList:\r\n" ++ cstring "EAP120(TP-LINK|UN|N300-2):1.0\r\n"
  supportTrail := 0xff
  softVer := none
  partitions :=
    [⟨cstring "fs-uboot", 0x00000, 0x20000⟩,
     ⟨cstring "partition-table", 0x20000, 0x02000⟩,
     ⟨cstring "default-mac", 0x30000, 0x00020⟩,
     ⟨cstring "support-list", 0x31000, 0x00100⟩,
     ⟨cstring "product-info", 0x31100, 0x00100⟩,
     ⟨cstring "soft-version", 0x32000, 0x00100⟩,
     ⟨cstring "os-image", 0x40000, 0x180000⟩,
     ⟨cstring "file-system", 0x1c0000, 0x600000⟩,
     ⟨cstring "user-config", 0x7c0000, 0x10000⟩,
     ⟨cstring "backup-config", 0x7d0000, 0x10000⟩,
     ⟨cstring "log", 0x7e0000, 0x10000⟩,
     ⟨cstring "radio", 0x7f0000, 0x10000⟩]
  firstSysupgradePartition := cstring "os-image"
  lastSysupgradePartition := cstring "file-system"
  partitions_length := by decide

/-- `"\x7bproduct_name:Archer C7,product_ver:4.0.0,special_id:%s\x7d\n"` -/
def archerC7Line (specialId : CString) : CString :=
  cstring "\x7bproduct_name:Archer C7,product_ver:4.0.0,special_id:" ++ specialId ++
    cstring "\x7d\n"

/-- The entry of `boards` for the Archer C7 v4. -/
def archerC7V4 : DeviceInfo where
  id := cstring "ARCHER-C7-V4"
  vendor := none
  supportList := cstring "SupportList:\n" ++
    archerC7Line (cstring "00000000") ++ archerC7Line (cstring "41550000") ++
    archerC7Line (cstring "45550000") ++ archerC7Line (cstring "4B520000") ++
    archerC7Line (cstring "42520000") ++ archerC7Line (cstring "4A500000") ++
    archerC7Line (cstring "52550000") ++ archerC7Line (cstring "54570000") ++
    archerC7Line (cstring "55530000") ++ archerC7Line (cstring "43410000")
  supportTrail := 0x00
  softVer := some (cstring "soft_ver:1.0.0\n")
  partitions :=
    [⟨cstring "factory-boot", 0x00000, 0x20000⟩,
     ⟨cstring "fs-uboot", 0x20000, 0x20000⟩,
     ⟨cstring "os-image", 0x40000, 0xa00000⟩,
     ⟨cstring "file-system", 0xa40000, 0x4c0000⟩,
     ⟨cstring "default-mac", 0xf00000, 0x00200⟩,
     ⟨cstring "pin", 0xf00200, 0x00200⟩,
     ⟨cstring "device-id", 0xf00400, 0x00100⟩,
     ⟨cstring "product-info", 0xf00500, 0x0fb00⟩,
     ⟨cstring "sysconf", 0xf10000, 0xb0000⟩,
     ⟨cstring "partition-table", 0xfc0000, 0x10000⟩,
     ⟨cstring "support-list", 0xfd0000, 0x0a000⟩,
     ⟨cstring "soft-version", 0xfda000, 0x00100⟩,
     ⟨cstring "extra-para", 0xfda100, 0x01000⟩,
     ⟨cstring "identity", 0xfdb100, 0x01000⟩,
     ⟨cstring "radio", 0xff0000, 0x10000⟩]
  firstSysupgradePartition := cstring "os-image"
  lastSysupgradePartition := cstring "file-system"
  partitions_length := by decide

end Safewrt.Safeloader
