/-
  THE FACTORY FORMAT (tools/tplink-safeloader/tplink-safeloader.c, `generate_factory_image`).

  1. `factoryImage` — the format as the comment over the function tells it, part behind part: the
     size, the MD5 of a salt and all that follows it, the vendor information, the table, the data.

  2. **`generateFactoryImage_eq`** — below 4 GiB what the function makes with the vendored MD5 is
     this image, and the MD5 is that of RFC 1321.

  3. **`main_factory_format`** — so is every factory image that a command line builds.

  The function fills one buffer: the size, the vendor information, table and data together, and last
  of all the digest, which is taken of what stands behind it.  The proof takes the parts from what
  `Safeloader.Factory` says of the whole image, and puts them next to each other.
-/
import Safewrt.Safeloader.Main
import Safewrt.Safeloader.Md5

namespace Safewrt.Safeloader

open Safewrt.Lib

/-- The vendor information: its length and 4092 bytes. -/
def vendorArea : Option CString → Bytes
  | none => List.replicate 0x1000 0xff
  | some vendor => toBe 4 vendor.bytes.length ++
      (vendor.bytes ++ List.replicate (0xffc - vendor.bytes.length) 0xff)

/-- What the MD5 is of, behind the salt. -/
def signed (info : DeviceInfo) (parts : List ImagePartition) : Bytes :=
  vendorArea info.vendor ++
    (terminated (fwupText parts 0x800) (List.replicate 0x800 0xff) ++ payload parts)

/-- The image as the comment of the source has it, part behind part. -/
def factoryImage (info : DeviceInfo) (parts : List ImagePartition) : Bytes :=
  toBe 4 (0x14 + (signed info parts).length) ++
    (Rfc1321.md5 (md5Salt ++ signed info parts) ++ signed info parts)

/-- The vendor information takes 4 KiB, filled up with 0xff. -/
theorem length_vendorArea {vendor : Option CString}
    (h : ∀ v ∈ vendor, v.bytes.length ≤ 0xffc) : (vendorArea vendor).length = 0x1000 := by
  cases vendor with
  | none => exact List.length_replicate
  | some v =>
    have hle := h v rfl
    rw [vendorArea, List.length_append, List.length_append, length_toBe, List.length_replicate]
    omega

/-- The vendor information goes over 0xff, behind size and MD5. -/
theorem putVendor_eq {vendor : Option CString} (hvendor : ∀ v ∈ vendor, v.bytes.length ≤ 0xffc)
    {a : Bytes} (ha : a.length = 0x14) (rest : Bytes) :
    putVendor vendor (a ++ (List.replicate 0x1000 0xff ++ rest)) =
      .ok (a ++ (vendorArea vendor ++ rest)) := by
  cases vendor with
  | none => rfl
  | some v =>
    have hle := hvendor v rfl
    have hsize : (toBe 4 v.bytes.length).length = (List.replicate 4 (0xff : UInt8)).length :=
      length_toBe 4 v.bytes.length
    have hname : v.bytes.length = (List.replicate v.bytes.length (0xff : UInt8)).length :=
      List.length_replicate.symm
    -- the area in three parts: length, text, and what stays 0xff
    have hroom : List.replicate 0x1000 (0xff : UInt8) ++ rest = List.replicate 4 0xff ++
        (List.replicate v.bytes.length 0xff ++
          (List.replicate (0xffc - v.bytes.length) 0xff ++ rest)) := by
      rw [← List.append_assoc (List.replicate v.bytes.length _), List.replicate_append_replicate,
        ← List.append_assoc, List.replicate_append_replicate]
      congr 2
      omega
    have hfirst := memcpy_eq_ok.mpr (store_exact a _ (List.replicate v.bytes.length 0xff ++
      (List.replicate (0xffc - v.bytes.length) 0xff ++ rest)) hsize)
    have hsecond := memcpy_eq_ok.mpr (store_exact (a ++ toBe 4 v.bytes.length) _
      (List.replicate (0xffc - v.bytes.length) 0xff ++ rest) hname)
    rw [ha] at hfirst
    rw [List.length_append, length_toBe, ha] at hsecond
    unfold putVendor
    dsimp only
    rw [hroom, hfirst, ok_bind, ← List.append_assoc a, hsecond, vendorArea, List.append_assoc,
      List.append_assoc, List.append_assoc]

variable {info : DeviceInfo} {parts : List ImagePartition} {image : Bytes}

/-- What the MD5 is taken of, besides the salt. -/
theorem length_signed (hvendor : ∀ v ∈ info.vendor, v.bytes.length ≤ 0xffc)
    (htext : (fwupText parts 0x800).length < 0x800) :
    (signed info parts).length = 0x1800 + (payload parts).length := by
  have htable : (terminated (fwupText parts 0x800) (List.replicate 0x800 0xff)).length = 0x800 := by
    rw [length_terminated (by rw [List.length_replicate]; exact htext), List.length_replicate]
  rw [signed, List.length_append, List.length_append, length_vendorArea hvendor, htable]
  omega

/-- The MD5 goes over 0xff, behind the size. -/
theorem putMd5_eq {size : Bytes} (hsize : size.length = 4) (body : Bytes) {len : Nat}
    (hlen : len % 2 ^ 32 = body.length) :
    putMd5 vendoredMd5 ((size ++ List.replicate 0x10 0xff) ++ body) len =
      .ok (size ++ (Rfc1321.md5 (md5Salt ++ body) ++ body)) := by
  have ha : (size ++ List.replicate 0x10 (0xff : UInt8)).length = 0x14 := by
    rw [List.length_append, hsize, List.length_replicate]
  -- the salt is hashed first, then the body
  have hdigest : Lib.Md5.final (Lib.Md5.update (Lib.Md5.update Lib.Md5.init md5Salt) body) =
      Rfc1321.md5 (md5Salt ++ body) := by
    rw [Lib.Md5.digest_append, digest_eq_rfc1321]
  have hroom : (Rfc1321.md5 (md5Salt ++ body)).length =
      (List.replicate 0x10 (0xff : UInt8)).length := by
    rw [← digest_eq_rfc1321, Lib.Md5.length_digest, List.length_replicate]
  have hstore := store_exact size (List.replicate 0x10 (0xff : UInt8)) body hroom
  rw [hsize] at hstore
  rw [putMd5_vendored, List.drop_left' ha, List.take_of_length_le (Nat.le_of_eq hlen.symm), hdigest,
    List.append_assoc size]
  exact memcpy_eq_ok.mpr hstore

/-- Size and vendor information, over 0xff. -/
theorem putHeader_eq (hvendor : ∀ v ∈ info.vendor, v.bytes.length ≤ 0xffc) (n : Nat) :
    (do
      let image ← memcpy (List.replicate (0x1014 + n) 0xff) 0 (toBe 4 (0x1014 + n))
      putVendor info.vendor image : Run Bytes) =
    .ok ((toBe 4 (0x1014 + n) ++ List.replicate 0x10 0xff) ++
      (vendorArea info.vendor ++ List.replicate n 0xff)) := by
  have hsize := length_toBe 4 (0x1014 + n)
  have hblank : List.replicate (0x1014 + n) (0xff : UInt8) = List.replicate 4 0xff ++
      (List.replicate 0x10 0xff ++ (List.replicate 0x1000 0xff ++ List.replicate n 0xff)) := by
    rw [List.replicate_append_replicate, List.replicate_append_replicate,
      List.replicate_append_replicate]
    congr 1
    omega
  have hfirst := memcpy_eq_ok.mpr (store_exact [] (List.replicate 4 (0xff : UInt8))
    (List.replicate 0x10 0xff ++ (List.replicate 0x1000 0xff ++ List.replicate n 0xff))
    (hsize.trans List.length_replicate.symm))
  have ha : (toBe 4 (0x1014 + n) ++ List.replicate 0x10 (0xff : UInt8)).length = 0x14 := by
    rw [List.length_append, hsize, List.length_replicate]
  rw [List.nil_append, List.nil_append, List.length_nil] at hfirst
  rw [hblank, hfirst, ok_bind, ← List.append_assoc (toBe 4 _), putVendor_eq hvendor ha]

/-- **The image is the documented one.** -/
theorem generateFactoryImage_eq (hvendor : ∀ v ∈ info.vendor, v.bytes.length ≤ 0xffc)
    (himage : generateFactoryImage vendoredMd5 info parts = .ok image)
    (hlt : (payload parts).length + 0x1800 < 2 ^ 32) : image = factoryImage info parts := by
  have hlen : 0x1814 + (parts.map ImagePartition.size).sum =
      0x1014 + (0x800 + (payload parts).length) := by
    rw [← length_payload]
    omega
  unfold generateFactoryImage at himage
  dsimp only at himage
  rw [hlen] at himage
  obtain ⟨im1, h1, himage⟩ := bind_eq_ok.mp himage
  obtain ⟨im2, h2, himage⟩ := bind_eq_ok.mp himage
  -- size and vendor information are in their places before the table is printed
  have hboth := putHeader_eq hvendor (0x800 + (payload parts).length)
  rw [h1, ok_bind, h2] at hboth
  obtain rfl := Except.ok.inj hboth
  have hsize := length_toBe 4 (0x1014 + (0x800 + (payload parts).length))
  have hhead : ((toBe 4 (0x1014 + (0x800 + (payload parts).length)) ++
      List.replicate 0x10 (0xff : UInt8)) ++ vendorArea info.vendor).length = 0x1014 := by
    rw [List.length_append, List.length_append, hsize, List.length_replicate,
      length_vendorArea hvendor]
  rw [← List.append_assoc _ (vendorArea info.vendor), List.drop_left' hhead,
    List.take_left' hhead] at himage
  obtain ⟨buffer, hput, himage⟩ := bind_eq_ok.mp himage
  rw [← List.replicate_append_replicate,
    putPartitions_fresh_iff _ List.length_replicate List.length_replicate] at hput
  obtain ⟨-, htext, rfl⟩ := hput
  -- the digest is taken of all that stands behind it
  have hsigned := length_signed hvendor htext
  have hlast : (0x1014 + (0x800 + (payload parts).length) - 0x14) % 2 ^ 32 =
      (signed info parts).length := by omega
  have hmd5 := putMd5_eq hsize (signed info parts) hlast
  rw [List.append_assoc _ (vendorArea info.vendor)] at himage
  rw [Except.ok.inj (himage.symm.trans hmd5), factoryImage, hsigned]
  congr 2
  omega

/-- What an image says of itself: its size, and the MD5 of what follows. -/
structure Intact (image : Bytes) : Prop where
  size : be (image.take 4) = image.length
  md5 : (image.drop 4).take 0x10 = Rfc1321.md5 (md5Salt ++ image.drop 0x14)

theorem length_md5 (data : Bytes) : (Rfc1321.md5 data).length = 0x10 := by
  rw [← digest_eq_rfc1321]
  exact vendoredMd5.length_digest data

/-- A loader that checks the size and the MD5 accepts the image. -/
theorem factoryImage_intact (h : (signed info parts).length + 0x14 < 2 ^ 32) :
    Intact (factoryImage info parts) := by
  have hsize := length_toBe 4 (0x14 + (signed info parts).length)
  have hmd5 := length_md5 (md5Salt ++ signed info parts)
  have hlength : (factoryImage info parts).length = 0x14 + (signed info parts).length := by
    rw [factoryImage, List.length_append, List.length_append, hsize, hmd5]
    omega
  have hdrop4 : (factoryImage info parts).drop 4 =
      Rfc1321.md5 (md5Salt ++ signed info parts) ++ signed info parts := List.drop_left' hsize
  have hdrop : (factoryImage info parts).drop 0x14 = signed info parts := by
    rw [← List.drop_drop (i := 0x10) (j := 4), hdrop4, List.drop_left' hmd5]
  constructor
  · rw [hlength, factoryImage, List.take_left' hsize, be_toBe_of_lt (by omega)]
  · rw [hdrop, hdrop4, List.take_left' hmd5]

/-- **Every factory image from a command line** is the documented one, and intact. -/
theorem main_factory_format {p : Process} {args : List Bytes} {s : Settings}
    (hs : readOptions {} (getopt takes none args) = .ok s) (hbuild : Building s)
    (hfactory : s.sysupgrade = false) {disk : Disk} (hmain : main p args = .ok ⟨0, disk⟩) :
    ∃ info inputs output stamp slots, info ∈ boards ∧ s.output = some output ∧
      prepare p.memory p.disk stamp info inputs = .ok slots ∧
      disk = p.disk.write output (factoryImage info (visible slots)) ∧
      Intact (factoryImage info (visible slots)) := by
  obtain ⟨epoch, info, inputs, output, stamp, image, -, hfound, himage, hexit⟩ :=
    main_build_ok hs hbuild hmain
  obtain ⟨-, rfl⟩ := Exit.mk.inj hexit
  obtain ⟨board, -, hfind⟩ := hfound.isBoard
  have hboard : info ∈ boards := List.mem_of_find?_eq_some hfind
  have hinfo := boards_supported hboard
  obtain ⟨kernel, rootfs, genesis, hfiles⟩ := given_of_generate himage
  obtain ⟨slots, table, hslots, hfilled⟩ := hfiles.filled hinfo p.memory stamp
  rw [hfactory, generateImage, hslots, ok_bind, if_neg Bool.false_ne_true] at himage
  have hlt := hinfo.payload_lt hfilled himage
  obtain ⟨-, htext, -⟩ := generateFactoryImage_ok himage
  have hsigned := length_signed hinfo.vendor htext
  rw [generateFactoryImage_eq hinfo.vendor himage (by omega)]
  exact ⟨info, inputs, output, stamp, slots, hboard, hfound.isOutput, hslots, rfl,
    factoryImage_intact (by omega)⟩

/-- The image of the Archer C7 v4 from three small files. -/
theorem main_factory_format_archerC7V4 : ∃ disk image, main sampleProcess sampleArgs = .ok ⟨0, disk⟩ ∧
    disk (asBytes "factory.bin".toList) = some image ∧ Intact image := by
  obtain ⟨disk, hmain⟩ := sampleArgs_main
  obtain ⟨info, inputs, output, stamp, slots, -, houtput, -, hdisk, hintact⟩ :=
    main_factory_format sampleArgs_settings ⟨rfl, rfl, rfl⟩ rfl hmain
  obtain rfl : asBytes "factory.bin".toList = output := Option.some.inj houtput
  exact ⟨disk, _, hmain, by rw [hdisk, Disk.write_same], hintact⟩

end Safewrt.Safeloader
