/-
  The sysupgrade image of any board (tools/tplink-safeloader/tplink-safeloader.c,
  `generate_sysupgrade_image`).

  The function goes over the board's partitions twice: once to find the first and the last one of
  the image, and once to copy every image partition to the place of its flash partition.  The
  buffer is allocated in between, from the last partition alone.

  1. **`LaidOut`** — a board whose flash partitions are named distinctly, in order and apart, with
     the first sysupgrade partition before the last.  `SysupgradeLayout`: what its image is meant
     to be.

  2. What is between the ends keeps the board's order (`LaidOut.range_sorted`).

  3. The second loop stops at the first partition that is too big, or it is a row of copies
     (`copyParts_tooBig_or`).  The buffer is as long as the *last* partition needs: every other copy
     ends before the last one begins, because the flash partition it fits does.

  4. **`generateSysupgradeImage_layout`** — the too-big error, or the image.
-/
import Mathlib.Data.List.Pairwise
import Safewrt.Safeloader.Leak

namespace Safewrt.Safeloader

open Safewrt.Lib

/-! ## Boards and their images -/

/-- The flash partitions of a board: `first` and `last` are the ends of the sysupgrade image, with
    `mid` between them. -/
structure LaidOut (info : DeviceInfo) (pre mid post : List FlashPartition)
    (first last : FlashPartition) : Prop where
  partitions : info.partitions = pre ++ first :: (mid ++ last :: post)
  distinct : (info.partitions.map FlashPartition.name).Nodup
  sorted : info.partitions.Pairwise fun f g => f.base.toNat + f.size.toNat ≤ g.base.toNat
  first_name : first.name = info.firstSysupgradePartition
  last_name : last.name = info.lastSysupgradePartition

/-- The flash partitions from the first to the last. -/
def range (first : FlashPartition) (mid : List FlashPartition) (last : FlashPartition) :
    List FlashPartition := first :: (mid ++ [last])

theorem last_mem_range (first : FlashPartition) (mid : List FlashPartition)
    (last : FlashPartition) : last ∈ range first mid last :=
  List.mem_cons_of_mem _ (List.mem_append_right _ (by simp))

/-- Where a flash partition is, relative to the first. -/
def place (first f : FlashPartition) : Nat := f.base.toNat - first.base.toNat

/-- The image of a board: `fs` are the flash partitions from the first to the last. -/
structure SysupgradeLayout (first last : FlashPartition) (fs : List FlashPartition)
    (parts : List ImagePartition) (imageLast : ImagePartition) (image : Bytes) : Prop where
  length : image.length = place first last + imageLast.size
  fits : ∀ f ∈ fs, ∀ p ∈ parts, p.name = f.name → p.size ≤ f.size.toNat
  inBounds : ∀ f ∈ fs, ∀ p ∈ parts, p.name = f.name →
    first.base.toNat ≤ f.base.toNat ∧ place first f + p.size ≤ image.length
  placed : ∀ f ∈ fs, ∀ p ∈ parts, p.name = f.name →
    ∀ j, j < p.size → image[place first f + j]? = p.data[j]?
  apart : ∀ f ∈ fs, ∀ g ∈ fs, f ≠ g → ∀ p ∈ parts, ∀ q ∈ parts, p.name = f.name →
    q.name = g.name →
      place first f + p.size ≤ place first g ∨ place first g + q.size ≤ place first f
  rest : ∀ j, j < image.length → (∀ f ∈ fs, ∀ p ∈ parts, p.name = f.name →
    ¬ (place first f ≤ j ∧ j < place first f + p.size)) → image[j]? = some 0xff

/-! ## Between the ends -/

section Board

variable {info : DeviceInfo} {pre mid post : List FlashPartition} {first last : FlashPartition}

/-- The first loop finds the two ends, and how far they are into the table. -/
theorem LaidOut.findEnds_eq (h : LaidOut info pre mid post first last) :
    findEnds info = (some (pre.length, first), some (pre.length + 1 + mid.length, last)) :=
  findEnds_split h.partitions h.distinct h.first_name h.last_name

/-- What the second loop goes over is the range between them. -/
theorem LaidOut.slice (h : LaidOut info pre mid post first last) :
    (info.partitions.drop pre.length).take (pre.length + 1 + mid.length + 1 - pre.length) =
      range first mid last := slice_split h.partitions

/-- What is between the ends is in the board's order. -/
theorem LaidOut.range_sublist (h : LaidOut info pre mid post first last) :
    (range first mid last).Sublist info.partitions := by
  rw [← h.slice]
  exact (List.take_sublist ..).trans (List.drop_sublist ..)

/-- In the range every partition ends before any later one begins. -/
theorem LaidOut.range_sorted (h : LaidOut info pre mid post first last) :
    (range first mid last).Pairwise fun f g => f.base.toNat + f.size.toNat ≤ g.base.toNat :=
  h.sorted.sublist h.range_sublist

/-- Two of them do not overlap, whichever comes first. -/
theorem LaidOut.range_apart (h : LaidOut info pre mid post first last) {f g : FlashPartition}
    (hf : f ∈ range first mid last) (hg : g ∈ range first mid last) (hne : f ≠ g) :
    f.base.toNat + f.size.toNat ≤ g.base.toNat ∨ g.base.toNat + g.size.toNat ≤ f.base.toNat := by
  have heither : (range first mid last).Pairwise fun f g =>
      f.base.toNat + f.size.toNat ≤ g.base.toNat ∨ g.base.toNat + g.size.toNat ≤ f.base.toNat :=
    h.range_sorted.imp Or.inl
  have : Std.Symm fun f g : FlashPartition =>
      f.base.toNat + f.size.toNat ≤ g.base.toNat ∨ g.base.toNat + g.size.toNat ≤ f.base.toNat :=
    ⟨fun _ _ => Or.symm⟩
  exact heither.forall hf hg hne

/-- Nothing between the ends begins before the first .. -/
theorem LaidOut.first_le (h : LaidOut info pre mid post first last) {f : FlashPartition}
    (hf : f ∈ range first mid last) : first.base.toNat ≤ f.base.toNat := by
  have hsorted := List.pairwise_cons.mp h.range_sorted
  rcases List.mem_cons.mp hf with rfl | hf
  · exact Nat.le_refl _
  · have hle := hsorted.1 f hf
    omega

/-- .. or ends behind the beginning of the last. -/
theorem LaidOut.le_last (h : LaidOut info pre mid post first last) {f : FlashPartition}
    (hf : f ∈ range first mid last) :
    f = last ∨ f.base.toNat + f.size.toNat ≤ last.base.toNat := by
  have hsorted := h.range_sorted
  have hsplit : range first mid last = (first :: mid) ++ [last] := rfl
  rw [hsplit] at hsorted hf
  rcases List.mem_append.mp hf with hf | hf
  · exact Or.inr ((List.pairwise_append.mp hsorted).2.2 f hf last (by simp))
  · exact Or.inl (List.mem_singleton.mp hf)

end Board

/-! ## The copies -/

/-- The partition that the second loop finds for a flash partition. -/
theorem name_of_find {parts : List ImagePartition} {f : FlashPartition} {p : ImagePartition}
    (h : (parts.find? fun p => f.name = p.name) = some p) : p ∈ parts ∧ p.name = f.name := by
  have hname := List.find?_some h
  rw [decide_eq_true_eq] at hname
  exact ⟨List.mem_of_find?_eq_some h, hname.symm⟩

/-- **The second loop** stops at a partition that is too big, or it comes to its end: where a
    partition that fits has its place in the buffer, no copy leaves it. -/
theorem copyParts_tooBig_or {first : FlashPartition} {parts : List ImagePartition}
    (fs : List FlashPartition) : ∀ image : Bytes,
      (∀ f ∈ fs, first.base.toNat ≤ f.base.toNat) →
      (∀ f ∈ fs, ∀ p ∈ parts, p.name = f.name → p.size ≤ f.size.toNat →
        place first f + p.size ≤ image.length) →
      (∃ f ∈ fs, ∃ p ∈ parts, p.name = f.name ∧ f.size.toNat < p.size ∧
        copyParts first parts fs image = .error (tooBig f)) ∨
        ∃ image', copyParts first parts fs image = .ok image' := by
  induction fs with
  | nil => exact fun image _ _ => Or.inr ⟨image, rfl⟩
  | cons f fs ih =>
    intro image hbase hbounds
    rw [List.forall_mem_cons] at hbase hbounds
    -- what the rest of the loop does to a buffer of the same length
    have hrest : ∀ image' : Bytes, image'.length = image.length →
        (∃ g ∈ f :: fs, ∃ p ∈ parts, p.name = g.name ∧ g.size.toNat < p.size ∧
          copyParts first parts fs image' = .error (tooBig g)) ∨
          ∃ image'', copyParts first parts fs image' = .ok image'' := by
      intro image' hlength
      rcases ih image' hbase.2 (by rw [hlength]; exact hbounds.2) with ⟨g, hg, hstop⟩ | hok
      · exact Or.inl ⟨g, List.mem_cons_of_mem _ hg, hstop⟩
      · exact Or.inr hok
    rw [copyParts]
    cases hfind : parts.find? fun p => f.name = p.name with
    | none => exact hrest image rfl
    | some p =>
      obtain ⟨hmem, hname⟩ := name_of_find hfind
      dsimp only
      by_cases hsize : p.size > f.size.toNat
      · rw [if_pos hsize]
        exact Or.inl ⟨f, List.mem_cons_self, p, hmem, hname, hsize, rfl⟩
      have hle : ¬ f.base < first.base := by
        rw [UInt32.lt_iff_toNat_lt]
        exact Nat.not_lt.mpr hbase.1
      have hin : (store image (place first f) p.data).isSome :=
        (store_isSome_iff _ _ _).mpr (hbounds.1 p hmem hname (Nat.not_lt.mp hsize))
      obtain ⟨image', hstore⟩ := Option.isSome_iff_exists.mp hin
      have hcopy : memcpy image (f.base.toNat - first.base.toNat) p.data = .ok image' :=
        memcpy_eq_ok.mpr hstore
      rw [if_neg hsize, if_neg hle, hcopy, ok_bind]
      exact hrest image' (length_store hstore)

/-- The copies, by their partitions. -/
theorem mem_copiesOf_iff {first : FlashPartition} {parts : List ImagePartition}
    {fs : List FlashPartition} (hdistinct : (parts.map ImagePartition.name).Nodup)
    {c : Nat × ImagePartition} :
    c ∈ copiesOf ImagePartition.name first parts fs ↔
      ∃ f ∈ fs, ∃ p ∈ parts, p.name = f.name ∧ c = (place first f, p) := by
  rw [copiesOf, List.mem_filterMap]
  constructor
  · rintro ⟨f, hf, hc⟩
    obtain ⟨p, hp, rfl⟩ := Option.map_eq_some_iff.mp hc
    obtain ⟨hmem, hname⟩ := name_of_find hp
    exact ⟨f, hf, p, hmem, hname, rfl⟩
  · rintro ⟨f, hf, p, hp, hname, rfl⟩
    refine ⟨f, hf, ?_⟩
    rw [find?_name_comm, ← hname, find?_of_nodup hdistinct hp]
    rfl

/-- Partitions that fit are copied in the board's order, and apart. -/
theorem copiesOf_apart {first : FlashPartition} {parts : List ImagePartition}
    {fs : List FlashPartition}
    (hsorted : fs.Pairwise fun f g => f.base.toNat + f.size.toNat ≤ g.base.toNat)
    (hbase : ∀ f ∈ fs, first.base.toNat ≤ f.base.toNat) (hfits : Fits first parts fs) :
    Apart (fun p => p.data.length) (copiesOf ImagePartition.name first parts fs) := by
  refine List.pairwise_filterMap.mpr (hsorted.imp_of_mem ?_)
  intro f g hf hg hle c hc d hd
  obtain ⟨p, hp, rfl⟩ := Option.map_eq_some_iff.mp hc
  obtain ⟨q, hq, rfl⟩ := Option.map_eq_some_iff.mp hd
  have hsize := (hfits f hf p hp).1
  have hbasef := hbase f hf
  have hbaseg := hbase g hg
  show f.base.toNat - first.base.toNat + p.size ≤ g.base.toNat - first.base.toNat
  omega

/-! ## The image -/

section Board

variable {info : DeviceInfo} {pre mid post : List FlashPartition} {first last : FlashPartition}
  {parts : List ImagePartition} {imageLast : ImagePartition}

/-- **A partition that fits stays in the buffer**, although only the last one was measured for it. -/
theorem LaidOut.inBounds (h : LaidOut info pre mid post first last)
    (hdistinct : (parts.map ImagePartition.name).Nodup) (hmem : imageLast ∈ parts)
    (hname : imageLast.name = last.name) {f : FlashPartition} (hf : f ∈ range first mid last)
    {p : ImagePartition} (hp : p ∈ parts) (hpname : p.name = f.name)
    (hsize : p.size ≤ f.size.toNat) :
    place first f + p.size ≤ place first last + imageLast.size := by
  have hfirst := h.first_le hf
  have hlast := h.first_le (last_mem_range ..)
  rcases h.le_last hf with rfl | hle
  · rw [eq_of_name hdistinct hp hmem (hpname.trans hname.symm)]
  · show f.base.toNat - first.base.toNat + p.size ≤
      last.base.toNat - first.base.toNat + imageLast.size
    omega

/-- What a run that completes has made. -/
theorem LaidOut.layout (h : LaidOut info pre mid post first last)
    (hdistinct : (parts.map ImagePartition.name).Nodup) (hmem : imageLast ∈ parts)
    (hname : imageLast.name = last.name) {image : Bytes}
    (hfits : Fits first parts (range first mid last))
    (hstore : storeAll (List.replicate (place first last + imageLast.size) 0xff)
      ((copiesOf ImagePartition.name first parts (range first mid last)).map fun c =>
        (c.1, c.2.data)) = some image) :
    SysupgradeLayout first last (range first mid last) parts imageLast image := by
  have hlength : image.length = place first last + imageLast.size := by
    rw [length_storeAll _ hstore, List.length_replicate]
  -- names are distinct, so the lookup finds the part that is meant
  have hfind : ∀ f : FlashPartition, ∀ p ∈ parts, p.name = f.name →
      (parts.find? fun p => f.name = p.name) = some p := by
    intro f p hp hpname
    rw [find?_name_comm, ← hpname]
    exact find?_of_nodup hdistinct hp
  have hsize : ∀ f ∈ range first mid last, ∀ p ∈ parts, p.name = f.name →
      p.size ≤ f.size.toNat := fun f hf p hp hpname => (hfits f hf p (hfind f p hp hpname)).1
  refine ⟨hlength, hsize, fun f hf p hp hpname => ?_, fun f hf p hp hpname j hj => ?_,
    fun f hf g hg hne p hp q hq hpname hqname => ?_, fun j hj hrest => ?_⟩
  · rw [hlength]
    exact ⟨h.first_le hf, h.inBounds hdistinct hmem hname hf hp hpname (hsize f hf p hp hpname)⟩
  · -- the copy of `p` is one of them, and they are apart
    have hapart := copiesOf_apart h.range_sorted (fun f hf => h.first_le hf) hfits
    have hcopy : (place first f, p) ∈
        copiesOf ImagePartition.name first parts (range first mid last) :=
      (mem_copiesOf_iff hdistinct).mpr ⟨f, hf, p, hp, hpname, rfl⟩
    exact getElem?_storeAll_of_apart ImagePartition.data hstore hapart hcopy hj
  · have hf' := h.first_le hf
    have hg' := h.first_le hg
    have hp' := hsize f hf p hp hpname
    have hq' := hsize g hg q hq hqname
    have horder := h.range_apart hf hg hne
    unfold place
    omega
  · rw [getElem?_storeAll_uncovered ImagePartition.data hstore]
    · exact List.getElem?_replicate_of_lt (by omega)
    · intro c hc
      obtain ⟨f, hf, p, hp, hpname, rfl⟩ := (mem_copiesOf_iff hdistinct).mp hc
      exact hrest f hf p hp hpname

/-- On such a board a run comes to its loop, with a buffer that ends where the last partition
    does. -/
theorem LaidOut.run (h : LaidOut info pre mid post first last)
    (hfind : (parts.find? fun p => p.name = info.lastSysupgradePartition) = some imageLast) :
    generateSysupgradeImage info parts = copyParts first parts (range first mid last)
      (List.replicate (place first last + imageLast.size) 0xff) := by
  have hdistance : (last.base - first.base).toNat = place first last := by
    refine UInt32.toNat_sub_of_le _ _ ?_
    rw [UInt32.le_iff_toNat_le]
    exact h.first_le (last_mem_range ..)
  unfold generateSysupgradeImage
  rw [h.findEnds_eq]
  dsimp only
  rw [if_pos (by omega), hfind]
  dsimp only
  rw [h.slice, hdistance]

/-- **The sysupgrade image of a board that is laid out**: the too-big error, or every partition
    between the ends at its place and 0xff everywhere else. -/
theorem generateSysupgradeImage_layout (h : LaidOut info pre mid post first last)
    (hdistinct : (parts.map ImagePartition.name).Nodup) (hmem : imageLast ∈ parts)
    (hname : imageLast.name = info.lastSysupgradePartition) :
    (∃ f ∈ range first mid last, ∃ p ∈ parts, p.name = f.name ∧ f.size.toNat < p.size ∧
      generateSysupgradeImage info parts = .error (tooBig f)) ∨
    ∃ image, generateSysupgradeImage info parts = .ok image ∧
      SysupgradeLayout first last (range first mid last) parts imageLast image := by
  have hname' : imageLast.name = last.name := by rw [h.last_name, hname]
  have hlast : (parts.find? fun p => p.name = info.lastSysupgradePartition) = some imageLast := by
    rw [← hname]
    exact find?_of_nodup hdistinct hmem
  have hbounds : ∀ f ∈ range first mid last, ∀ p ∈ parts, p.name = f.name →
      p.size ≤ f.size.toNat → place first f + p.size ≤
        (List.replicate (place first last + imageLast.size) (0xff : UInt8)).length := by
    intro f hf p hp hpname hsize
    rw [List.length_replicate]
    exact h.inBounds hdistinct hmem hname' hf hp hpname hsize
  rw [h.run hlast]
  rcases copyParts_tooBig_or (range first mid last) _ (fun f hf => h.first_le hf) hbounds with
    hstop | ⟨image, hok⟩
  · exact Or.inl hstop
  · obtain ⟨hfits, hstore⟩ := (copyParts_ok_iff _).mp hok
    exact Or.inr ⟨image, hok, h.layout hdistinct hmem hname' hfits hstore⟩

end Board

/-! ### The CPE210 -/

/-- The entry of `boards` for the CPE210/220: two partitions are between the ends. -/
def cpe210 : DeviceInfo where
  id := cstring "CPE210"
  vendor := some (cstring "CPE510(TP-LINK|UN|N300-5):1.0\r\n")
  supportList := cstring "SupportList:\r\n" ++ cstring "CPE210(TP-LINK|UN|N300-2):1.0\r\n" ++
    cstring "CPE210(TP-LINK|UN|N300-2):1.1\r\n" ++ cstring "CPE210(TP-LINK|US|N300-2):1.1\r\n" ++
    cstring "CPE210(TP-LINK|EU|N300-2):1.1\r\n" ++ cstring "CPE220(TP-LINK|UN|N300-2):1.1\r\n" ++
    cstring "CPE220(TP-LINK|US|N300-2):1.1\r\n" ++ cstring "CPE220(TP-LINK|EU|N300-2):1.1\r\n"
  supportTrail := 0xff
  softVer := none
  partitions :=
    [⟨cstring "fs-uboot", 0x00000, 0x20000⟩,
     ⟨cstring "partition-table", 0x20000, 0x02000⟩,
     ⟨cstring "default-mac", 0x30000, 0x00020⟩,
     ⟨cstring "product-info", 0x31100, 0x00100⟩,
     ⟨cstring "signature", 0x32000, 0x00400⟩,
     ⟨cstring "os-image", 0x40000, 0x1c0000⟩,
     ⟨cstring "file-system", 0x200000, 0x5b0000⟩,
     ⟨cstring "soft-version", 0x7b0000, 0x00100⟩,
     ⟨cstring "support-list", 0x7b1000, 0x00400⟩,
     ⟨cstring "user-config", 0x7c0000, 0x10000⟩,
     ⟨cstring "default-config", 0x7d0000, 0x10000⟩,
     ⟨cstring "log", 0x7e0000, 0x10000⟩,
     ⟨cstring "radio", 0x7f0000, 0x10000⟩]
  firstSysupgradePartition := cstring "os-image"
  lastSysupgradePartition := cstring "support-list"
  partitions_length := by decide

/-- The CPE210: from os-image to support-list, with two partitions between. -/
theorem cpe210_laidOut : LaidOut cpe210 (cpe210.partitions.take 5)
    ((cpe210.partitions.drop 6).take 2) (cpe210.partitions.drop 9)
    ⟨cstring "os-image", 0x40000, 0x1c0000⟩ ⟨cstring "support-list", 0x7b1000, 0x00400⟩ where
  partitions := rfl
  distinct := by decide +kernel
  sorted := by decide +kernel
  first_name := rfl
  last_name := rfl

/-- Three partitions, the last one first. -/
def cpe210Parts : List ImagePartition :=
  ⟨cstring "support-list", [0x00, 0x00, 0x00, 0x0a]⟩ :: sampleParts

/-- The file-system of a CPE210 has no partition here, so its flash is erased. -/
theorem generateSysupgradeImage_cpe210 : ∃ image,
    generateSysupgradeImage cpe210 cpe210Parts = .ok image ∧
      SysupgradeLayout ⟨cstring "os-image", 0x40000, 0x1c0000⟩
        ⟨cstring "support-list", 0x7b1000, 0x00400⟩
        (range ⟨cstring "os-image", 0x40000, 0x1c0000⟩ ((cpe210.partitions.drop 6).take 2)
          ⟨cstring "support-list", 0x7b1000, 0x00400⟩)
        cpe210Parts ⟨cstring "support-list", [0x00, 0x00, 0x00, 0x0a]⟩ image := by
  have hfits : ∀ f ∈ range ⟨cstring "os-image", 0x40000, 0x1c0000⟩
      ((cpe210.partitions.drop 6).take 2) ⟨cstring "support-list", 0x7b1000, 0x00400⟩,
      ∀ p ∈ cpe210Parts, p.name = f.name → p.size ≤ f.size.toNat := by decide +kernel
  have hdistinct : (cpe210Parts.map ImagePartition.name).Nodup := by decide
  rcases generateSysupgradeImage_layout cpe210_laidOut hdistinct List.mem_cons_self rfl with
    ⟨f, hf, p, hp, hname, hbig, -⟩ | h
  · exact absurd (hfits f hf p hp hname) (Nat.not_le.mpr hbig)
  · exact h

end Safewrt.Safeloader
