/-
  What of the host's memory reaches an image (tools/tplink-safeloader/tplink-safeloader.c).

  Two buffers are not written in full: the one of os-image, which has room for the last block of the
  kernel and gets the rootfs right behind the kernel's last byte, and the 4096 bytes of identity on
  the stack, behind a text of 47.  Whether their old bytes reach the file is decided here.

  1. Two runs that differ in their memory prepare partitions that are `Alike`: the same names and
     sizes, the same bytes but for the identity partition from its text on — once the kernel fills
     its 64 KiB blocks, so that os-image has no gap behind the rootfs.

  2. A byte of a sysupgrade image is that of the last partition copied over it (`sysupgrade_byte`).
     Which partition that is does not depend on the memory, only on names and sizes (`Piece`).

  3. **`buildImage_reproducible_iff`** — the image depends on its inputs alone if and only if the
     kernel fills its blocks and no byte of identity behind its text shows in the image.

  4. That it leaks elsewhere is shown by two memories that are all one byte (`flatMemory`): the
     images they lead to differ at a place the condition names (`stack_byte_of_shows`).
-/
import Safewrt.Safeloader.Complete

namespace Safewrt.Safeloader

open Safewrt.Lib

/-! ## Where the bytes of a sysupgrade image come from

  The second loop of `generate_sysupgrade_image` is a list of copies.  Which copies these are, and
  where they go, depends on the names and the sizes of the parts and not on their bytes. -/

/-- A partition by its name and its size. -/
abbrev Piece := CString × Nat

/-- What of a partition decides where it goes: its name and its size. -/
def piece (p : ImagePartition) : Piece := (p.name, p.size)

/-- The copies of `copyParts`: where a partition goes, and which. -/
def copiesOf {α : Type} (name : α → CString) (first : FlashPartition) (parts : List α)
    (fs : List FlashPartition) : List (Nat × α) :=
  fs.filterMap fun f => (parts.find? fun p => f.name = name p).map fun p =>
    (f.base.toNat - first.base.toNat, p)

/-- The copies are known from names and sizes. -/
theorem copiesOf_map {α β : Type} (name : β → CString) (g : α → β) (first : FlashPartition)
    (parts : List α) (fs : List FlashPartition) :
    copiesOf name first (parts.map g) fs =
      (copiesOf (fun p => name (g p)) first parts fs).map fun c => (c.1, g c.2) := by
  rw [copiesOf, copiesOf, List.map_filterMap]
  congr 1
  funext f
  rw [List.find?_map, Option.map_map, Option.map_map]
  rfl

/-- What the second loop asks of a partition that it copies. -/
def Fits (first : FlashPartition) (parts : List ImagePartition) (fs : List FlashPartition) : Prop :=
  ∀ f ∈ fs, ∀ p, (parts.find? fun p => f.name = p.name) = some p →
    p.size ≤ f.size.toNat ∧ ¬ f.base < first.base

/-- **The second loop is a row of copies.** -/
theorem copyParts_ok_iff {first : FlashPartition} {parts : List ImagePartition}
    (fs : List FlashPartition) : ∀ {image image' : Bytes},
      copyParts first parts fs image = .ok image' ↔ Fits first parts fs ∧
        storeAll image ((copiesOf ImagePartition.name first parts fs).map fun c =>
          (c.1, c.2.data)) = some image' := by
  induction fs with
  | nil =>
    intro image image'
    simp [copyParts, Fits, copiesOf]
  | cons f fs ih =>
    intro image image'
    rw [Fits, List.forall_mem_cons, ← Fits, copyParts]
    cases hfind : parts.find? fun p => f.name = p.name with
    | none =>
      have hcopies : copiesOf ImagePartition.name first parts (f :: fs) =
          copiesOf ImagePartition.name first parts fs := by
        rw [copiesOf, List.filterMap_cons, hfind]
        rfl
      dsimp only
      rw [ih, hcopies]
      simp
    | some p =>
      have hcopies : copiesOf ImagePartition.name first parts (f :: fs) =
          (f.base.toNat - first.base.toNat, p) :: copiesOf ImagePartition.name first parts fs := by
        rw [copiesOf, List.filterMap_cons, hfind]
        rfl
      dsimp only
      rw [hcopies, List.map_cons, storeAll_cons]
      -- too big, or below the first partition: then the loop stops, and it does not fit
      by_cases hsize : p.size > f.size.toNat
      · rw [if_pos hsize]
        refine iff_of_false (by simp [tooBig]) fun h => ?_
        have hle := (h.1.1 p rfl).1
        omega
      by_cases hbase : f.base < first.base
      · rw [if_neg hsize, if_pos hbase]
        exact iff_of_false (by simp) fun h => (h.1.1 p rfl).2 hbase
      rw [if_neg hsize, if_neg hbase, bind_eq_ok]
      have hfits : ∀ q, some p = some q → q.size ≤ f.size.toNat ∧ ¬ f.base < first.base := by
        rintro q ⟨⟩
        exact ⟨by omega, hbase⟩
      constructor
      · rintro ⟨mid, hmid, hrest⟩
        obtain ⟨hall, hstore⟩ := ih.mp hrest
        exact ⟨⟨hfits, hall⟩, Option.bind_eq_some_iff.mpr ⟨mid, memcpy_eq_ok.mp hmid, hstore⟩⟩
      · rintro ⟨⟨-, hall⟩, hstore⟩
        obtain ⟨mid, hmid, hrest⟩ := Option.bind_eq_some_iff.mp hstore
        exact ⟨mid, memcpy_eq_ok.mpr hmid, ih.mpr ⟨hall, hrest⟩⟩

/-- The first sysupgrade partition, and the flash partitions from it to the last. -/
def sysupgradeRange (info : DeviceInfo) : Option (FlashPartition × List FlashPartition) :=
  match findEnds info with
  | (some (i, first), some (l, _)) => some (first, (info.partitions.drop i).take (l + 1 - i))
  | _ => none

/-- **A sysupgrade image**: its range, and for each byte the last copy over it. -/
theorem generateSysupgradeImage_ok_iff {info : DeviceInfo} {parts : List ImagePartition}
    {image : Bytes} :
    generateSysupgradeImage info parts = .ok image ↔
      ∃ i first l last imageLast, findEnds info = (some (i, first), some (l, last)) ∧ i < l ∧
        (parts.find? fun p => p.name = info.lastSysupgradePartition) = some imageLast ∧
        Fits first parts ((info.partitions.drop i).take (l + 1 - i)) ∧
        storeAll (List.replicate ((last.base - first.base).toNat + imageLast.size) 0xff)
          ((copiesOf ImagePartition.name first parts
            ((info.partitions.drop i).take (l + 1 - i))).map fun c => (c.1, c.2.data)) =
              some image := by
  unfold generateSysupgradeImage
  constructor
  · intro h
    split at h
    · rename_i i first l last hends
      split at h
      · rename_i hlt
        split at h
        · exact absurd h (by simp)
        · rename_i imageLast hlast
          exact ⟨i, first, l, last, imageLast, hends, hlt, hlast, (copyParts_ok_iff _).mp h⟩
      · exact absurd h (by simp)
    · exact absurd h (by simp)
  · rintro ⟨i, first, l, last, imageLast, hends, hlt, hlast, hcopies⟩
    rw [hends]
    dsimp only
    rw [if_pos hlt, hlast]
    exact (copyParts_ok_iff _).mpr hcopies

/-! ## Runs that differ in their memory

  `Alike` is the relation between what the two runs prepare.  It is kept part by part, and whatever
  looks at names and sizes only does the same in both. -/

/-- The same partition, but for what stands behind the text of identity. -/
structure Alike (p q : ImagePartition) : Prop where
  name : p.name = q.name
  size : p.size = q.size
  bytes : ∀ j, (p.name = cstring "identity" → j < 47) → p.data[j]? = q.data[j]?

theorem Alike.refl (p : ImagePartition) : Alike p p := ⟨rfl, rfl, fun _ _ => rfl⟩

/-- Partitions that are alike go to the same places. -/
theorem pieces_eq {ps qs : List ImagePartition} (h : List.Forall₂ Alike ps qs) :
    ps.map piece = qs.map piece := by
  induction h with
  | nil => rfl
  | cons hpq _ ih => rw [List.map_cons, List.map_cons, ih, piece, piece, hpq.name, hpq.size]

/-- Partitions of one name are alike. -/
theorem alike_of_name {ps qs : List ImagePartition} (h : List.Forall₂ Alike ps qs)
    (hnodup : (ps.map ImagePartition.name).Nodup) : ∀ {p q : ImagePartition}, p ∈ ps → q ∈ qs →
      p.name = q.name → Alike p q := by
  induction h with
  | nil => exact fun hp => absurd hp (by simp)
  | @cons p' q' ps qs hpq hrest ih =>
    intro p q hp hq hname
    rw [List.map_cons, List.nodup_cons] at hnodup
    have hnames : ps.map ImagePartition.name = qs.map ImagePartition.name := by
      have hpieces := congrArg (List.map Prod.fst) (pieces_eq hrest)
      rw [List.map_map, List.map_map] at hpieces
      exact hpieces
    rcases List.mem_cons.mp hp with rfl | hp
    · rcases List.mem_cons.mp hq with rfl | hq
      · exact hpq
      · refine absurd ?_ hnodup.1
        rw [hname, hnames]
        exact List.mem_map_of_mem hq
    · rcases List.mem_cons.mp hq with rfl | hq
      · refine absurd ?_ hnodup.1
        rw [hpq.name, ← hname]
        exact List.mem_map_of_mem hp
      · exact ih hnodup.2 hp hq hname

/-- Looking for a name finds partitions that are alike. -/
theorem find_alike {ps qs : List ImagePartition} (h : List.Forall₂ Alike ps qs)
    (f : CString → Bool) {p : ImagePartition} (hp : (ps.find? fun p => f p.name) = some p) :
    ∃ q, (qs.find? fun q => f q.name) = some q ∧ Alike p q := by
  induction h with
  | nil => exact absurd hp (by simp)
  | @cons p' q' ps qs hpq hrest ih =>
    have hsame : f q'.name = f p'.name := by rw [hpq.name]
    cases hf : f p'.name with
    | true =>
      simp only [List.find?_cons, hf] at hp
      rw [← Option.some.inj hp]
      exact ⟨q', by simp only [List.find?_cons, hsame, hf], hpq⟩
    | false =>
      simp only [List.find?_cons, hf] at hp
      simp only [List.find?_cons, hsame, hf]
      exact ih hp

theorem Alike.symm {p q : ImagePartition} (h : Alike p q) : Alike q p :=
  ⟨h.name.symm, h.size.symm, fun j hj => (h.bytes j fun hp => hj (h.name ▸ hp)).symm⟩

theorem alike_symm {ps qs : List ImagePartition} (h : List.Forall₂ Alike ps qs) :
    List.Forall₂ Alike qs ps := h.flip.imp fun _ _ => Alike.symm

/-- The copies of alike partitions, by name and size. -/
theorem copies_eq {ps qs : List ImagePartition} (h : List.Forall₂ Alike ps qs)
    (first : FlashPartition) (fs : List FlashPartition) :
    (copiesOf ImagePartition.name first ps fs).map (fun c => (c.1, piece c.2)) =
      (copiesOf ImagePartition.name first qs fs).map fun c => (c.1, piece c.2) := by
  have hps := copiesOf_map Prod.fst piece first ps fs
  have hqs := copiesOf_map Prod.fst piece first qs fs
  rw [pieces_eq h] at hps
  exact hps.symm.trans hqs

/-- **If one run makes a sysupgrade image, so does the other.** -/
theorem sysupgrade_isOk_of_alike {info : DeviceInfo} {ps qs : List ImagePartition} {a : Bytes}
    (h : List.Forall₂ Alike ps qs) (ha : generateSysupgradeImage info ps = .ok a) :
    ∃ b, generateSysupgradeImage info qs = .ok b ∧ b.length = a.length := by
  obtain ⟨i, first, l, last, imageLast, hends, hlt, hlast, hfits, hstore⟩ :=
    generateSysupgradeImage_ok_iff.mp ha
  obtain ⟨imageLast', hlast', halike⟩ := find_alike h
    (fun name => decide (name = info.lastSysupgradePartition)) hlast
  -- what fits is decided by sizes, which are the same
  have hfits' : Fits first qs ((info.partitions.drop i).take (l + 1 - i)) := by
    intro f hf q hq
    obtain ⟨p, hp, hqp⟩ := find_alike (alike_symm h) (fun name => decide (f.name = name)) hq
    rw [hqp.size]
    exact hfits f hf p hp
  -- so are the places of the copies
  have hinside : ∀ copy ∈ (copiesOf ImagePartition.name first qs ((info.partitions.drop i).take
      (l + 1 - i))).map (fun c => (c.1, c.2.data)), copy.1 + copy.2.length ≤
        (List.replicate ((last.base - first.base).toNat + imageLast.size) (0xff : UInt8)).length := by
    intro copy hcopy
    obtain ⟨c, hc, rfl⟩ := List.mem_map.mp hcopy
    have hmem : (c.1, piece c.2) ∈ (copiesOf ImagePartition.name first qs
        ((info.partitions.drop i).take (l + 1 - i))).map (fun c => (c.1, piece c.2)) :=
      List.mem_map_of_mem hc
    rw [← copies_eq h] at hmem
    obtain ⟨d, hd, hpiece⟩ := List.mem_map.mp hmem
    obtain ⟨hplace, hsame⟩ := Prod.mk.inj hpiece
    have hsize : d.2.size = c.2.size := congrArg Prod.snd hsame
    have hle := (storeAll_isSome_iff _ _).mp (Option.isSome_iff_exists.mpr ⟨a, hstore⟩) _
      (List.mem_map_of_mem hd)
    unfold ImagePartition.size at hsize
    rw [← hplace, ← hsize]
    exact hle
  obtain ⟨b, hb⟩ := Option.isSome_iff_exists.mp ((storeAll_isSome_iff _ _).mpr hinside)
  refine ⟨b, generateSysupgradeImage_ok_iff.mpr ⟨i, first, l, last, imageLast', hends, hlt, hlast',
    hfits', ?_⟩, ?_⟩
  · rw [← halike.size]
    exact hb
  · rw [length_storeAll _ hb, length_storeAll _ hstore]

/-- The partition whose copy byte `i` of a sysupgrade image is from, with the copy's place. -/
def shown (info : DeviceInfo) (pieces : List Piece) (i : Nat) : Option (Nat × Piece) :=
  match sysupgradeRange info with
  | none => none
  | some (first, fs) => lastOver Prod.snd (copiesOf Prod.fst first pieces fs) i

/-- **A byte of a sysupgrade image.** -/
theorem sysupgrade_byte {info : DeviceInfo} {parts : List ImagePartition} {image : Bytes}
    (h : generateSysupgradeImage info parts = .ok image) (i : Nat) :
    (shown info (parts.map piece) i = none ∧ image[i]? = (List.replicate image.length 0xff)[i]?) ∨
      ∃ o p, p ∈ parts ∧ shown info (parts.map piece) i = some (o, piece p) ∧
        i - o < p.size ∧ image[i]? = p.data[i - o]? := by
  obtain ⟨k, first, l, last, imageLast, hends, hlt, hlast, hfits, hstore⟩ :=
    generateSysupgradeImage_ok_iff.mp h
  have hrange : sysupgradeRange info =
      some (first, (info.partitions.drop k).take (l + 1 - k)) := by
    rw [sysupgradeRange, hends]
  have hbyte := getElem?_storeAll (i := i) ImagePartition.data _ hstore
  -- `shown` is the last copy over `i`, seen by name and size only
  have hshown : shown info (parts.map piece) i = (lastOver (fun p => p.data.length)
      (copiesOf ImagePartition.name first parts ((info.partitions.drop k).take (l + 1 - k)))
        i).map fun c => (c.1, piece c.2) := by
    rw [shown, hrange]
    dsimp only
    rw [copiesOf_map, lastOver_map]
    rfl
  have hlength := length_storeAll _ hstore
  rw [hshown]
  cases hover : lastOver (fun p => p.data.length)
      (copiesOf ImagePartition.name first parts ((info.partitions.drop k).take (l + 1 - k))) i with
  | none =>
    rw [hover] at hbyte
    refine Or.inl ⟨rfl, ?_⟩
    rw [hbyte, hlength, List.length_replicate]
  | some c =>
    rw [hover] at hbyte
    obtain ⟨hmem, hle, hsize⟩ := lastOver_covers _ hover
    obtain ⟨f, -, hf⟩ := List.mem_filterMap.mp hmem
    obtain ⟨p, hp, rfl⟩ := Option.map_eq_some_iff.mp hf
    refine Or.inr ⟨_, p, List.mem_of_find?_eq_some hp, rfl, ?_, hbyte⟩
    unfold ImagePartition.size
    dsimp only at hle hsize ⊢
    omega

/-! ## What two runs prepare

  `osImage` and `identity` are the two parts with bytes of the memory in them; for all others the
  two runs are equal. -/

/-- A table that lists something does not depend on the memory. -/
theorem partitionTable_unique {fresh fresh' : Nat → UInt8} {flash : List FlashPartition}
    {table table' : ImagePartition} (hne : flash ≠ [])
    (h : makePartitionTable fresh flash = .ok table)
    (h' : makePartitionTable fresh' flash = .ok table') : table = table' := by
  obtain ⟨hname, -, zero, hzero, hdata⟩ := makePartitionTable_ok h
  obtain ⟨hname', -, zero', hzero', hdata'⟩ := makePartitionTable_ok h'
  rw [hzero hne] at hdata
  rw [hzero' hne] at hdata'
  cases table
  cases table'
  dsimp only at hname hname' hdata hdata'
  rw [hname, hname', hdata, hdata']

/-- A kernel that fills its blocks leaves no gap. -/
theorem osImage_eq {memory : Memory} {kernel rootfs : Bytes} (h : kernel.length % 0x10000 = 0) :
    osImage memory kernel rootfs = ⟨cstring "os-image", kernel ++ rootfs⟩ := by
  have halign : align kernel.length = kernel.length := by
    unfold align
    omega
  rw [osImage, List.drop_eq_nil_of_le (by rw [length_malloc, halign]), List.append_nil]

/-- A kernel that does not, leaves a byte of the heap. -/
theorem osImage_gap (memory : Memory) (kernel rootfs : Bytes) (h : kernel.length % 0x10000 ≠ 0) :
    (osImage memory kernel rootfs).data[kernel.length + rootfs.length]? =
      some (memory.heap 3 (kernel.length + rootfs.length)) := by
  have halign : kernel.length < align kernel.length := by
    unfold align
    omega
  have hlen : (kernel ++ rootfs).length = kernel.length + rootfs.length := List.length_append
  rw [osImage, List.getElem?_append_right (by omega), hlen, Nat.sub_self, List.getElem?_drop,
    Nat.add_zero, malloc, List.getElem?_map, List.getElem?_range (by omega)]
  rfl

/-- Two runs make identity partitions that agree on their text. -/
theorem identity_alike (memory memory' : Memory) : Alike (identity memory) (identity memory') where
  name := rfl
  size := by
    rw [ImagePartition.size, ImagePartition.size, length_identity, length_identity]
  bytes := by
    intro j hj
    have htext : (identityText ++ [0]).length = 47 := by decide
    have hlt := hj rfl
    have hleft : ∀ s : Bytes, ((identityText ++ [0]) ++ s)[j]? = (identityText ++ [0])[j]? :=
      fun s => List.getElem?_append_left (by rw [htext]; exact hlt)
    exact (hleft _).trans (hleft _).symm

/-- Behind the text the identity partition holds the stack. -/
theorem identity_byte {memory : Memory} {j : Nat} (h : 47 ≤ j) (hj : j < 4096) :
    (identity memory).data[j]? = some (memory.stack j) := by
  have htext : (identityText ++ [0]).length = 47 := by decide
  have hsum : 47 + (j - 47) = j := by omega
  rw [identity, List.getElem?_append_right (by omega), htext, List.getElem?_drop, hsum, malloc,
    List.getElem?_map, List.getElem?_range hj]
  rfl

/-- The partitions that the consumers see, by name and size. -/
def visiblePieces (stamp : Stamp) (info : DeviceInfo) (kernel rootfs genesis : Bytes) :
    List Piece :=
  [(cstring "partition-table", 0x800), (cstring "soft-version", (softVersion stamp info).size),
    (cstring "support-list", (supportList info).size),
    (cstring "os-image", align kernel.length + rootfs.length)] ++
  if (extraParaData info.id).isSome then
    [(cstring "extra-para", 11), (cstring "identity", 4096), (cstring "sysconf", 1024),
      (cstring "file-system", genesis.length)]
  else []

section Runs

variable {slots slots' : List (Option ImagePartition)} {memory memory' : Memory} {stamp : Stamp}
  {info : DeviceInfo} {kernel rootfs genesis : Bytes} {table table' : ImagePartition}

/-- Names and sizes do not depend on the memory. -/
theorem Filled.pieces (h : Filled slots memory stamp info kernel rootfs genesis table) :
    (visible slots).map piece = visiblePieces stamp info kernel rootfs genesis := by
  have hname := (makePartitionTable_ok h.isTable).1
  have hsize := size_partitionTable h.isTable
  have hidentity : (identity memory).size = 4096 := length_identity memory
  cases hpara : extraParaData info.id with
  | none =>
    rw [(h.visible_none hpara).1, visiblePieces, hpara]
    simp only [List.map_cons, List.map_nil, piece, hname, hsize, size_osImage]
    rfl
  | some mdat =>
    have hmdat : (⟨cstring "extra-para", mdat⟩ : ImagePartition).size = 11 :=
      length_extraParaData hpara
    rw [(h.visible_some hpara).1, visiblePieces, hpara]
    simp only [List.cons_append, List.nil_append, List.map_cons, List.map_nil, piece, hname, hsize,
      size_osImage, hmdat, hidentity, size_sysconf]
    rfl

/-- **Two runs prepare partitions that are alike**, if the kernel fills its blocks. -/
theorem Filled.alike (h : Filled slots memory stamp info kernel rootfs genesis table)
    (h' : Filled slots' memory' stamp info kernel rootfs genesis table')
    (hne : info.partitions ≠ []) (hkernel : kernel.length % 0x10000 = 0) :
    List.Forall₂ Alike (visible slots) (visible slots') := by
  have htable := partitionTable_unique hne h.isTable h'.isTable
  subst htable
  cases hpara : extraParaData info.id with
  | none =>
    rw [(h.visible_none hpara).1, (h'.visible_none hpara).1, osImage_eq hkernel, osImage_eq hkernel]
    exact List.forall₂_same.mpr fun p _ => Alike.refl p
  | some mdat =>
    rw [(h.visible_some hpara).1, (h'.visible_some hpara).1, osImage_eq hkernel,
      osImage_eq hkernel]
    exact .cons (Alike.refl _) (.cons (Alike.refl _) (.cons (Alike.refl _) (.cons (Alike.refl _)
      (.cons (Alike.refl _) (.cons (identity_alike memory memory') (.cons (Alike.refl _)
        (.cons (Alike.refl _) .nil)))))))

/-- A name tells which partition it is. -/
theorem eq_of_name {ps : List ImagePartition} (hnodup : (ps.map ImagePartition.name).Nodup)
    {p q : ImagePartition} (hp : p ∈ ps) (hq : q ∈ ps) (hname : p.name = q.name) : p = q := by
  have hpfind := find?_of_nodup hnodup hp
  rw [hname, find?_of_nodup hnodup hq] at hpfind
  exact (Option.some.inj hpfind).symm

/-- There is one partition of that name. -/
theorem Filled.identity_of_name (h : Filled slots memory stamp info kernel rootfs genesis table)
    {p : ImagePartition} (hp : p ∈ visible slots) (hname : p.name = cstring "identity") :
    p = identity memory := by
  cases hpara : extraParaData info.id with
  | none =>
    exact absurd hname (h.absent hpara (by decide) p hp)
  | some mdat =>
    have hmem : identity memory ∈ visible slots := by
      rw [(h.visible_some hpara).1]
      simp
    exact eq_of_name h.nodup hp hmem hname

/-- The names of all that was prepared are different, also behind the empty slot. -/
theorem Filled.prepared_nodup (h : Filled slots memory stamp info kernel rootfs genesis table) :
    ((prepared slots).map ImagePartition.name).Nodup := by
  cases hpara : extraParaData info.id with
  | none =>
    rw [(h.visible_none hpara).2, List.map_cons, (makePartitionTable_ok h.isTable).1]
    exact (by decide : (partNames.eraseIdx 4).Nodup)
  | some mdat =>
    rw [(h.visible_some hpara).2]
    exact h.nodup

theorem Filled.osImage_mem (h : Filled slots memory stamp info kernel rootfs genesis table) :
    some (osImage memory kernel rootfs) ∈ slots := by
  rw [h.slots_eq]
  simp

/-- There is one os-image. -/
theorem Filled.osImage_of_mem (h : Filled slots memory stamp info kernel rootfs genesis table)
    {data : Bytes} (hmem : some ⟨cstring "os-image", data⟩ ∈ slots) :
    data = (osImage memory kernel rootfs).data := by
  have hseen : (⟨cstring "os-image", data⟩ : ImagePartition) ∈ prepared slots :=
    List.mem_filterMap.mpr ⟨_, hmem, rfl⟩
  have hos : osImage memory kernel rootfs ∈ prepared slots :=
    List.mem_filterMap.mpr ⟨_, h.osImage_mem, rfl⟩
  exact congrArg ImagePartition.data (eq_of_name h.prepared_nodup hseen hos rfl)

end Runs

/-! ## Reproducible images

  One direction compares two runs through `Alike`.  The other picks two memories that are constant
  and finds a byte of the image that would have to be both. -/

/-- A byte of identity behind its text shows in the image: a factory image has the whole partition,
    a sysupgrade image what no later copy covers. -/
def IdentityShows (sysupgrade : Bool) (info : DeviceInfo) (pieces : List Piece) : Prop :=
  if sysupgrade then ∃ i o n, shown info pieces i = some (o, cstring "identity", n) ∧ 47 ≤ i - o
  else ∃ n, (cstring "identity", n) ∈ pieces

/-- It does not show in a factory image of a board without extra-para. -/
theorem not_identityShows {stamp : Stamp} {info : DeviceInfo} {kernel rootfs genesis : Bytes}
    (hpara : extraParaData info.id = none) :
    ¬ IdentityShows false info (visiblePieces stamp info kernel rootfs genesis) := by
  rintro ⟨n, hmem⟩
  rw [visiblePieces, hpara] at hmem
  have hname : cstring "identity" ∈ partNames.take 4 := List.mem_map_of_mem (f := Prod.fst) hmem
  exact absurd hname (by decide)

/-- The partitions of a run that wrote an image: some flash partition is there. -/
theorem partitions_ne_nil {md5 : Md5} {info : DeviceInfo} {parts : List ImagePartition}
    {sysupgrade : Bool} {image : Bytes} (hparts : parts ≠ [])
    (h : (if sysupgrade then generateSysupgradeImage info parts
      else generateFactoryImage md5 info parts) = .ok image) : info.partitions ≠ [] := by
  intro hnil
  cases sysupgrade with
  | false =>
    obtain ⟨p, ps, rfl⟩ := List.exists_cons_of_ne_nil hparts
    obtain ⟨f, hf, -⟩ := (generateFactoryImage_ok h).1 p List.mem_cons_self
    rw [hnil] at hf
    exact absurd hf (by simp)
  | true =>
    obtain ⟨i, first, l, last, imageLast, hends, -⟩ := generateSysupgradeImage_ok_iff.mp h
    rw [findEnds, hnil] at hends
    exact absurd hends (by simp)

/-- Without the identity partition, partitions that are alike are the same. -/
theorem eq_of_alike {ps qs : List ImagePartition} (h : List.Forall₂ Alike ps qs)
    (hnone : ∀ p ∈ ps, p.name ≠ cstring "identity") : ps = qs := by
  induction h with
  | nil => rfl
  | @cons p q ps qs hpq hrest ih =>
    rw [List.forall_mem_cons] at hnone
    have hdata : p.data = q.data :=
      List.ext_getElem? fun j => hpq.bytes j fun hname => absurd hname hnone.1
    cases p
    cases q
    have hname := hpq.name
    dsimp only at hname hdata
    rw [hname, hdata, ih hnone.2]

/-- **Alike partitions make the same image**, if identity does not show. -/
theorem image_eq_of_alike {md5 : Md5} {info : DeviceInfo} {ps qs : List ImagePartition}
    {sysupgrade : Bool} {image : Bytes} (halike : List.Forall₂ Alike ps qs)
    (hnodup : (ps.map ImagePartition.name).Nodup)
    (hhidden : ¬ IdentityShows sysupgrade info (ps.map piece))
    (h : (if sysupgrade then generateSysupgradeImage info ps
      else generateFactoryImage md5 info ps) = .ok image) :
    (if sysupgrade then generateSysupgradeImage info qs
      else generateFactoryImage md5 info qs) = .ok image := by
  cases sysupgrade with
  | false =>
    have hsame := eq_of_alike halike fun p hp hname => hhidden
      ⟨p.size, List.mem_map.mpr ⟨p, hp, by rw [piece, hname]⟩⟩
    rw [← hsame]
    exact h
  | true =>
    obtain ⟨image', himage', hlength⟩ := sysupgrade_isOk_of_alike halike h
    -- byte by byte: both images take it from partitions of one name, or both from the 0xff
    have hsame : image' = image := by
      refine List.ext_getElem? fun i => ?_
      rcases sysupgrade_byte h i with ⟨hnone, hbyte⟩ | ⟨o, p, hp, hshown, -, hbyte⟩
      · rcases sysupgrade_byte himage' i with ⟨-, hbyte'⟩ | ⟨o', q, -, hshown', -⟩
        · rw [hbyte, hbyte', hlength]
        · rw [← pieces_eq halike, hnone] at hshown'
          exact absurd hshown' (by simp)
      · rcases sysupgrade_byte himage' i with ⟨hnone', -⟩ | ⟨o', q, hq, hshown', -, hbyte'⟩
        · rw [← pieces_eq halike, hshown] at hnone'
          exact absurd hnone' (by simp)
        · rw [← pieces_eq halike, hshown] at hshown'
          obtain ⟨ho, hpiece⟩ := Prod.mk.inj (Option.some.inj hshown')
          have hpq := alike_of_name halike hnodup hp hq (congrArg Prod.fst hpiece)
          rw [hbyte, hbyte', ← ho]
          refine (hpq.bytes _ fun hname => ?_).symm
          -- a byte of identity behind its text would show
          by_contra hge
          exact hhidden ⟨i, o, p.size, by rw [hshown, piece, hname], by omega⟩
    rw [← hsame]
    exact himage'

/-- The os-image partition holds its two files and a padding that no memory changes. -/
def OsImageClean (disk : Disk) (stamp : Stamp) (info : DeviceInfo) (inputs : Inputs)
    (kernel rootfs : Bytes) : Prop :=
  ∃ padding, ∀ memory slots, prepare memory disk stamp info inputs = .ok slots →
    some ⟨cstring "os-image", kernel ++ rootfs ++ padding⟩ ∈ slots

/-- Fresh memory with one byte everywhere, on the heap and on the stack. -/
def flatMemory (heap stack : UInt8) : Memory := ⟨fun _ _ => heap, fun _ => stack⟩

/-- What a run that wrote an image says about all runs: they get as far. -/
theorem prepare_isOk_of_ok {memory : Memory} {disk : Disk} {stamp : Stamp} {info : DeviceInfo}
    {inputs : Inputs} {slots : List (Option ImagePartition)}
    (h : prepare memory disk stamp info inputs = .ok slots) (memory' : Memory) :
    ∃ slots', prepare memory' disk stamp info inputs = .ok slots' := by
  obtain ⟨table, kernel, rootfs, genesis, htable, hk, hr, hg, hne1, hne2, hne3, -⟩ := prepare_ok h
  exact prepare_isOk _ _ (makePartitionTable_ok htable).2.1 hk hr hg hne1 hne2 hne3

section Inputs

variable {memory : Memory} {disk : Disk} {stamp : Stamp} {info : DeviceInfo} {inputs : Inputs}
  {slots : List (Option ImagePartition)} {kernel rootfs genesis : Bytes}

/-- **os-image is clean if and only if the kernel fills its blocks.** -/
theorem osImageClean_iff (hkernel : disk inputs.kernelImage = some kernel)
    (hrootfs : disk inputs.rootfsImage = some rootfs)
    (hgenesis : disk inputs.genesisImage = some genesis)
    (h : prepare memory disk stamp info inputs = .ok slots) :
    OsImageClean disk stamp info inputs kernel rootfs ↔ kernel.length % 0x10000 = 0 := by
  constructor
  · rintro ⟨padding, hall⟩
    by_contra hgap
    -- the byte behind the rootfs is whatever the heap held
    have hbyte : ∀ b : UInt8, (kernel ++ rootfs ++ padding)[kernel.length + rootfs.length]? =
        some b := by
      intro b
      obtain ⟨slots', hslots'⟩ := prepare_isOk_of_ok h (flatMemory b 0)
      obtain ⟨table, hfilled⟩ := filled_of_prepare hkernel hrootfs hgenesis hslots'
      rw [hfilled.osImage_of_mem (hall _ _ hslots'), osImage_gap _ _ _ hgap]
      rfl
    have hsame := (hbyte 0).symm.trans (hbyte 1)
    exact absurd hsame (by decide)
  · intro haligned
    refine ⟨[], fun memory' slots' hslots' => ?_⟩
    obtain ⟨table, hfilled⟩ := filled_of_prepare hkernel hrootfs hgenesis hslots'
    have hmem := hfilled.osImage_mem
    rw [osImage_eq haligned] at hmem
    rw [List.append_nil]
    exact hmem

/-- In a factory image identity ends 5120 bytes before file-system begins, with sysconf between. -/
theorem Filled.factory_stack_byte
    {table : ImagePartition} (h : Filled slots memory stamp info kernel rootfs genesis table)
    {mdat : Bytes} (hpara : extraParaData info.id = some mdat) {md5 : Md5} {image : Bytes}
    (himage : generateFactoryImage md5 info (visible slots) = .ok image) :
    image[0x1014 + (fileSystemBase stamp info kernel rootfs - 5120) + 47]? =
      some (memory.stack 47) := by
  obtain ⟨-, hpayload, -⟩ := factory_parts himage
  have hbase := h.base_eq hpara
  -- what `fileSystemBase` counts, cut before identity
  have hseven : payload [table, softVersion stamp info, supportList info,
      osImage memory kernel rootfs, ⟨cstring "extra-para", mdat⟩, identity memory, sysconf] =
      payload [table, softVersion stamp info, supportList info, osImage memory kernel rootfs,
        ⟨cstring "extra-para", mdat⟩] ++ ((identity memory).data ++ payload [sysconf]) := by
    simp only [payload_cons, List.append_assoc]
    rfl
  have hlength : (payload [sysconf]).length = 1024 := by
    rw [length_payload, List.map_cons, List.map_nil, List.sum_cons, List.sum_nil, size_sysconf,
      Nat.add_zero]
  rw [hseven, List.length_append, List.length_append, length_identity, hlength] at hbase
  have hplace : 0x1014 + (fileSystemBase stamp info kernel rootfs - 5120) + 47 =
      0x800 + 0x1014 + ((payload [table, softVersion stamp info, supportList info,
        osImage memory kernel rootfs, ⟨cstring "extra-para", mdat⟩]).length + 47) := by
    omega
  have hvisible : payload (visible slots) = payload [table, softVersion stamp info,
      supportList info, osImage memory kernel rootfs, ⟨cstring "extra-para", mdat⟩] ++
        ((identity memory).data ++ (payload [sysconf] ++ genesis)) := by
    rw [(h.visible_some hpara).1, payload, List.map_append, List.flatten_append,
      ← payload, hseven, List.append_assoc, List.append_assoc]
    simp [fileSystem]
  rw [hplace, ← List.getElem?_drop, hpayload, hvisible,
    List.getElem?_append_right (Nat.le_add_right ..), Nat.add_sub_cancel_left,
    List.getElem?_append_left (by rw [length_identity]; decide),
    identity_byte (by omega) (by omega)]

/-- **Where identity shows, the image has a byte of the stack**, at a place that no memory changes. -/
theorem stack_byte_of_shows {sysupgrade : Bool}
    (hshows : IdentityShows sysupgrade info (visiblePieces stamp info kernel rootfs genesis)) :
    ∃ i j : Nat, ∀ {md5 : Md5} {memory : Memory} {slots : List (Option ImagePartition)}
      {table : ImagePartition} {image : Bytes},
        Filled slots memory stamp info kernel rootfs genesis table →
        (if sysupgrade then generateSysupgradeImage info (visible slots)
          else generateFactoryImage md5 info (visible slots)) = .ok image →
            image[i]? = some (memory.stack j) := by
  cases sysupgrade with
  | true =>
    obtain ⟨i, o, n, hshown, hge⟩ := hshows
    refine ⟨i, i - o, fun {md5 memory slots table image} hfilled himage => ?_⟩
    rcases sysupgrade_byte himage i with ⟨hnone, -⟩ | ⟨o', p, hp, hshown', hlt, hbyte⟩
    · rw [hfilled.pieces, hshown] at hnone
      exact absurd hnone (by simp)
    · rw [hfilled.pieces, hshown] at hshown'
      obtain ⟨rfl, hpiece⟩ := Prod.mk.inj (Option.some.inj hshown')
      have hidentity := hfilled.identity_of_name hp (congrArg Prod.fst hpiece).symm
      rw [hidentity, ImagePartition.size, length_identity] at hlt
      rw [hbyte, hidentity, identity_byte hge hlt]
  | false =>
    cases hpara : extraParaData info.id with
    | none => exact absurd hshows (not_identityShows hpara)
    | some mdat =>
      exact ⟨_, 47, fun {md5 memory slots table image} hfilled himage =>
        hfilled.factory_stack_byte hpara himage⟩

end Inputs

/-- **An image is reproducible if and only if** the kernel fills its blocks of 64 KiB and identity
    does not show. -/
theorem buildImage_reproducible_iff (md5 : Md5) (os : Os) (memory : Memory) (disk disk' : Disk)
    (stamp : Stamp) (info : DeviceInfo) (inputs : Inputs) (sysupgrade : Bool) (output : Path)
    (kernel rootfs genesis : Bytes) (hkernel : disk inputs.kernelImage = some kernel)
    (hrootfs : disk inputs.rootfsImage = some rootfs)
    (hgenesis : disk inputs.genesisImage = some genesis)
    (h : buildImage md5 os memory disk stamp info inputs sysupgrade output = .ok disk') :
    (∀ memory', buildImage md5 os memory' disk stamp info inputs sysupgrade output = .ok disk') ∧
        OsImageClean disk stamp info inputs kernel rootfs ↔
      kernel.length % 0x10000 = 0 ∧
        ¬ IdentityShows sysupgrade info (visiblePieces stamp info kernel rootfs genesis) := by
  obtain ⟨image, himage, hopens, hdisk⟩ := buildImage_ok h
  obtain ⟨slots, hslots, himage⟩ := bind_eq_ok.mp himage
  obtain ⟨table, hfilled⟩ := filled_of_prepare hkernel hrootfs hgenesis hslots
  rw [osImageClean_iff hkernel hrootfs hgenesis hslots, and_comm]
  refine and_congr_right fun haligned => ?_
  constructor
  · -- one byte of the image would be both 0 and 1
    intro hall hshows
    obtain ⟨i, j, hbyte⟩ := stack_byte_of_shows hshows
    have hstack : ∀ b : UInt8, image[i]? = some b := by
      intro b
      obtain ⟨image', himage', -, hdisk'⟩ := buildImage_ok (hall (flatMemory 0 b))
      obtain ⟨slots', hslots', himage'⟩ := bind_eq_ok.mp himage'
      obtain ⟨table', hfilled'⟩ := filled_of_prepare hkernel hrootfs hgenesis hslots'
      have hsame : image = image' := by
        have hwritten := congrFun (hdisk.symm.trans hdisk') output
        rw [Disk.write_same, Disk.write_same] at hwritten
        exact Option.some.inj hwritten
      rw [hsame]
      exact hbyte hfilled' himage'
    have hsame := (hstack 0).symm.trans (hstack 1)
    exact absurd hsame (by decide)
  · -- what the other run prepares is alike, so it makes the same image
    intro hhidden memory'
    obtain ⟨slots', hslots'⟩ := prepare_isOk_of_ok hslots memory'
    obtain ⟨table', hfilled'⟩ := filled_of_prepare hkernel hrootfs hgenesis hslots'
    have halike := hfilled.alike hfilled' (partitions_ne_nil hfilled.length_visible.2 himage)
      haligned
    have himage' := image_eq_of_alike halike hfilled.nodup
      (by rw [hfilled.pieces]; exact hhidden) himage
    rw [buildImage, generateImage, hslots', ok_bind, himage', ok_bind, if_pos hopens, hdisk]

/-! ### An EAP120 with a kernel of two bytes, and one that fills its block -/

/-- Equal factory images of an EAP120 hold equal os-image partitions. -/
theorem eap120_osImage_eq {memory memory' : Memory} {slots slots' : List (Option ImagePartition)}
    {stamp : Stamp} {kernel rootfs genesis : Bytes} {table table' : ImagePartition} {md5 : Md5}
    {image : Bytes} (h : Filled slots memory stamp eap120 kernel rootfs genesis table)
    (h' : Filled slots' memory' stamp eap120 kernel rootfs genesis table')
    (himage : generateFactoryImage md5 eap120 (visible slots) = .ok image)
    (himage' : generateFactoryImage md5 eap120 (visible slots') = .ok image) :
    (osImage memory kernel rootfs).data = (osImage memory' kernel rootfs).data := by
  have hpara := extraParaData_eap120
  obtain ⟨-, hpayload, -⟩ := factory_parts himage
  obtain ⟨-, hpayload', -⟩ := factory_parts himage'
  have htable := partitionTable_unique (by decide) h.isTable h'.isTable
  rw [hpayload, (h.visible_none hpara).1, (h'.visible_none hpara).1, ← htable] at hpayload'
  simp only [payload_cons] at hpayload'
  have hsupport := List.append_cancel_left (List.append_cancel_left hpayload')
  exact List.append_cancel_right (List.append_cancel_left hsupport)

/-- **The heap shows in the image.** -/
theorem eap120_leaks_heap : ∃ image image',
    buildImage vendoredMd5 sampleOs (flatMemory 0 0) sampleDisk sampleStamp eap120 sampleInputs
        false (asBytes "factory.bin".toList) =
      .ok (sampleDisk.write (asBytes "factory.bin".toList) image) ∧
    buildImage vendoredMd5 sampleOs (flatMemory 1 0) sampleDisk sampleStamp eap120 sampleInputs
        false (asBytes "factory.bin".toList) =
      .ok (sampleDisk.write (asBytes "factory.bin".toList) image') ∧
    image ≠ image' := by
  obtain ⟨slots, table, image, hslots, hfilled, himage⟩ := eap120_image (flatMemory 0 0)
    sampleDisk [0x27, 0x05] (by decide) (by decide) (by decide) (by decide) (by decide)
  obtain ⟨slots', table', image', hslots', hfilled', himage'⟩ := eap120_image (flatMemory 1 0)
    sampleDisk [0x27, 0x05] (by decide) (by decide) (by decide) (by decide) (by decide)
  refine ⟨image, image', buildImage_isOk hslots himage (by decide),
    buildImage_isOk hslots' himage' (by decide), ?_⟩
  rintro rfl
  have hdata := eap120_osImage_eq hfilled hfilled' himage himage'
  have hbyte := osImage_gap (flatMemory 0 0) [0x27, 0x05] [0x68, 0x73] (by decide)
  have hbyte' := osImage_gap (flatMemory 1 0) [0x27, 0x05] [0x68, 0x73] (by decide)
  rw [hdata, hbyte'] at hbyte
  exact absurd hbyte (by decide)

/-- The sample files, with a kernel of one whole block. -/
def blockDisk : Disk := sampleDisk.write sampleInputs.kernelImage (List.replicate 0x10000 0x27)

/-- It does not with that kernel. -/
theorem eap120_reproducible : ∃ disk',
    buildImage vendoredMd5 sampleOs sampleMemory blockDisk sampleStamp eap120 sampleInputs
      false (asBytes "factory.bin".toList) = .ok disk' ∧
    (∀ memory', buildImage vendoredMd5 sampleOs memory' blockDisk sampleStamp eap120 sampleInputs
      false (asBytes "factory.bin".toList) = .ok disk') ∧
    OsImageClean blockDisk sampleStamp eap120 sampleInputs (List.replicate 0x10000 0x27)
      [0x68, 0x73] := by
  have hkernel : blockDisk sampleInputs.kernelImage = some (List.replicate 0x10000 0x27) :=
    Disk.write_same ..
  have hrootfs : blockDisk sampleInputs.rootfsImage = some [0x68, 0x73] := by
    rw [blockDisk, Disk.write_other _ _ (by decide)]
    decide
  have hgenesis : blockDisk sampleInputs.genesisImage = some [0x19, 0x85] := by
    rw [blockDisk, Disk.write_other _ _ (by decide)]
    decide
  have hne : List.replicate 0x10000 (0x27 : UInt8) ≠ [] := by
    rw [Ne, List.replicate_eq_nil_iff]
    decide
  obtain ⟨slots, table, image, hslots, -, himage⟩ := eap120_image sampleMemory _ _ hkernel hne hrootfs
    hgenesis (by rw [List.length_replicate])
  have hbuild : buildImage vendoredMd5 sampleOs sampleMemory blockDisk sampleStamp eap120 sampleInputs
      false (asBytes "factory.bin".toList) = _ := buildImage_isOk hslots himage (by decide)
  have hpara := extraParaData_eap120
  obtain ⟨hall, hclean⟩ := (buildImage_reproducible_iff vendoredMd5 sampleOs sampleMemory blockDisk _
    sampleStamp eap120 sampleInputs false (asBytes "factory.bin".toList) _ _ _ hkernel hrootfs
    hgenesis hbuild).mpr ⟨by rw [List.length_replicate], not_identityShows hpara⟩
  exact ⟨_, hbuild, hall, hclean⟩

end Safewrt.Safeloader
