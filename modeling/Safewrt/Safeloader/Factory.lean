/-
  What the factory format contains (tools/tplink-safeloader/tplink-safeloader.c, `put_partitions`,
  `generate_factory_image` and `make_partition_table`).

  1. Lines that `snprintf` writes one after the other leave their text and one zero byte
     (`terminated`); both tables are printed so.  The zero of a line is where the next one begins,
     and a line that does not fit is cut and ends the run: the induction over the lines carries
     what is printed already, its zero, and how much room is left.

  2. **`putPartitions_ok_iff`**: placing succeeds if every partition has a flash partition that is
     large enough and the table text leaves room for its zero; then the table holds the text and
     the data follows in one row.  One `memcpy` and one line of the table go together, so this is
     one induction and not two.

  3. `generateFactoryImage_ok`: the whole image, from its length to the last partition.
     **`generateFactoryImage_isOk_iff`**: when there is one.

  Each function has one such lemma, with both directions where a caller needs them, and the modules
  behind this one cite it: none of them unfolds the makers of the format again.
-/
import Safewrt.Safeloader.Image

namespace Safewrt.Safeloader

open Safewrt.Lib

/-! ## Printed lines

  The tool prints a table line by line into what is left of a buffer.  `snprintf` closes every line
  with a zero, and the next line begins where that zero is, so of all these zeros one remains. -/

/-- `old` after lines with this text were printed over its beginning. -/
def terminated (text old : Bytes) : Bytes :=
  if text = [] then old else text ++ 0 :: old.drop (text.length + 1)

/-- Printing into a buffer does not change how long it is. -/
theorem length_terminated {text old : Bytes} (h : text.length < old.length) :
    (terminated text old).length = old.length := by
  unfold terminated
  split
  · rfl
  · rw [List.length_append, List.length_cons, List.length_drop]
    omega

/-- One line more. -/
theorem terminated_append {line : Bytes} (text old : Bytes) (h : line ≠ []) :
    terminated (line ++ text) old =
      line ++ terminated text (0 :: old.drop (line.length + 1)) := by
  unfold terminated
  rw [if_neg (by simp [h])]
  by_cases htext : text = []
  · rw [if_pos htext, htext, List.append_nil]
  · rw [if_neg htext, List.append_assoc, List.length_append, List.drop_succ_cons, List.drop_drop]
    have hsum : line.length + text.length + 1 = line.length + 1 + text.length := by omega
    rw [hsum]

/-- The byte after the text is zero, once something was printed. -/
theorem exists_terminated (text old : Bytes) (h : text.length < old.length) :
    ∃ zero, (text ≠ [] → zero = 0) ∧
      terminated text old = text ++ zero :: old.drop (text.length + 1) := by
  unfold terminated
  by_cases htext : text = []
  · subst htext
    rw [if_pos rfl]
    cases old with
    | nil => exact absurd h (by simp)
    | cons b old => exact ⟨b, fun hne => absurd rfl hne, rfl⟩
  · exact ⟨0, fun _ => rfl, if_neg htext⟩

/-- A line that fits is printed whole, with its zero. -/
theorem snprintf_line {pre post line : Bytes} (h : line.length < post.length) :
    snprintf (pre ++ post) pre.length post.length line =
      .ok (pre ++ (line ++ 0 :: post.drop (line.length + 1))) := by
  have htake : line.take (post.length - 1) = line := List.take_of_length_le (by omega)
  have hsplit : post = post.take (line.length + 1) ++ post.drop (line.length + 1) :=
    (List.take_append_drop ..).symm
  have hlen : (line ++ [0]).length = (post.take (line.length + 1)).length := by
    rw [List.length_append, List.length_take, List.length_singleton]
    omega
  unfold snprintf
  rw [if_neg (by omega), htake, memcpy_eq_ok]
  conv_lhs => rw [hsplit]
  rw [store_exact pre _ _ hlen, List.append_assoc line]
  rfl

/-- Printing never leaves the buffer. -/
theorem snprintf_ok (pre post line : Bytes) :
    ∃ buf, snprintf (pre ++ post) pre.length post.length line = .ok buf := by
  unfold snprintf
  by_cases hpost : post.length = 0
  · exact ⟨_, if_pos hpost⟩
  · rw [if_neg hpost]
    have hfits : (store (pre ++ post) pre.length (line.take (post.length - 1) ++ [0])).isSome := by
      rw [store_isSome_iff, List.length_append, List.length_append, List.length_take,
        List.length_singleton]
      omega
    obtain ⟨buf, hbuf⟩ := Option.isSome_iff_exists.mp hfits
    exact ⟨buf, memcpy_eq_ok.mpr hbuf⟩

theorem memcpy_right {a b data b' : Bytes} {o : Nat} (h : store b o data = some b') :
    memcpy (a ++ b) (a.length + o) data = .ok (a ++ b') := by
  rw [memcpy_eq_ok, store_right, h]
  rfl

theorem memcpy_isOk (buf : Bytes) (o : Nat) (data : Bytes) (h : o + data.length ≤ buf.length) :
    ∃ buf', memcpy buf o data = .ok buf' := by
  obtain ⟨buf', hbuf'⟩ := Option.isSome_iff_exists.mp ((store_isSome_iff buf o data).mpr h)
  exact ⟨buf', memcpy_eq_ok.mpr hbuf'⟩

theorem length_memcpy {buf buf' data : Bytes} {o : Nat} (h : memcpy buf o data = .ok buf') :
    buf'.length = buf.length := length_store (memcpy_eq_ok.mp h)

/-! ## The flash partition table

  The table a board's image carries: the board's own flash partitions as text, behind a header of
  four bytes, in a buffer of 2048 bytes from `malloc`. -/

/-- A printed line is not empty, so `snprintf` moves on. -/
theorem flashLine_ne_nil (p : FlashPartition) : flashLine p ≠ [] := by
  simp [flashLine]

/-- By induction on the partitions: `pre` is what is printed, `post` what is left of the buffer.
    The last byte is for the zero. -/
theorem putFlashLines_ok_iff (ps : List FlashPartition) : ∀ {pre post data : Bytes} {s : Nat},
    (pre ++ post).length = 0x800 → 0 < post.length →
    (putFlashLines ps (pre ++ post) pre.length = .ok (data, s) ↔
      (ps.flatMap flashLine).length < post.length ∧ s = pre.length + (ps.flatMap flashLine).length ∧
        data = pre ++ terminated (ps.flatMap flashLine) post) := by
  induction ps with
  | nil =>
    intro pre post data s _ hpos
    simp only [putFlashLines, List.flatMap_nil, List.length_nil, Nat.add_zero, terminated, if_true,
      Except.ok.injEq, Prod.mk.injEq]
    constructor
    · rintro ⟨rfl, rfl⟩
      exact ⟨hpos, rfl, rfl⟩
    · rintro ⟨-, rfl, rfl⟩
      exact ⟨rfl, rfl⟩
  | cons p ps ih =>
    intro pre post data s hlen hpos
    have hroom : (pre ++ post).length - pre.length = post.length := by
      rw [List.length_append]
      omega
    rw [List.flatMap_cons, List.length_append]
    unfold putFlashLines
    dsimp only
    rw [hroom]
    -- `pre` is printed, its zero is the first byte of `post`; a line goes over that zero
    by_cases hfits : (flashLine p).length < post.length
    · have hmid : (pre ++ flashLine p).length = pre.length + (flashLine p).length :=
        List.length_append
      have hrest : (0 :: post.drop ((flashLine p).length + 1)).length =
          post.length - (flashLine p).length := by
        rw [List.length_cons, List.length_drop]
        omega
      rw [snprintf_line hfits]
      show (if _ then _ else _ : Run _) = _ ↔ _
      rw [if_neg (by omega), ← List.append_assoc, ← hmid, ih (by
        rw [List.length_append, hmid, hrest]
        rw [List.length_append] at hlen
        omega) (by omega), hrest, hmid, terminated_append _ _ (flashLine_ne_nil p),
        List.append_assoc]
      constructor
      · rintro ⟨hlt, rfl, rfl⟩
        exact ⟨by omega, by omega, rfl⟩
      · rintro ⟨hlt, rfl, rfl⟩
        exact ⟨by omega, by omega, rfl⟩
    · -- "flash partition table overflow?"
      obtain ⟨buf, hbuf⟩ := snprintf_ok pre post (flashLine p)
      rw [hbuf]
      show (if _ then _ else _ : Run _) = _ ↔ _
      rw [if_pos (by omega)]
      exact iff_of_false (by simp) fun h => by omega

/-- The text of a board's partition table. -/
def flashText (ps : List FlashPartition) : Bytes := ps.flatMap flashLine

/-- The magic at the beginning of the table. -/
theorem memcpy_header (fresh : Nat → UInt8) :
    memcpy (malloc fresh 0x800) 0 [0x00, 0x04, 0x00, 0x00] =
      .ok ([0x00, 0x04, 0x00, 0x00] ++ (malloc fresh 0x800).drop 4) := by
  have hmalloc := length_malloc fresh 0x800
  rw [memcpy_eq_ok, store, if_pos (by rw [hmalloc]; decide), List.take_zero, List.nil_append]
  rfl

theorem length_malloc_drop (fresh : Nat → UInt8) :
    ((malloc fresh 0x800).drop 4).length = 0x7fc := by
  rw [List.length_drop, length_malloc]

/-- **The partition table of a board**: its magic, the text, a zero, and 0xff up to the end. -/
theorem makePartitionTable_ok {fresh : Nat → UInt8} {ps : List FlashPartition}
    {entry : ImagePartition} (h : makePartitionTable fresh ps = .ok entry) :
    entry.name = cstring "partition-table" ∧ (flashText ps).length < 0x7fc ∧
      ∃ zero : UInt8, (ps ≠ [] → zero = 0) ∧ entry.data = [0x00, 0x04, 0x00, 0x00] ++
        (flashText ps ++ zero :: List.replicate (0x7fb - (flashText ps).length) 0xff) := by
  have hheader := memcpy_header fresh
  have hdrop := length_malloc_drop fresh
  unfold makePartitionTable at h
  dsimp only at h
  obtain ⟨header, hheader', h⟩ := bind_eq_ok.mp h
  rw [← Except.ok.inj (hheader.symm.trans hheader')] at h
  obtain ⟨⟨data, s⟩, hlines, h⟩ := bind_eq_ok.mp h
  obtain ⟨hfits, hs, hdata⟩ := (@putFlashLines_ok_iff ps [0x00, 0x04, 0x00, 0x00]
    ((malloc fresh 0x800).drop 4) data s (by rw [List.length_append, hdrop]; rfl)
    (by omega)).mp hlines
  obtain ⟨data', hpad, h⟩ := bind_eq_ok.mp h
  have hentry := Except.ok.inj h
  rw [hdrop] at hfits
  obtain ⟨zero, hzero, htext⟩ := exists_terminated (flashText ps)
    ((malloc fresh 0x800).drop 4) (by rw [hdrop]; exact hfits)
  -- the zero behind the text stays, 0xff is put behind it
  have hs' : s + 1 = ([0x00, 0x04, 0x00, 0x00] ++ (flashText ps ++ [zero])).length := by
    rw [hs, List.length_append, List.length_append, List.length_singleton]
    rfl
  have hdata' : data = [0x00, 0x04, 0x00, 0x00] ++ (flashText ps ++ [zero]) ++
      ((malloc fresh 0x800).drop 4).drop ((flashText ps).length + 1) := by
    rw [hdata, ← flashText, htext]
    simp
  have hcount : 0x800 - (s + 1) = 0x7fb - (flashText ps).length := by
    rw [hs]
    show 0x800 - (4 + (flashText ps).length + 1) = 0x7fb - (flashText ps).length
    omega
  have hlength : (List.replicate (0x7fb - (flashText ps).length) (0xff : UInt8)).length =
      (((malloc fresh 0x800).drop 4).drop ((flashText ps).length + 1)).length := by
    rw [List.length_replicate, List.length_drop, hdrop]
    omega
  rw [memcpy_eq_ok] at hpad
  dsimp only at hpad
  rw [hcount, hs', hdata', store_end _ _ hlength] at hpad
  refine ⟨by rw [← hentry], hfits, zero, fun hne => hzero ?_, ?_⟩
  · cases ps with
    | nil => exact absurd rfl hne
    | cons p ps =>
      exact fun hnil => flashLine_ne_nil p (List.append_eq_nil_iff.mp hnil).1
  · rw [← hentry]
    show data' = _
    rw [← Option.some.inj hpad]
    simp

/-- The table is made with a fixed size. -/
theorem size_partitionTable {fresh : Nat → UInt8} {ps : List FlashPartition}
    {entry : ImagePartition} (h : makePartitionTable fresh ps = .ok entry) :
    entry.size = 0x800 := by
  obtain ⟨-, htext, zero, -, hdata⟩ := makePartitionTable_ok h
  have hrest : (flashText ps ++ zero :: List.replicate (0x7fb - (flashText ps).length) 0xff).length =
      0x7fc := by
    rw [List.length_append, List.length_cons, List.length_replicate]
    omega
  rw [ImagePartition.size, hdata, List.length_append, hrest]
  rfl

/-- When a table is made. -/
theorem makePartitionTable_isOk_iff (fresh : Nat → UInt8) (ps : List FlashPartition) :
    (∃ entry, makePartitionTable fresh ps = .ok entry) ↔ (flashText ps).length < 0x7fc := by
  constructor
  · rintro ⟨entry, h⟩
    exact (makePartitionTable_ok h).2.1
  · intro h
    have hlines := (@putFlashLines_ok_iff ps [0x00, 0x04, 0x00, 0x00]
      ((malloc fresh 0x800).drop 4) _ _ (by rw [List.length_append, length_malloc_drop]; rfl)
      (by rw [length_malloc_drop]; decide)).mpr
        ⟨by rw [length_malloc_drop]; exact h, rfl, rfl⟩
    -- the padding fills up the 2048 bytes exactly
    have hlength : ([0x00, 0x04, 0x00, 0x00] ++ terminated (ps.flatMap flashLine)
        ((malloc fresh 0x800).drop 4)).length = 0x800 := by
      rw [List.length_append, length_terminated (by rw [length_malloc_drop]; exact h),
        length_malloc_drop]
      rfl
    obtain ⟨data, hdata⟩ := memcpy_isOk ([0x00, 0x04, 0x00, 0x00] ++
      terminated (ps.flatMap flashLine) ((malloc fresh 0x800).drop 4))
      (4 + (ps.flatMap flashLine).length + 1) (List.replicate (0x800 -
        ([0x00, 0x04, 0x00, 0x00].length + (ps.flatMap flashLine).length + 1)) 0xff) (by
        rw [List.length_replicate, hlength]
        show 4 + (flashText ps).length + 1 + (0x800 - (4 + (flashText ps).length + 1)) ≤ 0x800
        omega)
    refine ⟨⟨cstring "partition-table", data⟩, ?_⟩
    unfold makePartitionTable
    dsimp only
    rw [memcpy_header, ok_bind]
    show (putFlashLines ps _ ([0x00, 0x04, 0x00, 0x00] : Bytes).length >>= _) = _
    rw [hlines, ok_bind]
    exact bind_eq_ok.mpr ⟨data, hdata, rfl⟩

/-! ## The image partition table

  The table of the image itself, in its first 2048 bytes behind the header: one line for each part,
  with its place and size, and the data of all parts behind it. -/

/-- The flash partition of this name has room for the partition. -/
def Placeable (flash : List FlashPartition) (p : ImagePartition) : Prop :=
  ∃ f, (flash.find? fun f => f.name = p.name) = some f ∧ p.size ≤ f.size.toNat

/-- The text of the image partition table; the first partition is at `base`. -/
def fwupText : List ImagePartition → Nat → Bytes
  | [], _ => []
  | p :: ps, base => fwupLine p base ++ fwupText ps (base + p.size)

theorem fwupLine_ne_nil (p : ImagePartition) (base : Nat) : fwupLine p base ≠ [] := by
  simp [fwupLine]

/-- Printing into the first part of a buffer leaves the second alone. -/
theorem snprintf_left {a a' text : Bytes} (b : Bytes) {o len : Nat}
    (h : snprintf a o len text = .ok a') : snprintf (a ++ b) o len text = .ok (a' ++ b) := by
  unfold snprintf at h ⊢
  split at h
  · rename_i hlen
    rw [if_pos hlen, Except.ok.inj h]
  · rename_i hlen
    rw [memcpy_eq_ok] at h
    rw [if_neg hlen, memcpy_eq_ok, store_left b (store_eq h).1, h, Option.map_some]

theorem payload_cons (p : ImagePartition) (ps : List ImagePartition) :
    payload (p :: ps) = p.data ++ payload ps := rfl

/-- Behind the data of a partition is that of the next one. -/
theorem drop_payload {file : Bytes} {base : Nat} {p : ImagePartition} {ps : List ImagePartition}
    (h : file.drop (base + 0x1014) = payload (p :: ps)) :
    file.drop (base + p.size + 0x1014) = payload ps := by
  have hsum : base + p.size + 0x1014 = base + 0x1014 + p.data.length := by
    unfold ImagePartition.size
    omega
  rw [hsum, ← List.drop_drop, h, payload_cons, List.drop_left]

theorem length_payload (ps : List ImagePartition) :
    (payload ps).length = (ps.map ImagePartition.size).sum := by
  rw [payload, List.length_flatten, List.map_map]
  rfl

/-- One partition is copied behind the ones before it. -/
theorem memcpy_data (table a b : Bytes) {data : Bytes} (h : data.length ≤ b.length) :
    memcpy (table ++ (a ++ b)) (table.length + a.length) data =
      .ok (table ++ ((a ++ data) ++ b.drop data.length)) := by
  have hsplit : b = b.take data.length ++ b.drop data.length := (List.take_append_drop ..).symm
  have hstore : store (a ++ b) a.length data = some ((a ++ data) ++ b.drop data.length) := by
    have hlen : data.length = (b.take data.length).length := by
      rw [List.length_take]
      omega
    conv_lhs => rw [hsplit]
    rw [store_exact a _ _ hlen, List.append_assoc]
  exact memcpy_right hstore

/-- **Placing the partitions**: the table is printed into `pre ++ post` and the data copied into
    `a ++ b`, where the first parts are filled already. -/
theorem putPartitions_ok_iff (flash : List FlashPartition) (ps : List ImagePartition) :
    ∀ {pre post a b buf : Bytes}, (pre ++ post).length = 0x800 → 0 < post.length →
      (payload ps).length ≤ b.length →
      (putPartitions flash ps ((pre ++ post) ++ (a ++ b)) pre.length (0x800 + a.length) = .ok buf ↔
        (∀ p ∈ ps, Placeable flash p) ∧ (fwupText ps (0x800 + a.length)).length < post.length ∧
          buf = (pre ++ terminated (fwupText ps (0x800 + a.length)) post) ++
            ((a ++ payload ps) ++ b.drop (payload ps).length)) := by
  induction ps with
  | nil =>
    intro pre post a b buf _ hpos _
    have hnil : payload [] = [] := rfl
    simp only [putPartitions, fwupText, List.not_mem_nil, false_imp_iff, implies_true, true_and,
      List.length_nil, hnil, List.drop_zero, List.append_nil, terminated, if_true, Except.ok.injEq]
    exact ⟨fun h => ⟨hpos, h.symm⟩, fun h => h.2.symm⟩
  | cons p ps ih =>
    intro pre post a b buf hlen hpos hroom
    rw [payload_cons, List.length_append] at hroom
    rw [List.forall_mem_cons]
    unfold putPartitions
    cases hfind : flash.find? fun f => f.name = p.name with
    | none =>
      refine iff_of_false (by simp) fun h => ?_
      obtain ⟨⟨f, hf, -⟩, -⟩ := h.1
      rw [hfind] at hf
      exact absurd hf (by simp)
    | some f =>
      show (if _ then _ else _ : Run _) = _ ↔ _
      by_cases hsize : p.size > f.size.toNat
      · rw [if_pos hsize]
        refine iff_of_false (by simp [tooBig]) fun h => ?_
        obtain ⟨⟨f', hf', hle⟩, -⟩ := h.1
        rw [hfind] at hf'
        rw [← Option.some.inj hf'] at hle
        omega
      have hplace : Placeable flash p := ⟨f, hfind, by omega⟩
      have hbase : 0x800 + a.length = (pre ++ post).length + a.length := by rw [hlen]
      have hpost : 0x800 - pre.length = post.length := by
        rw [List.length_append] at hlen
        omega
      rw [if_neg hsize, hpost]
      -- the data is copied before the line is printed
      conv_lhs => rw [hbase, memcpy_data (pre ++ post) a b (by omega), ← hbase]
      simp only [ok_bind]
      by_cases hfits : (fwupLine p (0x800 + a.length)).length < post.length
      · have hmid : (pre ++ fwupLine p (0x800 + a.length)).length =
            pre.length + (fwupLine p (0x800 + a.length)).length := List.length_append
        have hrest : (0 :: post.drop ((fwupLine p (0x800 + a.length)).length + 1)).length =
            post.length - (fwupLine p (0x800 + a.length)).length := by
          rw [List.length_cons, List.length_drop]
          omega
        have hnext : 0x800 + a.length + p.size = 0x800 + (a ++ p.data).length := by
          rw [List.length_append, ImagePartition.size, Nat.add_assoc]
        have htext : fwupText (p :: ps) (0x800 + a.length) =
            fwupLine p (0x800 + a.length) ++ fwupText ps (0x800 + (a ++ p.data).length) := by
          rw [fwupText, hnext]
        have hsum := congrArg List.length htext
        rw [@List.length_append _ (fwupLine p _)] at hsum
        rw [snprintf_left _ (snprintf_line hfits), ok_bind, if_neg (by omega),
          ← List.append_assoc pre, ← hmid, hnext, ih (by
          rw [List.length_append, hmid, hrest]
          rw [List.length_append] at hlen
          omega) (by omega) (by rw [List.length_drop]; omega), hrest, hsum,
          htext, terminated_append _ _ (fwupLine_ne_nil p _), payload_cons,
          @List.length_append _ p.data, List.drop_drop, List.append_assoc a p.data,
          List.append_assoc pre]
        constructor
        · rintro ⟨hall, hlt, rfl⟩
          exact ⟨⟨hplace, hall⟩, by omega, rfl⟩
        · rintro ⟨⟨-, hall⟩, hlt, rfl⟩
          exact ⟨hall, by omega, rfl⟩
      · -- "image partition table overflow?"
        obtain ⟨buf', hbuf'⟩ := snprintf_ok pre post (fwupLine p (0x800 + a.length))
        rw [snprintf_left _ hbuf', ok_bind, if_pos (by omega)]
        refine iff_of_false (by simp [Stop.ofText]) fun h => ?_
        have htext := h.2.1
        rw [fwupText, List.length_append] at htext
        omega

/-! ## The factory image

  The header goes in front: the size, the vendor information, and the digest of all the rest. -/

/-- The vendor information stays inside the image. -/
def VendorFits (info : DeviceInfo) (parts : List ImagePartition) : Prop :=
  ∀ vendor, info.vendor = some vendor → 0x18 + vendor.bytes.length ≤ 0x1814 + (payload parts).length

/-- The vendor information goes in behind the size, which stays. -/
theorem putVendor_ok {vendor : Option CString} {image image' : Bytes}
    (h : putVendor vendor image = .ok image') :
    image'.length = image.length ∧ image'.take 4 = image.take 4 := by
  cases vendor with
  | none =>
    rw [← Except.ok.inj h]
    exact ⟨rfl, rfl⟩
  | some vendor =>
    obtain ⟨mid, hmid, h⟩ := bind_eq_ok.mp h
    rw [memcpy_eq_ok] at hmid h
    rw [length_store h, length_store hmid, take_store h (by decide), take_store hmid (by decide)]
    exact ⟨rfl, rfl⟩

/-- It goes in where it has room. -/
theorem putVendor_isOk_iff (vendor : Option CString) (image : Bytes) (h : 0x18 ≤ image.length) :
    (∃ image', putVendor vendor image = .ok image') ↔
      ∀ v, vendor = some v → 0x18 + v.bytes.length ≤ image.length := by
  cases vendor with
  | none => exact iff_of_true ⟨image, rfl⟩ fun v hv => absurd hv (by simp)
  | some vendor =>
    have hlen : (toBe 4 vendor.bytes.length).length = 4 := length_toBe 4 _
    obtain ⟨mid, hmid⟩ := memcpy_isOk image 0x14 (toBe 4 vendor.bytes.length) (by omega)
    simp only [putVendor, hmid, ok_bind, Option.some.injEq, forall_eq', memcpy_eq_ok]
    rw [← Option.isSome_iff_exists, store_isSome_iff, length_memcpy hmid]

/-- The image before the partitions are placed. -/
theorem putHeader_ok {vendor : Option CString} {len : Nat} {im1 im2 : Bytes}
    (h1 : memcpy (List.replicate len 0xff) 0 (toBe 4 len) = .ok im1)
    (h2 : putVendor vendor im1 = .ok im2) : im2.length = len ∧ im2.take 4 = toBe 4 len := by
  obtain ⟨hlength, htake⟩ := putVendor_ok h2
  have hsize : (toBe 4 len).length = 4 := length_toBe 4 len
  rw [hlength, htake, length_memcpy h1, List.length_replicate]
  rw [memcpy_eq_ok] at h1
  refine ⟨rfl, ?_⟩
  rw [(store_eq h1).2, List.take_zero, List.nil_append]
  exact List.take_left' hsize

/-- Placing into a fresh buffer. -/
theorem putPartitions_fresh_iff (flash : List FlashPartition) {parts : List ImagePartition}
    {table b buf : Bytes} (htable : table.length = 0x800) (hb : b.length = (payload parts).length) :
    putPartitions flash parts (table ++ b) 0 0x800 = .ok buf ↔
      (∀ p ∈ parts, Placeable flash p) ∧ (fwupText parts 0x800).length < 0x800 ∧
        buf = terminated (fwupText parts 0x800) table ++ payload parts := by
  have hput := @putPartitions_ok_iff flash parts [] table [] b buf htable (by omega) (by omega)
  rw [← hb, List.drop_length, List.append_nil, htable] at hput
  exact hput

/-- **The layout of a factory image**: a head with its length, the table, and the data of all
    partitions; and what it took to get there. -/
theorem generateFactoryImage_ok {md5 : Md5} {info : DeviceInfo} {parts : List ImagePartition}
    {image : Bytes} (h : generateFactoryImage md5 info parts = .ok image) :
    (∀ p ∈ parts, Placeable info.partitions p) ∧ (fwupText parts 0x800).length < 0x800 ∧
      ∃ head post, head.length = 0x1014 ∧ post.length = 0x800 ∧
        head.take 4 = toBe 4 (0x1814 + (payload parts).length) ∧
        image = head ++ (terminated (fwupText parts 0x800) post ++ payload parts) := by
  unfold generateFactoryImage at h
  dsimp only at h
  rw [← length_payload] at h
  obtain ⟨im1, h1, h⟩ := bind_eq_ok.mp h
  obtain ⟨im2, h2, h⟩ := bind_eq_ok.mp h
  obtain ⟨buffer, hput, h⟩ := bind_eq_ok.mp h
  obtain ⟨hlength, htake⟩ := putHeader_ok h1 h2
  have htable : ((im2.drop 0x1014).take 0x800).length = 0x800 := by
    rw [List.length_take, List.length_drop]
    omega
  have hrest : ((im2.drop 0x1014).drop 0x800).length = (payload parts).length := by
    rw [List.length_drop, List.length_drop]
    omega
  rw [← List.take_append_drop 0x800 (im2.drop 0x1014),
    putPartitions_fresh_iff _ htable hrest] at hput
  obtain ⟨hplace, htext, rfl⟩ := hput
  have hhead : (im2.take 0x1014).length = 0x1014 := by
    rw [List.length_take]
    omega
  -- the digest goes over bytes 4 to 19, inside `head`
  have hmd5 := memcpy_eq_ok.mp h
  have hdigest := md5.length_digest (md5Salt ++ List.take
    ((0x1814 + (payload parts).length - 0x14) % 2 ^ 32) (List.drop 0x14 (im2.take 0x1014 ++
      (terminated (fwupText parts 0x800) ((im2.drop 0x1014).take 0x800) ++ payload parts))))
  refine ⟨hplace, htext, image.take 0x1014, (im2.drop 0x1014).take 0x800, ?_, htable, ?_, ?_⟩
  · rw [List.length_take, length_store hmd5, List.length_append]
    omega
  · rw [List.take_take, take_store hmd5 (by decide),
      List.take_append_of_le_length (by rw [hhead]; decide), List.take_take]
    exact htake
  · have hdrop : image.drop 0x1014 = (im2.take 0x1014 ++ (terminated (fwupText parts 0x800)
        ((im2.drop 0x1014).take 0x800) ++ payload parts)).drop 0x1014 :=
      drop_store hmd5 (by rw [hdigest]; decide)
    rw [List.drop_left' hhead] at hdrop
    rw [← hdrop, List.take_append_drop]

/-- When an image is made. -/
theorem generateFactoryImage_isOk_iff (md5 : Md5) (info : DeviceInfo)
    (parts : List ImagePartition) :
    (∃ image, generateFactoryImage md5 info parts = .ok image) ↔
      VendorFits info parts ∧ (∀ p ∈ parts, Placeable info.partitions p) ∧
        (fwupText parts 0x800).length < 0x800 := by
  constructor
  · rintro ⟨image, h⟩
    obtain ⟨hplace, htext, -⟩ := generateFactoryImage_ok h
    refine ⟨?_, hplace, htext⟩
    unfold generateFactoryImage at h
    dsimp only at h
    rw [← length_payload] at h
    obtain ⟨im1, h1, h⟩ := bind_eq_ok.mp h
    obtain ⟨im2, h2, -⟩ := bind_eq_ok.mp h
    have hlen : im1.length = 0x1814 + (payload parts).length := by
      rw [length_memcpy h1, List.length_replicate]
    rw [VendorFits, ← hlen]
    exact (putVendor_isOk_iff _ _ (by omega)).mp ⟨im2, h2⟩
  · rintro ⟨hvendor, hplace, htext⟩
    have htoBe : (toBe 4 (0x1814 + (payload parts).length)).length = 4 := length_toBe 4 _
    obtain ⟨im1, h1⟩ := memcpy_isOk (List.replicate (0x1814 + (payload parts).length) 0xff) 0
      (toBe 4 (0x1814 + (payload parts).length)) (by rw [List.length_replicate]; omega)
    have hlen : im1.length = 0x1814 + (payload parts).length := by
      rw [length_memcpy h1, List.length_replicate]
    obtain ⟨im2, h2⟩ := (putVendor_isOk_iff info.vendor im1
      (by omega)).mpr (by rw [hlen]; exact hvendor)
    obtain ⟨hlength, -⟩ := putHeader_ok h1 h2
    -- the buffer behind the header is cut where the table ends
    have htable : ((im2.drop 0x1014).take 0x800).length = 0x800 := by
      rw [List.length_take, List.length_drop]
      omega
    have hrest : ((im2.drop 0x1014).drop 0x800).length = (payload parts).length := by
      rw [List.length_drop, List.length_drop]
      omega
    have hput := (putPartitions_fresh_iff info.partitions htable hrest).mpr
      ⟨hplace, htext, rfl⟩
    rw [List.take_append_drop] at hput
    unfold generateFactoryImage
    dsimp only
    rw [← length_payload, h1, ok_bind, h2, ok_bind, hput, ok_bind]
    refine memcpy_isOk _ _ _ ?_
    rw [md5.length_digest, List.length_append, List.length_take]
    omega

end Safewrt.Safeloader
