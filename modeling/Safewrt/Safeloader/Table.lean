/-
  Reading a table back (tools/tplink-safeloader/tplink-safeloader.c, `read_partition_table`).

  1. The scan as the code does it: `rest` is what `ptr` points to, up to the end of the buffer, and
     `room` how far the end of the line is.  The elements of a line end at spaces; a number is read
     by `strtoul` from where it starts and may run on.

  2. **`readLines_tableText`**: lines that were printed are read back, one entry for each.  A name
     must have no space and no line feed and fit into 31 bytes.

  3. **`readPartitionTable_ok`**: the same for a table in a file, whatever the buffer held before.

  The loop over the lines ends because a line takes at least one byte off the buffer
  (`scanLine_drop`), whatever stands in it, so the functions here are total.
-/
import Safewrt.Safeloader.Factory

namespace Safewrt.Safeloader

open Safewrt.Lib

/-! ## The scan

  The pointers of the code are suffixes of the buffer here, and the ends of ranges are lengths. -/

/-- The two tables; the parameter `type`. -/
inductive TableType
  | fwup
  | flash
  deriving Repr, DecidableEq

/-- `parthdr` -/
def TableType.parthdr : TableType → Bytes
  | .fwup => asBytes "fwup-ptn".toList
  | .flash => asBytes "partition".toList

/-- `memchr`: how far the first `b` is. -/
def memchr (b : UInt8) : Bytes → Option Nat
  | [] => none
  | c :: s => if c = b then some 0 else (memchr b s).map (· + 1)

/-- The elements of a line, the cases of the inner loop. -/
inductive Element
  | header | name | baseWord | base | sizeWord
  deriving Repr, DecidableEq

/-- The turns of the `for` loop over a line. -/
def elements : List Element := [.header, .name, .baseWord, .base, .sizeWord]

/-- The variables of the inner loop. -/
structure Scan where
  rest : Bytes
  room : Nat
  name : CString
  base : Nat

/-- Behind an element of `k` bytes. -/
def Scan.next (s : Scan) (e : Element) (k : Nat) : Scan where
  rest := s.rest.drop (k + 1)
  room := s.room - (k + 1)
  name := if e = .name then .ofBytes (s.rest.take (min 31 k)) else s.name
  base := if e = .base then strtoul16 s.rest else s.base

/-- The inner loop: where `ptr` is after it, and the entry that was found. -/
def scanLine : List Element → Scan → Run (Bytes × Option FlashPartition)
  | [], s => .ok (s.rest, none)
  | e :: es, s =>
    if s.room = 0 then .ok (s.rest, none)
    else match memchr 0x20 (s.rest.take s.room) with
    | none => .error (.ofText "Ignoring the rest of the partition entries.".toList)
    | some k =>
      if e = .sizeWord then
        .ok (s.rest.drop (s.room + 1), some ⟨s.name, UInt32.ofNat s.base,
          UInt32.ofNat (strtoul16 (s.rest.drop (k + 1)))⟩)
      else scanLine es (s.next e k)

/-- `add_flash_partition`; `entries` are the ones in use of an array that is filled from its
    beginning. -/
def addFlashPartition (max : Nat) (entries : List FlashPartition) (entry : FlashPartition) :
    Run (List FlashPartition) :=
  if entries.length = max then
    .error (.ofText "No free flash part entry available.: Success".toList)
  else .ok (entries ++ [entry])

/-- The entry of a line, where it has one. -/
def addEntry (max : Nat) (entries : List FlashPartition) :
    Option FlashPartition → Run (List FlashPartition)
  | none => .ok entries
  | some entry => addFlashPartition max entries entry

/-! ### A line is consumed -/

/-- A turn takes a byte of the line at least, which is what the loop over lines ends by. -/
theorem scanLine_drop (es : List Element) : ∀ {s : Scan} {rest : Bytes}
    {entry : Option FlashPartition}, scanLine es s = .ok (rest, entry) →
      ∃ n, rest = s.rest.drop n ∧ (es ≠ [] → s.room ≠ 0 → 0 < n) := by
  induction es with
  | nil =>
    intro s rest entry h
    have hrest := congrArg Prod.fst (Except.ok.inj h)
    exact ⟨0, hrest.symm, fun hne => absurd rfl hne⟩
  | cons e es ih =>
    intro s rest entry h
    rw [scanLine] at h
    split at h
    · rename_i hroom
      have hrest := congrArg Prod.fst (Except.ok.inj h)
      exact ⟨0, hrest.symm, fun _ hne => absurd hroom hne⟩
    split at h
    · exact absurd h (by simp)
    rename_i k hk
    split at h
    · have hrest := congrArg Prod.fst (Except.ok.inj h)
      exact ⟨s.room + 1, hrest.symm, fun _ _ => Nat.succ_pos _⟩
    · obtain ⟨n, hn, -⟩ := ih h
      refine ⟨k + 1 + n, ?_, fun _ _ => by omega⟩
      rw [hn, Scan.next, List.drop_drop]

/-- A line that begins with a header is not empty. -/
theorem room_ne_zero {type : TableType} {rest : Bytes} {k : Nat}
    (h : rest.take type.parthdr.length = type.parthdr) (hk : memchr 0x0a rest = some k) :
    k ≠ 0 := by
  intro hzero
  subst hzero
  cases rest with
  | nil => exact absurd hk (by simp [memchr])
  | cons c s =>
    have hc : c = 0x0a := by
      by_contra hne
      rw [memchr, if_neg hne] at hk
      obtain ⟨j, -, hj⟩ := Option.map_eq_some_iff.mp hk
      exact absurd hj (Nat.succ_ne_zero j)
    subst hc
    cases type with
    | fwup => exact absurd (List.cons.inj h).1 (by decide)
    | flash => exact absurd (List.cons.inj h).1 (by decide)

/-- Every round of the outer loop comes closer to the end. -/
theorem scanLine_shorter {type : TableType} {rest rest' : Bytes} {k : Nat} {s : Scan}
    {entry : Option FlashPartition} (hs : s.rest = rest ∧ s.room = k)
    (hhdr : type.parthdr.length < rest.length ∧ rest.take type.parthdr.length = type.parthdr)
    (hend : memchr 0x0a rest = some k) (hscan : scanLine elements s = .ok (rest', entry)) :
    rest'.length < rest.length := by
  obtain ⟨n, hn, hpos⟩ := scanLine_drop _ hscan
  have hn0 : 0 < n := hpos (by decide) (by rw [hs.2]; exact room_ne_zero hhdr.2 hend)
  rw [hn, hs.1, List.length_drop]
  omega

/-- The outer loop, over what is left of the buffer. -/
def readLines (type : TableType) (max : Nat) (rest : Bytes) (entries : List FlashPartition) :
    Run (List FlashPartition) :=
  if hhdr : type.parthdr.length < rest.length ∧
      rest.take type.parthdr.length = type.parthdr then
    match hend : memchr 0x0a rest with
    | none => .ok entries
    | some k =>
      match hscan : scanLine elements ⟨rest, k, .ofBytes [], 0⟩ with
      | .error e => .error e
      | .ok (rest', entry) =>
        match addEntry max entries entry with
        | .error e => .error e
        | .ok entries =>
          have := scanLine_shorter ⟨rfl, rfl⟩ hhdr hend hscan
          readLines type max rest' entries
  else .ok entries
termination_by rest.length

/-- `fread(buf, 1, sizeof(buf), ..)`: what the file does not reach stays. -/
def fread (buf file : Bytes) : Bytes := file.take buf.length ++ buf.drop file.length

/-- `read_partition_table`; `none` where it answers 1.  `stale` is what the stack holds. -/
def readPartitionTable (stale : Nat → UInt8) (file : Bytes) (offset : Nat) (max : Nat)
    (type : TableType) : Run (Option (List FlashPartition)) :=
  let buf := (fread (malloc stale 2048) (file.drop offset)).set 2047 0
  if buf.take type.parthdr.length ≠ type.parthdr then .ok none
  else (readLines type max buf []).map some

/-! ## What is printed is read

  The format of a line for each of the two tables, and its way back. -/

/-- The bytes between the size and the line feed. -/
def TableType.trail : TableType → Bytes
  | .fwup => [0x09, 0x0d]
  | .flash => []

/-- A line, up to its line feed. -/
def tableLine (type : TableType) (p : FlashPartition) : Bytes :=
  type.parthdr ++ 0x20 :: (p.name.bytes ++ 0x20 :: (asBytes "base".toList ++ 0x20 ::
    (0x30 :: 0x78 :: padHex 5 p.base.toNat ++ 0x20 :: (asBytes "size".toList ++ 0x20 ::
      (0x30 :: 0x78 :: padHex 5 p.size.toNat ++ type.trail)))))

/-- A table as it is printed, with a line feed at each line. -/
def tableText (type : TableType) (ps : List FlashPartition) : Bytes :=
  ps.flatMap fun p => tableLine type p ++ [0x0a]

/-- A name that can be read back. -/
def Readable (name : CString) : Prop :=
  (0x20 : UInt8) ∉ name.bytes ∧ (0x0a : UInt8) ∉ name.bytes ∧ name.bytes.length ≤ 31

instance (name : CString) : Decidable (Readable name) := inferInstanceAs (Decidable (_ ∧ _))

/-- The first of its kind is found, whatever is behind it. -/
theorem memchr_append {b : UInt8} {a : Bytes} (h : b ∉ a) (s : Bytes) :
    memchr b (a ++ b :: s) = some a.length := by
  induction a with
  | nil => exact if_pos rfl
  | cons c a ih =>
    rw [List.mem_cons, not_or] at h
    rw [List.cons_append, memchr, if_neg (Ne.symm h.1), ih h.2]
    rfl

/-- An element that ends at a space before the end of the line. -/
theorem scanLine_cons {e : Element} {es : List Element} {a line tail : Bytes} {name : CString}
    {base : Nat} (ha : (0x20 : UInt8) ∉ a) (he : e ≠ .sizeWord) :
    scanLine (e :: es) ⟨a ++ 0x20 :: line ++ 0x0a :: tail, (a ++ 0x20 :: line).length, name, base⟩ =
      scanLine es ⟨line ++ 0x0a :: tail, line.length,
        if e = .name then .ofBytes (a.take 31) else name,
        if e = .base then strtoul16 (a ++ 0x20 :: line ++ 0x0a :: tail) else base⟩ := by
  have hroom : (a ++ 0x20 :: line).length = a.length + 1 + line.length := by
    rw [List.length_append, List.length_cons]
    omega
  rw [scanLine]
  dsimp only
  rw [if_neg (by omega), List.take_left, memchr_append ha]
  dsimp only
  rw [if_neg he, Scan.next]
  dsimp only
  -- what is left of the text, of the room, and the name so far
  congr 2
  · rw [List.append_assoc, List.cons_append, ← List.drop_drop, List.drop_left]
    rfl
  · rw [hroom]
    omega
  · split
    · congr 1
      rw [List.append_assoc, List.take_append_of_le_length (Nat.min_le_right ..), Nat.min_comm,
        ← List.take_take, List.take_of_length_le (by rw [List.length_take]; omega)]
    · rfl

/-- The last element, and the number behind it. -/
theorem scanLine_size {es : List Element} {a line tail : Bytes} {name : CString} {base : Nat}
    (ha : (0x20 : UInt8) ∉ a) :
    scanLine (.sizeWord :: es)
        ⟨a ++ 0x20 :: line ++ 0x0a :: tail, (a ++ 0x20 :: line).length, name, base⟩ =
      .ok (tail, some ⟨name, UInt32.ofNat base, UInt32.ofNat (strtoul16 (line ++ 0x0a :: tail))⟩) := by
  have hroom : (a ++ 0x20 :: line).length = a.length + 1 + line.length := by
    rw [List.length_append, List.length_cons]
    omega
  have hnumber : (a ++ 0x20 :: line ++ 0x0a :: tail).drop (a.length + 1) = line ++ 0x0a :: tail := by
    rw [List.append_assoc, List.cons_append, ← List.drop_drop, List.drop_left]
    rfl
  have hend : (a ++ 0x20 :: line ++ 0x0a :: tail).drop ((a ++ 0x20 :: line).length + 1) = tail := by
    rw [← List.drop_drop, List.drop_left]
    rfl
  rw [scanLine]
  dsimp only
  rw [if_neg (by omega), List.take_left, memchr_append ha]
  dsimp only
  rw [if_pos rfl, hnumber, hend]

/-- A string of C is what it holds. -/
theorem CString.ofBytes_bytes (s : CString) : CString.ofBytes s.bytes = s := by
  cases s with
  | mk bytes noZero =>
    have hall : bytes.takeWhile (· ≠ 0) = bytes :=
      List.takeWhile_eq_self_iff.mpr fun b hb => by
        simp only [decide_eq_true_eq]
        rintro rfl
        exact noZero hb
    simp only [CString.ofBytes, hall]

/-- A number below 2^32 comes back, whatever follows its digits. -/
theorem ofNat_strtoul16 (n : UInt32) {b : UInt8} (hb : hexValue b = none) (s : Bytes) :
    UInt32.ofNat (strtoul16 (0x30 :: 0x78 :: padHex 5 n.toNat ++ b :: s)) = n := by
  have hn : n.toNat ≤ ulongMax := by
    have hlt := n.toNat_lt
    unfold ulongMax
    omega
  rw [List.cons_append, List.cons_append, strtoul16_padHex hn hb, UInt32.ofNat_toNat]

/-- **A printed line is one entry.** -/
theorem scanLine_tableLine (type : TableType) {p : FlashPartition} (hp : Readable p.name)
    (tail : Bytes) (name : CString) (base : Nat) :
    scanLine elements ⟨tableLine type p ++ 0x0a :: tail, (tableLine type p).length, name, base⟩ =
      .ok (tail, some p) := by
  obtain ⟨hspace, -, hlen⟩ := hp
  have hhdr : (0x20 : UInt8) ∉ type.parthdr := by cases type <;> decide
  have hbase : (0x20 : UInt8) ∉ (0x30 :: 0x78 :: padHex 5 p.base.toNat) := by
    rw [List.mem_cons, List.mem_cons, not_or, not_or]
    exact ⟨by decide, by decide, not_mem_padHex (by decide)⟩
  have hbaseVal : ∀ s, UInt32.ofNat (strtoul16 ((0x30 :: 0x78 :: padHex 5 p.base.toNat ++
      0x20 :: s) ++ 0x0a :: tail)) = p.base := by
    intro s
    rw [List.append_assoc]
    exact ofNat_strtoul16 p.base (by decide) _
  have hsizeVal : UInt32.ofNat (strtoul16 ((0x30 :: 0x78 :: padHex 5 p.size.toNat ++ type.trail) ++
      0x0a :: tail)) = p.size := by
    rw [List.append_assoc]
    cases type with
    | fwup => exact ofNat_strtoul16 p.size (by decide) _
    | flash => exact ofNat_strtoul16 p.size (by decide) _
  unfold elements tableLine
  rw [scanLine_cons hhdr (by decide), scanLine_cons hspace (by decide),
    scanLine_cons (by decide) (by decide), scanLine_cons hbase (by decide),
    scanLine_size (by decide), hsizeVal, if_neg (by decide), if_neg (by decide), if_pos rfl,
    if_pos rfl, hbaseVal, List.take_of_length_le hlen, CString.ofBytes_bytes]

/-- A printed line has no line feed before its end. -/
theorem lineFeed_not_mem (type : TableType) {p : FlashPartition} (hp : Readable p.name) :
    (0x0a : UInt8) ∉ tableLine type p := by
  have hhdr : (0x0a : UInt8) ∉ type.parthdr := by cases type <;> decide
  have htrail : (0x0a : UInt8) ∉ type.trail := by cases type <;> decide
  have hbase : (0x0a : UInt8) ∉ padHex 5 p.base.toNat := not_mem_padHex (by decide)
  have hsize : (0x0a : UInt8) ∉ padHex 5 p.size.toNat := not_mem_padHex (by decide)
  have hwords : (0x0a : UInt8) ∉ asBytes "base".toList ∧ (0x0a : UInt8) ∉ asBytes "size".toList := by
    decide
  simp only [tableLine, List.mem_append, List.mem_cons, not_or]
  exact ⟨hhdr, by decide, hp.2.1, by decide, hwords.1, by decide, ⟨by decide, by decide, hbase⟩,
    by decide, hwords.2, by decide, ⟨by decide, by decide, hsize⟩, htrail⟩

theorem tableText_cons (type : TableType) (p : FlashPartition) (ps : List FlashPartition) :
    tableText type (p :: ps) = tableLine type p ++ 0x0a :: tableText type ps := by
  rw [tableText, List.flatMap_cons, List.append_assoc]
  rfl

/-- The end of the text is no line. -/
theorem readLines_nil (type : TableType) (max : Nat) (tail : Bytes)
    (entries : List FlashPartition) : readLines type max (0 :: tail) entries = .ok entries := by
  rw [readLines, dif_neg]
  rintro ⟨-, h⟩
  cases type with
  | fwup => exact absurd (List.cons.inj h).1 (by decide)
  | flash => exact absurd (List.cons.inj h).1 (by decide)

/-- **A printed table is read back**, up to the zero that ends it. -/
theorem readLines_tableText (type : TableType) (max : Nat) (tail : Bytes)
    (ps : List FlashPartition) : ∀ (entries : List FlashPartition),
      (∀ p ∈ ps, Readable p.name) → entries.length + ps.length ≤ max →
        readLines type max (tableText type ps ++ 0 :: tail) entries = .ok (entries ++ ps) := by
  induction ps with
  | nil =>
    intro entries _ _
    rw [List.append_nil]
    exact readLines_nil type max tail entries
  | cons p ps ih =>
    intro entries hall hmax
    rw [List.forall_mem_cons] at hall
    rw [List.length_cons] at hmax
    have hadd : addEntry max entries (some p) = .ok (entries ++ [p]) := if_neg (by omega)
    have hline : memchr 0x0a (tableLine type p ++ 0x0a :: (tableText type ps ++ 0 :: tail)) =
        some (tableLine type p).length := memchr_append (lineFeed_not_mem type hall.1) _
    have hhdr : (tableLine type p).take type.parthdr.length = type.parthdr := by
      rw [tableLine, List.take_left]
    have hlong : type.parthdr.length < (tableLine type p).length := by
      rw [tableLine, List.length_append, List.length_cons]
      omega
    rw [tableText_cons, List.append_assoc, List.cons_append, readLines, dif_pos]
    · split
      · rename_i hnone
        rw [hline] at hnone
        exact absurd hnone (by simp)
      · rename_i k hk
        rw [hline] at hk
        have hk' := Option.some.inj hk
        subst hk'
        split
        · rename_i e hscan
          rw [scanLine_tableLine type hall.1] at hscan
          exact absurd hscan (by simp)
        · rename_i rest entry hscan
          rw [scanLine_tableLine type hall.1] at hscan
          obtain ⟨rfl, rfl⟩ := Prod.mk.inj (Except.ok.inj hscan)
          rw [hadd]
          dsimp only
          rw [ih _ hall.2 (by rw [List.length_append, List.length_singleton]; omega),
            List.append_assoc, List.singleton_append]
    · rw [List.length_append, List.take_append_of_le_length (by omega)]
      exact ⟨by omega, hhdr⟩

/-- The buffer after a read: text that ends inside it is there, with its zero. -/
theorem fread_text (stale : Nat → UInt8) {text : Bytes} (tail : Bytes) (h : text.length ≤ 2047) :
    ∃ tail', (fread (malloc stale 2048) (text ++ 0 :: tail)).set 2047 0 = text ++ 0 :: tail' := by
  have hbuf : (malloc stale 2048).length = 2048 := length_malloc stale 2048
  have htake : (text ++ 0 :: tail).take (malloc stale 2048).length =
      text ++ 0 :: tail.take (2047 - text.length) := by
    rw [hbuf, List.take_append, List.take_of_length_le (by omega)]
    have hsucc : 2048 - text.length = (2047 - text.length) + 1 := by omega
    rw [hsucc, List.take_succ_cons]
  unfold fread
  rw [htake, List.append_assoc, List.cons_append, List.set_append_right _ _ h]
  cases hroom : 2047 - text.length with
  | zero => exact ⟨_, rfl⟩
  | succ n => exact ⟨_, rfl⟩

/-- **A table in a file is read back.** -/
theorem readPartitionTable_ok {stale : Nat → UInt8} {file : Bytes} (tail : Bytes) {offset max : Nat}
    {type : TableType} {ps : List FlashPartition} (hne : ps ≠ []) (hall : ∀ p ∈ ps, Readable p.name)
    (hmax : ps.length ≤ max) (hlen : (tableText type ps).length ≤ 2047)
    (hfile : file.drop offset = tableText type ps ++ 0 :: tail) :
    readPartitionTable stale file offset max type = .ok (some ps) := by
  obtain ⟨tail', hbuf⟩ := fread_text stale tail hlen
  have hhdr : (tableText type ps ++ 0 :: tail').take type.parthdr.length = type.parthdr := by
    obtain ⟨p, ps', rfl⟩ := List.exists_cons_of_ne_nil hne
    rw [tableText_cons, tableLine, List.append_assoc, List.append_assoc, List.take_left]
  have hread := readLines_tableText type max tail' ps [] hall
    (by rw [List.length_nil]; omega)
  unfold readPartitionTable
  dsimp only
  rw [hfile, hbuf, if_neg (by rw [hhdr]; exact fun h => h rfl), hread]
  rfl

/-! ## The two tables of an image

  The entries of the image's own table give the places of its parts, counted from the end of the
  header. -/

/-- The text of `make_partition_table` is such a table. -/
theorem flashText_eq (ps : List FlashPartition) : flashText ps = tableText .flash ps := by
  have hline : flashLine = fun p => tableLine .flash p ++ [0x0a] := by
    funext p
    have hbase : asBytes " base 0x".toList =
        0x20 :: (asBytes "base".toList ++ [0x20, 0x30, 0x78]) := by decide
    have hsize : asBytes " size 0x".toList =
        0x20 :: (asBytes "size".toList ++ [0x20, 0x30, 0x78]) := by decide
    have hhdr : asBytes "partition ".toList = TableType.flash.parthdr ++ [0x20] := by decide
    rw [flashLine, tableLine, hbase, hsize, hhdr]
    simp [TableType.trail]
  rw [flashText, tableText, hline]

/-- What the image partition table says: a partition is listed with its place and its size. -/
def fwupEntries : List ImagePartition → Nat → List FlashPartition
  | [], _ => []
  | p :: ps, base =>
    ⟨p.name, UInt32.ofNat base, UInt32.ofNat p.size⟩ :: fwupEntries ps (base + p.size)

/-- The text of `put_partitions` is such a table as well. -/
theorem fwupText_eq (ps : List ImagePartition) : ∀ base : Nat,
    fwupText ps base = tableText .fwup (fwupEntries ps base) := by
  induction ps with
  | nil => exact fun _ => rfl
  | cons p ps ih =>
    intro base
    have hbase : asBytes " base 0x".toList =
        0x20 :: (asBytes "base".toList ++ [0x20, 0x30, 0x78]) := by decide
    have hsize : asBytes " size 0x".toList =
        0x20 :: (asBytes "size".toList ++ [0x20, 0x30, 0x78]) := by decide
    have hhdr : asBytes "fwup-ptn ".toList = TableType.fwup.parthdr ++ [0x20] := by decide
    have hline : fwupLine p base =
        tableLine .fwup ⟨p.name, UInt32.ofNat base, UInt32.ofNat p.size⟩ ++ [0x0a] := by
      rw [fwupLine, tableLine, hbase, hsize, hhdr]
      simp [TableType.trail]
    rw [fwupText, fwupEntries, tableText_cons, ih, hline, List.append_assoc]
    rfl

/-- 32 bits name what is below 2^32. -/
theorem toNat_ofNat {n : Nat} (h : n < 2 ^ 32) : (UInt32.ofNat n).toNat = n :=
  UInt32.toNat_ofNat_of_lt' h

/-- One entry for each partition. -/
theorem length_fwupEntries (ps : List ImagePartition) : ∀ base : Nat,
    (fwupEntries ps base).length = ps.length := by
  induction ps with
  | nil => exact fun _ => rfl
  | cons p ps ih =>
    intro base
    rw [fwupEntries, List.length_cons, List.length_cons, ih]

/-- The entries have the names of the partitions. -/
theorem name_of_mem_fwupEntries {ps : List ImagePartition} : ∀ {base : Nat} {e : FlashPartition},
    e ∈ fwupEntries ps base → ∃ p ∈ ps, p.name = e.name := by
  induction ps with
  | nil => exact fun h => absurd h (by simp [fwupEntries])
  | cons p ps ih =>
    intro base e h
    rcases List.mem_cons.mp h with rfl | h
    · exact ⟨p, List.mem_cons_self, rfl⟩
    · obtain ⟨q, hq, hname⟩ := ih h
      exact ⟨q, List.mem_cons_of_mem _ hq, hname⟩

/-! ## Reading a factory image

  Where the two tables stand in an image that the tool made, and that they are read back from
  there. -/

/-- Where the data of a factory image is. -/
theorem factory_parts {md5 : Md5} {info : DeviceInfo} {parts : List ImagePartition}
    {image : Bytes} (h : generateFactoryImage md5 info parts = .ok image) :
    image.length = 0x1814 + (payload parts).length ∧
      image.drop (0x800 + 0x1014) = payload parts ∧ image.take 4 = toBe 4 image.length := by
  obtain ⟨-, htext, head, post, hhead, hpost, htake, rfl⟩ := generateFactoryImage_ok h
  have htable : (terminated (fwupText parts 0x800) post).length = 0x800 := by
    rw [length_terminated (by omega), hpost]
  have hlength : (head ++ (terminated (fwupText parts 0x800) post ++ payload parts)).length =
      0x1814 + (payload parts).length := by
    rw [List.length_append, List.length_append, hhead, htable]
    omega
  refine ⟨hlength, ?_, ?_⟩
  · rw [Nat.add_comm, ← List.drop_drop, List.drop_left' hhead, List.drop_left' htable]
  · rw [hlength, List.take_append_of_le_length (by omega), htake]

/-- **The table of a factory image is read back.** -/
theorem factory_table {md5 : Md5} {info : DeviceInfo} {parts : List ImagePartition}
    {image : Bytes} (stale : Nat → UInt8) {max : Nat}
    (h : generateFactoryImage md5 info parts = .ok image) (hnonempty : parts ≠ [])
    (hnames : ∀ p ∈ parts, Readable p.name) (hmax : parts.length ≤ max) :
    readPartitionTable stale image 0x1014 max .fwup = .ok (some (fwupEntries parts 0x800)) := by
  obtain ⟨-, htext, head, post, hhead, hpost, -, rfl⟩ := generateFactoryImage_ok h
  have hne : fwupEntries parts 0x800 ≠ [] := by
    intro hnil
    have hlen := length_fwupEntries parts 0x800
    rw [hnil] at hlen
    exact hnonempty (List.length_eq_zero_iff.mp hlen.symm)
  have hreadable : ∀ e ∈ fwupEntries parts 0x800, Readable e.name := by
    intro e he
    obtain ⟨p, hp, hname⟩ := name_of_mem_fwupEntries he
    exact hname ▸ hnames p hp
  have htextne : fwupText parts 0x800 ≠ [] := by
    obtain ⟨p, ps, rfl⟩ := List.exists_cons_of_ne_nil hnonempty
    exact fun hnil => fwupLine_ne_nil p _ (List.append_eq_nil_iff.mp hnil).1
  refine readPartitionTable_ok (post.drop ((fwupText parts 0x800).length + 1) ++ payload parts) hne
    hreadable (by rw [length_fwupEntries]; exact hmax) (by rw [← fwupText_eq]; omega) ?_
  rw [List.drop_left' hhead, terminated, if_neg htextne, List.append_assoc, fwupText_eq]
  rfl

end Safewrt.Safeloader
