/-
  The array of table entries, and looking a name up in it
  (tools/tplink-safeloader/tplink-safeloader.c, `add_flash_partition` and `find_partition`).

  1. **Arrays** — the slots as they are in memory: a name that may be `NULL`, a base, a size.
     `addSlot` fills the first slot that is all zero, `findSlot` compares every slot's name, and
     `strcmp` of a `NULL` name kills the process.

  2. **Representation** — `array max entries`: the entries in use, then zeroed slots.  The array of
     any table that is read has this form (`filled_eq`), and on it the two functions are what
     `addFlashPartition` and `findPartition` say of the list (`addSlot_array`, `findSlot_array`).

  3. What a table can hold: `readPartitionTable_readable` and `readPartitionTable_length`.

  4. **`findSlot_meets_iff`** — a name that is missing meets a `NULL` before the end of the array,
     unless the array is full.
-/
import Safewrt.Safeloader.Convert

namespace Safewrt.Safeloader

open Safewrt.Lib

/-! ## Arrays

  The source has arrays of 32 entries and no count.  The end is an entry whose name is NULL, and an
  array that is full has no end. -/

/-- `struct flash_partition_entry` in an array. -/
structure Slot where
  name : Option CString
  base : UInt32
  size : UInt32
  deriving Repr, DecidableEq

/-- `{ 0 }` -/
def Slot.zeroed : Slot := ⟨none, 0, 0⟩

/-- An entry as it stands in the array. -/
def FlashPartition.slot (e : FlashPartition) : Slot := ⟨some e.name, e.base, e.size⟩

/-- `add_flash_partition` -/
def addSlot : List Slot → FlashPartition → Run (List Slot)
  | [], _ => .error (.ofText "No free flash part entry available.: Success".toList)
  | s :: slots, e =>
    if s.name = none ∧ s.base = 0 ∧ s.size = 0 then .ok (e.slot :: slots)
    else (addSlot slots e).map (s :: ·)

/-- `find_partition` -/
def findSlot : List Slot → CString → Text → Run Slot
  | [], _, message => .error (.ofText message)
  | s :: slots, name, message =>
    match s.name with
    | none => .error .fault      -- `strcmp(NULL, name)`
    | some n => if n = name then .ok s else findSlot slots name message

/-- An array of `max` slots into which the entries of a table were added. -/
def filled (max : Nat) (entries : List FlashPartition) : Run (List Slot) :=
  entries.foldlM addSlot (List.replicate max Slot.zeroed)

/-! ## Representation

  A list of at most 32 entries stands for such an array; adding and finding are read off the list. -/

/-- The entries in use, then zeroed slots. -/
def array (max : Nat) (entries : List FlashPartition) : List Slot :=
  entries.map FlashPartition.slot ++ List.replicate (max - entries.length) Slot.zeroed

/-- The slots in use are passed over. -/
theorem addSlot_used (used : List FlashPartition) (slots : List Slot) (e : FlashPartition) :
    addSlot (used.map FlashPartition.slot ++ slots) e =
      (addSlot slots e).map (used.map FlashPartition.slot ++ ·) := by
  induction used with
  | nil =>
    rw [List.map_nil, List.nil_append]
    cases addSlot slots e <;> rfl
  | cons u used ih =>
    have hused : ¬ (u.slot.name = none ∧ u.slot.base = 0 ∧ u.slot.size = 0) := by
      rintro ⟨h, -⟩
      exact absurd h (by simp [FlashPartition.slot])
    rw [List.map_cons, List.cons_append, addSlot, if_neg hused, ih]
    cases addSlot slots e <;> rfl

/-- **Adding to the array is adding to the list.** -/
theorem addSlot_array {max : Nat} {entries : List FlashPartition} (h : entries.length ≤ max)
    (e : FlashPartition) :
    addSlot (array max entries) e = (addFlashPartition max entries e).map (array max) := by
  rw [array, addSlot_used, addFlashPartition]
  by_cases hfull : entries.length = max
  · rw [if_pos hfull, hfull, Nat.sub_self]
    rfl
  · obtain ⟨n, hn⟩ : ∃ n, max - entries.length = n + 1 := ⟨max - entries.length - 1, by omega⟩
    have hnext : max - (entries ++ [e]).length = n := by
      rw [List.length_append, List.length_singleton]
      omega
    rw [if_neg hfull, hn, List.replicate_succ, addSlot, if_pos ⟨rfl, rfl, rfl⟩]
    show Except.ok _ = Except.ok (array max (entries ++ [e]))
    rw [array, hnext, List.map_append, List.append_assoc]
    rfl

/-- Entries are added behind those in use, as long as there is a slot. -/
theorem foldlM_addSlot {max : Nat} (entries : List FlashPartition) :
    ∀ used : List FlashPartition, used.length + entries.length ≤ max →
      entries.foldlM addSlot (array max used) = .ok (array max (used ++ entries)) := by
  induction entries with
  | nil =>
    intro used _
    rw [List.append_nil]
    rfl
  | cons e entries ih =>
    intro used h
    rw [List.length_cons] at h
    have hadd : addSlot (array max used) e = .ok (array max (used ++ [e])) := by
      rw [addSlot_array (by omega), addFlashPartition, if_neg (by omega)]
      rfl
    have hrest := ih (used ++ [e]) (by rw [List.length_append, List.length_singleton]; omega)
    rw [List.append_assoc, List.singleton_append] at hrest
    rw [List.foldlM_cons, hadd, ok_bind, hrest]

/-- **The array of a table** is its entries and then zeroed slots. -/
theorem filled_eq {max : Nat} {entries : List FlashPartition} (h : entries.length ≤ max) :
    filled max entries = .ok (array max entries) := by
  have hempty : List.replicate max Slot.zeroed = array max [] := by
    rw [array, List.map_nil, List.nil_append, List.length_nil, Nat.sub_zero]
  rw [filled, hempty]
  exact foldlM_addSlot entries [] (by rw [List.length_nil]; omega)

/-- Behind the entries that do not have the name, the search goes on. -/
theorem findSlot_used {used : List FlashPartition} {name : CString}
    (h : ∀ e ∈ used, e.name ≠ name) (slots : List Slot) (message : Text) :
    findSlot (used.map FlashPartition.slot ++ slots) name message =
      findSlot slots name message := by
  induction used with
  | nil => rfl
  | cons u used ih =>
    rw [List.forall_mem_cons] at h
    show (if u.name = name then _ else findSlot (used.map FlashPartition.slot ++ slots) name
      message) = _
    rw [if_neg h.1, ih h.2]

/-- **A name that is there** is found where it stands first. -/
theorem findSlot_found {entries : List FlashPartition} {name : CString} {e : FlashPartition}
    (h : (entries.find? fun e => e.name = name) = some e) (slots : List Slot) (message : Text) :
    findSlot (entries.map FlashPartition.slot ++ slots) name message = .ok e.slot := by
  obtain ⟨hname, before, behind, hentries, hbefore⟩ := List.find?_eq_some_iff_append.mp h
  rw [hentries, List.map_append, List.append_assoc,
    findSlot_used (fun a ha => by simpa using hbefore a ha), List.map_cons, List.cons_append]
  show (if e.name = name then _ else _) = _
  rw [if_pos (by simpa using hname)]

/-- **A name that is missing** meets the first zeroed slot, or the end of a full array. -/
theorem findSlot_missing {max : Nat} {entries : List FlashPartition} {name : CString}
    (h : ∀ e ∈ entries, e.name ≠ name) (hle : entries.length ≤ max) (message : Text) :
    findSlot (array max entries) name message =
      if entries.length < max then .error .fault else .error (.ofText message) := by
  rw [array, findSlot_used h]
  by_cases hlt : entries.length < max
  · obtain ⟨n, hn⟩ : ∃ n, max - entries.length = n + 1 := ⟨max - entries.length - 1, by omega⟩
    rw [if_pos hlt, hn, List.replicate_succ]
    rfl
  · have hzero : max - entries.length = 0 := by omega
    rw [if_neg hlt, hzero]
    rfl

/-- **Looking up in the array is `findPartition`.** -/
theorem findSlot_array {max : Nat} {entries : List FlashPartition} (hle : entries.length ≤ max)
    (name : CString) (message : Text) :
    findSlot (array max entries) name message =
      (findPartition max entries name message).map FlashPartition.slot := by
  rw [findPartition]
  cases hfind : entries.find? fun e => e.name = name with
  | some e => exact findSlot_found hfind _ message
  | none =>
    have hmissing : ∀ e ∈ entries, e.name ≠ name := by
      intro e he
      simpa using List.find?_eq_none.mp hfind e he
    rw [findSlot_missing hmissing hle]
    dsimp only
    split <;> rfl

/-! ## What a table can hold

  Names without spaces and line feeds, of at most 31 bytes, and no more entries than the array has
  slots: what `read_partition_table` returns, whatever it read. -/

/-- The byte found is the first of its kind. -/
theorem memchr_some {b : UInt8} {s : Bytes} : ∀ {k : Nat}, memchr b s = some k →
    b ∉ s.take k ∧ k < s.length := by
  induction s with
  | nil => exact fun h => absurd h (by simp [memchr])
  | cons c s ih =>
    intro k h
    rw [memchr] at h
    by_cases hc : c = b
    · rw [if_pos hc] at h
      rw [← Option.some.inj h]
      exact ⟨by simp, Nat.succ_pos _⟩
    · rw [if_neg hc] at h
      obtain ⟨j, hj, rfl⟩ := Option.map_eq_some_iff.mp h
      obtain ⟨hnot, hlt⟩ := ih hj
      refine ⟨?_, Nat.succ_lt_succ hlt⟩
      rw [List.take_succ_cons, List.mem_cons, not_or]
      exact ⟨fun heq => hc heq.symm, hnot⟩

/-- What the scan takes for a name is one that can be read again. -/
theorem readable_ofBytes {s : Bytes} (hspace : (0x20 : UInt8) ∉ s) (hfeed : (0x0a : UInt8) ∉ s)
    (hlen : s.length ≤ 31) : Readable (.ofBytes s) := by
  have hhead : s.takeWhile (· ≠ 0) <+: s := List.takeWhile_prefix _
  exact ⟨fun h => hspace (hhead.subset h), fun h => hfeed (hhead.subset h),
    Nat.le_trans hhead.length_le hlen⟩

/-- The name of an entry is a word of its line. -/
theorem scanLine_readable (es : List Element) : ∀ {s : Scan} {rest : Bytes}
    {entry : FlashPartition}, (0x0a : UInt8) ∉ s.rest.take s.room → Readable s.name →
      scanLine es s = .ok (rest, some entry) → Readable entry.name := by
  induction es with
  | nil => exact fun _ _ h => absurd (congrArg Prod.snd (Except.ok.inj h)) (by simp)
  | cons e es ih =>
    intro s rest entry hfeed hname h
    rw [scanLine] at h
    split at h
    · exact absurd (congrArg Prod.snd (Except.ok.inj h)) (by simp)
    split at h
    · exact absurd h (by simp)
    rename_i k hk
    obtain ⟨hspace, hlt⟩ := memchr_some hk
    rw [List.length_take] at hlt
    split at h
    · have hentry := congrArg Prod.snd (Except.ok.inj h)
      rw [← Option.some.inj hentry]
      exact hname
    · refine ih ?_ ?_ h
      · -- the rest of the line
        show (0x0a : UInt8) ∉ (s.rest.drop (k + 1)).take (s.room - (k + 1))
        rw [← List.drop_take]
        exact fun hmem => hfeed (List.drop_subset _ _ hmem)
      · show Readable (if e = .name then .ofBytes (s.rest.take (min 31 k)) else s.name)
        split
        · have htake : s.rest.take (min 31 k) = ((s.rest.take s.room).take k).take 31 := by
            rw [List.take_take, List.take_take]
            congr 1
            omega
          rw [htake]
          exact readable_ofBytes (fun hmem => hspace (List.take_subset _ _ hmem))
            (fun hmem => hfeed (List.take_subset _ _ (List.take_subset _ _ hmem)))
            (List.length_take_le ..)
        · exact hname

/-- **The rule for tables**: what holds of the entries before a table is read, and is kept when a
    readable name is added to an array that is not full, holds afterwards. -/
theorem readLines_induction {type : TableType} {max : Nat} (I : List FlashPartition → Prop)
    (hadd : ∀ entries entry, I entries → entries.length ≠ max → Readable entry.name →
      I (entries ++ [entry])) (n : Nat) :
    ∀ {rest : Bytes} {entries entries' : List FlashPartition}, rest.length = n → I entries →
      readLines type max rest entries = .ok entries' → I entries' := by
  induction n using Nat.strong_induction_on with
  | h n ih =>
    intro rest entries entries' hn hI h
    rw [readLines] at h
    split at h
    · rename_i hhdr
      split at h
      · rw [← Except.ok.inj h]
        exact hI
      rename_i k hend
      split at h
      · exact absurd h (by simp)
      rename_i rest' entry hscan
      have hshorter : rest'.length < rest.length := scanLine_shorter ⟨rfl, rfl⟩ hhdr hend hscan
      split at h
      · exact absurd h (by simp)
      rename_i entries'' hentries
      -- the invariant for what this line adds
      refine ih rest'.length (by omega) rfl ?_ h
      cases entry with
      | none =>
        rw [← Except.ok.inj hentries]
        exact hI
      | some entry =>
        have hreadable : Readable entry.name :=
          scanLine_readable elements (memchr_some hend).1
            ⟨by simp [CString.ofBytes], by simp [CString.ofBytes], by simp [CString.ofBytes]⟩ hscan
        rw [addEntry, addFlashPartition] at hentries
        split at hentries
        · exact absurd hentries (by simp)
        · rename_i hroom
          rw [← Except.ok.inj hentries]
          exact hadd entries entry hI hroom hreadable
    · rw [← Except.ok.inj h]
      exact hI

/-- A table that is read was read by the loop over the lines. -/
theorem readPartitionTable_lines {stale : Nat → UInt8} {file : Bytes} {offset max : Nat}
    {type : TableType} {entries : List FlashPartition}
    (h : readPartitionTable stale file offset max type = .ok (some entries)) :
    ∃ buf, readLines type max buf [] = .ok entries := by
  unfold readPartitionTable at h
  dsimp only at h
  split at h
  · exact absurd h (by simp)
  · cases hlines : readLines type max
        ((fread (malloc stale 2048) (file.drop offset)).set 2047 0) [] with
    | error e =>
      rw [hlines] at h
      exact absurd h (by simp [Except.map])
    | ok es =>
      rw [hlines] at h
      refine ⟨_, hlines.trans ?_⟩
      rw [Option.some.inj (Except.ok.inj h)]

/-- **A name that the parser lets through**: no space, no line feed, at most 31 bytes. -/
theorem readPartitionTable_readable {stale : Nat → UInt8} {file : Bytes} {offset max : Nat}
    {type : TableType} {entries : List FlashPartition}
    (h : readPartitionTable stale file offset max type = .ok (some entries)) :
    ∀ e ∈ entries, Readable e.name := by
  obtain ⟨buf, hlines⟩ := readPartitionTable_lines h
  refine readLines_induction (fun es => ∀ e ∈ es, Readable e.name) ?_ _ rfl (by simp) hlines
  intro es entry hes _ hentry e he
  rcases List.mem_append.mp he with he | he
  · exact hes e he
  · rw [List.mem_singleton.mp he]
    exact hentry

/-- The array was large enough. -/
theorem readPartitionTable_length {stale : Nat → UInt8} {file : Bytes} {offset max : Nat}
    {type : TableType} {entries : List FlashPartition}
    (h : readPartitionTable stale file offset max type = .ok (some entries)) :
    entries.length ≤ max := by
  obtain ⟨buf, hlines⟩ := readPartitionTable_lines h
  refine readLines_induction (fun es => es.length ≤ max) ?_ _ rfl (Nat.zero_le _) hlines
  intro es entry hes hroom _
  rw [List.length_append, List.length_singleton]
  omega

/-! ## Looking a name up -/

/-- `find_partition` as it is meant: the first entry of the name, or the error exit with its
    message; and no `NULL` is compared. -/
structure Meets (slots : List Slot) (entries : List FlashPartition) (name : CString)
    (message : Text) : Prop where
  found : ∀ e, (entries.find? fun e => e.name = name) = some e →
    findSlot slots name message = .ok e.slot
  missing : (∀ e ∈ entries, e.name ≠ name) → findSlot slots name message = .error (.ofText message)
  noFault : findSlot slots name message ≠ .error .fault

/-- **Looking a name up** in the array that a table of any file has filled: as it is meant exactly
    where the table has the name, or fills the array. -/
theorem findSlot_meets_iff {stale : Nat → UInt8} {file : Bytes} {offset : Nat} {type : TableType}
    {entries : List FlashPartition}
    (hread : readPartitionTable stale file offset maxPartitions type = .ok (some entries))
    (name : CString) (message : Text) :
    ∃ slots, filled maxPartitions entries = .ok slots ∧
      (Meets slots entries name message ↔
        (∃ e ∈ entries, e.name = name) ∨ entries.length = maxPartitions) := by
  have hle := readPartitionTable_length hread
  refine ⟨array maxPartitions entries, filled_eq hle, ?_⟩
  have hsearch := findSlot_array hle name message
  rw [findPartition] at hsearch
  cases hfind : entries.find? fun e => e.name = name with
  | some e =>
    -- the first entry of the name is what both searches stop at
    rw [hfind] at hsearch
    have hmem := List.mem_of_find?_eq_some hfind
    have hname : e.name = name := by simpa using List.find?_some hfind
    refine iff_of_true ⟨fun e' he' => ?_, fun hmissing => absurd hname (hmissing e hmem), ?_⟩
      (Or.inl ⟨e, hmem, hname⟩)
    · rw [hsearch, Option.some.inj (hfind.symm.trans he')]
      rfl
    · rw [hsearch]
      simp [Except.map]
  | none =>
    have hmissing : ∀ e ∈ entries, e.name ≠ name := by
      intro e he
      simpa using List.find?_eq_none.mp hfind e he
    rw [hfind] at hsearch
    dsimp only at hsearch
    by_cases hlt : entries.length < maxPartitions
    · rw [if_pos hlt] at hsearch
      refine iff_of_false (fun h => h.noFault hsearch) ?_
      rintro (⟨e, he, heq⟩ | h)
      · exact hmissing e he heq
      · omega
    · rw [if_neg hlt] at hsearch
      refine iff_of_true ⟨fun e he => absurd (hfind.symm.trans he) (by simp), fun _ => hsearch, ?_⟩
        (Or.inr (by omega))
      rw [hsearch]
      simp [Except.map, Stop.ofText]

/-! ### An image without a file system -/

/-- The one entry of the sample. -/
def kernelEntry : FlashPartition := ⟨cstring "os-image", 0x800, 2⟩

/-- A file whose table lists `os-image` only. -/
def kernelOnly : Bytes :=
  List.replicate 0x1014 0 ++ (tableText .fwup [kernelEntry] ++ [0])

/-- The table of the sample is read as this entry. -/
theorem kernelOnly_table : readPartitionTable (fun _ => 0xcc) kernelOnly 0x1014 maxPartitions .fwup =
    .ok (some [kernelEntry]) := by
  have hreadable : ∀ p ∈ [kernelEntry], Readable p.name := by decide
  exact readPartitionTable_ok [] (by simp) hreadable (by decide) (by decide +kernel)
    (List.drop_left' (List.length_replicate ..))

/-- The name in the table is found. -/
theorem findSlot_meets_kernel :
    ∃ slots, filled maxPartitions [kernelEntry] = .ok slots ∧
      findSlot slots (cstring "os-image")
        "Error can not find os-image partition (fwup): Success".toList = .ok kernelEntry.slot := by
  obtain ⟨slots, hfilled, hmeets⟩ := findSlot_meets_iff kernelOnly_table (cstring "os-image")
    "Error can not find os-image partition (fwup): Success".toList
  refine ⟨slots, hfilled, (hmeets.mpr (Or.inl ⟨kernelEntry, by simp, rfl⟩)).found _ ?_⟩
  exact List.find?_cons_of_pos (by decide)

/-- The file system is looked for behind the only entry: `strcmp` gets a `NULL`, and the message is
    never printed. -/
theorem findSlot_fault :
    readPartitionTable (fun _ => 0xcc) kernelOnly 0x1014 maxPartitions .fwup =
        .ok (some [kernelEntry]) ∧
      ∃ slots, filled maxPartitions [kernelEntry] = .ok slots ∧
        findSlot slots (cstring "file-system")
          "Error can not find file-system partition (fwup): Success".toList = .error .fault := by
  refine ⟨kernelOnly_table, array maxPartitions [kernelEntry], filled_eq (by decide), ?_⟩
  exact findSlot_missing (by decide) (by decide) _

end Safewrt.Safeloader
