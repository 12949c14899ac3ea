/-
  What an entry of a table depends on (tools/tplink-safeloader/tplink-safeloader.c,
  `read_partition_table`), for any 2048 bytes.

  A table is meant to be read line by line.  The code goes over the whole buffer with one pointer,
  looks for a line feed first and then for spaces in front of it; but `strtoul` is only given
  where a number starts.

  1. **Lines and fields** — `tableLines`: the lines of a buffer that begin with the header, each
     with what follows its line feed; `fields`: what stands between the spaces of a line.
     `lineEntry` is the entry that the second, fourth and sixth field make.

  2. **`readLog`**: the entries in the order in which they are recorded, each with its line.  It is
     the loop again (`readLines_log`), and one line of it is `readLog_line`.

  3. **What the code records** — `entryAt`: `strtoul` has no end, so it reads on behind a field
     of white space, and from the last field on into the next line.

  4. **`lineByLine_iff`**: every entry is that of its own line, exactly where the fields that are
     read leave it nothing to read on (`Closed`).  A field with something in it that is not white
     space ends by itself; of an empty one `strtoul` skips the space, or the line feed, behind it.
-/
import Safewrt.Safeloader.Lookup

namespace Safewrt.Safeloader

open Safewrt.Lib

/-! ## Lines and fields

  The specification side, on lists of bytes alone: nothing here mentions a pointer or a loop. -/

/-- The space-separated fields of a line. -/
def fields (line : Bytes) : List Bytes := line.splitOn 0x20

/-- A line from its `n`-th field on. -/
def behind (n : Nat) (line : Bytes) : Bytes := [0x20].intercalate ((fields line).drop n)

/-- The `n`-th field, counted from 0. -/
def field (n : Nat) (line : Bytes) : Bytes := (fields line).getD n []

/-- The entry that the fields of a line make: the second, cut to 31 bytes, and the numbers in the
    fourth and the sixth. -/
def lineEntry (line : Bytes) : Option FlashPartition :=
  if (fields line).length < 6 then none
  else some ⟨.ofBytes ((field 1 line).take 31), UInt32.ofNat (strtoul16 (field 3 line)),
    UInt32.ofNat (strtoul16 (field 5 line))⟩

/-- The lines of a text that a line feed ends, each with what follows it. -/
def lineTails : List Bytes → List (Bytes × Bytes)
  | [] => []
  | [_] => []
  | l :: l' :: ls => (l, [0x0a].intercalate (l' :: ls)) :: lineTails (l' :: ls)

/-- The lines at the head of a buffer that begin with the header. -/
def tableLines (type : TableType) (buf : Bytes) : List (Bytes × Bytes) :=
  (lineTails (buf.splitOn 0x0a)).takeWhile fun x => decide (type.parthdr <+: x.1)

/-- The lines that record an entry: as far as none lacks a field, and as the array has room. -/
def recorded (type : TableType) (room : Nat) (buf : Bytes) : List (Bytes × Bytes) :=
  ((tableLines type buf).takeWhile fun x => decide (6 ≤ (fields x.1).length)).take room

theorem fields_cons {a : Bytes} (h : (0x20 : UInt8) ∉ a) (line : Bytes) :
    fields (a ++ 0x20 :: line) = a :: fields line :=
  List.splitOn_append_cons_self_of_not_mem h line

theorem fields_ne_nil (line : Bytes) : fields line ≠ [] := List.splitOn_ne_nil 0x20 line

theorem behind_zero (line : Bytes) : behind 0 line = line := List.intercalate_splitOn 0x20

theorem behind_succ {a : Bytes} (h : (0x20 : UInt8) ∉ a) (n : Nat) (line : Bytes) :
    behind (n + 1) (a ++ 0x20 :: line) = behind n line := by
  rw [behind, fields_cons h]
  rfl

theorem field_succ {a : Bytes} (h : (0x20 : UInt8) ∉ a) (n : Nat) (line : Bytes) :
    field (n + 1) (a ++ 0x20 :: line) = field n line := by
  rw [field, fields_cons h]
  rfl

theorem field_zero {a : Bytes} (h : (0x20 : UInt8) ∉ a) (line : Bytes) :
    field 0 (a ++ 0x20 :: line) = a := by
  rw [field, fields_cons h]
  rfl

/-- A line is its first field, or has more behind a space. -/
theorem line_cases (line : Bytes) : ((0x20 : UInt8) ∉ line ∧ fields line = [line]) ∨
    ∃ a l, (0x20 : UInt8) ∉ a ∧ line = a ++ 0x20 :: l := by
  by_cases h : (0x20 : UInt8) ∈ line
  · obtain ⟨a, l, rfl, ha⟩ := List.eq_append_cons_of_mem h
    exact .inr ⟨a, l, ha, rfl⟩
  · exact .inl ⟨h, List.splitOn_eq_singleton h⟩

/-- A field, and what is behind it. -/
theorem behind_field {n : Nat} : ∀ {line : Bytes}, n < (fields line).length →
    behind n line = field n line ∨ ∃ l, behind n line = field n line ++ 0x20 :: l := by
  induction n with
  | zero =>
    intro line _
    rw [behind_zero]
    rcases line_cases line with ⟨h, hfields⟩ | ⟨a, l, ha, rfl⟩
    · refine .inl ?_
      rw [field, hfields]
      rfl
    · exact .inr ⟨l, by rw [field_zero ha]⟩
  | succ n ih =>
    intro line h
    rcases line_cases line with ⟨-, hfields⟩ | ⟨a, l, ha, rfl⟩
    · rw [hfields] at h
      exact absurd h (by simp)
    · rw [fields_cons ha, List.length_cons] at h
      rw [behind_succ ha, field_succ ha]
      exact ih (by omega)

/-! ## The scan of a line

  What `scanLine` makes of a line with six fields, and of one with fewer.  The scan stops at five
  spaces, so what stands behind the sixth field does not matter to it. -/

/-- The entry that the code records for a line, where `tail` follows its line feed. -/
def entryAt (line tail : Bytes) : FlashPartition :=
  ⟨.ofBytes ((field 1 line).take 31), UInt32.ofNat (strtoul16 (behind 3 line ++ 0x0a :: tail)),
    UInt32.ofNat (strtoul16 (behind 5 line ++ 0x0a :: tail))⟩

/-- **A line with six fields** is passed over and makes an entry. -/
theorem scanLine_six {line : Bytes} (h : 6 ≤ (fields line).length) (tail : Bytes) (name : CString)
    (base : Nat) : scanLine elements ⟨line ++ 0x0a :: tail, line.length, name, base⟩ =
      .ok (tail, some (entryAt line tail)) := by
  have hsplit : ∀ {l : Bytes} {n : Nat}, n + 2 ≤ (fields l).length →
      ∃ a l', (0x20 : UInt8) ∉ a ∧ l = a ++ 0x20 :: l' ∧ n + 1 ≤ (fields l').length := by
    intro l n hl
    rcases line_cases l with ⟨-, hfields⟩ | ⟨a, l', ha, rfl⟩
    · rw [hfields, List.length_singleton] at hl
      omega
    · rw [fields_cons ha, List.length_cons] at hl
      exact ⟨a, l', ha, rfl, by omega⟩
  obtain ⟨a0, l1, h0, rfl, hl1⟩ := hsplit h
  obtain ⟨a1, l2, h1, rfl, hl2⟩ := hsplit hl1
  obtain ⟨a2, l3, h2, rfl, hl3⟩ := hsplit hl2
  obtain ⟨a3, l4, h3, rfl, hl4⟩ := hsplit hl3
  obtain ⟨a4, l5, h4, rfl, -⟩ := hsplit hl4
  unfold elements entryAt
  rw [scanLine_cons h0 (by decide), scanLine_cons h1 (by decide), scanLine_cons h2 (by decide),
    scanLine_cons h3 (by decide), scanLine_size h4, if_neg (by decide), if_neg (by decide),
    if_pos rfl, if_pos rfl]
  rw [field_succ h0, field_zero h1, behind_succ h0, behind_succ h1, behind_succ h2, behind_zero,
    behind_succ h0, behind_succ h1, behind_succ h2, behind_succ h3, behind_succ h4, behind_zero]

/-- A byte that is not there is not found. -/
theorem memchr_none {b : UInt8} {s : Bytes} (h : b ∉ s) : memchr b s = none := by
  induction s with
  | nil => rfl
  | cons c s ih =>
    rw [List.mem_cons, not_or] at h
    rw [memchr, if_neg (Ne.symm h.1), ih h.2]
    rfl

/-- A line with fewer fields ends the process, or stops the scan at its line feed. -/
theorem scanLine_few (es : List Element) : ∀ {line tail : Bytes} {name : CString} {base : Nat},
    (fields line).length ≤ es.length → (∀ e ∈ es.dropLast, e ≠ .sizeWord) →
      (∃ e, scanLine es ⟨line ++ 0x0a :: tail, line.length, name, base⟩ = .error e) ∨
        scanLine es ⟨line ++ 0x0a :: tail, line.length, name, base⟩ = .ok (0x0a :: tail, none) := by
  induction es with
  | nil =>
    intro line tail name base h _
    exact absurd (List.length_eq_zero_iff.mp (Nat.le_zero.mp h)) (fields_ne_nil line)
  | cons e es ih =>
    intro line tail name base h hlast
    rcases line_cases line with ⟨hspace, -⟩ | ⟨a, l, ha, rfl⟩
    · -- no space is left before the end of the line
      rw [scanLine]
      dsimp only
      by_cases hroom : line.length = 0
      · obtain rfl : line = [] := List.length_eq_zero_iff.mp hroom
        exact .inr rfl
      · have hnone : memchr 0x20 ((line ++ 0x0a :: tail).take line.length) = none := by
          rw [List.take_left]
          exact memchr_none hspace
        rw [if_neg hroom, hnone]
        exact .inl ⟨_, rfl⟩
    · rw [fields_cons ha, List.length_cons, List.length_cons] at h
      have hne : es ≠ [] := by
        rintro rfl
        exact absurd (List.length_eq_zero_iff.mp (Nat.le_zero.mp (Nat.le_of_succ_le_succ h)))
          (fields_ne_nil l)
      rw [List.dropLast_cons_of_ne_nil hne, List.forall_mem_cons] at hlast
      rw [scanLine_cons ha hlast.1]
      exact ih (by omega) hlast.2

/-! ## The log of a table

  The loop again, with each line it looks at written down beside what it records.  `readLines` keeps
  only the entries, and an entry alone does not say which line it is from. -/

/-- The turns of the outer loop: each line with the entry that is recorded for it. -/
def readLog (type : TableType) (max : Nat) (rest : Bytes) (entries : List FlashPartition) :
    List (Bytes × Option FlashPartition) :=
  if hhdr : type.parthdr.length < rest.length ∧
      rest.take type.parthdr.length = type.parthdr then
    match hend : memchr 0x0a rest with
    | none => []
    | some k =>
      match hscan : scanLine elements ⟨rest, k, .ofBytes [], 0⟩ with
      | .error _ => [(rest.take k, none)]
      | .ok (rest', entry) =>
        match addEntry max entries entry with
        | .error _ => [(rest.take k, none)]
        | .ok entries =>
          have := scanLine_shorter ⟨rfl, rfl⟩ hhdr hend hscan
          (rest.take k, entry) :: readLog type max rest' entries
  else []
termination_by rest.length

/-- A turn that goes on. -/
theorem readLog_step {type : TableType} {max k : Nat} {rest rest' : Bytes}
    {entries entries' : List FlashPartition} {entry : Option FlashPartition}
    (hhdr : type.parthdr.length < rest.length ∧
      rest.take type.parthdr.length = type.parthdr)
    (hend : memchr 0x0a rest = some k)
    (hscan : scanLine elements ⟨rest, k, .ofBytes [], 0⟩ = .ok (rest', entry))
    (hadd : addEntry max entries entry = .ok entries') :
    readLog type max rest entries = (rest.take k, entry) :: readLog type max rest' entries' := by
  rw [readLog, dif_pos hhdr]
  split
  · rename_i hnone
    rw [hend] at hnone
    exact absurd hnone (by simp)
  rename_i k' hend'
  obtain rfl : k = k' := Option.some.inj (hend.symm.trans hend')
  split
  · rename_i hscan'
    rw [hscan] at hscan'
    exact absurd hscan' (by simp)
  rename_i rest'' entry' hscan'
  obtain ⟨rfl, rfl⟩ := Prod.mk.inj (Except.ok.inj (hscan.symm.trans hscan'))
  rw [hadd]

/-- Without a line feed there is no line. -/
theorem readLog_noFeed {type : TableType} {max : Nat} {rest : Bytes}
    (h : memchr 0x0a rest = none) (entries : List FlashPartition) :
    readLog type max rest entries = [] := by
  rw [readLog]
  split
  · split
    · rfl
    · rename_i k hk
      rw [h] at hk
      exact absurd hk (by simp)
  · rfl

/-- **The log is the loop**: a table that is read to its end has the entries of the log. -/
theorem readLines_log {type : TableType} {max : Nat} (n : Nat) :
    ∀ {rest : Bytes} {entries es : List FlashPartition}, rest.length = n →
      readLines type max rest entries = .ok es →
        es = entries ++ (readLog type max rest entries).filterMap Prod.snd := by
  induction n using Nat.strong_induction_on with
  | h n ih =>
    intro rest entries es hn h
    rw [readLines] at h
    split at h
    · rename_i hhdr
      split at h
      · rename_i hend
        rw [readLog_noFeed hend, ← Except.ok.inj h]
        exact (List.append_nil _).symm
      rename_i k hend
      split at h
      · exact absurd h (by simp)
      rename_i rest' entry hscan
      have hshorter : rest'.length < rest.length := scanLine_shorter ⟨rfl, rfl⟩ hhdr hend hscan
      split at h
      · exact absurd h (by simp)
      rename_i entries' hentries
      have hrest := ih rest'.length (by omega) rfl h
      rw [readLog_step hhdr hend hscan hentries, hrest]
      -- a line without an entry adds nothing to either side
      cases entry with
      | none =>
        obtain rfl := Except.ok.inj hentries
        rfl
      | some entry =>
        rw [addEntry, addFlashPartition] at hentries
        split at hentries
        · exact absurd hentries (by simp)
        · obtain rfl := Except.ok.inj hentries
          rw [List.append_assoc]
          rfl
    · rename_i hhdr
      rw [readLog, dif_neg hhdr, ← Except.ok.inj h]
      exact (List.append_nil _).symm

/-- A line of the table: it begins with the header, and a line feed ends it. -/
structure IsLine (type : TableType) (line : Bytes) : Prop where
  header : type.parthdr <+: line
  free : (0x0a : UInt8) ∉ line

theorem header_free (type : TableType) : (0x0a : UInt8) ∉ type.parthdr := by
  cases type <;> decide

/-- The header is at the head of a text just where it is at the head of its first line. -/
theorem header_take_iff {type : TableType} {line tail : Bytes} :
    (type.parthdr.length < (line ++ 0x0a :: tail).length ∧
      (line ++ 0x0a :: tail).take type.parthdr.length = type.parthdr) ↔ type.parthdr <+: line := by
  rw [List.length_append, List.length_cons]
  constructor
  · rintro ⟨-, h⟩
    have hpre : type.parthdr <+: line ++ 0x0a :: tail := by
      rw [← h]
      exact List.take_prefix _ _
    by_cases hlen : type.parthdr.length ≤ line.length
    · exact List.prefix_of_prefix_length_le hpre (List.prefix_append _ _) hlen
    · -- the line feed would be in the header
      have hline : line ++ [0x0a] <+: line ++ 0x0a :: tail := ⟨tail, by simp⟩
      have hshort : line ++ [0x0a] <+: type.parthdr :=
        List.prefix_of_prefix_length_le hline hpre (by
          rw [List.length_append, List.length_singleton]
          omega)
      exact absurd (hshort.subset (List.mem_append_right _ List.mem_cons_self)) (header_free type)
  · intro h
    have hlen := h.length_le
    refine ⟨by omega, ?_⟩
    rw [List.take_append_of_le_length hlen]
    exact (List.prefix_iff_eq_take.mp h).symm

/-- Where no header is, the log ends. -/
theorem readLog_noHeader {type : TableType} {max : Nat} {line : Bytes} (h : ¬ type.parthdr <+: line)
    (tail : Bytes) (entries : List FlashPartition) :
    readLog type max (line ++ 0x0a :: tail) entries = [] := by
  rw [readLog, dif_neg fun hhdr => h (header_take_iff.mp hhdr)]

theorem parthdr_not_nil (type : TableType) : ¬ type.parthdr <+: [] := by
  cases type <;> decide

/-- **A line of the log**: a line with six fields makes an entry where there is room for it; any
    other is the last. -/
theorem readLog_line {type : TableType} {max : Nat} {line : Bytes} (h : IsLine type line)
    (tail : Bytes) (entries : List FlashPartition) :
    readLog type max (line ++ 0x0a :: tail) entries =
      if 6 ≤ (fields line).length ∧ entries.length ≠ max then
        (line, some (entryAt line tail)) ::
          readLog type max tail (entries ++ [entryAt line tail])
      else [(line, none)] := by
  have hline : memchr 0x0a (line ++ 0x0a :: tail) = some line.length := memchr_append h.free tail
  rw [readLog, dif_pos (header_take_iff.mpr h.header)]
  split
  · rename_i hnone
    rw [hline] at hnone
    exact absurd hnone (by simp)
  rename_i k hk
  obtain rfl : line.length = k := Option.some.inj (hline.symm.trans hk)
  rw [List.take_left]
  by_cases hsix : 6 ≤ (fields line).length
  · have hscan := scanLine_six hsix tail (.ofBytes []) 0
    split
    · rename_i e hscan'
      rw [hscan] at hscan'
      exact absurd hscan' (by simp)
    rename_i rest' entry hscan'
    obtain ⟨rfl, rfl⟩ := Prod.mk.inj (Except.ok.inj (hscan.symm.trans hscan'))
    rw [addEntry, addFlashPartition]
    by_cases hroom : entries.length = max
    · rw [if_pos hroom, if_neg fun hc => hc.2 hroom]
    · rw [if_neg hroom, if_pos ⟨hsix, hroom⟩]
  · rw [if_neg fun hc => hsix hc.1]
    have hfew : (∃ e, scanLine elements ⟨line ++ 0x0a :: tail, line.length, .ofBytes [], 0⟩ =
        .error e) ∨ scanLine elements ⟨line ++ 0x0a :: tail, line.length, .ofBytes [], 0⟩ =
          .ok (0x0a :: tail, none) :=
      scanLine_few elements (by show _ ≤ 5; omega) (by decide)
    rcases hfew with ⟨e, hscan⟩ | hscan
    · split
      · rfl
      · rename_i hscan'
        rw [hscan] at hscan'
        exact absurd hscan' (by simp)
    · -- a line that ends in a space: its line feed is no header
      split
      · rfl
      · rename_i rest' entry hscan'
        obtain ⟨rfl, rfl⟩ := Prod.mk.inj (Except.ok.inj (hscan.symm.trans hscan'))
        rw [addEntry]
        dsimp only
        rw [show (0x0a : UInt8) :: tail = [] ++ 0x0a :: tail from rfl,
          readLog_noHeader (parthdr_not_nil type)]

/-! ## The lines that record an entry

  Which lines do, by the form of the text: they begin with the header, have six fields, and the
  array is not full yet.  `readLog_recorded` and its converse are inductions along the log. -/

/-- The first line, with what is behind its line feed. -/
theorem lineTails_cons {line : Bytes} (h : (0x0a : UInt8) ∉ line) (tail : Bytes) :
    lineTails ((line ++ 0x0a :: tail).splitOn 0x0a) =
      (line, tail) :: lineTails (tail.splitOn 0x0a) := by
  rw [List.splitOn_append_cons_self_of_not_mem h]
  have htail : [0x0a].intercalate (tail.splitOn 0x0a) = tail := List.intercalate_splitOn 0x0a
  have hne := List.splitOn_ne_nil 0x0a tail
  revert htail hne
  generalize tail.splitOn 0x0a = ls
  intro htail hne
  cases ls with
  | nil => exact absurd rfl hne
  | cons l ls => rw [lineTails, htail]

/-- **A line of the table** comes first among those that record an entry, if it does. -/
theorem recorded_line {type : TableType} {line : Bytes} (h : IsLine type line) (room : Nat)
    (tail : Bytes) : recorded type room (line ++ 0x0a :: tail) =
      if 6 ≤ (fields line).length ∧ room ≠ 0 then (line, tail) :: recorded type (room - 1) tail
      else [] := by
  have hhdr : decide (type.parthdr <+: line) = true := decide_eq_true h.header
  unfold recorded tableLines
  rw [lineTails_cons h.free, List.takeWhile_cons, if_pos hhdr, List.takeWhile_cons]
  by_cases hsix : 6 ≤ (fields line).length
  · rw [if_pos (decide_eq_true hsix)]
    cases room with
    | zero => rw [if_neg fun hc => hc.2 rfl, List.take_zero]
    | succ room =>
      rw [if_pos ⟨hsix, Nat.succ_ne_zero room⟩, List.take_succ_cons]
      rfl
  · rw [if_neg (by simpa using hsix), if_neg fun hc => hsix hc.1, List.take_nil]

/-- **A buffer begins with a line of the table, or has none**, in the log and among those that
    record an entry. -/
theorem head_cases (type : TableType) (rest : Bytes) :
    (∃ line tail, IsLine type line ∧ rest = line ++ 0x0a :: tail) ∨
      (∀ max entries, readLog type max rest entries = []) ∧ ∀ room, recorded type room rest = [] := by
  by_cases hfeed : (0x0a : UInt8) ∈ rest
  · obtain ⟨line, tail, rfl, hfree⟩ := List.eq_append_cons_of_mem hfeed
    by_cases hhdr : type.parthdr <+: line
    · exact .inl ⟨line, tail, ⟨hhdr, hfree⟩, rfl⟩
    · refine .inr ⟨fun max entries => readLog_noHeader hhdr tail entries, fun room => ?_⟩
      unfold recorded tableLines
      rw [lineTails_cons hfree, List.takeWhile_cons, if_neg (by simpa using hhdr)]
      exact List.take_nil
  · refine .inr ⟨fun max entries => readLog_noFeed (memchr_none hfeed) entries, fun room => ?_⟩
    unfold recorded tableLines
    rw [List.splitOn_eq_singleton hfeed]
    exact List.take_nil

/-- The text of the lines of a log, as it is in the buffer. -/
def through (log : List (Bytes × Option FlashPartition)) : Bytes :=
  log.flatMap fun x => x.1 ++ [0x0a]

/-- The bytes of one line more. -/
theorem through_cons (line : Bytes) (entry : Option FlashPartition)
    (log : List (Bytes × Option FlashPartition)) :
    through ((line, entry) :: log) = line ++ 0x0a :: through log := by
  rw [through, List.flatMap_cons, List.append_assoc]
  rfl

/-- **What the log records** for its `j`-th line is what the code makes of that line and what follows
    it; and the line is one of those that record an entry. -/
theorem readLog_recorded {type : TableType} {max : Nat} (j : Nat) :
    ∀ {rest line : Bytes} {entries : List FlashPartition} {entry : FlashPartition},
      entries.length ≤ max → (readLog type max rest entries)[j]? = some (line, some entry) →
      ∃ tail, (line, tail) ∈ recorded type (max - entries.length) rest ∧
        entry = entryAt line tail ∧
        rest = through ((readLog type max rest entries).take (j + 1)) ++ tail := by
  induction j with
  | zero =>
    intro rest line entries entry hmax h
    rcases head_cases type rest with ⟨l, tail, hl, rfl⟩ | ⟨hlog, -⟩
    · rw [readLog_line hl] at h ⊢
      split at h
      · rename_i hc
        rw [if_pos hc]
        obtain ⟨rfl, hentry⟩ := Prod.mk.inj (Option.some.inj h)
        refine ⟨tail, ?_, (Option.some.inj hentry).symm, ?_⟩
        · rw [recorded_line hl, if_pos ⟨hc.1, by omega⟩]
          exact List.mem_cons_self
        · rw [List.take_succ_cons, List.take_zero, through_cons, List.append_assoc]
          rfl
      · exact absurd (congrArg Prod.snd (Option.some.inj h)) (by simp)
    · rw [hlog] at h
      exact absurd h (by simp)
  | succ j ih =>
    intro rest line entries entry hmax h
    rcases head_cases type rest with ⟨l, tail, hl, rfl⟩ | ⟨hlog, -⟩
    · rw [readLog_line hl] at h ⊢
      split at h
      · rename_i hc
        rw [if_pos hc]
        rw [List.getElem?_cons_succ] at h
        have hlen : (entries ++ [entryAt l tail]).length = entries.length + 1 := by
          rw [List.length_append, List.length_singleton]
        obtain ⟨tail', hmem, hentry, hrest⟩ := ih (by omega) h
        refine ⟨tail', ?_, hentry, ?_⟩
        · -- one entry more is recorded, so there is room for one less
          rw [hlen, ← Nat.sub_sub] at hmem
          rw [recorded_line hl, if_pos ⟨hc.1, by omega⟩]
          exact List.mem_cons_of_mem _ hmem
        · rw [List.take_succ_cons, through_cons, List.append_assoc, List.cons_append, ← hrest]
      · exact absurd h (by simp)
    · rw [hlog] at h
      exact absurd h (by simp)

/-- Every line that records an entry is in the log, with what the code makes of it. -/
theorem recorded_readLog {type : TableType} {max : Nat} (n : Nat) :
    ∀ {rest line tail : Bytes} {entries : List FlashPartition}, rest.length = n →
      entries.length ≤ max → (line, tail) ∈ recorded type (max - entries.length) rest →
      6 ≤ (fields line).length ∧ ∃ j,
        (readLog type max rest entries)[j]? = some (line, some (entryAt line tail)) ∧
        rest = through ((readLog type max rest entries).take (j + 1)) ++ tail := by
  induction n using Nat.strong_induction_on with
  | h n ih =>
    intro rest line tail entries hn hmax hmem
    rcases head_cases type rest with ⟨l, t, hl, rfl⟩ | ⟨-, hrecorded⟩
    · rw [recorded_line hl] at hmem
      split at hmem
      · rename_i hc
        rw [readLog_line hl, if_pos ⟨hc.1, by omega⟩]
        rcases List.mem_cons.mp hmem with heq | hmem
        · obtain ⟨rfl, rfl⟩ := Prod.mk.inj heq
          refine ⟨hc.1, 0, rfl, ?_⟩
          rw [List.take_succ_cons, List.take_zero, through_cons, List.append_assoc]
          rfl
        · have hlen : (entries ++ [entryAt l t]).length = entries.length + 1 := by
            rw [List.length_append, List.length_singleton]
          -- the induction is on the length of what is left to read
          have hshorter : t.length < n := by
            rw [← hn, List.length_append, List.length_cons]
            omega
          rw [Nat.sub_sub, ← hlen] at hmem
          obtain ⟨hsix, j, hj, hrest⟩ := ih t.length hshorter rfl (by omega) hmem
          refine ⟨hsix, j + 1, hj, ?_⟩
          rw [List.take_succ_cons, through_cons, List.append_assoc, List.cons_append, ← hrest]
      · exact absurd hmem List.not_mem_nil
    · rw [hrecorded] at hmem
      exact absurd hmem List.not_mem_nil

/-- The first line of the log is the first of the buffer. -/
theorem through_take_one {type : TableType} {max : Nat} {line : Bytes} (h : IsLine type line)
    (tail : Bytes) (entries : List FlashPartition) :
    through ((readLog type max (line ++ 0x0a :: tail) entries).take 1) = line ++ [0x0a] := by
  rw [readLog_line h]
  split
  · rw [List.take_succ_cons, List.take_zero, through_cons]
    rfl
  · rw [List.take_succ_cons, List.take_zero, through_cons]
    rfl

/-- From the head of a table, with an empty array. -/
theorem log_recorded {type : TableType} {max j : Nat} {rest line : Bytes} {entry : FlashPartition}
    (h : (readLog type max rest [])[j]? = some (line, some entry)) :
    ∃ tail, (line, tail) ∈ recorded type max rest ∧ entry = entryAt line tail ∧
      rest = through ((readLog type max rest []).take (j + 1)) ++ tail :=
  readLog_recorded j (Nat.zero_le max) h

/-- A line that records an entry has six fields at least, and the entry is `entryAt` of it. -/
theorem recorded_log {type : TableType} {max : Nat} {rest line tail : Bytes}
    (h : (line, tail) ∈ recorded type max rest) : 6 ≤ (fields line).length ∧ ∃ j,
      (readLog type max rest [])[j]? = some (line, some (entryAt line tail)) ∧
      rest = through ((readLog type max rest []).take (j + 1)) ++ tail := by
  have hroom : (line, tail) ∈ recorded type (max - ([] : List FlashPartition).length) rest := h
  exact recorded_readLog _ rfl (Nat.zero_le max) hroom

/-- **Two buffers that agree as far as the line feed of a line** have that line at the same place of
    the log, and an entry for it in both or in neither. -/
theorem readLog_other {type : TableType} {max : Nat} (j : Nat) :
    ∀ {rest rest' line : Bytes} {entries entries' : List FlashPartition}
      {entry : Option FlashPartition}, entries'.length = entries.length →
      (readLog type max rest entries)[j]? = some (line, entry) →
      through ((readLog type max rest entries).take (j + 1)) <+: rest' →
      ∃ tail', rest' = through ((readLog type max rest entries).take (j + 1)) ++ tail' ∧
        (readLog type max rest' entries')[j]? =
          some (line, entry.map fun _ => entryAt line tail') := by
  induction j with
  | zero =>
    intro rest rest' line entries entries' entry hlen h hpre
    rcases head_cases type rest with ⟨l, tail, hl, rfl⟩ | ⟨hlog, -⟩
    · rw [through_take_one hl] at hpre ⊢
      obtain ⟨tail', rfl⟩ := hpre
      refine ⟨tail', rfl, ?_⟩
      rw [List.append_assoc, List.singleton_append, readLog_line hl, hlen]
      rw [readLog_line hl] at h
      split at h
      · rename_i hc
        rw [if_pos hc]
        obtain ⟨rfl, rfl⟩ := Prod.mk.inj (Option.some.inj h)
        rfl
      · rename_i hc
        rw [if_neg hc]
        obtain ⟨rfl, rfl⟩ := Prod.mk.inj (Option.some.inj h)
        rfl
    · rw [hlog] at h
      exact absurd h (by simp)
  | succ j ih =>
    intro rest rest' line entries entries' entry hlen h hpre
    rcases head_cases type rest with ⟨l, tail, hl, rfl⟩ | ⟨hlog, -⟩
    · rw [readLog_line hl] at h hpre ⊢
      split at h
      · rename_i hc
        rw [if_pos hc, List.take_succ_cons, through_cons] at hpre ⊢
        -- both buffers begin with the same line, and the rest of the prefix follows
        obtain ⟨more, rfl⟩ := hpre
        rw [List.append_assoc, List.cons_append, readLog_line hl, hlen, if_pos hc]
        rw [List.getElem?_cons_succ] at h ⊢
        have hlen' : ∀ e e' : FlashPartition,
            (entries' ++ [e']).length = (entries ++ [e]).length := by
          intro e e'
          rw [List.length_append, List.length_append, hlen]
          rfl
        obtain ⟨tail', hrest', hj⟩ := ih (hlen' _ _) h (List.prefix_append _ more)
        exact ⟨tail', by rw [List.append_assoc, List.cons_append, ← hrest'], hj⟩
      · exact absurd h (by simp)
    · rw [hlog] at h
      exact absurd h (by simp)

/-- The lines of the log are those at the head of the buffer. -/
theorem through_readLog {type : TableType} {max : Nat} (n : Nat) :
    ∀ {rest : Bytes} {entries : List FlashPartition}, rest.length = n →
      through (readLog type max rest entries) <+: rest ∧
        ∀ x ∈ readLog type max rest entries, (0x0a : UInt8) ∉ x.1 := by
  induction n using Nat.strong_induction_on with
  | h n ih =>
    intro rest entries hn
    rcases head_cases type rest with ⟨l, tail, hl, rfl⟩ | ⟨hlog, -⟩
    · have hshorter : tail.length < n := by
        rw [← hn, List.length_append, List.length_cons]
        omega
      rw [readLog_line hl]
      split
      · have htail : through (readLog type max tail (entries ++ [entryAt l tail])) <+: tail ∧
            ∀ x ∈ readLog type max tail (entries ++ [entryAt l tail]), (0x0a : UInt8) ∉ x.1 :=
          ih tail.length hshorter rfl
        obtain ⟨⟨more, hmore⟩, hfree⟩ := htail
        refine ⟨⟨more, ?_⟩, List.forall_mem_cons.mpr ⟨hl.free, hfree⟩⟩
        rw [through_cons, List.append_assoc, List.cons_append, hmore]
      · refine ⟨⟨tail, by simp [through]⟩, List.forall_mem_singleton.mpr hl.free⟩
    · rw [hlog]
      exact ⟨List.nil_prefix, fun x hx => absurd hx List.not_mem_nil⟩

/-! ## Numbers that are read on

  `strtoul` passes over white space and then takes digits.  A field with anything else in it ends
  its number by itself; the question is about fields of white space, and there are two of them. -/

/-- **The fields that are read leave `strtoul` nothing to read on.** -/
structure Closed (line tail : Bytes) : Prop where
  /-- there is more than white space from the last field to the line feed, or nothing but the final
      zero of the buffer behind it -/
  last : (behind 5 line).all isSpace = false ∨ tail.length ≤ 1
  /-- where the base is white space, what is behind it in the line reads as 0 -/
  base : (field 3 line).all isSpace = true → UInt32.ofNat (strtoul16 (behind 3 line)) = 0
  /-- and where the size is -/
  size : (field 5 line).all isSpace = true → UInt32.ofNat (strtoul16 (behind 5 line)) = 0

/-- A field that is not white space is read by itself. -/
theorem strtoul16_field {n : Nat} {line : Bytes} (h : n < (fields line).length)
    (hne : (field n line).all isSpace = false) (tail : Bytes) :
    strtoul16 (behind n line ++ 0x0a :: tail) = strtoul16 (field n line) := by
  rcases behind_field h with hbehind | ⟨l, hbehind⟩
  · rw [hbehind]
    exact strtoul16_ends hne (by decide) (by decide) tail
  · rw [hbehind, List.append_assoc]
    exact strtoul16_ends hne (by decide) (by decide) _

/-- The next line is read only from white space. -/
theorem strtoul16_behind {text tail : Bytes} (h : text.all isSpace = false ∨ tail = [0]) :
    strtoul16 (text ++ 0x0a :: tail) = strtoul16 text := by
  by_cases hblank : text.all isSpace = true
  · rcases h with h | rfl
    · rw [hblank] at h
      exact absurd h (by decide)
    · rw [strtoul16_blank_append hblank, strtoul16_blank hblank]
      decide
  · exact strtoul16_ends (Bool.eq_false_iff.mpr hblank) (by decide) (by decide) tail

/-- What is behind a field is behind the field before. -/
theorem behind_suffix (n : Nat) : ∀ line : Bytes, behind (n + 1) line <:+ behind n line := by
  induction n with
  | zero =>
    intro line
    rcases line_cases line with ⟨-, hfields⟩ | ⟨a, l, ha, rfl⟩
    · rw [behind, hfields]
      exact List.nil_suffix
    · rw [behind_succ ha, behind_zero, behind_zero]
      exact (List.suffix_cons 0x20 l).trans (List.suffix_append a _)
  | succ n ih =>
    intro line
    rcases line_cases line with ⟨-, hfields⟩ | ⟨a, l, ha, rfl⟩
    · rw [behind, hfields]
      exact List.nil_suffix
    · rw [behind_succ ha, behind_succ ha]
      exact ih l

/-- More than white space behind the size is more than white space behind the base. -/
theorem behind_blank {line : Bytes} (h : (behind 5 line).all isSpace = false) :
    (behind 3 line).all isSpace = false := by
  have hsuffix : behind 5 line <:+ behind 3 line :=
    (behind_suffix 4 line).trans (behind_suffix 3 line)
  rw [Bool.eq_false_iff] at h ⊢
  intro hblank
  refine h (List.all_eq_true.mpr fun b hb => ?_)
  exact List.all_eq_true.mp hblank b (hsuffix.subset hb)

/-- A number of a field is that of the field, exactly where it is not read on to another. -/
theorem number_eq_iff {n : Nat} {line tail : Bytes} (hn : n < (fields line).length)
    (h : (behind n line).all isSpace = false ∨ tail = [0]) :
    UInt32.ofNat (strtoul16 (behind n line ++ 0x0a :: tail)) =
        UInt32.ofNat (strtoul16 (field n line)) ↔
      ((field n line).all isSpace = true → UInt32.ofNat (strtoul16 (behind n line)) = 0) := by
  by_cases hblank : (field n line).all isSpace = true
  · rw [strtoul16_behind h, strtoul16_blank hblank]
    exact ⟨fun heq _ => heq, fun hzero => hzero hblank⟩
  · rw [strtoul16_field hn (Bool.eq_false_iff.mpr hblank)]
    exact iff_of_true rfl fun hb => absurd hb hblank

/-- **Where the last field is not read on, the entry is that of the line**, exactly where the numbers
    are their own. -/
theorem lineEntry_iff {line tail : Bytes} (hsix : 6 ≤ (fields line).length)
    (hlast : (behind 5 line).all isSpace = false ∨ tail = [0]) :
    lineEntry line = some (entryAt line tail) ↔
      ((field 3 line).all isSpace = true → UInt32.ofNat (strtoul16 (behind 3 line)) = 0) ∧
      ((field 5 line).all isSpace = true → UInt32.ofNat (strtoul16 (behind 5 line)) = 0) := by
  rw [← number_eq_iff (by omega) (hlast.imp_left behind_blank), ← number_eq_iff (by omega) hlast]
  unfold lineEntry entryAt
  rw [if_neg (by omega), Option.some_inj, FlashPartition.mk.injEq]
  exact ⟨fun h => ⟨h.2.1.symm, h.2.2.symm⟩, fun h => ⟨rfl, h.1.symm, h.2.symm⟩⟩

/-! ## Buffers

  A buffer is 2048 bytes with a zero at the end.  To show that an entry depends on another line, two
  buffers are built that agree on the line and not behind it. -/

/-- `char buf[2048]`, with the zero that is put at its end. -/
structure TableBuffer where
  bytes : Bytes
  length : bytes.length = 2048
  last : bytes.getLast? = some 0

/-- The buffer is always 2048 bytes, whatever the file holds. -/
theorem length_read (stale : Nat → UInt8) (file : Bytes) (offset : Nat) :
    ((fread (malloc stale 2048) (file.drop offset)).set 2047 0).length = 2048 := by
  have hbuf : (malloc stale 2048).length = 2048 := length_malloc stale 2048
  simp only [List.length_set, fread, List.length_append, List.length_take, List.length_drop, hbuf]
  omega

/-- Its last byte is the zero that the code puts there. -/
theorem last_read (stale : Nat → UInt8) (file : Bytes) (offset : Nat) :
    ((fread (malloc stale 2048) (file.drop offset)).set 2047 0).getLast? = some 0 := by
  have hlen := length_read stale file offset
  rw [List.getLast?_eq_getElem?, hlen, List.getElem?_set_self]
  rw [List.length_set] at hlen
  omega

/-- The buffer of `read_partition_table`. -/
def tableBuffer (stale : Nat → UInt8) (file : Bytes) (offset : Nat) : TableBuffer :=
  ⟨_, length_read stale file offset, last_read stale file offset⟩

/-- What the entries of a table can be relied on for. -/
structure LineByLine (type : TableType) (max : Nat) (buf : TableBuffer) : Prop where
  /-- the outer loop ends -/
  terminates : (readLog type max buf.bytes []).length ≤ 2048
  /-- a table that is read to its end has the entries of the log, in order -/
  result : ∀ stale file offset es, tableBuffer stale file offset = buf →
    readPartitionTable stale file offset max type = .ok (some es) →
    es = (readLog type max buf.bytes []).filterMap Prod.snd
  /-- the log has the lines of the buffer, from the first on -/
  ordered : through (readLog type max buf.bytes []) <+: buf.bytes ∧
    ∀ x ∈ readLog type max buf.bytes [], (0x0a : UInt8) ∉ x.1
  /-- an entry is that of its own line -/
  own : ∀ line entry, (line, some entry) ∈ readLog type max buf.bytes [] →
    lineEntry line = some entry
  /-- a line that lacks a field has none -/
  lacking : ∀ line entry, (line, entry) ∈ readLog type max buf.bytes [] →
    (fields line).length < 6 → entry = none
  /-- other bytes behind the line feed of a line leave its entry as it is -/
  unchanged : ∀ (other : TableBuffer) j x, (readLog type max buf.bytes [])[j]? = some x →
    through ((readLog type max buf.bytes []).take (j + 1)) <+: other.bytes →
    (readLog type max other.bytes [])[j]? = some x

/-- Every line takes a byte at least. -/
theorem length_le_through (log : List (Bytes × Option FlashPartition)) :
    log.length ≤ (through log).length := by
  induction log with
  | nil => exact Nat.le_refl 0
  | cons x log ih =>
    rw [through_cons, List.length_append, List.length_cons, List.length_cons]
    omega

/-- The last of the bytes of the lines is a line feed. -/
theorem through_last (log : List (Bytes × Option FlashPartition)) (h : log ≠ []) :
    (through log).getLast? = some 0x0a := by
  obtain ⟨front, x, rfl⟩ := List.eq_nil_or_concat' log |>.resolve_left h
  rw [through, List.flatMap_append, List.flatMap_singleton, ← List.append_assoc,
    List.getLast?_concat]

/-- Behind a line of the log the buffer goes on, up to its final zero. -/
theorem tail_last {buf : TableBuffer} {log : List (Bytes × Option FlashPartition)} {j : Nat}
    {x : Bytes × Option FlashPartition} {tail : Bytes} (hj : log[j]? = some x)
    (hbuf : buf.bytes = through (log.take (j + 1)) ++ tail) : tail.getLast? = some 0 := by
  have hne : log.take (j + 1) ≠ [] := by
    intro hnil
    have hlt := (List.getElem?_eq_some_iff.mp hj).1
    have hlen := congrArg List.length hnil
    rw [List.length_take, List.length_nil] at hlen
    omega
  have hlast := buf.last
  rw [hbuf, List.getLast?_append, through_last _ hne] at hlast
  cases htail : tail.getLast? with
  | none =>
    rw [htail] at hlast
    exact absurd hlast (by decide)
  | some b =>
    rw [htail] at hlast
    exact hlast

/-- What is behind the last line ends with the zero. -/
theorem tail_eq_zero {tail : Bytes} (hlast : tail.getLast? = some 0) (h : tail.length ≤ 1) :
    tail = [0] := by
  match tail with
  | [] => exact absurd hlast (by simp)
  | [b] =>
    have hb : b = 0 := Option.some.inj hlast
    rw [hb]
  | _ :: _ :: _ =>
    rw [List.length_cons, List.length_cons] at h
    omega

/-- **A closed line makes its own entry.** -/
theorem lineEntry_of_closed {line tail : Bytes} (hsix : 6 ≤ (fields line).length)
    (h : Closed line tail) (hlast : tail.getLast? = some 0) :
    lineEntry line = some (entryAt line tail) :=
  (lineEntry_iff hsix (h.last.imp_right (tail_eq_zero hlast))).mpr ⟨h.base, h.size⟩

/-- It is only the length of what follows that counts. -/
theorem Closed.of_length {line tail tail' : Bytes} (h : Closed line tail)
    (hlen : tail'.length = tail.length) : Closed line tail' :=
  ⟨h.last.imp_right fun hle => hlen ▸ hle, h.base, h.size⟩

/-- Two buffers that begin alike have the same number of bytes left. -/
theorem length_tail {buf other : TableBuffer} {pre tail tail' : Bytes}
    (hbuf : buf.bytes = pre ++ tail) (hother : other.bytes = pre ++ tail') :
    tail'.length = tail.length := by
  have hlen := buf.length
  have hlen' := other.length
  rw [hbuf, List.length_append] at hlen
  rw [hother, List.length_append] at hlen'
  omega

/-- The entries that are returned are those of the log. -/
theorem result_of_buffer {type : TableType} {max : Nat} {buf : TableBuffer} {stale : Nat → UInt8}
    {file : Bytes} {offset : Nat} {es : List FlashPartition}
    (hbuf : tableBuffer stale file offset = buf)
    (h : readPartitionTable stale file offset max type = .ok (some es)) :
    es = (readLog type max buf.bytes []).filterMap Prod.snd := by
  obtain rfl := hbuf
  unfold readPartitionTable at h
  unfold tableBuffer
  dsimp only at h ⊢
  generalize (fread (malloc stale 2048) (file.drop offset)).set 2047 0 = bytes at h ⊢
  split at h
  · exact absurd h (by simp)
  · cases hlines : readLines type max bytes [] with
    | error e =>
      rw [hlines] at h
      exact absurd h (by simp [Except.map])
    | ok es' =>
      rw [hlines] at h
      obtain rfl : es' = es := Option.some.inj (Except.ok.inj h)
      exact readLines_log _ rfl hlines

/-- What holds of the entries of any buffer: all but that they are those of their lines. -/
theorem lineByLine_of {type : TableType} {max : Nat} {buf : TableBuffer}
    (hown : ∀ line entry, (line, some entry) ∈ readLog type max buf.bytes [] →
      lineEntry line = some entry)
    (hunchanged : ∀ (other : TableBuffer) j x, (readLog type max buf.bytes [])[j]? = some x →
      through ((readLog type max buf.bytes []).take (j + 1)) <+: other.bytes →
      (readLog type max other.bytes [])[j]? = some x) : LineByLine type max buf := by
  have hthrough : through (readLog type max buf.bytes []) <+: buf.bytes ∧
      ∀ x ∈ readLog type max buf.bytes [], (0x0a : UInt8) ∉ x.1 := through_readLog _ rfl
  refine ⟨?_, fun stale file offset es => result_of_buffer, hthrough, hown, ?_, hunchanged⟩
  · have hlog := length_le_through (readLog type max buf.bytes [])
    have hlen := hthrough.1.length_le
    rw [buf.length] at hlen
    omega
  · intro line entry hmem hfew
    cases entry with
    | none => rfl
    | some entry =>
      obtain ⟨j, hj⟩ := List.getElem?_of_mem hmem
      obtain ⟨tail, hrecorded, -, -⟩ := log_recorded hj
      have hsix := (recorded_log hrecorded).1
      omega

/-- The size read on from a blank field at the end of its line. -/
theorem entryAt_digit {line : Bytes} (h : (behind 5 line).all isSpace = true) {d : UInt8}
    (hd : isSpace d = false) (rest : Bytes) :
    (entryAt line (d :: 0 :: rest)).size = UInt32.ofNat (strtoul16 [d]) := by
  have hblank : (behind 5 line ++ [0x0a]).all isSpace = true := by
    rw [List.all_append, h]
    rfl
  have hone : [d].all isSpace = false := by
    rw [List.all_cons, hd]
    rfl
  show UInt32.ofNat (strtoul16 (behind 5 line ++ 0x0a :: d :: 0 :: rest)) = _
  rw [List.append_cons, strtoul16_blank_append hblank]
  exact congrArg UInt32.ofNat (strtoul16_ends hone (by decide) (by decide) rest)

theorem getLast?_zeros (front : Bytes) {n : Nat} (h : n ≠ 0) :
    (front ++ List.replicate n 0).getLast? = some 0 := by
  rw [List.getLast?_append, List.getLast?_replicate, if_neg h]
  rfl

/-- A buffer that agrees with `buf` on `pre` and goes on with a digit. -/
theorem exists_other {buf : TableBuffer} {pre tail : Bytes} (hbuf : buf.bytes = pre ++ tail)
    (hlong : 2 ≤ tail.length) (d : UInt8) :
    ∃ (other : TableBuffer) (rest : Bytes), other.bytes = pre ++ d :: 0 :: rest := by
  have hlen := buf.length
  rw [hbuf, List.length_append] at hlen
  have hcons : (0 : UInt8) :: List.replicate (tail.length - 2) 0 =
      List.replicate (tail.length - 1) 0 := by
    have hpred : tail.length - 1 = tail.length - 2 + 1 := by omega
    rw [hpred, List.replicate_succ]
  have hlength : (pre ++ d :: 0 :: List.replicate (tail.length - 2) 0).length = 2048 := by
    rw [List.length_append, List.length_cons, List.length_cons, List.length_replicate]
    omega
  have hlast : (pre ++ d :: 0 :: List.replicate (tail.length - 2) (0 : UInt8)).getLast? = some 0 := by
    rw [hcons, List.append_cons]
    exact getLast?_zeros _ (by omega)
  exact ⟨⟨_, hlength, hlast⟩, List.replicate (tail.length - 2) 0, rfl⟩

/-- **Every entry is that of its own line**, exactly where the lines that record one are closed. -/
theorem lineByLine_iff (type : TableType) (max : Nat) (buf : TableBuffer) :
    LineByLine type max buf ↔ ∀ x ∈ recorded type max buf.bytes, Closed x.1 x.2 := by
  constructor
  · rintro h ⟨line, tail⟩ hmem
    obtain ⟨hsix, j, hj, hbuf⟩ := recorded_log hmem
    have hlast := tail_last hj hbuf
    have hclosed : (behind 5 line).all isSpace = false ∨ tail.length ≤ 1 := by
      by_contra hopen
      rw [not_or, Bool.not_eq_false, Nat.not_le] at hopen
      -- with a digit behind the line its size is that digit
      have hdigit : ∀ d : UInt8, isSpace d = false →
          (entryAt line tail).size = UInt32.ofNat (strtoul16 [d]) := by
        intro d hd
        obtain ⟨other, rest, hother⟩ := exists_other hbuf hopen.2 d
        have hpre : through ((readLog type max buf.bytes []).take (j + 1)) <+: other.bytes :=
          ⟨_, hother.symm⟩
        have hsame := h.unchanged other j _ hj hpre
        obtain ⟨tail', htail', hj'⟩ := readLog_other j rfl hj hpre
        rw [hother, List.append_cancel_left_eq] at htail'
        rw [hsame, ← htail'] at hj'
        have hentry := Option.some.inj (congrArg Prod.snd (Option.some.inj hj'))
        rw [hentry]
        exact entryAt_digit hopen.1 hd rest
      have hone := hdigit 0x31 (by decide)
      have htwo := hdigit 0x32 (by decide)
      rw [hone] at htwo
      exact absurd htwo (by decide)
    have hown := h.own line _ (List.mem_of_getElem? hj)
    obtain ⟨hbase, hsize⟩ := (lineEntry_iff hsix
      (hclosed.imp_right (tail_eq_zero hlast))).mp hown
    exact ⟨hclosed, hbase, hsize⟩
  · intro h
    refine lineByLine_of (fun line entry hmem => ?_) fun other j x hj hpre => ?_
    · obtain ⟨j, hj⟩ := List.getElem?_of_mem hmem
      obtain ⟨tail, hrecorded, rfl, hbuf⟩ := log_recorded hj
      have hsix := (recorded_log hrecorded).1
      exact lineEntry_of_closed hsix (h _ hrecorded) (tail_last hj hbuf)
    · obtain ⟨line, entry⟩ := x
      obtain ⟨tail', htail', hj'⟩ := readLog_other j rfl hj hpre
      cases entry with
      | none => exact hj'
      | some entry =>
        -- the same entry, whether the line is closed by itself or by the end of the buffer
        obtain ⟨tail, hrecorded, rfl, hbuf⟩ := log_recorded hj
        have hsix := (recorded_log hrecorded).1
        have hclosed := h _ hrecorded
        have hentry := lineEntry_of_closed hsix hclosed (tail_last hj hbuf)
        have hentry' := lineEntry_of_closed hsix (hclosed.of_length (length_tail hbuf htail'))
          (tail_last hj htail')
        rw [hj', Option.map_some, ← Option.some.inj (hentry.symm.trans hentry')]

/-! ### A line without a size -/

/-- `fwup-ptn a base 0x1 size ` -/
def sizelessLine : Bytes := asBytes "fwup-ptn a base 0x1 size ".toList

/-- The line behind it, and the zeros to the end of the buffer. -/
def sizelessTail : Bytes :=
  asBytes "fwup-ptn b base 0x2 size 0x3".toList ++ 0x0a :: List.replicate 1993 0

/-- A whole buffer. -/
theorem sizeless_length : (sizelessLine ++ 0x0a :: sizelessTail).length = 2048 := by
  have hline : sizelessLine.length = 25 := by decide
  have hnext : (asBytes "fwup-ptn b base 0x2 size 0x3".toList).length = 28 := by decide
  rw [List.length_append, List.length_cons, sizelessTail, List.length_append, List.length_cons,
    List.length_replicate, hline, hnext]

theorem sizeless_last : (sizelessLine ++ 0x0a :: sizelessTail).getLast? = some 0 := by
  have hfront : sizelessLine ++ 0x0a :: sizelessTail =
      sizelessLine ++ 0x0a :: asBytes "fwup-ptn b base 0x2 size 0x3".toList ++ [0x0a] ++
        List.replicate 1993 0 := by
    rw [sizelessTail, List.append_assoc, List.append_assoc]
    rfl
  rw [hfront]
  exact getLast?_zeros _ (by decide)

/-- A line with five fields and a space, and digits in the next line. -/
def sizelessBuffer : TableBuffer := ⟨_, sizeless_length, sizeless_last⟩

theorem sizeless_isLine : IsLine .fwup sizelessLine := ⟨by decide, by decide⟩

/-- **The size is read from the next line**: the `f` of its header. -/
theorem sizeless_leaks :
    lineEntry sizelessLine = some ⟨.ofBytes [0x61], 1, 0⟩ ∧
    (readLog .fwup 32 sizelessBuffer.bytes [])[0]? =
      some (sizelessLine, some ⟨.ofBytes [0x61], 1, 0xf⟩) ∧
    ¬ LineByLine .fwup 32 sizelessBuffer := by
  have hown : lineEntry sizelessLine = some ⟨.ofBytes [0x61], 1, 0⟩ := by decide
  have hbase : strtoul16 (behind 3 sizelessLine ++ 0x0a :: sizelessTail) = 1 := by
    have hsplit : behind 3 sizelessLine = [0x30, 0x78, 0x31] ++ 0x20 :: asBytes "size ".toList := by
      decide
    rw [hsplit, List.append_assoc]
    exact (strtoul16_ends (by decide) (by decide) (by decide) _).trans (by decide)
  -- the sixth field is empty: its line feed is skipped and `f` of the next line is a digit
  have hsize : strtoul16 (behind 5 sizelessLine ++ 0x0a :: sizelessTail) = 0xf := by
    have htail : behind 5 sizelessLine ++ 0x0a :: sizelessTail =
        [0x0a] ++ ([0x66] ++ 0x77 :: sizelessTail.drop 2) := rfl
    rw [htail, strtoul16_blank_append (by decide)]
    exact (strtoul16_ends (by decide) (by decide) (by decide) _).trans (by decide)
  have hentry : entryAt sizelessLine sizelessTail = ⟨.ofBytes [0x61], 1, 0xf⟩ := by
    have hname : (field 1 sizelessLine).take 31 = [0x61] := by decide
    rw [entryAt, hname, hbase, hsize]
    rfl
  have hlog : (readLog .fwup 32 sizelessBuffer.bytes [])[0]? =
      some (sizelessLine, some ⟨.ofBytes [0x61], 1, 0xf⟩) := by
    show (readLog .fwup 32 (sizelessLine ++ 0x0a :: sizelessTail) [])[0]? = _
    rw [readLog_line sizeless_isLine, if_pos (by decide), hentry]
    rfl
  refine ⟨hown, hlog, fun h => ?_⟩
  have hsame := h.own sizelessLine _ (List.mem_of_getElem? hlog)
  rw [hown] at hsame
  exact absurd hsame (by decide)

end Safewrt.Safeloader
