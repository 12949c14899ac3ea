/-
  Converting any file (tools/tplink-safeloader/tplink-safeloader.c, `convert_firmware`).

  1. **`readPlan`** — what `convert_firmware` does before it writes: two tables, five names, four
     entries (`convertFirmware_eq_plan`).  Nothing is checked of the eight numbers in them.

  2. `FileRefused` — which files are refused while the plan is read: by the form of a table, or by
     a name that is missing from a table that fills its array (`readPlan_refuses_iff`).  A name
     that is missing from a shorter table is not refused: the lookup meets a NULL name and dies.

  3. **Specification** — `Bounded`: the image's partitions fit the board's, in order, so that none
     of the three subtractions wraps.  `IsSysupgrade`: the output, byte by byte.

  4. **`convertFirmware_right_iff`** — a file is converted right, or refused, exactly where it is
     `FileRefused` or its plan is `Exact`: the bytes are there, and the board's two partitions
     adjoin.  What else can happen: a gap between them stays a hole (`Hole` is the invariant of all
     writes behind it), a file that ends early is filled up with what the buffer held, and a padding
     of more than 2^31 bytes overflows the counter of `write_ff`.
-/
import Safewrt.Safeloader.Lookup
import Safewrt.Safeloader.Truncated

namespace Safewrt.Safeloader

open Safewrt.Lib

/-! ## The plan

  Everything that is read is read before the first byte is written.  A conversion is therefore a
  plan and the writing of it, and the two can be looked at one after the other. -/

/-- The entries that `convert_firmware` has looked up. -/
structure Plan where
  fwupOsImage : FlashPartition
  fwupFileSystem : FlashPartition
  flashOsImage : FlashPartition
  flashFileSystem : FlashPartition

/-- The two tables and the lookups in them. -/
def readPlan (stack : Nat → Nat → UInt8) (file : Bytes) : Run Plan := do
  match ← readPartitionTable (stack 0) file 0x1014 maxPartitions .fwup with
  | none => .error (.ofText "Error can not read the partition table (fwup-ptn): Success".toList)
  | some fwup => do
    let fwupOsImage ← findPartition maxPartitions fwup (cstring "os-image")
      "Error can not find os-image partition (fwup): Success".toList
    let fwupFileSystem ← findPartition maxPartitions fwup (cstring "file-system")
      "Error can not find file-system partition (fwup): Success".toList
    let fwupPartitionTable ← findPartition maxPartitions fwup (cstring "partition-table")
      "Error can not find partition-table partition: Success".toList
    match ← readPartitionTable (stack 1) file
      (0x1014 + fwupPartitionTable.base.toNat + 4) maxPartitions .flash with
    | none => .error (.ofText "Error can not read the partition table (flash): Success".toList)
    | some flash => do
      let flashOsImage ← findPartition maxPartitions flash (cstring "os-image")
        "Error can not find os-image partition (flash): Success".toList
      let flashFileSystem ← findPartition maxPartitions flash (cstring "file-system")
        "Error can not find file-system partition (flash): Success".toList
      .ok ⟨fwupOsImage, fwupFileSystem, flashOsImage, flashFileSystem⟩

/-- The end of `convert_firmware`, by the plan. -/
def Plan.write (p : Plan) (stack : Nat → Nat → UInt8) (input output : Path) (disk : Disk) :
    Run Disk :=
  writeSysupgrade stack input output p.fwupOsImage p.fwupFileSystem p.flashOsImage p.flashFileSystem
    disk

/-- **`convert_firmware` is the plan and then the writing.** -/
theorem convertFirmware_eq_plan {os : Os} (stack : Nat → Nat → UInt8) {disk : Disk}
    {input output : Path} {file : Bytes} (hinput : disk input = some file)
    (hopens : os.opens output = true) (hne : input ≠ output) :
    convertFirmware os stack disk input output =
      readPlan stack file >>= fun p => p.write stack input output (disk.write output []) := by
  have hsome : ¬ (disk input).isNone = true := by simp [hinput]
  have hfile : (disk.write output []).content input = file :=
    Disk.content_of_eq ((Disk.write_other _ _ hne).trans hinput)
  unfold convertFirmware readPlan
  rw [if_neg hsome, if_neg (not_not.mpr hopens)]
  dsimp only
  rw [hfile]
  -- stage by stage: where the plan stops, the conversion stops with the same error
  cases readPartitionTable (stack 0) file 0x1014 maxPartitions .fwup with
  | error e => rfl
  | ok table =>
    cases table with
    | none => rfl
    | some fwup =>
      dsimp only [ok_bind]
      cases findPartition maxPartitions fwup (cstring "os-image")
          "Error can not find os-image partition (fwup): Success".toList with
      | error e => rfl
      | ok fwupOsImage =>
        cases findPartition maxPartitions fwup (cstring "file-system")
            "Error can not find file-system partition (fwup): Success".toList with
        | error e => rfl
        | ok fwupFileSystem =>
          cases findPartition maxPartitions fwup (cstring "partition-table")
              "Error can not find partition-table partition: Success".toList with
          | error e => rfl
          | ok fwupPartitionTable =>
            dsimp only [ok_bind]
            cases readPartitionTable (stack 1) file
                (0x1014 + fwupPartitionTable.base.toNat + 4) maxPartitions .flash with
            | error e => rfl
            | ok table =>
              cases table with
              | none => rfl
              | some flash =>
                dsimp only [ok_bind]
                cases findPartition maxPartitions flash (cstring "os-image")
                    "Error can not find os-image partition (flash): Success".toList with
                | error e => rfl
                | ok flashOsImage =>
                  cases findPartition maxPartitions flash (cstring "file-system")
                      "Error can not find file-system partition (flash): Success".toList with
                  | error e => rfl
                  | ok flashFileSystem => rfl

/-! ## Which plans are refused

  A run is refused if it ends with a message.  In a chain of stages that is so if one of them does
  and all before it came through (`refuses_bind`). -/

/-- The run ends with a message. -/
def Refuses {α : Type} (r : Run α) : Prop := ∃ message, r = .error (.error message)

/-- An error is a refusal if it is one with a message, and not a fault. -/
theorem refuses_error {α : Type} {e : Stop} :
    Refuses (.error e : Run α) ↔ ∃ message, e = .error message := by
  unfold Refuses
  simp only [Except.error.injEq]

theorem not_refuses_ok {α : Type} (a : α) : ¬ Refuses (.ok a : Run α) := by
  rintro ⟨message, h⟩
  exact absurd h (by simp)

/-- A run is refused where its first stage is, or where the rest is. -/
theorem refuses_bind {α β : Type} {x : Run α} {f : α → Run β} :
    Refuses (x >>= f) ↔ Refuses x ∨ ∃ a, x = .ok a ∧ Refuses (f a) := by
  cases x with
  | error e =>
    rw [error_bind, refuses_error, refuses_error]
    exact ⟨Or.inl, fun h => h.resolve_right fun ⟨a, ha, _⟩ => absurd ha (by simp)⟩
  | ok a =>
    rw [ok_bind]
    constructor
    · exact fun h => Or.inr ⟨a, rfl, h⟩
    · rintro (h | ⟨a', ha, h⟩)
      · exact absurd h (not_refuses_ok a)
      · rw [Except.ok.inj ha]
        exact h

/-- **A table that is refused** has no line at all, or one that `read_partition_table` stops at. -/
def TableRefused (table : Run (Option (List FlashPartition))) : Prop :=
  table = .ok none ∨ Refuses table

/-- **A name that is missing is refused** only by a table that fills the array; any other has a
    `NULL` name behind its entries. -/
def LookupRefused (entries : List FlashPartition) (names : List CString) : Prop :=
  entries.length = maxPartitions ∧ ∃ name ∈ names, ∀ e ∈ entries, e.name ≠ name

/-- What is looked up in the image's table, and in the board's. -/
def fwupNames : List CString :=
  [cstring "os-image", cstring "file-system", cstring "partition-table"]

/-- The partitions of the board that `convert_firmware` asks for, in its order. -/
def flashNames : List CString := [cstring "os-image", cstring "file-system"]

/-- The two tables of a file: the second lies where the first says. -/
def fwupTable (stack : Nat → Nat → UInt8) (file : Bytes) : Run (Option (List FlashPartition)) :=
  readPartitionTable (stack 0) file 0x1014 maxPartitions .fwup

/-- The board's own table, found through the image's entry for it. -/
def flashTable (stack : Nat → Nat → UInt8) (file : Bytes) (partitionTable : FlashPartition) :
    Run (Option (List FlashPartition)) :=
  readPartitionTable (stack 1) file (0x1014 + partitionTable.base.toNat + 4) maxPartitions .flash

/-- **How a file is refused**: by one of its tables, or in looking up the names in it. -/
inductive FileRefused (stack : Nat → Nat → UInt8) (file : Bytes) : Prop
  | fwupTable : TableRefused (fwupTable stack file) → FileRefused stack file
  | fwupLookup {fwup : List FlashPartition} : fwupTable stack file = .ok (some fwup) →
      LookupRefused fwup fwupNames → FileRefused stack file
  | flashTable {fwup : List FlashPartition} {partitionTable : FlashPartition} :
      fwupTable stack file = .ok (some fwup) →
      (∀ name ∈ fwupNames, ∃ e ∈ fwup, e.name = name) →
      (fwup.find? fun e => e.name = cstring "partition-table") = some partitionTable →
      TableRefused (flashTable stack file partitionTable) → FileRefused stack file
  | flashLookup {fwup flash : List FlashPartition} {partitionTable : FlashPartition} :
      fwupTable stack file = .ok (some fwup) →
      (∀ name ∈ fwupNames, ∃ e ∈ fwup, e.name = name) →
      (fwup.find? fun e => e.name = cstring "partition-table") = some partitionTable →
      flashTable stack file partitionTable = .ok (some flash) →
      LookupRefused flash flashNames → FileRefused stack file

/-- An entry is returned if it is the first of its name. -/
theorem findPartition_ok_iff {max : Nat} {entries : List FlashPartition} {name : CString}
    {message : Text} {e : FlashPartition} : findPartition max entries name message = .ok e ↔
      (entries.find? fun e => e.name = name) = some e := by
  unfold findPartition
  cases entries.find? fun e => e.name = name with
  | some e' => simp
  | none => dsimp only; split <;> simp

/-- "can not find" is only said where every slot of the array is in use; before that, the search
    runs into a name that is `NULL`. -/
theorem findPartition_refuses_iff {max : Nat} {entries : List FlashPartition} {name : CString}
    {message : Text} : Refuses (findPartition max entries name message) ↔
      max ≤ entries.length ∧ ∀ e ∈ entries, e.name ≠ name := by
  unfold findPartition
  cases hfind : entries.find? fun e => e.name = name with
  | some e =>
    refine iff_of_false (not_refuses_ok e) fun h => ?_
    exact h.2 e (List.mem_of_find?_eq_some hfind) (by simpa using List.find?_some hfind)
  | none =>
    have hmissing : ∀ e ∈ entries, e.name ≠ name := by
      intro e he
      simpa using List.find?_eq_none.mp hfind e he
    dsimp only
    split
    · exact iff_of_false (fun h => absurd (refuses_error.mp h) (by simp)) (by omega)
    · exact iff_of_true ⟨_, rfl⟩ ⟨by omega, hmissing⟩

/-- No entry has the name. -/
def Missing (entries : List FlashPartition) (name : CString) : Prop :=
  ∀ e ∈ entries, e.name ≠ name

/-- A name is found where it is not missing. -/
theorem find?_some_iff_not_missing {entries : List FlashPartition} {name : CString} :
    (∃ e, (entries.find? fun e => e.name = name) = some e) ↔ ¬ Missing entries name := by
  rw [← Option.isSome_iff_exists, List.find?_isSome, Missing]
  simp

/-- One lookup in a table and what comes after it. -/
theorem lookup_refuses_iff {α : Type} {entries : List FlashPartition} {name : CString}
    {message : Text} {f : FlashPartition → Run α} (hle : entries.length ≤ maxPartitions) :
    Refuses (findPartition maxPartitions entries name message >>= f) ↔
      entries.length = maxPartitions ∧ Missing entries name ∨
        ∃ e, (entries.find? fun e => e.name = name) = some e ∧ Refuses (f e) := by
  have hfull : maxPartitions ≤ entries.length ↔ entries.length = maxPartitions := by omega
  rw [refuses_bind, findPartition_refuses_iff, hfull]
  simp only [findPartition_ok_iff, Missing]

/-- The lookups in the board's table. -/
theorem flashLookups_refuse_iff {flash : List FlashPartition} {p q : Text}
    (hle : flash.length ≤ maxPartitions) {f : FlashPartition → FlashPartition → Plan} :
    Refuses (do
      let flashOsImage ← findPartition maxPartitions flash (cstring "os-image") p
      let flashFileSystem ← findPartition maxPartitions flash (cstring "file-system") q
      (.ok (f flashOsImage flashFileSystem) : Run Plan)) ↔ LookupRefused flash flashNames := by
  have hnever : ∀ e, ¬ ∃ e', (flash.find? fun e => e.name = cstring "file-system") = some e' ∧
      Refuses (.ok (f e e') : Run Plan) := fun e ⟨e', _, h⟩ => not_refuses_ok _ h
  simp only [lookup_refuses_iff hle, hnever, or_false]
  rw [LookupRefused, flashNames]
  simp only [List.exists_mem_cons_iff, List.not_mem_nil, false_and, exists_false, or_false]
  rw [exists_and_right, find?_some_iff_not_missing]
  unfold Missing
  tauto

/-- The array was large enough for either table. -/
theorem fwupTable_length {stack : Nat → Nat → UInt8} {file : Bytes} {fwup : List FlashPartition}
    (h : fwupTable stack file = .ok (some fwup)) : fwup.length ≤ maxPartitions :=
  readPartitionTable_length h

theorem flashTable_length {stack : Nat → Nat → UInt8} {file : Bytes}
    {partitionTable : FlashPartition} {flash : List FlashPartition}
    (h : flashTable stack file partitionTable = .ok (some flash)) : flash.length ≤ maxPartitions :=
  readPartitionTable_length h

/-- What follows once the entry of the board's table is found. -/
theorem flash_refuses_iff {stack : Nat → Nat → UInt8} {file : Bytes}
    {partitionTable : FlashPartition} {m p q : Text} {f : FlashPartition → FlashPartition → Plan} :
    Refuses (do
      match ← flashTable stack file partitionTable with
      | none => .error (.ofText m)
      | some flash => do
        let flashOsImage ← findPartition maxPartitions flash (cstring "os-image") p
        let flashFileSystem ← findPartition maxPartitions flash (cstring "file-system") q
        (.ok (f flashOsImage flashFileSystem) : Run Plan)) ↔
      TableRefused (flashTable stack file partitionTable) ∨
        ∃ flash, flashTable stack file partitionTable = .ok (some flash) ∧
          LookupRefused flash flashNames := by
  rw [refuses_bind]
  unfold TableRefused
  cases htable : flashTable stack file partitionTable with
  | error e => simp
  | ok table =>
    cases table with
    | none => simp [Refuses, Stop.ofText]
    | some flash =>
      simp only [Except.ok.injEq, exists_eq_left', Option.some.injEq, reduceCtorEq, false_or,
        not_refuses_ok]
      exact flashLookups_refuse_iff (flashTable_length htable)

/-- What follows once the image's table is read. -/
theorem fwup_refuses_iff {stack : Nat → Nat → UInt8} {file : Bytes} {fwup : List FlashPartition}
    (hle : fwup.length ≤ maxPartitions) {m p q r s t : Text}
    {f : FlashPartition → FlashPartition → FlashPartition → FlashPartition → Plan} :
    Refuses (do
      let fwupOsImage ← findPartition maxPartitions fwup (cstring "os-image") p
      let fwupFileSystem ← findPartition maxPartitions fwup (cstring "file-system") q
      let fwupPartitionTable ← findPartition maxPartitions fwup (cstring "partition-table") r
      match ← flashTable stack file fwupPartitionTable with
      | none => .error (.ofText m)
      | some flash => do
        let flashOsImage ← findPartition maxPartitions flash (cstring "os-image") s
        let flashFileSystem ← findPartition maxPartitions flash (cstring "file-system") t
        (.ok (f fwupOsImage fwupFileSystem flashOsImage flashFileSystem) : Run Plan)) ↔
      LookupRefused fwup fwupNames ∨ (∀ name ∈ fwupNames, ∃ e ∈ fwup, e.name = name) ∧
        ∃ partitionTable, (fwup.find? fun e => e.name = cstring "partition-table") =
            some partitionTable ∧
          (TableRefused (flashTable stack file partitionTable) ∨
            ∃ flash, flashTable stack file partitionTable = .ok (some flash) ∧
              LookupRefused flash flashNames) := by
  have hnames : (∀ name ∈ fwupNames, ∃ e ∈ fwup, e.name = name) ↔
      ¬ Missing fwup (cstring "os-image") ∧ ¬ Missing fwup (cstring "file-system") ∧
        ¬ Missing fwup (cstring "partition-table") := by
    simp [fwupNames, Missing]
  have hmissing : (∃ name ∈ fwupNames, ∀ e ∈ fwup, e.name ≠ name) ↔
      Missing fwup (cstring "os-image") ∨ Missing fwup (cstring "file-system") ∨
        Missing fwup (cstring "partition-table") := by
    simp [fwupNames, Missing]
  simp only [lookup_refuses_iff hle, flash_refuses_iff, exists_and_right]
  rw [find?_some_iff_not_missing, find?_some_iff_not_missing, hnames, LookupRefused, hmissing]
  -- the entry of the table is found only where its name is not missing
  have hfound : ∀ e, (fwup.find? fun e => e.name = cstring "partition-table") = some e →
      ¬ Missing fwup (cstring "partition-table") := fun e he =>
    find?_some_iff_not_missing.mp ⟨e, he⟩
  constructor
  · rintro (h | ⟨hos, h | ⟨hfs, h | ⟨e, he, h⟩⟩⟩)
    · exact Or.inl ⟨h.1, Or.inl h.2⟩
    · exact Or.inl ⟨h.1, Or.inr (Or.inl h.2)⟩
    · exact Or.inl ⟨h.1, Or.inr (Or.inr h.2)⟩
    · exact Or.inr ⟨⟨hos, hfs, hfound e he⟩, e, he, h⟩
  · rintro (⟨hfull, hany⟩ | ⟨⟨hos, hfs, -⟩, htable⟩)
    · by_cases hos : Missing fwup (cstring "os-image")
      · exact Or.inl ⟨hfull, hos⟩
      by_cases hfs : Missing fwup (cstring "file-system")
      · exact Or.inr ⟨hos, Or.inl ⟨hfull, hfs⟩⟩
      exact Or.inr ⟨hos, Or.inr ⟨hfs, Or.inl ⟨hfull, (hany.resolve_left hos).resolve_left hfs⟩⟩⟩
    · exact Or.inr ⟨hos, Or.inr ⟨hfs, Or.inr htable⟩⟩

/-- **Which files are refused while their tables are read.** -/
theorem readPlan_refuses_iff (stack : Nat → Nat → UInt8) (file : Bytes) :
    Refuses (readPlan stack file) ↔ FileRefused stack file := by
  unfold readPlan
  change Refuses (fwupTable stack file >>= _) ↔ _
  cases htable : fwupTable stack file with
  | error e =>
    rw [error_bind, refuses_error]
    constructor
    · rintro ⟨message, rfl⟩
      exact .fwupTable (Or.inr ⟨message, htable⟩)
    · rintro (⟨h | ⟨message, h⟩⟩ | ⟨h, -⟩ | ⟨h, -, -, -⟩ | ⟨h, -, -, -, -⟩)
      · exact absurd (htable.symm.trans h) (by simp)
      · exact ⟨message, Except.error.inj (htable.symm.trans h)⟩
      all_goals exact absurd (htable.symm.trans h) (by simp)
  | ok table =>
    rw [ok_bind]
    cases table with
    | none => exact iff_of_true ⟨_, rfl⟩ (.fwupTable (Or.inl htable))
    | some fwup =>
      -- there is one table, so the refusal is about this one
      have honly : ∀ fwup', fwupTable stack file = .ok (some fwup') → fwup' = fwup := fun _ h =>
        Option.some.inj (Except.ok.inj (h.symm.trans htable))
      refine (fwup_refuses_iff (fwupTable_length htable)).trans ?_
      constructor
      · rintro (h | ⟨hnames, partitionTable, hfind, h | ⟨flash, hflash, h⟩⟩)
        · exact .fwupLookup htable h
        · exact .flashTable htable hnames hfind h
        · exact .flashLookup htable hnames hfind hflash h
      · rintro (⟨h | ⟨message, h⟩⟩ | ⟨h, hl⟩ | ⟨h, hnames, hfind, hflash⟩ |
          ⟨h, hnames, hfind, hflash, hl⟩)
        · exact absurd (htable.symm.trans h) (by simp)
        · exact absurd (htable.symm.trans h) (by simp)
        · obtain rfl := honly _ h
          exact Or.inl hl
        · obtain rfl := honly _ h
          exact Or.inr ⟨hnames, _, hfind, Or.inl hflash⟩
        · obtain rfl := honly _ h
          exact Or.inr ⟨hnames, _, hfind, Or.inr ⟨_, hflash, hl⟩⟩

/-! ## What the conversion is for

  The output as it ought to be, from the file and the plan, with no word about loops or buffers. -/

/-- The image's partitions fit the board's, and the file system lies behind the kernel. -/
structure Plan.Bounded (p : Plan) : Prop where
  osImage : p.fwupOsImage.size.toNat ≤ p.flashOsImage.size.toNat
  fileSystem : p.fwupFileSystem.size.toNat ≤ p.flashFileSystem.size.toNat
  order : p.flashOsImage.base.toNat + p.flashOsImage.size.toNat ≤ p.flashFileSystem.base.toNat

/-- How far the file system is behind the kernel. -/
def Plan.distance (p : Plan) : Nat := p.flashFileSystem.base.toNat - p.flashOsImage.base.toNat

/-- None of the three subtractions wraps. -/
theorem Plan.Bounded.toNat_sub {p : Plan} (h : p.Bounded) :
    (p.flashOsImage.size - p.fwupOsImage.size).toNat =
        p.flashOsImage.size.toNat - p.fwupOsImage.size.toNat ∧
      (p.flashFileSystem.base - p.flashOsImage.base).toNat = p.distance ∧
      (p.flashFileSystem.size - p.fwupFileSystem.size).toNat =
        p.flashFileSystem.size.toNat - p.fwupFileSystem.size.toNat := by
  have horder := h.order
  exact ⟨toNat_sub_of_le h.osImage, toNat_sub_of_le (by omega), toNat_sub_of_le h.fileSystem⟩

/-- The output: both slices of the file in their places, and 0xff everywhere else. -/
structure IsSysupgrade (file : Bytes) (p : Plan) (image : Bytes) : Prop where
  length : image.length = p.distance + p.flashFileSystem.size.toNat
  osImage : ∀ i, i < p.fwupOsImage.size.toNat →
    image[i]? = file[p.fwupOsImage.base.toNat + 0x1014 + i]?
  fileSystem : ∀ i, i < p.fwupFileSystem.size.toNat →
    image[p.distance + i]? = file[p.fwupFileSystem.base.toNat + 0x1014 + i]?
  rest : ∀ i, i < image.length → p.fwupOsImage.size.toNat ≤ i →
    ¬ (p.distance ≤ i ∧ i < p.distance + p.fwupFileSystem.size.toNat) → image[i]? = some 0xff

/-- A conversion that completes keeps the bounds and writes the image; one that does not has
    reported an error. -/
structure ConvertsRight (file : Bytes) (plan : Run Plan) (output : Path) (result : Run Disk) :
    Prop where
  completes : ∀ disk, result = .ok disk → ∃ p, plan = .ok p ∧ p.Bounded ∧
    ∃ image, disk output = some image ∧ IsSysupgrade file p image
  rejects : ∀ e, result = .error e → ∃ message, e = .error message

/-- A run that stops is right if it stops with a message. -/
theorem convertsRight_error {file : Bytes} {plan : Run Plan} {output : Path} {e : Stop} :
    ConvertsRight file plan output (.error e) ↔ ∃ message, e = .error message := by
  constructor
  · intro h
    exact h.rejects e rfl
  · intro h
    refine ⟨fun disk hdisk => absurd hdisk (by simp), fun e' he' => ?_⟩
    rw [← Except.error.inj he']
    exact h

/-- What a plan needs: it is bounded, the board's partitions adjoin, the file holds both slices, and
    no padding is longer than the counter of `write_ff` can count. -/
structure Plan.Exact (p : Plan) (file : Bytes) : Prop extends p.Bounded where
  adjoin : p.flashOsImage.base.toNat + p.flashOsImage.size.toNat = p.flashFileSystem.base.toNat
  osImageHeld : HoldsPartition file 0x1014 p.fwupOsImage
  fileSystemHeld : HoldsPartition file 0x1014 p.fwupFileSystem
  osImagePadding : p.flashOsImage.size.toNat - p.fwupOsImage.size.toNat ≤ 2 ^ 31
  fileSystemPadding : p.flashFileSystem.size.toNat - p.fwupFileSystem.size.toNat ≤ 2 ^ 31

/-! ## An exact plan

  Where the plan is exact the four writes put the image together from left to right. -/

/-- The image of an exact plan. -/
def Plan.image (p : Plan) (file : Bytes) : Bytes :=
  partitionBytes file 0x1014 p.fwupOsImage ++
    List.replicate (p.flashOsImage.size.toNat - p.fwupOsImage.size.toNat) 0xff ++
    partitionBytes file 0x1014 p.fwupFileSystem ++
    List.replicate (p.flashFileSystem.size.toNat - p.fwupFileSystem.size.toNat) 0xff

/-- **An exact plan is carried out.** -/
theorem write_exact (stack : Nat → Nat → UInt8) {input output : Path} {file : Bytes} {p : Plan}
    {disk : Disk} (hne : input ≠ output) (hinput : disk input = some file)
    (houtput : disk output = some []) (h : p.Exact file) :
    p.write stack input output disk = .ok (disk.write output (p.image file)) :=
  writeSysupgrade_eq stack hne hinput houtput h.osImageHeld h.fileSystemHeld h.osImage h.fileSystem
    h.osImagePadding h.fileSystemPadding h.adjoin

theorem partitionBytes_getElem? {file : Bytes} {firmwareOffset i : Nat} {entry : FlashPartition}
    (h : i < entry.size.toNat) : (partitionBytes file firmwareOffset entry)[i]? =
      file[entry.base.toNat + firmwareOffset + i]? := by
  rw [partitionBytes, List.getElem?_take_of_lt h, List.getElem?_drop]

/-- The image of an exact plan is the one it is meant to be. -/
theorem image_isSysupgrade {file : Bytes} {p : Plan} (h : p.Exact file) :
    IsSysupgrade file p (p.image file) := by
  have hlen1 := length_partitionBytes h.osImageHeld
  have hlen2 := length_partitionBytes h.fileSystemHeld
  have hle1 := h.osImage
  have hle2 := h.fileSystem
  have hdistance : p.distance = p.flashOsImage.size.toNat := by
    have hadjoin := h.adjoin
    rw [Plan.distance]
    omega
  -- os-image and its padding come up to where the file system begins
  have hhead : (partitionBytes file 0x1014 p.fwupOsImage ++
      List.replicate (p.flashOsImage.size.toNat - p.fwupOsImage.size.toNat)
        (0xff : UInt8)).length = p.distance := by
    rw [List.length_append, List.length_replicate, hlen1]
    omega
  have hbody : (partitionBytes file 0x1014 p.fwupOsImage ++
      List.replicate (p.flashOsImage.size.toNat - p.fwupOsImage.size.toNat) (0xff : UInt8) ++
        partitionBytes file 0x1014 p.fwupFileSystem).length =
      p.distance + p.fwupFileSystem.size.toNat := by
    rw [List.length_append, hhead, hlen2]
  refine ⟨?_, fun i hi => ?_, fun i hi => ?_, fun i hi hos hfs => ?_⟩
  · rw [Plan.image, List.length_append, hbody, List.length_replicate]
    omega
  · rw [Plan.image, List.getElem?_append_left (by omega), List.getElem?_append_left (by omega),
      List.getElem?_append_left (by omega), partitionBytes_getElem? hi]
  · rw [Plan.image, List.getElem?_append_left (by omega), List.getElem?_append_right (by omega),
      hhead, Nat.add_sub_cancel_left, partitionBytes_getElem? hi]
  · rw [Plan.image, List.length_append, hbody, List.length_replicate] at hi
    by_cases hbefore : i < p.distance
    · -- behind the kernel
      rw [Plan.image, List.getElem?_append_left (by omega), List.getElem?_append_left (by omega),
        List.getElem?_append_right (by omega), hlen1, List.getElem?_replicate_of_lt (by omega)]
    · -- behind the file system
      rw [Plan.image, List.getElem?_append_right (by omega), hbody,
        List.getElem?_replicate_of_lt (by omega)]

/-! ## Holes

  A stream that is set behind the end of its file leaves a gap when it is written to, and the gap
  reads as zeros.  Nothing that the tool writes later goes back there. -/

/-- There is no 0xff at offset `g`. -/
def Hole (g : Nat) (content : Bytes) : Prop := content[g]? ≠ some 0xff

/-- A write that begins behind `g` leaves a hole there. -/
theorem hole_fwrite {g pos : Nat} {content : Bytes} (hg : g < pos) (h : Hole g content)
    (data : Bytes) : Hole g (fwrite content pos data) := by
  have hlen : (content.take pos ++ List.replicate (pos - content.length) (0 : UInt8)).length =
      max pos (min pos content.length) := by
    rw [List.length_append, List.length_take, List.length_replicate]
    omega
  unfold Hole fwrite
  rw [List.append_assoc, List.getElem?_append_left (by omega)]
  by_cases hin : g < content.length
  · rw [List.getElem?_append_left (by rw [List.length_take]; omega), List.getElem?_take_of_lt hg]
    exact h
  · -- the gap is filled with zeros
    rw [List.getElem?_append_right (by rw [List.length_take]; omega), List.length_take,
      List.getElem?_replicate_of_lt (by omega)]
    decide

theorem hole_write {g : Nat} {disk : Disk} {output : Path} {content : Bytes} (h : Hole g content) :
    Hole g ((disk.write output content).content output) := by
  rw [Disk.content_of_eq (Disk.write_same disk output content)]
  exact h

/-- A partition that is written behind `g`. -/
theorem hole_copyLoop {input output : Path} {g : Nat} (size n : Nat) : ∀ (offset : Nat) (c : Copy),
    size - offset = n → g < c.outPos → Hole g (c.disk.content output) →
      g < (copyLoop input output size offset c).outPos ∧
        Hole g ((copyLoop input output size offset c).disk.content output) := by
  have hchunk : ∀ (n : Nat) (c : Copy), g < c.outPos → Hole g (c.disk.content output) →
      g < (copyChunk input output n c).outPos ∧
        Hole g ((copyChunk input output n c).disk.content output) := by
    intro n c hpos h
    exact ⟨Nat.lt_of_lt_of_le hpos (Nat.le_add_right _ _), hole_write (hole_fwrite hpos h _)⟩
  induction n using Nat.strong_induction_on with
  | h n ih =>
    intro offset c hn hpos h
    rw [copyLoop]
    by_cases hmore : 4096 + offset ≤ size
    · rw [if_pos hmore]
      obtain ⟨hpos', h'⟩ := hchunk 4096 c hpos h
      exact ih (n - 4096) (by omega) (offset + 4096) _ (by omega) hpos' h'
    · rw [if_neg hmore]
      by_cases hlast : offset < size
      · rw [if_pos hlast]
        exact hchunk _ c hpos h
      · rw [if_neg hlast]
        exact ⟨hpos, h⟩

/-- A padding that is written behind `g`. -/
theorem hole_writeFFLoop {output : Path} {g : Nat} (size n : Nat) :
    ∀ (offset outPos : Nat) (disk disk' : Disk) (outPos' : Nat), size - offset = n → g < outPos →
      Hole g (disk.content output) →
      writeFFLoop output size offset disk outPos = .ok (disk', outPos') →
        Hole g (disk'.content output) := by
  -- `n` is what is left to write; every write is behind the hole
  induction n using Nat.strong_induction_on with
  | h n ih =>
    intro offset outPos disk disk' outPos' hn hpos h hok
    rw [writeFFLoop] at hok
    by_cases hmore : offset + 4096 < size
    · rw [if_pos hmore] at hok
      by_cases hmax : intMax < offset + 4096
      · rw [if_pos hmax] at hok
        exact absurd hok (by simp)
      · rw [if_neg hmax] at hok
        exact ih (n - 4096) (by omega) (offset + 4096) (outPos + 4096) _ _ _ (by omega) (by omega)
          (hole_write (hole_fwrite hpos h _)) hok
    · rw [if_neg hmore] at hok
      by_cases hlast : offset < size
      · rw [if_pos hlast] at hok
        rw [← (Prod.mk.inj (Except.ok.inj hok)).1]
        exact hole_write (hole_fwrite hpos h _)
      · rw [if_neg hlast] at hok
        rw [← (Prod.mk.inj (Except.ok.inj hok)).1]
        exact h

/-- **The counter of `write_ff`**: more than 2^31 bytes are never written. -/
theorem writeFFLoop_le {output : Path} {size : Nat} (n : Nat) :
    ∀ (k : Nat) (disk : Disk) (outPos : Nat) (r : Disk × Nat), 2 ^ 19 - k = n → k < 2 ^ 19 →
      writeFFLoop output size (4096 * k) disk outPos = .ok r → size ≤ 2 ^ 31 := by
  induction n with
  | zero => intro k _ _ _ hn hk _; omega
  | succ n ih =>
    intro k disk outPos r hn hk hok
    by_contra hsize
    rw [writeFFLoop, if_pos (by omega)] at hok
    by_cases hmax : intMax < 4096 * k + 4096
    · rw [if_pos hmax] at hok
      exact absurd hok (by simp)
    · rw [if_neg hmax] at hok
      unfold intMax at hmax
      have hnext : 4096 * k + 4096 = 4096 * (k + 1) := by omega
      rw [hnext] at hok
      exact hsize (ih (k + 1) _ _ r (by omega) (by omega) hok)

/-- `write_ff` only ends if its counter does not overflow. -/
theorem writeFF_le {output : Path} {size outPos : Nat} {disk : Disk} {r : Disk × Nat}
    (h : writeFF output size disk outPos = .ok r) : size ≤ 2 ^ 31 :=
  writeFFLoop_le _ 0 disk outPos r rfl (by decide) h

/-! ## Any plan

  From a conversion that came out right back to the plan: it was bounded, so there is room to
  compare the output byte by byte, and every byte that is asked for must have come from the file. -/

/-- The padding can only overflow its counter. -/
theorem writeFFLoop_error {output : Path} (size n : Nat) :
    ∀ (offset outPos : Nat) (disk : Disk) (e : Stop), size - offset = n →
      writeFFLoop output size offset disk outPos = .error e → e = .fault := by
  induction n using Nat.strong_induction_on with
  | h n ih =>
    intro offset outPos disk e hn herror
    rw [writeFFLoop] at herror
    split at herror
    · split at herror
      · exact (Except.error.inj herror).symm
      · exact ih (n - 4096) (by omega) (offset + 4096) _ _ e (by omega) herror
    · split at herror
      · exact absurd herror (by simp)
      · exact absurd herror (by simp)

/-- The two paddings of a conversion that completes. -/
theorem write_ok {p : Plan} {stack : Nat → Nat → UInt8} {input output : Path} {disk disk' : Disk}
    (h : p.write stack input output disk = .ok disk') :
    (p.flashOsImage.size - p.fwupOsImage.size).toNat ≤ 2 ^ 31 ∧
      (p.flashFileSystem.size - p.fwupFileSystem.size).toNat ≤ 2 ^ 31 := by
  unfold Plan.write writeSysupgrade at h
  dsimp only at h
  obtain ⟨r1, hff1, h⟩ := bind_eq_ok.mp h
  obtain ⟨r2, hff2, -⟩ := bind_eq_ok.mp h
  exact ⟨writeFF_le hff1, writeFF_le hff2⟩

/-- A conversion that has begun to write reports no error. -/
theorem write_error {p : Plan} {stack : Nat → Nat → UInt8} {input output : Path} {disk : Disk}
    {e : Stop} (h : p.write stack input output disk = .error e) : e = .fault := by
  unfold Plan.write writeSysupgrade at h
  dsimp only at h
  generalize hff1 : writeFF output (p.flashOsImage.size - p.fwupOsImage.size).toNat _ _ = r1 at h
  cases r1 with
  | error e1 =>
    rw [error_bind] at h
    rw [← Except.error.inj h]
    exact writeFFLoop_error _ _ 0 _ _ e1 rfl hff1
  | ok r1 =>
    rw [ok_bind] at h
    generalize hff2 :
      writeFF output (p.flashFileSystem.size - p.fwupFileSystem.size).toNat _ _ = r2 at h
    cases r2 with
    | error e2 =>
      rw [error_bind] at h
      rw [← Except.error.inj h]
      exact writeFFLoop_error _ _ 0 _ _ e2 rfl hff2
    | ok r2 => exact absurd h (by simp)

/-- Bytes that the image shows are in the file. -/
theorem held_of_slice {file image : Bytes} {firmwareOffset start : Nat} {entry : FlashPartition}
    (hroom : start + entry.size.toNat ≤ image.length)
    (h : ∀ i, i < entry.size.toNat →
      image[start + i]? = file[entry.base.toNat + firmwareOffset + i]?) :
    HoldsPartition file firmwareOffset entry := by
  rcases Nat.eq_zero_or_pos entry.size.toNat with hzero | hpos
  · exact Or.inl hzero
  · -- the last byte of the slice
    have hlast := h (entry.size.toNat - 1) (by omega)
    rw [List.getElem?_eq_getElem (by omega)] at hlast
    obtain ⟨hin, -⟩ := List.getElem?_eq_some_iff.mp hlast.symm
    exact Or.inr (by omega)

/-- **A conversion that was right followed an exact plan.** -/
theorem exact_of_write {p : Plan} {stack : Nat → Nat → UInt8} {input output : Path}
    {file image : Bytes} {disk disk' : Disk} (hne : input ≠ output)
    (hinput : disk input = some file) (houtput : disk output = some [])
    (h : p.write stack input output disk = .ok disk') (hbounded : p.Bounded)
    (himage : disk' output = some image) (hright : IsSysupgrade file p image) : p.Exact file := by
  obtain ⟨hpadding1, hpadding2⟩ := write_ok h
  obtain ⟨hsub1, hsub, hsub2⟩ := hbounded.toNat_sub
  rw [hsub1] at hpadding1
  rw [hsub2] at hpadding2
  have hle1 := hbounded.osImage
  have hle2 := hbounded.fileSystem
  have horder := hbounded.order
  have hlength := hright.length
  have hdistance : p.distance = p.flashFileSystem.base.toNat - p.flashOsImage.base.toNat := rfl
  have hheld1 : HoldsPartition file 0x1014 p.fwupOsImage := by
    have hroom : 0 + p.fwupOsImage.size.toNat ≤ image.length := by omega
    refine held_of_slice hroom fun i hi => ?_
    rw [Nat.zero_add]
    exact hright.osImage i hi
  have hheld2 : HoldsPartition file 0x1014 p.fwupFileSystem :=
    held_of_slice (by omega) hright.fileSystem
  refine ⟨hbounded, ?_, hheld1, hheld2, hpadding1, hpadding2⟩
  by_contra hgap
  -- the first byte of the gap is behind the first padding and before everything else
  have hlen1 := length_partitionBytes hheld1
  have hhole : Hole p.flashOsImage.size.toNat (partitionBytes file 0x1014 p.fwupOsImage ++
      List.replicate (p.flashOsImage.size.toNat - p.fwupOsImage.size.toNat) 0xff) := by
    unfold Hole
    rw [List.getElem?_eq_none (by rw [List.length_append, List.length_replicate]; omega)]
    simp
  rw [Plan.write, writeSysupgrade_first stack hne hinput houtput hheld1 hle1 hpadding1, hsub] at h
  dsimp only at h
  obtain ⟨r, hff, hdisk⟩ := bind_eq_ok.mp h
  have hbehind : p.flashOsImage.size.toNat < p.distance := by omega
  have hfirst : Hole p.flashOsImage.size.toNat ((disk.write output (partitionBytes file 0x1014
      p.fwupOsImage ++ List.replicate (p.flashOsImage.size.toNat - p.fwupOsImage.size.toNat)
        0xff)).content output) := hole_write hhole
  have hcopy := fun data => @hole_copyLoop input output _ p.fwupFileSystem.size.toNat _ 0
    ⟨_, data, p.fwupFileSystem.base.toNat + 0x1014, p.distance⟩ rfl hbehind hfirst
  obtain ⟨hpos, hhole⟩ := hcopy (malloc (stack 3) 4096)
  have hfinal := hole_writeFFLoop _ _ 0 _ _ r.1 r.2 rfl hpos hhole hff
  rw [Except.ok.inj hdisk, Disk.content_of_eq himage] at hfinal
  exact hfinal (hright.rest _ (by omega) hle1 (by omega))

/-- **Converting any file**: right, or refused with a message, exactly where the output cannot be
    opened, a table or a lookup in it is refused, or the entries found make an exact plan. -/
theorem convertFirmware_right_iff (os : Os) (stack : Nat → Nat → UInt8) {disk : Disk}
    {input output : Path} {file : Bytes} (hinput : disk input = some file) (hne : input ≠ output) :
    ConvertsRight file (readPlan stack file) output (convertFirmware os stack disk input output) ↔
      os.opens output = false ∨ FileRefused stack file ∨
        ∃ p, readPlan stack file = .ok p ∧ p.Exact file := by
  rw [← readPlan_refuses_iff]
  cases hopens : os.opens output with
  | false =>
    have hsome : ¬ (disk input).isNone = true := by simp [hinput]
    -- the output cannot be opened, which is an error with a message
    have herror : convertFirmware os stack disk input output =
        .error (.error (asBytes "Can not open output firmware ".toList ++ output ++
          asBytes ": Success".toList)) := by
      rw [convertFirmware, if_neg hsome, if_pos (by simp [hopens])]
    rw [herror]
    exact iff_of_true (convertsRight_error.mpr ⟨_, rfl⟩) (Or.inl rfl)
  | true =>
    have hinput' : disk.write output [] input = some file :=
      (Disk.write_other _ _ hne).trans hinput
    have houtput' : disk.write output [] output = some [] := Disk.write_same ..
    rw [convertFirmware_eq_plan stack hinput hopens hne]
    cases hplan : readPlan stack file with
    | error e =>
      rw [error_bind, convertsRight_error]
      constructor
      · -- the plan stops: right if it is refused
        rintro ⟨message, rfl⟩
        exact Or.inr (Or.inl ⟨message, rfl⟩)
      · rintro (h | h | ⟨p', hp', -⟩)
        · exact absurd h (by simp)
        · exact refuses_error.mp h
        · exact absurd hp' (by simp)
    | ok p =>
      rw [ok_bind]
      constructor
      · intro h
        cases hwrite : p.write stack input output (disk.write output []) with
        | error e =>
          rw [hwrite, write_error hwrite] at h
          obtain ⟨message, hmessage⟩ := convertsRight_error.mp h
          exact absurd hmessage (by simp)
        | ok disk' =>
          obtain ⟨p', hp', hbounded, image, himage, hright⟩ := h.completes disk' hwrite
          obtain rfl := Except.ok.inj hp'
          exact Or.inr (Or.inr ⟨p, rfl,
            exact_of_write hne hinput' houtput' hwrite hbounded himage hright⟩)
      · rintro (h | h | ⟨p', hp', hexact⟩)
        · exact absurd h (by simp)
        · exact absurd h (not_refuses_ok p)
        · obtain rfl := Except.ok.inj hp'
          rw [write_exact stack hne hinput' houtput' hexact]
          refine ⟨fun disk' hdisk => ?_, fun e he => absurd he (by simp)⟩
          rw [← Except.ok.inj hdisk]
          exact ⟨p, rfl, hexact.toBounded, p.image file, Disk.write_same ..,
            image_isSysupgrade hexact⟩

/-! ### Two boards -/

/-- The table of an image of five bytes, with the board's table behind them. -/
def imageEntries : List FlashPartition :=
  [⟨cstring "os-image", 0x800, 2⟩, ⟨cstring "file-system", 0x802, 3⟩,
    ⟨cstring "partition-table", 0x805, 0x800⟩]

/-- The image, for a board with the table `flash`. -/
def imageFile (flash : List FlashPartition) : Bytes :=
  List.replicate 0x1014 0 ++ (tableText .fwup imageEntries ++ 0 ::
    (List.replicate (0x7ff - (tableText .fwup imageEntries).length) 0 ++
      ([0x27, 0x05, 0x68, 0x73, 0x71, 0, 0, 0, 0] ++ (tableText .flash flash ++ [0]))))

/-- The file system adjoins the kernel. -/
def adjoining : List FlashPartition :=
  [⟨cstring "os-image", 0x40000, 4⟩, ⟨cstring "file-system", 0x40004, 4⟩]

/-- There is something else between them. -/
def apart : List FlashPartition :=
  [⟨cstring "os-image", 0x40000, 4⟩, ⟨cstring "file-system", 0x40008, 4⟩]

/-- The plan for a board with two partitions. -/
def imagePlan (flashOsImage flashFileSystem : FlashPartition) : Plan :=
  ⟨⟨cstring "os-image", 0x800, 2⟩, ⟨cstring "file-system", 0x802, 3⟩, flashOsImage, flashFileSystem⟩

/-- The plan is read off the two tables of such a file. -/
theorem imageFile_plan (stack : Nat → Nat → UInt8) {f1 f2 : FlashPartition}
    (hname1 : f1.name = cstring "os-image") (hname2 : f2.name = cstring "file-system")
    (hlen : (tableText .flash [f1, f2]).length ≤ 2047) :
    readPlan stack (imageFile [f1, f2]) = .ok (imagePlan f1 f2) := by
  have hfwup : readPartitionTable (stack 0) (imageFile [f1, f2]) 0x1014 maxPartitions .fwup =
      .ok (some imageEntries) := by
    exact readPartitionTable_ok _ (by decide) (by decide) (by decide) (by decide +kernel)
      (List.drop_left' (List.length_replicate ..))
  -- the board's table begins four bytes behind its length
  have hflash : readPartitionTable (stack 1) (imageFile [f1, f2]) (0x1014 + 0x805 + 4)
      maxPartitions .flash = .ok (some [f1, f2]) := by
    refine readPartitionTable_ok [] (by simp) ?_ (by simp [maxPartitions]) hlen ?_
    · intro f hf
      rcases List.mem_cons.mp hf with rfl | hf
      · rw [hname1]
        decide
      · rw [List.mem_singleton.mp hf, hname2]
        decide
    · have htable : (tableText .fwup imageEntries).length + 1 +
          (0x7ff - (tableText .fwup imageEntries).length) = 0x800 := by decide +kernel
      have hsplit : imageFile [f1, f2] = List.replicate 0x1014 0 ++
          (tableText .fwup imageEntries ++ 0 ::
            List.replicate (0x7ff - (tableText .fwup imageEntries).length) 0) ++
          [0x27, 0x05, 0x68, 0x73, 0x71, 0, 0, 0, 0] ++ (tableText .flash [f1, f2] ++ [0]) := by
        simp only [imageFile, List.append_assoc, List.cons_append]
      rw [hsplit]
      refine List.drop_left' ?_
      rw [List.length_append, List.length_append, List.length_append, List.length_cons,
        List.length_replicate, List.length_replicate]
      simp only [List.length_cons, List.length_nil]
      omega
  have hfind1 : ([f1, f2].find? fun f => f.name = cstring "os-image") = some f1 :=
    List.find?_cons_of_pos (by simp [hname1])
  have hfind2 : ([f1, f2].find? fun f => f.name = cstring "file-system") = some f2 := by
    rw [List.find?_cons_of_neg (by rw [hname1]; decide)]
    exact List.find?_cons_of_pos (by simp [hname2])
  have hentry1 : (imageEntries.find? fun e => e.name = cstring "os-image") =
      some ⟨cstring "os-image", 0x800, 2⟩ := by decide
  have hentry2 : (imageEntries.find? fun e => e.name = cstring "file-system") =
      some ⟨cstring "file-system", 0x802, 3⟩ := by decide
  have hentry3 : (imageEntries.find? fun e => e.name = cstring "partition-table") =
      some ⟨cstring "partition-table", 0x805, 0x800⟩ := by decide
  have hoffset : 0x1014 + (0x805 : UInt32).toNat + 4 = 0x1014 + 0x805 + 4 := by decide
  rw [readPlan, hfwup, ok_bind]
  dsimp only
  rw [findPartition_of_find hentry1, ok_bind, findPartition_of_find hentry2, ok_bind,
    findPartition_of_find hentry3, ok_bind]
  dsimp only
  rw [hoffset, hflash, ok_bind]
  dsimp only
  rw [findPartition_of_find hfind1, ok_bind, findPartition_of_find hfind2, ok_bind]
  rfl

/-- The five bytes are in the file. -/
theorem imageFile_holds (flash : List FlashPartition) :
    HoldsPartition (imageFile flash) 0x1014 ⟨cstring "os-image", 0x800, 2⟩ ∧
      HoldsPartition (imageFile flash) 0x1014 ⟨cstring "file-system", 0x802, 3⟩ := by
  have htable : (tableText .fwup imageEntries).length ≤ 0x7ff := by decide +kernel
  have hlen : 0x1814 + 9 ≤ (imageFile flash).length := by
    rw [imageFile, List.length_append, List.length_append, List.length_cons, List.length_append,
      List.length_append, List.length_replicate, List.length_replicate]
    simp only [List.length_cons, List.length_nil]
    omega
  have h1 : (0x800 : UInt32).toNat + 0x1014 + (2 : UInt32).toNat ≤ 0x1814 + 9 := by decide
  have h2 : (0x802 : UInt32).toNat + 0x1014 + (3 : UInt32).toNat ≤ 0x1814 + 9 := by decide
  exact ⟨Or.inr (Nat.le_trans h1 hlen), Or.inr (Nat.le_trans h2 hlen)⟩

/-- A directory with the image in it. -/
def imageDisk (file : Bytes) : Disk := fun path =>
  if path = asBytes "factory.bin".toList then some file else none

/-- Two partitions that adjoin are converted right. -/
theorem convertFirmware_right_adjoining :
    ConvertsRight (imageFile adjoining) (readPlan (fun _ _ => 0xcc) (imageFile adjoining))
      (asBytes "sysupgrade.bin".toList)
      (convertFirmware sampleOs (fun _ _ => 0xcc) (imageDisk (imageFile adjoining))
        (asBytes "factory.bin".toList) (asBytes "sysupgrade.bin".toList)) := by
  have hplan : readPlan (fun _ _ => 0xcc) (imageFile adjoining) =
      .ok (imagePlan ⟨cstring "os-image", 0x40000, 4⟩ ⟨cstring "file-system", 0x40004, 4⟩) :=
    imageFile_plan _ rfl rfl (by decide +kernel)
  have hinput : imageDisk (imageFile adjoining) (asBytes "factory.bin".toList) =
      some (imageFile adjoining) := if_pos rfl
  have hne : asBytes "factory.bin".toList ≠ asBytes "sysupgrade.bin".toList := by decide
  have hheld := imageFile_holds adjoining
  have hexact : (imagePlan ⟨cstring "os-image", 0x40000, 4⟩
      ⟨cstring "file-system", 0x40004, 4⟩).Exact (imageFile adjoining) :=
    ⟨⟨by decide, by decide, by decide⟩, by decide, hheld.1, hheld.2, by decide, by decide⟩
  exact (convertFirmware_right_iff sampleOs (fun _ _ => 0xcc) hinput hne).mpr
    (Or.inr (Or.inr ⟨_, hplan, hexact⟩))

/-- The bytes between the two partitions are never written: they are not 0xff. -/
theorem convertFirmware_apart :
    readPlan (fun _ _ => 0xcc) (imageFile apart) =
        .ok (imagePlan ⟨cstring "os-image", 0x40000, 4⟩ ⟨cstring "file-system", 0x40008, 4⟩) ∧
      ¬ ConvertsRight (imageFile apart) (readPlan (fun _ _ => 0xcc) (imageFile apart))
        (asBytes "sysupgrade.bin".toList)
        (convertFirmware sampleOs (fun _ _ => 0xcc) (imageDisk (imageFile apart))
          (asBytes "factory.bin".toList) (asBytes "sysupgrade.bin".toList)) := by
  have hplan : readPlan (fun _ _ => 0xcc) (imageFile apart) =
      .ok (imagePlan ⟨cstring "os-image", 0x40000, 4⟩ ⟨cstring "file-system", 0x40008, 4⟩) :=
    imageFile_plan _ rfl rfl (by decide +kernel)
  have hinput : imageDisk (imageFile apart) (asBytes "factory.bin".toList) =
      some (imageFile apart) := if_pos rfl
  have hne : asBytes "factory.bin".toList ≠ asBytes "sysupgrade.bin".toList := by decide
  have hopens : sampleOs.opens (asBytes "sysupgrade.bin".toList) = true := by decide
  refine ⟨hplan, fun h => ?_⟩
  rw [convertFirmware_eq_plan _ hinput hopens hne, hplan, ok_bind] at h
  cases hwrite : (imagePlan ⟨cstring "os-image", 0x40000, 4⟩
      ⟨cstring "file-system", 0x40008, 4⟩).write (fun _ _ => 0xcc) (asBytes "factory.bin".toList)
        (asBytes "sysupgrade.bin".toList) ((imageDisk (imageFile apart)).write
          (asBytes "sysupgrade.bin".toList) []) with
  | error e =>
    rw [hwrite, write_error hwrite] at h
    obtain ⟨message, hmessage⟩ := convertsRight_error.mp h
    exact absurd hmessage (by simp)
  | ok disk' =>
    obtain ⟨p, hp, hbounded, image, himage, hright⟩ := h.completes disk' hwrite
    obtain rfl := Except.ok.inj hp
    have hexact := exact_of_write hne ((Disk.write_other _ _ hne).trans hinput)
      (Disk.write_same ..) hwrite hbounded himage hright
    -- an exact plan has no gap between the two
    have hgap : (0x40000 : UInt32).toNat + (4 : UInt32).toNat ≠ (0x40008 : UInt32).toNat := by decide
    exact hgap hexact.adjoin

end Safewrt.Safeloader
