/-
  THE TOOL FROM ITS COMMAND LINE (tools/tplink-safeloader/tplink-safeloader.c, `main`).

  1. **Settings** — the variables of `main` and the loop over `getopt` that fills them.

  2. **`settings_eq`** — the loop keeps, for each variable, the last argument; for the revision
     the last argument that is one.  It does not end if and only if there is neither a help option
     nor one that is unknown, and then it is the first of those that decides the exit status.

  3. **The run** — the date, the choice between the three jobs, and the job.  `main_order`: options
     that are given once can be given in any order.

  4. **`main_extract_built`, `main_convert_built`** — whatever command line built an image, another
     one takes it apart, or converts it.  The second run starts from the disk the first one left, so
     nothing is assumed of the image but that the building run ended with 0.

  `Process` is what a run meets: the disk, the environment, the clock, the system and the memory.
  Messages on the standard output are left out; the text of every error that ends a run is kept.
-/
import Safewrt.Lib.Arguments
import Safewrt.Safeloader.RoundTrip

namespace Safewrt.Safeloader

open Safewrt.Lib

/-! ## Settings

  The options by the option string of `main`: which letters there are, and which take an argument. -/

/-- The variables of `main`; `NULL` is `none`. -/
structure Settings where
  board : Option Bytes := none
  kernelImage : Option Bytes := none
  rootfsImage : Option Bytes := none
  genesisImage : Option Bytes := none
  output : Option Bytes := none
  extractImage : Option Bytes := none
  outputDirectory : Option Bytes := none
  convertImage : Option Bytes := none
  addJffs2Eof : Bool := false
  sysupgrade : Bool := false
  rev : UInt32 := 0
  deriving Repr, DecidableEq

/-- The letter of an option as a byte. -/
def ord (c : Char) : UInt8 := c.toUInt8

/-- `"B:k:r:o:V:jSh:x:d:z:g:"` -/
def takes (c : UInt8) : Option Bool :=
  if c ∈ ['B', 'k', 'r', 'o', 'V', 'h', 'x', 'd', 'z', 'g'].map ord then some true
  else if c ∈ ['j', 'S'].map ord then some false
  else none

/-- `sscanf(optarg, "r%u", &rev)`, where it converts something -/
def scanRev : Bytes → Option UInt32
  | [] => none
  | b :: s => if b = ord 'r' then (strtoull10 s).map fun n => UInt32.ofNat n.value else none

/-- The `switch` of `main`; an error is the exit status behind the usage. -/
def Settings.set (s : Settings) : Item → Except Nat Settings
  | .invalid => .error 1
  | .option c arg =>
    if c = ord 'B' then .ok { s with board := arg }
    else if c = ord 'k' then .ok { s with kernelImage := arg }
    else if c = ord 'r' then .ok { s with rootfsImage := arg }
    else if c = ord 'g' then .ok { s with genesisImage := arg }
    else if c = ord 'o' then .ok { s with output := arg }
    else if c = ord 'V' then .ok { s with rev := (arg.bind scanRev).getD s.rev }
    else if c = ord 'j' then .ok { s with addJffs2Eof := true }
    else if c = ord 'S' then .ok { s with sysupgrade := true }
    else if c = ord 'h' then .error 0
    else if c = ord 'd' then .ok { s with outputDirectory := arg }
    else if c = ord 'x' then .ok { s with extractImage := arg }
    else if c = ord 'z' then .ok { s with convertImage := arg }
    else .error 1

/-- The loop of `main` -/
def readOptions (s : Settings) : List Item → Except Nat Settings
  | [] => .ok s
  | i :: is =>
    match s.set i with
    | .ok s => readOptions s is
    | .error code => .error code

/-! ### The last argument of each -/

/-- The revision that an option sets. -/
def revOf : Item → Option UInt32
  | .option c arg => if c = ord 'V' then arg.bind scanRev else none
  | .invalid => none

/-- The variables behind the options: the last argument of each. -/
def Settings.after (s : Settings) (items : List Item) : Settings where
  board := (lastArg (ord 'B') items).or s.board
  kernelImage := (lastArg (ord 'k') items).or s.kernelImage
  rootfsImage := (lastArg (ord 'r') items).or s.rootfsImage
  genesisImage := (lastArg (ord 'g') items).or s.genesisImage
  output := (lastArg (ord 'o') items).or s.output
  extractImage := (lastArg (ord 'x') items).or s.extractImage
  outputDirectory := (lastArg (ord 'd') items).or s.outputDirectory
  convertImage := (lastArg (ord 'z') items).or s.convertImage
  addJffs2Eof := items.any (Item.names (ord 'j')) || s.addJffs2Eof
  sysupgrade := items.any (Item.names (ord 'S')) || s.sysupgrade
  rev := (items.filterMap revOf).getLast?.getD s.rev

/-- What ends the run: help, or what `main` does not know. -/
def stops (i : Item) : Bool := i = .invalid ∨ i.names (ord 'h')

/-- The variables after a list of options, one option at a time. -/
theorem after_cons (s : Settings) (i : Item) (items : List Item) :
    s.after (i :: items) = (s.after [i]).after items := by
  have hrev : ((i :: items).filterMap revOf).getLast?.getD s.rev =
      (items.filterMap revOf).getLast?.getD (([i].filterMap revOf).getLast?.getD s.rev) := by
    cases hi : revOf i with
    | none =>
      rw [List.filterMap_cons_none hi, List.filterMap_cons_none hi]
      rfl
    | some rev =>
      rw [List.filterMap_cons_some hi, List.filterMap_cons_some hi, List.getLast?_cons]
      cases (items.filterMap revOf).getLast? with
      | none => rfl
      | some last => rfl
  unfold Settings.after
  rw [hrev]
  simp only [lastArg_cons, lastArg_nil, Option.none_or, Option.or_assoc, List.any_cons,
    List.any_nil, Bool.or_false]
  rw [Bool.or_comm (i.names (ord 'j')), Bool.or_comm (i.names (ord 'S')), Bool.or_assoc,
    Bool.or_assoc]

/-- One turn of the loop, on an option that does not end the run. -/
theorem set_eq {s : Settings} {i : Item} (hfits : i.Fits takes) (h : stops i = false) :
    s.set i = .ok (s.after [i]) := by
  cases i with
  | invalid => exact absurd h (by decide)
  | option c arg =>
    have hc : takes c = some arg.isSome := hfits
    unfold takes at hc
    by_cases harg : c ∈ ['B', 'k', 'r', 'o', 'V', 'h', 'x', 'd', 'z', 'g'].map ord
    · rw [if_pos harg, Option.some.injEq, eq_comm] at hc
      obtain ⟨a, rfl⟩ := Option.isSome_iff_exists.mp hc
      simp only [List.map_cons, List.map_nil, List.mem_cons, List.not_mem_nil, or_false] at harg
      -- one case of the `switch` each; only `-V` can leave its variable as it is
      rcases harg with rfl | rfl | rfl | rfl | rfl | rfl | rfl | rfl | rfl | rfl
      · rfl
      · rfl
      · rfl
      · rfl
      · have hrev : revOf (.option (ord 'V') (some a)) = scanRev a := rfl
        show Except.ok { s with rev := (scanRev a).getD s.rev } = Except.ok { s with
          rev := ([Item.option (ord 'V') (some a)].filterMap revOf).getLast?.getD s.rev }
        rw [List.filterMap_cons, hrev]
        cases scanRev a with
        | none => rfl
        | some rev => rfl
      · exact absurd h (by simp [stops, Item.names])
      · rfl
      · rfl
      · rfl
      · rfl
    · rw [if_neg harg] at hc
      by_cases hflag : c ∈ ['j', 'S'].map ord
      · rw [if_pos hflag, Option.some.injEq, eq_comm, Option.isSome_eq_false_iff,
          Option.isNone_iff_eq_none] at hc
        subst hc
        simp only [List.map_cons, List.map_nil, List.mem_cons, List.not_mem_nil, or_false] at hflag
        rcases hflag with rfl | rfl
        · rfl
        · rfl
      · rw [if_neg hflag] at hc
        exact absurd hc (by simp)

/-- One turn on an option that ends it, with its exit status. -/
theorem set_stops {s : Settings} {i : Item} (hfits : i.Fits takes) (h : stops i = true) :
    s.set i = .error (if i = .invalid then 1 else 0) := by
  cases i with
  | invalid => rfl
  | option c arg =>
    have hc : c = ord 'h' := by simpa [stops, Item.names] using h
    subst hc
    rw [if_neg Item.noConfusion]
    rfl

/-- The loop stops at the first item that ends the run, or goes through all of them. -/
theorem readOptions_eq {items : List Item} (hfits : ∀ i ∈ items, i.Fits takes) (s : Settings) :
    readOptions s items = match items.find? stops with
      | none => .ok (s.after items)
      | some i => .error (if i = .invalid then 1 else 0) := by
  induction items generalizing s with
  | nil => rfl
  | cons i is ih =>
    obtain ⟨hi, his⟩ := List.forall_mem_cons.mp hfits
    rw [readOptions, after_cons]
    cases hstops : stops i with
    | true =>
      rw [set_stops hi hstops, List.find?_cons_of_pos hstops]
    | false =>
      rw [set_eq hi hstops, List.find?_cons_of_neg (by simp [hstops])]
      exact ih his _

/-- **What the command line comes to**: the status behind the usage, for the first argument that
    asks for help or that is none; else for each variable the last argument of its option. -/
theorem settings_eq (args : List Bytes) :
    readOptions {} (getopt takes none args) = match (getopt takes none args).find? stops with
      | none => .ok (({} : Settings).after (getopt takes none args))
      | some i => .error (if i = .invalid then 1 else 0) :=
  readOptions_eq (getopt_fits takes args none fun _ h => absurd h (by simp)) {}

/-! ## The run

  `SOURCE_DATE_EPOCH` is read before the options, so a bad value ends a run that only asks for
  help. -/

/-- What a run is given beside its arguments. -/
structure Process where
  env : Option Bytes                -- `SOURCE_DATE_EPOCH`
  now : Option Int                  -- `time`
  localtime : Int → Option Tm
  os : Os
  memory : Memory
  stack : Nat → Nat → UInt8
  disk : Disk

/-- The same process on another disk. -/
def Process.onDisk (p : Process) (disk : Disk) : Process := { p with disk := disk }

/-- A 64-bit value as a `time_t`. -/
def toTime (v : Nat) : Int := if v < 2 ^ 63 then v else (v : Int) - 2 ^ 64

/-- `set_source_date_epoch`: the variable, which starts as -1.  Its message is printed without the
    macro. -/
def setSourceDateEpoch : Option Bytes → Run Int
  | none => .ok (-1)
  | some env =>
    if env = [] then .ok (-1)
    else match strtoull10 env with
      | none => .error (.ofText "Invalid SOURCE_DATE_EPOCH".toList)
      | some n =>
        if n.overflow ∨ n.rest ≠ [] then .error (.ofText "Invalid SOURCE_DATE_EPOCH".toList)
        else .ok (toTime n.value)

/-- The date in `make_soft_version`. -/
def readClock (p : Process) (sourceDateEpoch : Int) : Run Tm :=
  match if sourceDateEpoch ≠ -1 then some sourceDateEpoch else p.now with
  | none => .error (.ofText "time".toList)
  | some t =>
    match p.localtime t with
    | none => .error .fault
    | some tm => .ok tm

/-- The date is looked up for the boards without a version of their own. -/
def makeStamp (p : Process) (sourceDateEpoch : Int) (rev : UInt32) (info : DeviceInfo) :
    Run Stamp :=
  match info.softVer with
  | some _ => .ok ⟨⟨0, 0, 0⟩, rev⟩
  | none => do
    let tm ← readClock p sourceDateEpoch
    .ok ⟨tm, rev⟩

/-- `if (!x) error(1, 0, ..)` -/
def required {α : Type} (x : Option α) (message : String) : Run α :=
  match x with
  | none => .error (.ofText (message.toList ++ ": Success".toList))
  | some a => .ok a

/-- The third job of `main`. -/
def build (p : Process) (sourceDateEpoch : Int) (s : Settings) : Run Disk := do
  let board ← required s.board "no board has been specified"
  let kernelImage ← required s.kernelImage "no kernel image has been specified"
  let rootfsImage ← required s.rootfsImage "no rootfs image has been specified"
  let genesisImage ← required s.genesisImage "no genesis image has been specified"
  let output ← required s.output "no output filename has been specified"
  match findBoard (.ofBytes board) with
  | none => .error (.error (asBytes "unsupported board ".toList ++ board ++
      asBytes ": Success".toList))
  | some info =>
    let stamp ← makeStamp p sourceDateEpoch s.rev info
    buildImage vendoredMd5 p.os p.memory p.disk stamp info ⟨kernelImage, rootfsImage, genesisImage⟩
      s.sysupgrade output

/-- The three jobs of `main`. -/
def dispatch (p : Process) (sourceDateEpoch : Int) (s : Settings) : Run Disk :=
  if s.extractImage.isSome ∨ s.outputDirectory.isSome then do
    let extractImage ← required s.extractImage
      "No factory/oem image given via -x <file>. Output directory is only valid with -x"
    let outputDirectory ← required s.outputDirectory
      "Can not extract an image without output directory. Use -d <dir>"
    extractFirmware p.os p.stack p.disk extractImage outputDirectory
  else match s.convertImage with
    | some convertImage => do
      let output ← required s.output
        "Can not convert a factory/oem image into sysupgrade image without output file. Use -o <file>"
      convertFirmware p.os p.stack p.disk convertImage output
    | none => build p sourceDateEpoch s

/-- How a run ends that is not stopped. -/
structure Exit where
  status : Nat
  disk : Disk

/-- `main`, of the arguments behind `argv[0]` -/
def main (p : Process) (args : List Bytes) : Run Exit := do
  let sourceDateEpoch ← setSourceDateEpoch p.env
  match readOptions {} (getopt takes none args) with
  | .error status => .ok ⟨status, p.disk⟩
  | .ok s =>
    let disk ← dispatch p sourceDateEpoch s
    .ok ⟨0, disk⟩

/-! ### The order of the options -/

/-- Options that are meant end the loop with help or not at all. -/
theorem readOptions_meant {items : List Item} (hmeant : ∀ i ∈ items, i.Meant takes) :
    readOptions {} items = if items.any (Item.names (ord 'h')) then .error 0
      else .ok (({} : Settings).after items) := by
  have hstops : ∀ i ∈ items, stops i = i.names (ord 'h') := by
    intro i hi
    cases i with
    | invalid => exact absurd (hmeant _ hi) id
    | option c arg => simp [stops]
  rw [readOptions_eq fun i hi => (hmeant i hi).fits]
  -- what stops the loop is no `?`, so it asks for help
  cases hfind : items.find? stops with
  | none =>
    have hnone : ¬ items.any (Item.names (ord 'h')) = true := by
      rw [List.any_eq_true]
      rintro ⟨i, hi, hnames⟩
      exact List.find?_eq_none.mp hfind i hi ((hstops i hi).trans hnames)
    rw [if_neg hnone]
  | some i =>
    have hi := List.mem_of_find?_eq_some hfind
    have hany : items.any (Item.names (ord 'h')) = true :=
      List.any_eq_true.mpr ⟨i, hi, (hstops i hi).symm.trans (List.find?_some hfind)⟩
    have hvalid : i ≠ .invalid := by
      rintro rfl
      exact hmeant _ hi
    rw [if_pos hany]
    exact congrArg Except.error (if_neg hvalid)

theorem any_perm {items items' : List Item} (h : items.Perm items') (p : Item → Bool) :
    items.any p = items'.any p := by
  rw [Bool.eq_iff_iff, List.any_eq_true, List.any_eq_true]
  simp only [h.mem_iff]

/-- The variables do not depend on the order, where no option is there twice. -/
theorem after_perm {items items' : List Item} (h : items.Perm items')
    (honce : (items.filterMap Item.letter).Nodup) (s : Settings) : s.after items = s.after items' := by
  have hrev : ∀ i : Item, (revOf i).isSome → i.letter = some (ord 'V') := by
    intro i hi
    cases i with
    | invalid => exact absurd hi (by simp [revOf])
    | option c arg =>
      by_cases hc : c = ord 'V'
      · rw [hc]
        rfl
      · exact absurd hi (by simp [revOf, hc])
  unfold Settings.after
  simp only [lastArg_perm h honce, any_perm h,
    perm_eq_of_once (h.filterMap revOf) (length_filterMap_once hrev honce)]

/-- **The order of the options does not matter**, whatever their arguments look like, if none is
    given twice. -/
theorem main_order (p : Process) {items items' : List Item} (h : items.Perm items')
    (hmeant : ∀ i ∈ items, i.Meant takes) (honce : (items.filterMap Item.letter).Nodup) :
    main p (items.flatMap Item.spell) = main p (items'.flatMap Item.spell) := by
  have hmeant' : ∀ i ∈ items', i.Meant takes := fun i hi => hmeant i (h.mem_iff.mpr hi)
  have hread : ∀ items : List Item, (∀ i ∈ items, i.Meant takes) →
      getopt takes none (items.flatMap Item.spell) = items := by
    intro items hmeant
    have hspell := getopt_spell takes items [] hmeant
    rw [List.append_nil] at hspell
    exact hspell.trans (List.append_nil items)
  unfold main
  rw [hread items hmeant, hread items' hmeant', readOptions_meant hmeant,
    readOptions_meant hmeant', any_perm h, after_perm h honce]

/-- A first day of the year, with the sample files. -/
def sampleProcess : Process where
  env := none
  now := some 1514764800
  localtime := fun _ => some sampleStamp.tm
  os := sampleOs
  memory := sampleMemory
  stack := fun _ _ => 0xcc
  disk := sampleDisk

/-- `-B archer-c7-v4 -k kernel -r rootfs -g genesis -o factory.bin` -/
def sampleArgs : List Bytes :=
  [asBytes "-B".toList, asBytes "archer-c7-v4".toList, asBytes "-k".toList,
    asBytes "kernel".toList, asBytes "-r".toList, asBytes "rootfs".toList, asBytes "-g".toList,
    asBytes "genesis".toList, asBytes "-o".toList, asBytes "factory.bin".toList]

/-- The options of the sample command line. -/
def sampleItems : List Item :=
  [.option (ord 'B') (some (asBytes "archer-c7-v4".toList)),
    .option (ord 'k') (some (asBytes "kernel".toList)),
    .option (ord 'r') (some (asBytes "rootfs".toList)),
    .option (ord 'g') (some (asBytes "genesis".toList)),
    .option (ord 'o') (some (asBytes "factory.bin".toList))]

/-- The sample options from the last to the first. -/
theorem main_order_reversed :
    main sampleProcess (sampleItems.reverse.flatMap Item.spell) =
      main sampleProcess sampleArgs := by
  have hmeant : ∀ i ∈ sampleItems, i.Meant takes := by
    simp only [sampleItems, List.forall_mem_cons]
    exact ⟨⟨by decide, rfl⟩, ⟨by decide, rfl⟩, ⟨by decide, rfl⟩, ⟨by decide, rfl⟩,
      ⟨by decide, rfl⟩, List.forall_mem_nil _⟩
  have hspell : sampleItems.flatMap Item.spell = sampleArgs := by decide
  rw [← hspell, main_order sampleProcess (List.reverse_perm sampleItems).symm hmeant (by decide)]

/-! ### The clock -/

/-- A number that is printed in full is taken. -/
theorem setSourceDateEpoch_decimal {n : Nat} (h : n ≤ ulongMax) :
    setSourceDateEpoch (some (decimalDigits n)) = .ok (toTime n) := by
  obtain ⟨d, -, s, hs⟩ := exists_cons_decimalDigits n
  have hne : decimalDigits n ≠ [] := by
    rw [hs]
    simp
  rw [setSourceDateEpoch, if_neg hne, strtoull10_decimalDigits h]
  rfl

/-- The one number that is no date. -/
theorem toTime_eq_unset {n : Nat} (h : n ≤ ulongMax) : toTime n = -1 ↔ n = ulongMax := by
  unfold ulongMax at h ⊢
  unfold toTime
  split
  · omega
  · omega

/-- With a date from the environment, the clock is not looked at. -/
theorem dispatch_clock {epoch : Int} (h : epoch ≠ -1) (p : Process) (now : Option Int)
    (s : Settings) : dispatch { p with now := now } epoch s = dispatch p epoch s := by
  have hclock : readClock { p with now := now } epoch = readClock p epoch := by
    unfold readClock
    rw [if_pos h, if_pos h]
  have hstamp : makeStamp { p with now := now } epoch = makeStamp p epoch := by
    funext rev info
    unfold makeStamp
    rw [hclock]
  unfold dispatch build
  rw [hstamp]

/-- **With `SOURCE_DATE_EPOCH` the clock makes no difference**, to any command line; save for the
    largest number, with which the tool runs as if there were none. -/
theorem main_epoch {p : Process} {n : Nat} (hn : n ≤ ulongMax)
    (henv : p.env = some (decimalDigits n)) (args : List Bytes) :
    if n = ulongMax then main p args = main { p with env := none } args
    else ∀ now, main { p with now := now } args = main p args := by
  have hepoch : setSourceDateEpoch p.env = .ok (toTime n) := by
    rw [henv, setSourceDateEpoch_decimal hn]
  by_cases hmax : n = ulongMax
  · rw [if_pos hmax]
    unfold main
    rw [hepoch, (toTime_eq_unset hn).mpr hmax]
    rfl
  · rw [if_neg hmax]
    intro now
    unfold main
    show (setSourceDateEpoch p.env >>= _) = _
    rw [hepoch, ok_bind, ok_bind]
    simp only [dispatch_clock (mt (toTime_eq_unset hn).mp hmax)]

/-- The first day of 2018, on a machine without a clock. -/
theorem main_epoch_2018 :
    main { sampleProcess with env := some (decimalDigits 1514764800), now := none } sampleArgs =
      main { sampleProcess with env := some (decimalDigits 1514764800) } sampleArgs := by
  have hrun := main_epoch (p := { sampleProcess with env := some (decimalDigits 1514764800) })
    (n := 1514764800) (by decide) rfl sampleArgs
  rw [if_neg (by decide)] at hrun
  exact hrun none

/-! ## One run after another

  Two processes, the second of which finds on its disk what the first has written. -/

/-- A file that the job needs was given. -/
theorem required_eq_ok {α : Type} {x : Option α} {message : String} {a : α} :
    required x message = .ok a ↔ x = some a := by
  cases x with
  | none => simp [required]
  | some b => simp [required]

/-- The command line of a build. -/
structure Building (s : Settings) : Prop where
  noExtract : s.extractImage = none
  noDirectory : s.outputDirectory = none
  noConvert : s.convertImage = none

section Runs

variable {p q : Process} {args args' : List Bytes} {s t : Settings}

/-- With options that are right, `main` is the date and then the job. -/
theorem main_of_settings (h : readOptions {} (getopt takes none args) = .ok s) {e : Exit} :
    main p args = .ok e ↔ ∃ epoch disk, setSourceDateEpoch p.env = .ok epoch ∧
      dispatch p epoch s = .ok disk ∧ e = ⟨0, disk⟩ := by
  unfold main
  rw [h]
  constructor
  · intro hmain
    obtain ⟨epoch, hepoch, hmain⟩ := bind_eq_ok.mp hmain
    obtain ⟨disk, hdisk, hmain⟩ := bind_eq_ok.mp hmain
    exact ⟨epoch, disk, hepoch, hdisk, (Except.ok.inj hmain).symm⟩
  · rintro ⟨epoch, disk, hepoch, hdisk, rfl⟩
    rw [hepoch, ok_bind]
    dsimp only
    rw [hdisk, ok_bind]

/-- What a build has found before it makes the image. -/
structure Found (p : Process) (epoch : Int) (s : Settings) (info : DeviceInfo) (inputs : Inputs)
    (output : Path) (stamp : Stamp) : Prop where
  isBoard : ∃ board, s.board = some board ∧ findBoard (.ofBytes board) = some info
  isKernel : s.kernelImage = some inputs.kernelImage
  isRootfs : s.rootfsImage = some inputs.rootfsImage
  isGenesis : s.genesisImage = some inputs.genesisImage
  isOutput : s.output = some output
  isStamp : makeStamp p epoch s.rev info = .ok stamp
  opens : p.os.opens output

variable {epoch : Int} {info : DeviceInfo} {inputs : Inputs} {output : Path} {stamp : Stamp}

/-- The image is built and written. -/
theorem Found.build_eq (h : Found p epoch s info inputs output stamp) {image : Bytes}
    (himage : generateImage vendoredMd5 p.memory p.disk stamp info inputs s.sysupgrade = .ok image) :
    build p epoch s = .ok (p.disk.write output image) := by
  obtain ⟨board, hboard, hfind⟩ := h.isBoard
  unfold build
  rw [required_eq_ok.mpr hboard, ok_bind, required_eq_ok.mpr h.isKernel, ok_bind,
    required_eq_ok.mpr h.isRootfs, ok_bind, required_eq_ok.mpr h.isGenesis, ok_bind,
    required_eq_ok.mpr h.isOutput, ok_bind, hfind]
  dsimp only
  rw [h.isStamp, ok_bind, buildImage, himage, ok_bind, if_pos h.opens]

/-- Conversely, a build that succeeds had all it needs. -/
theorem build_ok {disk : Disk} (h : build p epoch s = .ok disk) :
    ∃ info inputs output stamp image, Found p epoch s info inputs output stamp ∧
      generateImage vendoredMd5 p.memory p.disk stamp info inputs s.sysupgrade = .ok image ∧
      disk = p.disk.write output image := by
  obtain ⟨board, hboard, h⟩ := bind_eq_ok.mp h
  obtain ⟨kernelImage, hkernel, h⟩ := bind_eq_ok.mp h
  obtain ⟨rootfsImage, hrootfs, h⟩ := bind_eq_ok.mp h
  obtain ⟨genesisImage, hgenesis, h⟩ := bind_eq_ok.mp h
  obtain ⟨output, houtput, h⟩ := bind_eq_ok.mp h
  rw [required_eq_ok] at hboard hkernel hrootfs hgenesis houtput
  -- the five required options are there; now the board, the stamp and the image
  cases hfind : findBoard (.ofBytes board) with
  | none =>
    rw [hfind] at h
    cases h
  | some info =>
    rw [hfind] at h
    obtain ⟨stamp, hstamp, h⟩ := bind_eq_ok.mp h
    obtain ⟨image, himage, h⟩ := bind_eq_ok.mp h
    by_cases hopens : p.os.opens output
    · rw [if_pos hopens] at h
      exact ⟨info, ⟨kernelImage, rootfsImage, genesisImage⟩, output, stamp, image,
        ⟨⟨board, hboard, hfind⟩, hkernel, hrootfs, hgenesis, houtput, hstamp, hopens⟩, himage,
        (Except.ok.inj h).symm⟩
    · rw [if_neg hopens] at h
      cases h

/-- The files were there, and not empty. -/
theorem given_of_generate {memory : Memory} {disk : Disk} {md5 : Md5} {sysupgrade : Bool}
    {image : Bytes} (h : generateImage md5 memory disk stamp info inputs sysupgrade = .ok image) :
    ∃ kernel rootfs genesis, Given disk inputs kernel rootfs genesis := by
  obtain ⟨slots, hslots, -⟩ := bind_eq_ok.mp h
  obtain ⟨-, kernel, rootfs, genesis, -, hk, hr, hg, hne1, hne2, hne3, -⟩ := prepare_ok hslots
  exact ⟨kernel, rootfs, genesis, hk, hr, hg, hne1, hne2, hne3⟩

/-- Neither `-x` nor `-z` was given: the job is to build. -/
theorem Building.dispatch_eq (h : Building s) (epoch : Int) :
    dispatch p epoch s = build p epoch s := by
  unfold dispatch
  rw [h.noExtract, h.noDirectory, h.noConvert, if_neg (by simp)]

/-- A run that builds, as it ends. -/
theorem main_build_ok (hs : readOptions {} (getopt takes none args) = .ok s) (hbuild : Building s)
    {e : Exit} (hmain : main p args = .ok e) :
    ∃ epoch info inputs output stamp image, setSourceDateEpoch p.env = .ok epoch ∧
      Found p epoch s info inputs output stamp ∧
      generateImage vendoredMd5 p.memory p.disk stamp info inputs s.sysupgrade = .ok image ∧
      e = ⟨0, p.disk.write output image⟩ := by
  obtain ⟨epoch, disk, hepoch, hdisk, rfl⟩ := (main_of_settings hs).mp hmain
  rw [hbuild.dispatch_eq] at hdisk
  obtain ⟨info, inputs, output, stamp, image, hfound, himage, rfl⟩ := build_ok hdisk
  exact ⟨epoch, info, inputs, output, stamp, image, hepoch, hfound, himage, rfl⟩

/-- **Whatever command line built a factory image, another one gets back what went in.** -/
theorem main_extract_built (hs : readOptions {} (getopt takes none args) = .ok s)
    (hbuild : Building s) (hfactory : s.sysupgrade = false) {disk : Disk}
    (hmain : main p args = .ok ⟨0, disk⟩) (ht : readOptions {} (getopt takes none args') = .ok t)
    {input directory : Path} (hextract : t.extractImage = some input)
    (hdirectory : t.outputDirectory = some directory)
    (hinput : ∀ output ∈ s.output, q.disk input = disk output)
    (htarget : Target q.os input directory partNames)
    (henv : setSourceDateEpoch q.env = .ok epoch) :
    ∃ board info inputs kernel rootfs genesis disk', s.board = some board ∧
      findBoard (.ofBytes board) = some info ∧ s.kernelImage = some inputs.kernelImage ∧
      s.rootfsImage = some inputs.rootfsImage ∧ s.genesisImage = some inputs.genesisImage ∧
      Given p.disk inputs kernel rootfs genesis ∧ main q args' = .ok ⟨0, disk'⟩ ∧
      (∃ rest, disk' (partitionPath directory (cstring "os-image")) =
        some (kernel ++ rootfs ++ rest)) ∧
      disk' (partitionPath directory (cstring "file-system")) =
        (if info.id = cstring "ARCHER-C7-V4" then some genesis
          else q.disk (partitionPath directory (cstring "file-system"))) ∧
      ∀ path, (∀ name ∈ partNames, path ≠ partitionPath directory name) →
        disk' path = q.disk path := by
  obtain ⟨epoch', info, inputs, output, stamp, image, -, hfound, himage, hexit⟩ :=
    main_build_ok hs hbuild hmain
  obtain ⟨-, rfl⟩ := Exit.mk.inj hexit
  obtain ⟨board, hboard, hfind⟩ := hfound.isBoard
  obtain ⟨kernel, rootfs, genesis, hfiles⟩ := given_of_generate himage
  rw [hfactory] at himage
  -- the first run left the image where the second one looks for it
  have hheld : q.disk input = some image := by
    rw [hinput output hfound.isOutput, Disk.write_same]
  obtain ⟨slots, disk', -, hrun, -, hos, hfs, hother⟩ :=
    boards_extract (List.mem_of_find?_eq_some hfind) hfiles himage q.os q.stack hheld htarget
  refine ⟨board, info, inputs, kernel, rootfs, genesis, disk', hboard, hfind, hfound.isKernel,
    hfound.isRootfs, hfound.isGenesis, hfiles, ?_, hos, hfs, hother⟩
  refine (main_of_settings ht).mpr ⟨epoch, disk', henv, ?_, rfl⟩
  unfold dispatch
  rw [hextract, hdirectory, if_pos (by simp)]
  exact hrun

end Runs

/-! ### An image of the Archer C7 v4 -/

/-- The variables after the sample command line. -/
def sampleSettings : Settings where
  board := some (asBytes "archer-c7-v4".toList)
  kernelImage := some (asBytes "kernel".toList)
  rootfsImage := some (asBytes "rootfs".toList)
  genesisImage := some (asBytes "genesis".toList)
  output := some (asBytes "factory.bin".toList)

/-- The loop over the options leaves them so. -/
theorem sampleArgs_settings : readOptions {} (getopt takes none sampleArgs) = .ok sampleSettings := by
  rfl

/-- All that the build asks for is there. -/
theorem sampleProcess_found :
    Found sampleProcess (-1) sampleSettings archerC7V4 sampleInputs (asBytes "factory.bin".toList)
      ⟨⟨0, 0, 0⟩, 0⟩ where
  isBoard := ⟨_, rfl, findBoard_of_mem mem_boards_archerC7V4 (by decide +kernel)⟩
  isKernel := rfl
  isRootfs := rfl
  isGenesis := rfl
  isOutput := rfl
  isStamp := rfl
  opens := by decide

/-- The first command line builds an image of the Archer C7 v4. -/
theorem sampleArgs_main : ∃ disk, main sampleProcess sampleArgs = .ok ⟨0, disk⟩ := by
  have hinfo := boards_supported mem_boards_archerC7V4
  obtain ⟨slots, table, hslots, hfilled⟩ :=
    sampleGiven.filled hinfo sampleMemory ⟨⟨0, 0, 0⟩, 0⟩
  have hpara : (extraParaData archerC7V4.id).isSome := by decide +kernel
  obtain ⟨mdat, hmdat⟩ := Option.isSome_iff_exists.mp hpara
  obtain ⟨image, himage⟩ := (factory_isOk_some vendoredMd5 hinfo hfilled hmdat
    sampleGiven.rootfs_ne sampleGiven.genesis_ne).mpr (by decide +kernel)
  have hgenerate : generateImage vendoredMd5 sampleMemory sampleDisk ⟨⟨0, 0, 0⟩, 0⟩ archerC7V4
      sampleInputs false = .ok image := by
    rw [generateImage, hslots, ok_bind, if_neg Bool.false_ne_true]
    exact himage
  have hbuilding : Building sampleSettings := ⟨rfl, rfl, rfl⟩
  have hrun := (hbuilding.dispatch_eq (-1)).trans (sampleProcess_found.build_eq hgenerate)
  exact ⟨_, (main_of_settings sampleArgs_settings).mpr ⟨-1, _, rfl, hrun, rfl⟩⟩

/-- `-x factory.bin -d out` -/
def extractArgs : List Bytes :=
  [asBytes "-x".toList, asBytes "factory.bin".toList, asBytes "-d".toList, asBytes "out".toList]

/-- Extracting into this directory does not write over the image. -/
theorem sampleTarget : Target sampleOs (asBytes "factory.bin".toList) (asBytes "out".toList)
    partNames where
  isDirectory := by decide
  opens := by decide +kernel
  apart := by decide +kernel

/-- A second one takes it apart. -/
theorem main_extract_built_archerC7V4 : ∃ disk disk', main sampleProcess sampleArgs = .ok ⟨0, disk⟩ ∧
    main (sampleProcess.onDisk disk) extractArgs = .ok ⟨0, disk'⟩ ∧
    ∃ rest, disk' (asBytes "out/os-image".toList) = some (0x27 :: 0x05 :: 0x68 :: 0x73 :: rest) := by
  obtain ⟨disk, hmain⟩ := sampleArgs_main
  have hsettings : readOptions {} (getopt takes none extractArgs) = .ok {
      extractImage := some (asBytes "factory.bin".toList)
      outputDirectory := some (asBytes "out".toList) } := rfl
  have hextract := main_extract_built (q := sampleProcess.onDisk disk)
    sampleArgs_settings ⟨rfl, rfl, rfl⟩ rfl hmain hsettings rfl rfl
    (fun output h => Option.some.inj h ▸ rfl) sampleTarget rfl
  obtain ⟨board, info, inputs, kernel, rootfs, genesis, disk', -, -, hkernel, hrootfs, -, hfiles,
    hrun, ⟨rest, hos⟩, -⟩ := hextract
  have hk : [0x27, 0x05] = kernel := Option.some.inj
    ((congrArg sampleDisk (Option.some.inj hkernel)).trans hfiles.isKernel)
  have hr : [0x68, 0x73] = rootfs := Option.some.inj
    ((congrArg sampleDisk (Option.some.inj hrootfs)).trans hfiles.isRootfs)
  subst hk hr
  exact ⟨disk, disk', hmain, hrun, rest, hos⟩

section Runs

variable {p q : Process} {args args' : List Bytes} {s t : Settings} {epoch : Int}

/-- `-S` in front, and nothing else is different. -/
theorem settings_sysupgrade (hs : readOptions {} (getopt takes none args) = .ok s) :
    readOptions {} (getopt takes none ([0x2d, ord 'S'] :: args)) =
      .ok { s with sysupgrade := true } := by
  have hfits := getopt_fits takes args none fun _ h => absurd h (by simp)
  rw [readOptions_eq hfits] at hs
  show readOptions { sysupgrade := true } (getopt takes none args) = _
  rw [readOptions_eq hfits]
  cases hfind : (getopt takes none args).find? stops with
  | none =>
    rw [hfind] at hs
    obtain rfl := Except.ok.inj hs
    show Except.ok (Settings.after _ _) = Except.ok _
    unfold Settings.after
    rw [Bool.or_true]
  | some i =>
    rw [hfind] at hs
    cases hs

/-- **The image of the Archer C7 v4 converts to the one that `-S` makes**, with 0xff behind it; that
    of any other board does not convert. -/
theorem main_convert_built (hs : readOptions {} (getopt takes none args) = .ok s)
    (hbuild : Building s) (hfactory : s.sysupgrade = false) {disk : Disk}
    (hmain : main p args = .ok ⟨0, disk⟩) (ht : readOptions {} (getopt takes none args') = .ok t)
    {input converted : Path} (hnoExtract : t.extractImage = none)
    (hnoDirectory : t.outputDirectory = none) (hconvert : t.convertImage = some input)
    (houtput : t.output = some converted) (hinput : ∀ output ∈ s.output, q.disk input = disk output)
    (hopens : q.os.opens converted) (hne : input ≠ converted)
    (henv : setSourceDateEpoch q.env = .ok epoch) :
    ∃ board info genesisImage genesis, s.board = some board ∧
      findBoard (.ofBytes board) = some info ∧ s.genesisImage = some genesisImage ∧
      p.disk genesisImage = some genesis ∧
      if info.id = cstring "ARCHER-C7-V4" then
        ∃ sysupgrade, (∀ output ∈ s.output, main p ([0x2d, ord 'S'] :: args) =
            .ok ⟨0, p.disk.write output sysupgrade⟩) ∧
          main q args' = .ok ⟨0, q.disk.write converted (sysupgrade ++
            List.replicate (room info (cstring "file-system") - genesis.length) 0xff)⟩
      else main q args' = .error .fault := by
  obtain ⟨epoch', info, inputs, output, stamp, image, hepoch', hfound, himage, hexit⟩ :=
    main_build_ok hs hbuild hmain
  obtain ⟨-, rfl⟩ := Exit.mk.inj hexit
  obtain ⟨board, hboard, hfind⟩ := hfound.isBoard
  obtain ⟨kernel, rootfs, genesis, hfiles⟩ := given_of_generate himage
  rw [hfactory] at himage
  have hheld : q.disk input = some image := by
    rw [hinput output hfound.isOutput, Disk.write_same]
  have hrun := boards_convert (List.mem_of_find?_eq_some hfind) hfiles himage q.os q.stack hheld
    hopens hne
  have hdispatch : dispatch q epoch t = convertFirmware q.os q.stack q.disk input converted := by
    unfold dispatch
    rw [hnoExtract, hnoDirectory, hconvert, houtput, if_neg (by simp)]
    rfl
  refine ⟨board, info, inputs.genesisImage, genesis, hboard, hfind, hfound.isGenesis,
    hfiles.isGenesis, ?_⟩
  by_cases hid : info.id = cstring "ARCHER-C7-V4"
  · rw [if_pos hid] at hrun ⊢
    obtain ⟨sysupgrade, hmade, hconverted⟩ := hrun
    refine ⟨sysupgrade, fun output' houtput' => ?_,
      (main_of_settings ht).mpr ⟨epoch, _, henv, hdispatch.trans hconverted, rfl⟩⟩
    obtain rfl : output = output' := Option.some.inj (hfound.isOutput.symm.trans houtput')
    refine (main_of_settings (settings_sysupgrade hs)).mpr ⟨epoch', _, hepoch', ?_, rfl⟩
    -- the same command line with `-S` in front makes the sysupgrade image
    have hbuild' : Building { s with sysupgrade := true } :=
      ⟨hbuild.noExtract, hbuild.noDirectory, hbuild.noConvert⟩
    rw [hbuild'.dispatch_eq]
    have hfound' : Found p epoch' { s with sysupgrade := true } info inputs output stamp :=
      ⟨hfound.isBoard, hfound.isKernel, hfound.isRootfs, hfound.isGenesis, hfound.isOutput,
        hfound.isStamp, hfound.opens⟩
    exact hfound'.build_eq hmade
  · rw [if_neg hid] at hrun ⊢
    unfold main
    rw [henv, ok_bind, ht]
    dsimp only
    rw [hdispatch, hrun, error_bind]

end Runs

/-- `-z factory.bin -o sysupgrade.bin` -/
def convertArgs : List Bytes :=
  [asBytes "-z".toList, asBytes "factory.bin".toList, asBytes "-o".toList,
    asBytes "sysupgrade.bin".toList]

/-- And a third converts it. -/
theorem main_convert_built_archerC7V4 : ∃ disk disk', main sampleProcess sampleArgs = .ok ⟨0, disk⟩ ∧
    main (sampleProcess.onDisk disk) convertArgs = .ok ⟨0, disk'⟩ := by
  obtain ⟨disk, hmain⟩ := sampleArgs_main
  have hsettings : readOptions {} (getopt takes none convertArgs) = .ok {
      output := some (asBytes "sysupgrade.bin".toList)
      convertImage := some (asBytes "factory.bin".toList) } := rfl
  have hopens : sampleOs.opens (asBytes "sysupgrade.bin".toList) := by decide
  have hconvert := main_convert_built (q := sampleProcess.onDisk disk)
    sampleArgs_settings ⟨rfl, rfl, rfl⟩ rfl hmain hsettings rfl rfl rfl rfl
    (fun output h => Option.some.inj h ▸ rfl) hopens (by decide) rfl
  obtain ⟨board, info, _, _, hboard, hfind, -, -, hrun⟩ := hconvert
  obtain ⟨board', hboard', hfind'⟩ := sampleProcess_found.isBoard
  obtain rfl : board' = board := Option.some.inj (hboard'.symm.trans hboard)
  obtain rfl : archerC7V4 = info := Option.some.inj (hfind'.symm.trans hfind)
  have hid : archerC7V4.id = cstring "ARCHER-C7-V4" := rfl
  rw [if_pos hid] at hrun
  obtain ⟨sysupgrade, -, hrun⟩ := hrun
  exact ⟨disk, _, hmain, hrun⟩

end Safewrt.Safeloader
