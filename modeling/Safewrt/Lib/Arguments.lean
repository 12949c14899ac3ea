/-
  COMMAND LINES: options and numbers.

  1. **Options** — `getopt` walks over the arguments.  An argument with a dash holds a cluster of
     options; the last of them may take the rest of the cluster, or the argument behind it.  What
     is no option is passed over, and `--` ends the walk.  Which letters take an argument is a
     parameter of the walk, as the option string is of the call.

  2. `getopt_spell` — options that are spelled one by one are read as they were meant, whatever
     their arguments look like.

  3. **The last one counts** — `lastArg` is what a loop keeps that overwrites a variable; it is the
     same in any order, if no option is there twice (`lastArg_perm`).

  4. **Numbers** — `strtoull` to base 10, with the place where it stops.  A value that does not
     fit is the largest one, and a sign negates modulo 2^64, as the standard has it.
-/
import Safewrt.Lib.Hex
import Mathlib.Algebra.Group.Int.Defs

namespace Safewrt.Lib

/-! ## Options -/

/-- What `getopt` returns: an option with its argument, or `'?'`. -/
inductive Item
  | option (name : UInt8) (arg : Option (List UInt8))
  | invalid
  deriving Repr, DecidableEq

section Options

variable (takes : UInt8 → Option Bool)  -- the option string: which options, and with an argument?

/-- The options of one argument, and the one that waits for the next argument. -/
def cluster : List UInt8 → List Item × Option UInt8
  | [] => ([], none)
  | c :: cs =>
    match takes c with
    | none => (.invalid :: (cluster cs).1, (cluster cs).2)
    | some false => (.option c none :: (cluster cs).1, (cluster cs).2)
    | some true => if cs = [] then ([], some c) else ([.option c (some cs)], none)

/-- All that `getopt` returns up to `-1`. -/
def getopt : Option UInt8 → List (List UInt8) → List Item
  | none, [] => []
  | some _, [] => [.invalid]
  | some c, arg :: args => .option c (some arg) :: getopt none args
  | none, arg :: args =>
    if arg = [0x2d, 0x2d] then []
    else if arg.head? = some 0x2d ∧ arg ≠ [0x2d] then
      (cluster takes arg.tail).1 ++ getopt (cluster takes arg.tail).2 args
    else getopt none args

/-- An option, as it is spelled with an argument of its own. -/
def Item.spell : Item → List (List UInt8)
  | .option c none => [[0x2d, c]]
  | .option c (some arg) => [[0x2d, c], arg]
  | .invalid => []

/-- The option exists, and has an argument if it takes one. -/
def Item.Meant : Item → Prop
  | .option c arg => c ≠ 0x2d ∧ takes c = some arg.isSome
  | .invalid => False

/-- An option that was asked for, with an argument if it takes one. -/
def Item.Fits : Item → Prop
  | .option c arg => takes c = some arg.isSome
  | .invalid => True

variable {takes} in

/-- An option that is meant as such has an argument exactly where its letter takes one. -/
theorem Item.Meant.fits {i : Item} (h : i.Meant takes) : i.Fits takes := by
  cases i with
  | invalid => exact absurd h id
  | option c arg => exact h.2

/-- What is read from one cluster fits, and a letter that still waits for its argument is one that
    takes an argument. -/
theorem cluster_fits (cs : List UInt8) :
    (∀ i ∈ (cluster takes cs).1, i.Fits takes) ∧
      ∀ c ∈ (cluster takes cs).2, takes c = some true := by
  induction cs with
  | nil =>
    rw [cluster]
    exact ⟨fun _ h => absurd h List.not_mem_nil, fun _ h => absurd h (by simp)⟩
  | cons c cs ih =>
    obtain ⟨hitems, hpending⟩ := ih
    rw [cluster]
    cases htakes : takes c with
    | none => exact ⟨List.forall_mem_cons.mpr ⟨trivial, hitems⟩, hpending⟩
    | some arg =>
      cases arg with
      | false => exact ⟨List.forall_mem_cons.mpr ⟨htakes, hitems⟩, hpending⟩
      | true =>
        show (∀ i ∈ (if cs = [] then ([], some c) else ([Item.option c (some cs)], none)).1, _) ∧ _
        by_cases hcs : cs = []
        · rw [if_pos hcs]
          exact ⟨fun _ h => absurd h List.not_mem_nil, fun d hd => Option.some.inj hd ▸ htakes⟩
        · rw [if_neg hcs]
          exact ⟨List.forall_mem_cons.mpr ⟨htakes, fun _ h => absurd h List.not_mem_nil⟩,
            fun _ h => absurd h (by simp)⟩

/-- Nothing else is returned. -/
theorem getopt_fits (args : List (List UInt8)) :
    ∀ pending : Option UInt8, (∀ c ∈ pending, takes c = some true) →
      ∀ i ∈ getopt takes pending args, i.Fits takes := by
  induction args with
  | nil =>
    intro pending hpending i hi
    cases pending with
    | none => exact absurd hi List.not_mem_nil
    | some c =>
      obtain rfl := List.mem_singleton.mp hi
      exact trivial
  | cons arg args ih =>
    intro pending hpending i hi
    cases pending with
    | some c =>
      rw [getopt, List.mem_cons] at hi
      rcases hi with rfl | hi
      · -- the whole argument belongs to the option that waited for it
        exact hpending c rfl
      · exact ih none (fun _ h => absurd h (by simp)) i hi
    | none =>
      rw [getopt] at hi
      by_cases hend : arg = [0x2d, 0x2d]
      · rw [if_pos hend] at hi
        exact absurd hi List.not_mem_nil
      · rw [if_neg hend] at hi
        by_cases hdash : arg.head? = some 0x2d ∧ arg ≠ [0x2d]
        · rw [if_pos hdash, List.mem_append] at hi
          rcases hi with hi | hi
          · exact (cluster_fits takes arg.tail).1 i hi
          · exact ih _ (cluster_fits takes arg.tail).2 i hi
        · rw [if_neg hdash] at hi
          exact ih none (fun _ h => absurd h (by simp)) i hi

/-- Options spelled one by one are read back, and the walk goes on behind them. -/
theorem getopt_spell (items : List Item) (rest : List (List UInt8)) :
    (∀ i ∈ items, i.Meant takes) →
      getopt takes none (items.flatMap Item.spell ++ rest) = items ++ getopt takes none rest := by
  induction items with
  | nil => exact fun _ => rfl
  | cons i is ih =>
    intro h
    obtain ⟨hi, his⟩ := List.forall_mem_cons.mp h
    cases i with
    | invalid => exact absurd hi id
    | option c arg =>
      obtain ⟨hc, htakes⟩ := hi
      -- an option that is meant is not the dash, so its spelling does not end the walk
      have hend : [0x2d, c] ≠ [0x2d, 0x2d] := by
        intro heq
        exact hc (List.cons.inj (List.cons.inj heq).2).1
      cases arg with
      | none =>
        show getopt takes none ([0x2d, c] :: (is.flatMap Item.spell ++ rest)) = _
        rw [getopt, if_neg hend, if_pos ⟨rfl, by simp⟩]
        show (cluster takes [c]).1 ++ getopt takes (cluster takes [c]).2 _ = _
        rw [cluster, htakes]
        show _ :: getopt takes none _ = _
        rw [ih his]
        rfl
      | some arg =>
        show getopt takes none ([0x2d, c] :: arg :: (is.flatMap Item.spell ++ rest)) = _
        rw [getopt, if_neg hend, if_pos ⟨rfl, by simp⟩]
        show (cluster takes [c]).1 ++ getopt takes (cluster takes [c]).2 _ = _
        rw [cluster, htakes]
        show getopt takes (some c) (arg :: _) = _
        rw [getopt, ih his]
        rfl

end Options

/-! ## The last one counts -/

/-- An option's own argument. -/
def Item.argOf (name : UInt8) : Item → Option (List UInt8)
  | .option c arg => if c = name then arg else none
  | .invalid => none

/-- The argument of the last option `name`, as a loop keeps it that assigns on each sight. -/
def lastArg (name : UInt8) (items : List Item) : Option (List UInt8) :=
  (items.filterMap (Item.argOf name)).getLast?

/-- The option has this letter. -/
def Item.names (name : UInt8) : Item → Bool
  | .option c _ => c == name
  | .invalid => false

@[simp] theorem lastArg_nil (name : UInt8) : lastArg name [] = none := rfl

/-- An earlier option counts only where no later one has its letter. -/
theorem lastArg_cons (name : UInt8) (i : Item) (items : List Item) :
    lastArg name (i :: items) = (lastArg name items).or (i.argOf name) := by
  unfold lastArg
  cases harg : i.argOf name with
  | none =>
    rw [List.filterMap_cons_none harg, Option.or_none]
  | some arg =>
    rw [List.filterMap_cons_some harg, List.getLast?_cons]
    cases (items.filterMap (Item.argOf name)).getLast? with
    | none => rfl
    | some last => rfl

/-! ### In any order -/

/-- The letter of an option that is one. -/
def Item.letter : Item → Option UInt8
  | .option c _ => some c
  | .invalid => none

/-- What is read off one option is there once, if every option is. -/
theorem length_filterMap_once {α : Type} {name : UInt8} {f : Item → Option α}
    (hf : ∀ i, (f i).isSome → i.letter = some name) {items : List Item}
    (honce : (items.filterMap Item.letter).Nodup) : (items.filterMap f).length ≤ 1 := by
  -- every item that gives something has the letter
  have hcount : (items.filterMap f).length ≤ (items.filterMap Item.letter).count name := by
    clear honce
    induction items with
    | nil => exact Nat.le_refl 0
    | cons i items ih =>
      cases hi : f i with
      | none =>
        rw [List.filterMap_cons_none hi]
        refine ih.trans ?_
        cases hletter : i.letter with
        | none => rw [List.filterMap_cons_none hletter]
        | some c =>
          rw [List.filterMap_cons_some hletter]
          exact List.count_le_count_cons
      | some a =>
        have hletter := hf i (by rw [hi]; rfl)
        rw [List.filterMap_cons_some hi, List.filterMap_cons_some hletter, List.length_cons,
          List.count_cons_self]
        exact Nat.succ_le_succ ih
  exact hcount.trans (List.nodup_iff_count.mp honce name)

/-- A list with at most one member has no other order. -/
theorem perm_eq_of_once {α : Type} {xs ys : List α} (h : xs.Perm ys) (honce : xs.length ≤ 1) :
    xs = ys := by
  match xs with
  | [] => exact h.nil_eq
  | [x] => exact h.singleton_eq
  | _ :: _ :: _ => exact absurd honce (by simp)

/-- The order of the options does not matter where no letter stands twice. -/
theorem lastArg_perm {items items' : List Item} (h : items.Perm items')
    (honce : (items.filterMap Item.letter).Nodup) (name : UInt8) :
    lastArg name items = lastArg name items' := by
  have hletter : ∀ i : Item, (i.argOf name).isSome → i.letter = some name := by
    intro i hi
    cases i with
    | invalid => exact absurd hi (by simp [Item.argOf])
    | option c arg =>
      by_cases hc : c = name
      · rw [hc]
        rfl
      · exact absurd hi (by simp [Item.argOf, hc])
  unfold lastArg
  rw [perm_eq_of_once (h.filterMap (Item.argOf name)) (length_filterMap_once hletter honce)]

/-! ## Numbers -/

/-- The digits at the head, behind the value so far, and what follows them. -/
def readDecimal (v : Nat) : List UInt8 → Nat × List UInt8
  | [] => (v, [])
  | b :: s => if 0x30 ≤ b ∧ b ≤ 0x39 then readDecimal (10 * v + (b.toNat - 0x30)) s else (v, b :: s)

/-- What `strtoull(s, &end, 10)` leaves: the value, whether `errno` is `ERANGE`, and `end`. -/
structure Number where
  value : Nat
  overflow : Bool
  rest : List UInt8
  deriving Repr, DecidableEq

/-- `strtoull(s, &end, 10)`, if there is a digit. -/
def strtoull10 (s : List UInt8) : Option Number :=
  let (negative, digits) := readSign (s.dropWhile isSpace)
  let (v, rest) := readDecimal 0 digits
  if rest = digits then none
  else if ulongMax < v then some ⟨ulongMax, true, rest⟩
  else if negative then some ⟨(ulongMax + 1 - v) % (ulongMax + 1), false, rest⟩
  else some ⟨v, false, rest⟩

/-- `strtol(s, NULL, 10)`, which `atoi` cuts to an `int`. -/
def strtol10 (s : List UInt8) : Int :=
  let (negative, digits) := readSign (s.dropWhile isSpace)
  let v := (readDecimal 0 digits).1
  if negative then max (-(v : Int)) (-2 ^ 63) else min (v : Int) (2 ^ 63 - 1)

/-- `n` as it is printed. -/
def decimalDigits (n : Nat) : List UInt8 :=
  if n < 10 then [UInt8.ofNat (0x30 + n)]
  else decimalDigits (n / 10) ++ [UInt8.ofNat (0x30 + n % 10)]

/-- One digit more. -/
theorem readDecimal_digit {d : Nat} (h : d < 10) (v : Nat) (s : List UInt8) :
    readDecimal v (UInt8.ofNat (0x30 + d) :: s) = readDecimal (10 * v + d) s := by
  have hall : ∀ d : Fin 10, (0x30 ≤ UInt8.ofNat (0x30 + d.val) ∧ UInt8.ofNat (0x30 + d.val) ≤ 0x39) ∧
      (UInt8.ofNat (0x30 + d.val)).toNat - 0x30 = d.val := by decide
  obtain ⟨hdigit, hvalue⟩ := hall ⟨d, h⟩
  rw [readDecimal, if_pos hdigit]
  show readDecimal (10 * v + ((UInt8.ofNat (0x30 + d)).toNat - 0x30)) s = _
  rw [hvalue]

/-- The digits of `n` are read as `n`, wherever the reading goes on. -/
theorem readDecimal_digits (n : Nat) :
    ∀ s, readDecimal 0 (decimalDigits n ++ s) = readDecimal n s := by
  induction n using decimalDigits.induct with
  | case1 n h =>
    intro s
    rw [decimalDigits, if_pos h, List.singleton_append, readDecimal_digit h, Nat.mul_zero,
      Nat.zero_add]
  | case2 n h ih =>
    intro s
    have hdiv : 10 * (n / 10) + n % 10 = n := Nat.div_add_mod n 10
    rw [decimalDigits, if_neg h, List.append_assoc, ih, List.singleton_append,
      readDecimal_digit (Nat.mod_lt n (by omega)), hdiv]

/-- A printed number starts with a digit. -/
theorem exists_cons_decimalDigits (n : Nat) :
    ∃ d < 10, ∃ s, decimalDigits n = UInt8.ofNat (0x30 + d) :: s := by
  induction n using decimalDigits.induct with
  | case1 n h => exact ⟨n, h, [], by rw [decimalDigits, if_pos h]⟩
  | case2 n h ih =>
    obtain ⟨d, hd, s, hs⟩ := ih
    exact ⟨d, hd, s ++ [UInt8.ofNat (0x30 + n % 10)], by
      rw [decimalDigits, if_neg h, hs, List.cons_append]⟩

/-- **A printed number is read back**, to its end. -/
theorem strtoull10_decimalDigits {n : Nat} (hn : n ≤ ulongMax) :
    strtoull10 (decimalDigits n) = some ⟨n, false, []⟩ := by
  obtain ⟨d, hd, s, hs⟩ := exists_cons_decimalDigits n
  have hall : ∀ d : Fin 10, isSpace (UInt8.ofNat (0x30 + d.val)) = false ∧
      UInt8.ofNat (0x30 + d.val) ≠ 0x2d ∧ UInt8.ofNat (0x30 + d.val) ≠ 0x2b := by decide
  obtain ⟨hspace, hminus, hplus⟩ := hall ⟨d, hd⟩
  have hsign : readSign ((decimalDigits n).dropWhile isSpace) = (false, decimalDigits n) := by
    rw [hs, List.dropWhile_cons_of_neg (Bool.not_eq_true _ ▸ hspace), readSign, if_neg hminus, if_neg hplus]
  have hread : readDecimal 0 (decimalDigits n) = (n, []) := by
    have hall := readDecimal_digits n []
    rw [List.append_nil] at hall
    exact hall
  have hne : ([] : List UInt8) ≠ decimalDigits n := by
    rw [hs]
    simp
  unfold strtoull10
  rw [hsign]
  dsimp only
  rw [hread]
  dsimp only
  rw [if_neg hne, if_neg (by omega), if_neg Bool.false_ne_true]

end Safewrt.Lib
