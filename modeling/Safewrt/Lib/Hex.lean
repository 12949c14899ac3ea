/-
  HEXADECIMAL NUMBERS, as C prints and reads them.

  1. `padHex` — `%05x` and its like: lower case, zeros in front up to a width.

  2. `strtoul16` — `strtoul(.., NULL, 16)`: white space, a sign and `0x` may stand before the
     digits; the first byte that is no digit ends them.

  3. **`strtoul16_padHex`** — a printed number is read back, whatever follows it.

  4. **`strtoul16_ends`** — text with something in it that is not white space is read by itself, up
     to a byte that cannot go on the number; white space alone is passed over
     (`strtoul16_blank_append`).
-/
import Mathlib.Algebra.Group.Nat.Defs
import Mathlib.Data.List.Basic
import Mathlib.Data.List.TakeWhile

namespace Safewrt.Lib

/-! ## Printing -/

/-- The digit of a number below 16. -/
def hexDigit (d : Nat) : UInt8 := UInt8.ofNat (if d < 10 then 0x30 + d else 0x57 + d)

/-- `%x` -/
def hexDigits (n : Nat) : List UInt8 :=
  if n < 16 then [hexDigit n] else hexDigits (n / 16) ++ [hexDigit (n % 16)]

/-- `%0wx` -/
def padHex (width n : Nat) : List UInt8 :=
  List.replicate (width - (hexDigits n).length) 0x30 ++ hexDigits n

/-! ## Reading -/

/-- The value of a digit, of either case. -/
def hexValue (b : UInt8) : Option Nat :=
  if 0x30 ≤ b ∧ b ≤ 0x39 then some (b.toNat - 0x30)
  else if 0x61 ≤ b ∧ b ≤ 0x66 then some (b.toNat - 0x57)
  else if 0x41 ≤ b ∧ b ≤ 0x46 then some (b.toNat - 0x37)
  else none

/-- The digits up to the first byte that is none, after some of value `v`. -/
def readDigits (v : Nat) : List UInt8 → Nat
  | [] => v
  | b :: s =>
    match hexValue b with
    | some d => readDigits (16 * v + d) s
    | none => v

/-- `isspace` -/
def isSpace (b : UInt8) : Bool := b == 0x20 || (0x09 ≤ b && b ≤ 0x0d)

/-- A sign, and whether it is negative. -/
def readSign : List UInt8 → Bool × List UInt8
  | [] => (false, [])
  | b :: s => if b = 0x2d then (true, s) else if b = 0x2b then (false, s) else (false, b :: s)

/-- `0x` is skipped where a digit follows. -/
def skip0x : List UInt8 → List UInt8
  | z :: x :: d :: s =>
    if z = 0x30 ∧ (x = 0x78 ∨ x = 0x58) ∧ (hexValue d).isSome then d :: s else z :: x :: d :: s
  | s => s

/-- `ULONG_MAX` -/
def ulongMax : Nat := 2 ^ 64 - 1

/-- `strtoul(s, NULL, 16)` -/
def strtoul16 (s : List UInt8) : Nat :=
  let (negative, s) := readSign (s.dropWhile isSpace)
  let v := readDigits 0 (skip0x s)
  if ulongMax < v then ulongMax else if negative then (ulongMax + 1 - v) % (ulongMax + 1) else v

/-! ## What is printed is read -/

theorem hexValue_hexDigit {d : Nat} (h : d < 16) : hexValue (hexDigit d) = some d := by
  have hall : ∀ d : Fin 16, hexValue (hexDigit d) = some d.val := by decide
  exact hall ⟨d, h⟩

/-- Every printed byte is a digit. -/
theorem hexDigits_isDigit (n : Nat) : ∀ b ∈ hexDigits n, (hexValue b).isSome := by
  induction n using hexDigits.induct with
  | case1 n h =>
    intro b hb
    rw [hexDigits, if_pos h, List.mem_singleton] at hb
    rw [hb, hexValue_hexDigit h]
    rfl
  | case2 n h ih =>
    intro b hb
    rw [hexDigits, if_neg h] at hb
    rcases List.mem_append.mp hb with hb | hb
    · exact ih b hb
    · rw [List.mem_singleton.mp hb, hexValue_hexDigit (by omega)]
      rfl

/-- The zeros in front are digits as well. -/
theorem padHex_isDigit (width n : Nat) : ∀ b ∈ padHex width n, (hexValue b).isSome := by
  intro b hb
  rcases List.mem_append.mp hb with hb | hb
  · rw [(List.mem_replicate.mp hb).2]
    rfl
  · exact hexDigits_isDigit n b hb

/-- No printed byte is one that is not a digit. -/
theorem not_mem_padHex {width n : Nat} {b : UInt8} (h : hexValue b = none) :
    b ∉ padHex width n := by
  intro hb
  have hdigit := padHex_isDigit width n b hb
  rw [h] at hdigit
  exact absurd hdigit (by simp)

/-- Zero has a digit too. -/
theorem hexDigits_ne_nil (n : Nat) : hexDigits n ≠ [] := by
  rw [hexDigits]
  split
  · simp
  · simp

/-- A number below 16^k has at most `k` digits. -/
theorem length_hexDigits_le (n : Nat) : ∀ {k : Nat}, 0 < k → n < 16 ^ k →
    (hexDigits n).length ≤ k := by
  induction n using hexDigits.induct with
  | case1 n h =>
    intro k hk _
    rw [hexDigits, if_pos h]
    exact hk
  | case2 n h ih =>
    intro k hk hn
    cases k with
    | zero => exact absurd hk (Nat.lt_irrefl 0)
    | succ k =>
      have hpos : 0 < k := by
        rcases Nat.eq_zero_or_pos k with rfl | hpos
        · omega
        · exact hpos
      rw [Nat.pow_succ] at hn
      have hdiv := ih hpos (Nat.div_lt_of_lt_mul (by omega))
      rw [hexDigits, if_neg h, List.length_append, List.length_singleton]
      omega

/-- A number below `16 ^ k` takes no more than `k` places, padded or not. -/
theorem length_padHex_le {width n k : Nat} (hk : 0 < k) (hwidth : width ≤ k) (hn : n < 16 ^ k) :
    (padHex width n).length ≤ k := by
  have hle := length_hexDigits_le n hk hn
  rw [padHex, List.length_append, List.length_replicate]
  omega

/-- The digits of a number, then on. -/
theorem readDigits_hexDigits (n : Nat) : ∀ s, readDigits 0 (hexDigits n ++ s) = readDigits n s := by
  induction n using hexDigits.induct with
  | case1 n h =>
    intro s
    rw [hexDigits, if_pos h, List.singleton_append, readDigits, hexValue_hexDigit h]
    show readDigits (16 * 0 + n) s = _
    rw [Nat.mul_zero, Nat.zero_add]
  | case2 n h ih =>
    intro s
    have hdiv : 16 * (n / 16) + n % 16 = n := Nat.div_add_mod n 16
    rw [hexDigits, if_neg h, List.append_assoc, ih, List.singleton_append, readDigits,
      hexValue_hexDigit (by omega)]
    show readDigits (16 * (n / 16) + n % 16) s = _
    rw [hdiv]

/-- The zeros count nothing, and the reading goes on behind the last digit. -/
theorem readDigits_padHex (width n : Nat) (s : List UInt8) :
    readDigits 0 (padHex width n ++ s) = readDigits n s := by
  unfold padHex
  generalize width - (hexDigits n).length = k
  induction k with
  | zero => exact readDigits_hexDigits n s
  | succ k ih => exact ih

/-- The first byte that is no digit ends the number. -/
theorem readDigits_end {v : Nat} {b : UInt8} {s : List UInt8} (h : hexValue b = none) :
    readDigits v (b :: s) = v := by
  rw [readDigits, h]

/-- A printed number begins with a digit: neither with white space, nor a sign. -/
theorem exists_cons_padHex (width n : Nat) :
    ∃ d s, padHex width n = d :: s ∧ (hexValue d).isSome := by
  have hne : padHex width n ≠ [] := fun h =>
    hexDigits_ne_nil n (List.append_eq_nil_iff.mp h).2
  obtain ⟨d, s, hcons⟩ := List.exists_cons_of_ne_nil hne
  exact ⟨d, s, hcons, padHex_isDigit width n d (hcons ▸ List.mem_cons_self)⟩

/-- **A printed number is read back.** -/
theorem strtoul16_padHex {width n : Nat} (hn : n ≤ ulongMax) {b : UInt8} (hb : hexValue b = none)
    (s : List UInt8) : strtoul16 (0x30 :: 0x78 :: (padHex width n ++ b :: s)) = n := by
  obtain ⟨d, ds, hcons, hd⟩ := exists_cons_padHex width n
  have hskip : skip0x (0x30 :: 0x78 :: (padHex width n ++ b :: s)) = padHex width n ++ b :: s := by
    rw [hcons, List.cons_append]
    exact if_pos ⟨rfl, Or.inl rfl, hd⟩
  have hsign : readSign ((0x30 :: 0x78 :: (padHex width n ++ b :: s)).dropWhile isSpace) =
      (false, 0x30 :: 0x78 :: (padHex width n ++ b :: s)) := rfl
  unfold strtoul16
  rw [hsign]
  dsimp only
  rw [hskip, readDigits_padHex, readDigits_end hb]
  exact if_neg (by omega)

/-! ## How far a number is looked for -/

/-- White space in front makes no difference. -/
theorem strtoul16_blank_append {a : List UInt8} (h : a.all isSpace = true) (s : List UInt8) :
    strtoul16 (a ++ s) = strtoul16 s := by
  unfold strtoul16
  rw [List.dropWhile_append_of_pos fun b hb => List.all_eq_true.mp h b hb]

/-- Nothing to read is zero, which is also what `strtoul` answers where it fails. -/
theorem strtoul16_nil : strtoul16 [] = 0 := by decide

/-- White space alone is read as zero. -/
theorem strtoul16_blank {a : List UInt8} (h : a.all isSpace = true) : strtoul16 a = 0 := by
  have hnil := strtoul16_blank_append h []
  rw [List.append_nil] at hnil
  rw [hnil, strtoul16_nil]

/-- The sign is decided by the first byte. -/
theorem readSign_append {t : List UInt8} (h : t ≠ []) (s : List UInt8) :
    readSign (t ++ s) = ((readSign t).1, (readSign t).2 ++ s) := by
  cases t with
  | nil => exact absurd rfl h
  | cons c t =>
    rw [List.cons_append, readSign, readSign]
    split
    · rfl
    · split <;> rfl

/-- A byte that is no digit and no `x` does not complete a `0x`. -/
theorem skip0x_append {b : UInt8} (hb : hexValue b = none) (hx : b ≠ 0x78 ∧ b ≠ 0x58)
    (t s : List UInt8) : skip0x (t ++ b :: s) = skip0x t ++ b :: s := by
  have hzero : b ≠ 0x30 := by
    rintro rfl
    exact absurd hb (by decide)
  match t with
  | [] =>
    match s with
    | [] => rfl
    | [_] => rfl
    | _ :: _ :: _ => exact if_neg fun h => hzero h.1
  | [_] =>
    match s with
    | [] => rfl
    | _ :: _ => exact if_neg fun h => h.2.1.elim hx.1 hx.2
  | [_, _] => exact if_neg fun h => absurd h.2.2 (by rw [hb]; decide)
  | z :: x :: d :: t =>
    show (if z = 0x30 ∧ (x = 0x78 ∨ x = 0x58) ∧ (hexValue d).isSome then d :: (t ++ b :: s)
      else z :: x :: d :: (t ++ b :: s)) =
      (if z = 0x30 ∧ (x = 0x78 ∨ x = 0x58) ∧ (hexValue d).isSome then d :: t
        else z :: x :: d :: t) ++ b :: s
    split <;> rfl

/-- A byte that is no digit ends the number, whatever is behind it. -/
theorem readDigits_append {b : UInt8} (hb : hexValue b = none) (t s : List UInt8) :
    ∀ v, readDigits v (t ++ b :: s) = readDigits v t := by
  induction t with
  | nil => exact fun v => readDigits_end hb
  | cons c t ih =>
    intro v
    rw [List.cons_append, readDigits, readDigits]
    cases hexValue c with
    | none => rfl
    | some d => exact ih _

/-- **What ends a number**: text that is not all white space is read by itself, up to a byte that is
    no digit and no `x`. -/
theorem strtoul16_ends {a : List UInt8} (ha : a.all isSpace = false) {b : UInt8}
    (hb : hexValue b = none) (hx : b ≠ 0x78 ∧ b ≠ 0x58) (s : List UInt8) :
    strtoul16 (a ++ b :: s) = strtoul16 a := by
  have hne : a.dropWhile isSpace ≠ [] := by
    intro hnil
    rw [List.dropWhile_eq_nil_iff] at hnil
    rw [List.all_eq_true.mpr hnil] at ha
    exact absurd ha (by decide)
  have hdrop : (a ++ b :: s).dropWhile isSpace = a.dropWhile isSpace ++ b :: s := by
    rw [List.dropWhile_append, if_neg (by rwa [List.isEmpty_iff])]
  unfold strtoul16
  rw [hdrop, readSign_append hne]
  dsimp only
  rw [skip0x_append hb hx, readDigits_append hb]

end Safewrt.Lib
