/-
  BYTES IN MEMORY: big-endian numbers, and loads that remember what they touched.

  1. `be`/`toBe` — the number a run of bytes spells in network order, and its inverse.

  2. `load m n o` and `scan stop m o` — the two ways a C cursor reads a flat memory `m`: `n` bytes
     in a row from offset `o`, and one byte after the other until `stop` holds.  Both return
     every offset they dereferenced, the faulting one included, so that "this code reads only
     inside the buffer" is a statement about a list.  `m` is what is mapped; a read past its end
     kills the process, and the value is then `none`.

  A buffer is a prefix `p` of the memory `p ++ b`.  `load_inside_iff` and `scan_inside_iff` say
  when the reads stay inside it, in terms of `p` alone.
-/
import Mathlib.Data.List.Basic
import Mathlib.Tactic.Ring

namespace Safewrt.Lib

/-! ## Big-endian numbers -/

/-- The number the bytes spell, most significant byte first. -/
def be (bs : List UInt8) : Nat := bs.foldl (fun acc b => acc * 256 + b.toNat) 0

/-- `n`, written in `k` bytes, most significant byte first (higher bytes are dropped). -/
def toBe : Nat → Nat → List UInt8
  | 0, _ => []
  | k + 1, n => UInt8.ofNat (n / 256 ^ k) :: toBe k n

@[simp] theorem length_toBe (k n : Nat) : (toBe k n).length = k := by
  induction k with
  | zero => rfl
  | succ k ih => rw [toBe, List.length_cons, ih]

/-- The fold of `be`, from any number read so far. -/
theorem foldl_be (bs : List UInt8) (acc : Nat) :
    bs.foldl (fun acc b => acc * 256 + b.toNat) acc = acc * 256 ^ bs.length + be bs := by
  induction bs generalizing acc with
  | nil => simp [be]
  | cons b bs ih =>
    rw [be, List.foldl_cons, List.foldl_cons, ih, ih (0 * 256 + b.toNat), List.length_cons]
    ring

theorem be_cons (b : UInt8) (bs : List UInt8) :
    be (b :: bs) = b.toNat * 256 ^ bs.length + be bs := by
  rw [be, List.foldl_cons, foldl_be]
  ring

/-- A number that is too wide loses its high bytes, as a C cast does. -/
theorem be_toBe (k n : Nat) : be (toBe k n) = n % 256 ^ k := by
  induction k with
  | zero => simp [toBe, be, Nat.mod_one]
  | succ k ih =>
    have hbyte : (UInt8.ofNat (n / 256 ^ k)).toNat = n / 256 ^ k % 256 := by simp
    rw [toBe, be_cons, hbyte, length_toBe, ih, Nat.pow_succ, Nat.mod_mul]
    ring

/-- Reading back a number that fits its width. -/
theorem be_toBe_of_lt {k n : Nat} (h : n < 256 ^ k) : be (toBe k n) = n := by
  rw [be_toBe, Nat.mod_eq_of_lt h]

/-- `n` bytes spell a number below `256 ^ n`. -/
theorem be_lt (bs : List UInt8) : be bs < 256 ^ bs.length := by
  induction bs with
  | nil => decide
  | cons b bs ih =>
    have hb : b.toNat ≤ 255 := Nat.le_of_lt_succ b.toNat_lt
    have hmul := Nat.mul_le_mul_right (256 ^ bs.length) hb
    rw [be_cons, List.length_cons, Nat.pow_succ]
    omega

/-- Bytes of one length are determined by the number they spell. -/
theorem be_inj {xs ys : List UInt8} (hlen : xs.length = ys.length) (h : be xs = be ys) :
    xs = ys := by
  induction xs generalizing ys with
  | nil => exact (List.length_eq_zero_iff.mp hlen.symm).symm
  | cons x xs ih =>
    cases ys with
    | nil => exact absurd hlen (by simp)
    | cons y ys =>
      rw [List.length_cons, List.length_cons, Nat.add_right_cancel_iff] at hlen
      rw [be_cons, be_cons, hlen] at h
      have hx := hlen ▸ be_lt xs
      have hy := be_lt ys
      have hpos : 0 < 256 ^ ys.length := Nat.pow_pos (by decide)
      have hdiv := congrArg (· / 256 ^ ys.length) h
      have hmod := congrArg (· % 256 ^ ys.length) h
      simp only [Nat.mul_comm _ (256 ^ ys.length), Nat.mul_add_div hpos, Nat.mul_add_mod,
        Nat.div_eq_of_lt hx, Nat.div_eq_of_lt hy, Nat.mod_eq_of_lt hx,
        Nat.mod_eq_of_lt hy] at hdiv hmod
      rw [UInt8.toNat_inj.mp hdiv, ih hlen hmod]

theorem toBe_be (bs : List UInt8) : toBe bs.length (be bs) = bs :=
  be_inj (length_toBe _ _) (be_toBe_of_lt (be_lt bs))

/-! ## Loads of a fixed width -/

/-- `n` bytes from offset `o`: their values and the offsets touched. -/
def load (m : List UInt8) : Nat → Nat → Option (List UInt8) × List Nat
  | 0, _ => (some [], [])
  | n + 1, o =>
    match m[o]? with
    | none => (none, [o])
    | some b => ((load m n (o + 1)).1.map (b :: ·), o :: (load m n (o + 1)).2)

theorem load_succ_of_lt {m : List UInt8} {n o : Nat} (h : o < m.length) :
    load m (n + 1) o = ((load m n (o + 1)).1.map (m[o] :: ·), o :: (load m n (o + 1)).2) := by
  rw [load, List.getElem?_eq_getElem h]

/-- A load inside the mapped bytes yields them. -/
theorem load_value {m : List UInt8} {n o : Nat} (h : o + n ≤ m.length) :
    (load m n o).1 = some ((m.drop o).take n) := by
  induction n generalizing o with
  | zero => rfl
  | succ n ih =>
    have ho : o < m.length := by omega
    rw [load_succ_of_lt ho, ih (by omega), List.drop_eq_getElem_cons ho, List.take_succ_cons]
    rfl

/-- Every offset a load touches lies in the range it was asked for. -/
theorem mem_load_reads {m : List UInt8} {n o x : Nat} (hx : x ∈ (load m n o).2) :
    o ≤ x ∧ x < o + n := by
  induction n generalizing o with
  | zero => exact absurd hx (by simp [load])
  | succ n ih =>
    rcases Nat.lt_or_ge o m.length with ho | ho
    · rw [load_succ_of_lt ho] at hx
      rcases List.mem_cons.mp hx with rfl | hx
      · omega
      · have := ih hx
        omega
    · rw [load, List.getElem?_eq_none ho] at hx
      have : x = o := List.mem_singleton.mp hx
      omega

/-- A load of at least one byte touches its first offset. -/
theorem first_mem_load (m : List UInt8) (n o : Nat) : o ∈ (load m (n + 1) o).2 := by
  rw [load]
  cases m[o]? with
  | none => exact List.mem_singleton_self o
  | some b => exact List.mem_cons_self

/-- **When a load stays inside the buffer `p`**: exactly when the whole range does. -/
theorem load_inside_iff {p b : List UInt8} {n o : Nat} :
    (∀ x ∈ (load (p ++ b) n o).2, x < p.length) ↔ n = 0 ∨ o + n ≤ p.length := by
  constructor
  · intro h
    induction n generalizing o with
    | zero => exact Or.inl rfl
    | succ n ih =>
      have ho : o < p.length := h o (first_mem_load _ _ _)
      have hmapped : o < (p ++ b).length := by rw [List.length_append]; omega
      rw [load_succ_of_lt hmapped] at h
      rcases ih (fun x hx => h x (List.mem_cons_of_mem _ hx)) with h0 | hle
      · exact Or.inr (by omega)
      · exact Or.inr (by omega)
  · rintro (rfl | h) x hx
    · exact absurd hx (by simp [load])
    · have := mem_load_reads hx
      omega

/-- A load inside the buffer does not see what lies behind it. -/
theorem load_append {p b : List UInt8} {n o : Nat} (h : o + n ≤ p.length) :
    (load (p ++ b) n o).1 = some ((p.drop o).take n) := by
  rw [load_value (by rw [List.length_append]; omega), List.drop_append_of_le_length (by omega),
    List.take_append_of_le_length (by rw [List.length_drop]; omega)]

/-! ## Scans up to a byte -/

/-- The scan itself, over the bytes from offset `o` on. -/
def scanFrom (stop : UInt8 → Bool) : List UInt8 → Nat → Option (Nat × UInt8) × List Nat
  | [], o => (none, [o])
  | b :: bs, o =>
    if stop b then (some (o, b), [o])
    else ((scanFrom stop bs (o + 1)).1, o :: (scanFrom stop bs (o + 1)).2)

/-- The first offset from `o` on whose byte satisfies `stop`, with that byte. -/
def scan (stop : UInt8 → Bool) (m : List UInt8) (o : Nat) : Option (Nat × UInt8) × List Nat :=
  scanFrom stop (m.drop o) o

/-- `StopsAt stop p o z c`: in `p`, the first byte from `o` on that satisfies `stop` is the `c`
    at offset `z`. -/
def StopsAt (stop : UInt8 → Bool) (p : List UInt8) (o z : Nat) (c : UInt8) : Prop :=
  ∃ pre rest, p.drop o = pre ++ c :: rest ∧ (∀ x ∈ pre, stop x = false) ∧ stop c = true ∧
    z = o + pre.length

variable {stop : UInt8 → Bool}

/-- A scan passes over the bytes that do not stop it. -/
theorem scanFrom_append {pre rest : List UInt8} (h : ∀ x ∈ pre, stop x = false) (o : Nat) :
    scanFrom stop (pre ++ rest) o =
      ((scanFrom stop rest (o + pre.length)).1,
        List.range' o pre.length ++ (scanFrom stop rest (o + pre.length)).2) := by
  induction pre generalizing o with
  | nil => simp
  | cons x pre ih =>
    have hx : stop x = false := h x List.mem_cons_self
    have hpre : ∀ y ∈ pre, stop y = false := fun y hy => h y (List.mem_cons_of_mem _ hy)
    have hlen : o + 1 + pre.length = o + (pre.length + 1) := by omega
    rw [List.cons_append, scanFrom, hx, if_neg (by simp), ih hpre (o + 1), List.length_cons,
      List.range'_succ, List.cons_append, hlen]

/-- What a scan finds and touches when its stop lies in the buffer. -/
theorem scan_of_stopsAt {p b : List UInt8} {o z : Nat} {c : UInt8} (h : StopsAt stop p o z c) :
    scan stop (p ++ b) o = (some (z, c), List.range' o (z - o) ++ [z]) := by
  obtain ⟨pre, rest, hdrop, hpre, hc, rfl⟩ := h
  have hle : o ≤ p.length := by
    rcases Nat.le_total o p.length with hle | hge
    · exact hle
    · rw [List.drop_eq_nil_of_le hge] at hdrop
      simp at hdrop
  have hlen : o + pre.length - o = pre.length := by omega
  rw [scan, List.drop_append_of_le_length hle, hdrop, List.append_assoc, scanFrom_append hpre,
    List.cons_append, scanFrom, if_pos hc, hlen]

/-- A scan that stops, stops in the buffer. -/
theorem StopsAt.lt {p : List UInt8} {o z : Nat} {c : UInt8} (h : StopsAt stop p o z c) :
    z < p.length := by
  obtain ⟨pre, rest, hdrop, -, -, rfl⟩ := h
  have := congrArg List.length hdrop
  simp only [List.length_drop, List.length_append, List.length_cons] at this
  omega

/-- Every list either has a first stopping byte or none. -/
theorem exists_stop_or_not (stop : UInt8 → Bool) (l : List UInt8) :
    (∃ pre c rest, l = pre ++ c :: rest ∧ (∀ x ∈ pre, stop x = false) ∧ stop c = true) ∨
      ∀ x ∈ l, stop x = false := by
  induction l with
  | nil => exact Or.inr (by simp)
  | cons b bs ih =>
    cases hb : stop b with
    | true => exact Or.inl ⟨[], b, bs, rfl, by simp, hb⟩
    | false =>
      rcases ih with ⟨pre, c, rest, rfl, hpre, hc⟩ | hall
      · refine Or.inl ⟨b :: pre, c, rest, rfl, ?_, hc⟩
        intro x hx
        rcases List.mem_cons.mp hx with rfl | hx
        · exact hb
        · exact hpre x hx
      · refine Or.inr ?_
        intro x hx
        rcases List.mem_cons.mp hx with rfl | hx
        · exact hb
        · exact hall x hx

/-- A scan touches the offset it starts from. -/
theorem start_mem_scanFrom (l : List UInt8) (o : Nat) : o ∈ (scanFrom stop l o).2 := by
  cases l with
  | nil => exact List.mem_singleton_self o
  | cons b bs =>
    rw [scanFrom]
    split
    · exact List.mem_singleton_self o
    · exact List.mem_cons_self

/-- **When a scan stays inside the buffer `p`**: exactly when `p` holds the byte it stops at. -/
theorem scan_inside_iff {p b : List UInt8} {o : Nat} :
    (∀ x ∈ (scan stop (p ++ b) o).2, x < p.length) ↔ ∃ z c, StopsAt stop p o z c := by
  constructor
  · intro h
    have ho : o < p.length := h o (start_mem_scanFrom _ _)
    rcases exists_stop_or_not stop (p.drop o) with ⟨pre, c, rest, hd, hpre, hc⟩ | hall
    · exact ⟨o + pre.length, c, pre, rest, hd, hpre, hc, rfl⟩
    · -- no stop in the buffer: the scan goes on behind it and touches offset `p.length`
      exfalso
      have hout : p.length ∈ (scan stop (p ++ b) o).2 := by
        rw [scan, List.drop_append_of_le_length (by omega), scanFrom_append hall, List.length_drop,
          Nat.add_sub_cancel' (by omega)]
        exact List.mem_append_right _ (start_mem_scanFrom _ _)
      exact absurd (h _ hout) (Nat.lt_irrefl _)
  · rintro ⟨z, c, h⟩ x hx
    have hz := h.lt
    rw [scan_of_stopsAt h] at hx
    rcases List.mem_append.mp hx with hx | hx
    · have := List.mem_range'_1.mp hx
      omega
    · have : x = z := List.mem_singleton.mp hx
      omega

end Safewrt.Lib
