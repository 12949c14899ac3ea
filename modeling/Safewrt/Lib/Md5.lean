/-
  MD5 (tools/tplink-safeloader/md5.c).

  The code keeps a context of four registers, two counters and a buffer of one block, and is fed in
  pieces.  Here a piece is a list of bytes, and what waits in the buffer is another one, without the
  bytes behind it; how they lie in memory is in `Safeloader.Md5`.  The counters are those of the
  code, the length in 29 bits and the carries, since the last block is made from them.

  1. `block` — the 64 steps over one block.  A step changes one register; the next one sees the
     registers turned by one place.

  2. `update`, `final` — data that comes in pieces: full blocks go through `block`, the rest waits
     in the buffer.  **`update_append`**: the pieces do not matter, only the data.

  3. `digest` — of all data at once; `digest_append` is what a caller with two pieces gets.
-/
import Mathlib.Algebra.Group.Nat.Defs
import Mathlib.Data.List.Basic

namespace Safewrt.Lib.Md5

/-! ## One block -/

def f (x y z : UInt32) : UInt32 := z ^^^ (x &&& (y ^^^ z))
def g (x y z : UInt32) : UInt32 := y ^^^ (z &&& (x ^^^ y))
def h (x y z : UInt32) : UInt32 := (x ^^^ y) ^^^ z
def h2 (x y z : UInt32) : UInt32 := x ^^^ (y ^^^ z)
def i (x y z : UInt32) : UInt32 := y ^^^ (x ||| ~~~z)

/-- The registers, in the order in which the next step names them. -/
structure Registers where
  a : UInt32
  b : UInt32
  c : UInt32
  d : UInt32
  deriving Repr, DecidableEq

/-- `SET(n)`: a word of the block, the low byte first. -/
def word (block : List UInt8) (n : Nat) : UInt32 :=
  (block.getD (4 * n) 0).toUInt32 ||| ((block.getD (4 * n + 1) 0).toUInt32 <<< 8) |||
    ((block.getD (4 * n + 2) 0).toUInt32 <<< 16) ||| ((block.getD (4 * n + 3) 0).toUInt32 <<< 24)

/-- A step: its function, its word of the block, its constant and its shift. -/
abbrev Step := (UInt32 → UInt32 → UInt32 → UInt32) × Nat × UInt32 × UInt32

/-- `STEP`; the registers are turned for the next one. -/
def step (block : List UInt8) (r : Registers) : Step → Registers
  | (f, n, t, s) =>
    let a := r.a + (f r.b r.c r.d + word block n + t)
    let a := (a <<< s) ||| (a >>> (32 - s))
    ⟨r.d, a + r.b, r.b, r.c⟩

/-- The 64 steps are written out, as the source has them: function, word, constant, shift. -/
def round1 : List Step :=
  [(f, 0, 0xd76aa478, 7), (f, 1, 0xe8c7b756, 12), (f, 2, 0x242070db, 17), (f, 3, 0xc1bdceee, 22),
    (f, 4, 0xf57c0faf, 7), (f, 5, 0x4787c62a, 12), (f, 6, 0xa8304613, 17), (f, 7, 0xfd469501, 22),
    (f, 8, 0x698098d8, 7), (f, 9, 0x8b44f7af, 12), (f, 10, 0xffff5bb1, 17), (f, 11, 0x895cd7be, 22),
    (f, 12, 0x6b901122, 7), (f, 13, 0xfd987193, 12), (f, 14, 0xa679438e, 17), (f, 15, 0x49b40821, 22)]

def round2 : List Step :=
  [(g, 1, 0xf61e2562, 5), (g, 6, 0xc040b340, 9), (g, 11, 0x265e5a51, 14), (g, 0, 0xe9b6c7aa, 20),
    (g, 5, 0xd62f105d, 5), (g, 10, 0x02441453, 9), (g, 15, 0xd8a1e681, 14), (g, 4, 0xe7d3fbc8, 20),
    (g, 9, 0x21e1cde6, 5), (g, 14, 0xc33707d6, 9), (g, 3, 0xf4d50d87, 14), (g, 8, 0x455a14ed, 20),
    (g, 13, 0xa9e3e905, 5), (g, 2, 0xfcefa3f8, 9), (g, 7, 0x676f02d9, 14), (g, 12, 0x8d2a4c8a, 20)]

def round3 : List Step :=
  [(h, 5, 0xfffa3942, 4), (h2, 8, 0x8771f681, 11), (h, 11, 0x6d9d6122, 16), (h2, 14, 0xfde5380c, 23),
    (h, 1, 0xa4beea44, 4), (h2, 4, 0x4bdecfa9, 11), (h, 7, 0xf6bb4b60, 16), (h2, 10, 0xbebfbc70, 23),
    (h, 13, 0x289b7ec6, 4), (h2, 0, 0xeaa127fa, 11), (h, 3, 0xd4ef3085, 16), (h2, 6, 0x04881d05, 23),
    (h, 9, 0xd9d4d039, 4), (h2, 12, 0xe6db99e5, 11), (h, 15, 0x1fa27cf8, 16), (h2, 2, 0xc4ac5665, 23)]

def round4 : List Step :=
  [(i, 0, 0xf4292244, 6), (i, 7, 0x432aff97, 10), (i, 14, 0xab9423a7, 15), (i, 5, 0xfc93a039, 21),
    (i, 12, 0x655b59c3, 6), (i, 3, 0x8f0ccc92, 10), (i, 10, 0xffeff47d, 15), (i, 1, 0x85845dd1, 21),
    (i, 8, 0x6fa87e4f, 6), (i, 15, 0xfe2ce6e0, 10), (i, 6, 0xa3014314, 15), (i, 13, 0x4e0811a1, 21),
    (i, 4, 0xf7537e82, 6), (i, 11, 0xbd3af235, 10), (i, 2, 0x2ad7d2bb, 15), (i, 9, 0xeb86d391, 21)]

/-- `body` for one block. -/
def block (saved : Registers) (data : List UInt8) : Registers :=
  let r := (round1 ++ round2 ++ round3 ++ round4).foldl (step data) saved
  ⟨r.a + saved.a, r.b + saved.b, r.c + saved.c, r.d + saved.d⟩

/-! ## Data in pieces -/

/-- `MD5_CTX`; of the buffer the bytes in use. -/
structure Context where
  lo : Nat
  hi : Nat
  registers : Registers
  buffer : List UInt8
  lo_lt : lo < 2 ^ 29

/-- `MD5_Init` -/
def init : Context where
  lo := 0
  hi := 0
  registers := ⟨0x67452301, 0xefcdab89, 0x98badcfe, 0x10325476⟩
  buffer := []
  lo_lt := by decide

/-- `n` blocks, and what is left. -/
def blocks : Nat → Registers → List UInt8 → Registers × List UInt8
  | 0, r, data => (r, data)
  | n + 1, r, data => blocks n (block r (data.take 64)) (data.drop 64)

/-- `MD5_Update`; `lo` has 29 bits and `hi` the carry and the rest of the size. -/
def update (ctx : Context) (data : List UInt8) : Context :=
  let lo := (ctx.lo + data.length) % 2 ^ 29
  let hi := (ctx.hi + (if lo < ctx.lo then 1 else 0) + data.length / 2 ^ 29) % 2 ^ 32
  let rest := blocks ((ctx.buffer ++ data).length / 64) ctx.registers (ctx.buffer ++ data)
  { lo, hi, registers := rest.1, buffer := rest.2, lo_lt := Nat.mod_lt _ (by decide) }

/-- A number as four bytes, the low one first. -/
def toLe (n : UInt32) : List UInt8 :=
  [n.toUInt8, (n >>> 8).toUInt8, (n >>> 16).toUInt8, (n >>> 24).toUInt8]

/-- `MD5_Final` -/
def final (ctx : Context) : List UInt8 :=
  let used := ctx.buffer.length + 1
  let zeros := if 64 - used < 8 then 64 - used + 56 else 56 - used
  let last := ctx.buffer ++ 0x80 :: List.replicate zeros 0 ++ toLe (UInt32.ofNat (ctx.lo * 8)) ++
    toLe (UInt32.ofNat ctx.hi)
  let r := (blocks (last.length / 64) ctx.registers last).1
  toLe r.a ++ toLe r.b ++ toLe r.c ++ toLe r.d

/-- The digest of all data at once. -/
def digest (data : List UInt8) : List UInt8 := final (update init data)

theorem length_digest (data : List UInt8) : (digest data).length = 16 := rfl

example : digest [] = [0xd4, 0x1d, 0x8c, 0xd9, 0x8f, 0x00, 0xb2, 0x04,
    0xe9, 0x80, 0x09, 0x98, 0xec, 0xf8, 0x42, 0x7e] := by decide +kernel

/-! ### The pieces do not matter -/

/-- `n` blocks of 64 bytes are used up, and the rest is handed back. -/
theorem blocks_rest (n : Nat) : ∀ (r : Registers) (data : List UInt8),
    (blocks n r data).2 = data.drop (64 * n) := by
  induction n with
  | zero => exact fun _ _ => rfl
  | succ n ih =>
    intro r data
    rw [blocks, ih, List.drop_drop]
    congr 1
    omega

/-- Blocks that are complete do not see what follows. -/
theorem blocks_append (n : Nat) : ∀ {r : Registers} {x y : List UInt8}, 64 * n ≤ x.length →
    blocks n r (x ++ y) = ((blocks n r x).1, (blocks n r x).2 ++ y) := by
  induction n with
  | zero => exact fun _ => rfl
  | succ n ih =>
    intro r x y h
    rw [blocks, blocks, List.take_append_of_le_length (by omega),
      List.drop_append_of_le_length (by omega), ih (by rw [List.length_drop]; omega)]

/-- Blocks can be taken in two goes. -/
theorem blocks_add (m n : Nat) : ∀ {r : Registers} {x : List UInt8},
    blocks (m + n) r x = blocks n (blocks m r x).1 (blocks m r x).2 := by
  induction m with
  | zero =>
    intro r x
    rw [Nat.zero_add]
    rfl
  | succ m ih =>
    intro r x
    rw [Nat.succ_add, blocks, ih]
    rfl

/-- The two counters are one number of 61 bits. -/
theorem counter_carry {lo hi n : Nat} (hlo : lo < 2 ^ 29) :
    (hi + (if (lo + n) % 2 ^ 29 < lo then 1 else 0) + n / 2 ^ 29) % 2 ^ 32 =
      (hi + (lo + n) / 2 ^ 29) % 2 ^ 32 := by
  congr 1
  split
  · omega
  · omega

/-- **Data in two pieces is the data.** -/
theorem update_append (ctx : Context) (a b : List UInt8) :
    update (update ctx a) b = update ctx (a ++ b) := by
  have hlength : (ctx.buffer ++ a).length = ctx.buffer.length + a.length := List.length_append
  -- the full blocks of both pieces are those of the first, and those of its rest with the second
  have hcount : (ctx.buffer ++ (a ++ b)).length / 64 = (ctx.buffer ++ a).length / 64 +
      ((ctx.buffer ++ a).drop (64 * ((ctx.buffer ++ a).length / 64)) ++ b).length / 64 := by
    simp only [List.length_append, List.length_drop]
    omega
  have hblocks : blocks ((ctx.buffer ++ (a ++ b)).length / 64) ctx.registers
      (ctx.buffer ++ (a ++ b)) = blocks (((blocks ((ctx.buffer ++ a).length / 64) ctx.registers
        (ctx.buffer ++ a)).2 ++ b).length / 64) (blocks ((ctx.buffer ++ a).length / 64)
          ctx.registers (ctx.buffer ++ a)).1 ((blocks ((ctx.buffer ++ a).length / 64)
            ctx.registers (ctx.buffer ++ a)).2 ++ b) := by
    rw [hcount, blocks_add, ← List.append_assoc, blocks_append _ (by omega), blocks_rest]
  have hlo : ((ctx.lo + a.length) % 2 ^ 29 + b.length) % 2 ^ 29 =
      (ctx.lo + (a ++ b).length) % 2 ^ 29 := by
    rw [List.length_append, Nat.mod_add_mod, Nat.add_assoc]
  -- the carry into the upper counter: one after the other or both at once
  have hhi : ((ctx.hi + (ctx.lo + a.length) / 2 ^ 29) % 2 ^ 32 +
      ((ctx.lo + a.length) % 2 ^ 29 + b.length) / 2 ^ 29) % 2 ^ 32 =
        (ctx.hi + (ctx.lo + (a ++ b).length) / 2 ^ 29) % 2 ^ 32 := by
    rw [List.length_append]
    omega
  unfold update
  dsimp only
  simp only [counter_carry ctx.lo_lt, counter_carry (Nat.mod_lt _ (Nat.two_pow_pos 29))]
  simp only [hblocks, hlo, hhi]

/-- What a caller with two pieces gets. -/
theorem digest_append (a b : List UInt8) : final (update (update init a) b) = digest (a ++ b) := by
  rw [update_append, digest]

end Safewrt.Lib.Md5
