/-
  MD5 AS RFC 1321 STATES IT: on the whole message, with no context and no buffer.

  1. `operation` — one of the 64 operations over a block of 16 words.  Which function, word,
     constant and shift it uses is a function of its number.

  2. `pad` — the message, a one bit, zeros, and the number of bits in 64 bits.

  3. `md5` — the operations over one block after the other.
-/
import Mathlib.Algebra.Group.Nat.Defs
import Mathlib.Data.List.Basic

namespace Safewrt.Lib.Rfc1321

/-! ## One block -/

/-- If `x` then `y` else `z`, bit by bit. -/
def F (x y z : UInt32) : UInt32 := (x &&& y) ||| (~~~x &&& z)

/-- If `z` then `x` else `y`, bit by bit. -/
def G (x y z : UInt32) : UInt32 := (x &&& z) ||| (y &&& ~~~z)

/-- The parity of the three bits. -/
def H (x y z : UInt32) : UInt32 := x ^^^ y ^^^ z

/-- The function of the last round. -/
def I (x y z : UInt32) : UInt32 := y ^^^ (x ||| ~~~z)

/-- The integer part of 4294967296 times `abs (sin i)`, for `i` from 1 on. -/
def T : List UInt32 :=
  [0xd76aa478, 0xe8c7b756, 0x242070db, 0xc1bdceee, 0xf57c0faf, 0x4787c62a, 0xa8304613, 0xfd469501,
    0x698098d8, 0x8b44f7af, 0xffff5bb1, 0x895cd7be, 0x6b901122, 0xfd987193, 0xa679438e, 0x49b40821,
    0xf61e2562, 0xc040b340, 0x265e5a51, 0xe9b6c7aa, 0xd62f105d, 0x02441453, 0xd8a1e681, 0xe7d3fbc8,
    0x21e1cde6, 0xc33707d6, 0xf4d50d87, 0x455a14ed, 0xa9e3e905, 0xfcefa3f8, 0x676f02d9, 0x8d2a4c8a,
    0xfffa3942, 0x8771f681, 0x6d9d6122, 0xfde5380c, 0xa4beea44, 0x4bdecfa9, 0xf6bb4b60, 0xbebfbc70,
    0x289b7ec6, 0xeaa127fa, 0xd4ef3085, 0x04881d05, 0xd9d4d039, 0xe6db99e5, 0x1fa27cf8, 0xc4ac5665,
    0xf4292244, 0x432aff97, 0xab9423a7, 0xfc93a039, 0x655b59c3, 0x8f0ccc92, 0xffeff47d, 0x85845dd1,
    0x6fa87e4f, 0xfe2ce6e0, 0xa3014314, 0x4e0811a1, 0xf7537e82, 0xbd3af235, 0x2ad7d2bb, 0xeb86d391]

/-- The function of operation `i`: one a round. -/
def function (i : Nat) : UInt32 → UInt32 → UInt32 → UInt32 :=
  match i / 16 with
  | 0 => F
  | 1 => G
  | 2 => H
  | _ => I

/-- The word of the block that operation `i` reads. -/
def index (i : Nat) : Nat :=
  match i / 16 with
  | 0 => i
  | 1 => (5 * i + 1) % 16
  | 2 => (3 * i + 5) % 16
  | _ => 7 * i % 16

/-- How far operation `i` turns. -/
def shift (i : Nat) : UInt32 :=
  match i / 16, i % 4 with
  | 0, 0 => 7
  | 0, 1 => 12
  | 0, 2 => 17
  | 0, _ => 22
  | 1, 0 => 5
  | 1, 1 => 9
  | 1, 2 => 14
  | 1, _ => 20
  | 2, 0 => 4
  | 2, 1 => 11
  | 2, 2 => 16
  | 2, _ => 23
  | _, 0 => 6
  | _, 1 => 10
  | _, 2 => 15
  | _, _ => 21

/-- The buffer of four words. -/
structure State where
  a : UInt32
  b : UInt32
  c : UInt32
  d : UInt32
  deriving Repr, DecidableEq

/-- Word `k` of a block, the low-order byte first. -/
def word (block : List UInt8) (k : Nat) : UInt32 :=
  UInt32.ofNat ((block.getD (4 * k) 0).toNat + 2 ^ 8 * (block.getD (4 * k + 1) 0).toNat +
    2 ^ 16 * (block.getD (4 * k + 2) 0).toNat + 2 ^ 24 * (block.getD (4 * k + 3) 0).toNat)

/-- `x <<< s`, circularly. -/
def rotate (x s : UInt32) : UInt32 := (x <<< s) ||| (x >>> (32 - s))

/-- `a = b + ((a + function(b,c,d) + X[k] + T[i]) <<< s)`; then the four words trade places. -/
def operation (block : List UInt8) (s : State) (i : Nat) : State :=
  ⟨s.d, s.b + rotate (s.a + function i s.b s.c s.d + word block (index i) + T.getD i 0) (shift i),
    s.b, s.c⟩

/-- The 64 operations, and the words from before added. -/
def process (s : State) (block : List UInt8) : State :=
  let t := (List.range 64).foldl (operation block) s
  ⟨t.a + s.a, t.b + s.b, t.c + s.c, t.d + s.d⟩

/-! ## The message -/

/-- `n` as `count` bytes, the low-order byte first; what does not fit is left out. -/
def bytes (count n : Nat) : List UInt8 :=
  (List.range count).map fun j => UInt8.ofNat (n / 2 ^ (8 * j))

/-- At least one bit, then zeros up to 448 modulo 512, then the length in bits, low byte first. -/
def pad (message : List UInt8) : List UInt8 :=
  message ++ 0x80 :: List.replicate ((119 - message.length % 64) % 64) 0 ++
    bytes 8 (message.length * 8)

/-- The four words the computation starts from. -/
def initial : State := ⟨0x67452301, 0xefcdab89, 0x98badcfe, 0x10325476⟩

/-- The first `n` blocks of `data`. -/
def processAll (n : Nat) (s : State) (data : List UInt8) : State :=
  (List.range n).foldl (fun s i => process s ((data.drop (64 * i)).take 64)) s

/-- The first block, then the others. -/
theorem processAll_succ (n : Nat) (s : State) (data : List UInt8) :
    processAll (n + 1) s data = processAll n (process s (data.take 64)) (data.drop 64) := by
  have hdrop : ∀ i, data.drop (64 * (i + 1)) = (data.drop 64).drop (64 * i) := by
    intro i
    rw [List.drop_drop]
    congr 1
    omega
  rw [processAll, List.range_succ_eq_map, List.foldl_cons, List.foldl_map]
  simp only [hdrop]
  rfl

/-- The message digest. -/
def md5 (message : List UInt8) : List UInt8 :=
  let padded := pad message
  let s := processAll (padded.length / 64) initial padded
  bytes 4 s.a.toNat ++ bytes 4 s.b.toNat ++ bytes 4 s.c.toNat ++ bytes 4 s.d.toNat

/-- The digest of `abc`, from the test suite. -/
example : md5 [0x61, 0x62, 0x63] = [0x90, 0x01, 0x50, 0x98, 0x3c, 0xd2, 0x4f, 0xb0,
    0xd6, 0x96, 0x3f, 0x7d, 0x28, 0xe1, 0x7f, 0x72] := by decide +kernel

end Safewrt.Lib.Rfc1321
