/-
  THE CONTEXT OF MD5 IN MEMORY (tools/tplink-safeloader/md5.c).

  1. `MD5Ctx`, `md5Init`, `md5Update`, `md5Final` — the code byte by byte: a buffer of 64 bytes
     that starts with whatever was there, counters of 32 bits, reads behind a pointer.  `none`
     is an access outside of the buffer or of the data.

  2. `Holds` — the context in memory holds the one of `Lib.Md5`: the bytes in use stand at the
     front of the buffer, what stands behind them does not matter.  One lemma for each of the
     three functions, and `md5Updates_holds` for any number of pieces.  That no access leaves the
     buffer is part of each: they say that the function answers, and with what.

  3. **`digest_eq_rfc1321`** — the functions with one operation less, the steps that turn the
     registers and the padding of the last block come to what RFC 1321 states.

  4. **`md5_pieces_rfc1321`** puts the two together, for data of any length: the 32-bit counters
     wrap where the RFC takes the length modulo 2^64 bits.
-/
import Safewrt.Lib.Md5
import Safewrt.Lib.Rfc1321
import Safewrt.Lib.Store

namespace Safewrt.Safeloader

open Safewrt.Lib Safewrt.Lib.Md5

/-! ## The code -/

/-- `MD5_CTX`.  `block` is left out: a word is always set before it is read. -/
structure MD5Ctx where
  lo : UInt32
  hi : UInt32
  registers : Registers
  buffer : List UInt8
  length_buffer : buffer.length = 64

/-- What `n` bytes behind a pointer hold. -/
def readBytes (data : List UInt8) (n : Nat) : Option (List UInt8) :=
  if n ≤ data.length then some (data.take n) else none

/-- `body`: the registers, and the pointer behind the blocks.  The size is counted down to 0. -/
def md5Body (r : Registers) (data : List UInt8) (size : UInt64) :
    Option (Registers × List UInt8) :=
  if data.length < 64 then none
  else
    if size - 64 = 0 then some (block r (data.take 64), data.drop 64)
    else md5Body (block r (data.take 64)) (data.drop 64) (size - 64)
  termination_by data.length
  decreasing_by
    rw [List.length_drop]
    omega

/-- `MD5_Init`; the buffer is not touched. -/
def md5Init (ctx : MD5Ctx) : MD5Ctx :=
  { ctx with registers := ⟨0x67452301, 0xefcdab89, 0x98badcfe, 0x10325476⟩, lo := 0, hi := 0 }

/-- `memcpy(&ctx->buffer[o], .., ..)`, and `memset`. -/
def MD5Ctx.store (ctx : MD5Ctx) (o : Nat) (data : List UInt8) : Option MD5Ctx :=
  match h : Lib.store ctx.buffer o data with
  | some buffer => some { ctx with buffer, length_buffer := (length_store h).trans ctx.length_buffer }
  | none => none

/-- `body(ctx, ctx->buffer, 64)` -/
def MD5Ctx.body (ctx : MD5Ctx) : Option MD5Ctx := do
  let (registers, _) ← md5Body ctx.registers ctx.buffer 64
  some { ctx with registers }

/-- `MD5_Update` behind the buffer: full blocks straight from the data, the rest into the
    buffer. -/
def md5Rest (ctx : MD5Ctx) (data : List UInt8) (size : UInt64) : Option MD5Ctx := do
  if 64 ≤ size then
    let (registers, data) ← md5Body ctx.registers data (size &&& ~~~0x3f)
    let rest ← readBytes data (size &&& 0x3f).toNat
    { ctx with registers }.store 0 rest
  else
    let rest ← readBytes data size.toNat
    ctx.store 0 rest

/-- `MD5_Update` behind the counters; `used` bytes wait in the buffer. -/
def md5Data (ctx : MD5Ctx) (used : UInt64) (data : List UInt8) (size : UInt64) : Option MD5Ctx :=
  if used ≠ 0 then
    let available := 64 - used
    if size < available then do
      let piece ← readBytes data size.toNat
      ctx.store used.toNat piece
    else do
      let piece ← readBytes data available.toNat
      let ctx ← ctx.store used.toNat piece
      let ctx ← ctx.body
      md5Rest ctx (data.drop available.toNat) (size - available)
  else md5Rest ctx data size

/-- `MD5_Update` -/
def md5Update (ctx : MD5Ctx) (data : List UInt8) (size : UInt64) : Option MD5Ctx :=
  let savedLo := ctx.lo
  let lo := ((savedLo.toUInt64 + size) &&& 0x1fffffff).toUInt32
  let hi := if lo < savedLo then ctx.hi + 1 else ctx.hi
  let hi := (hi.toUInt64 + (size >>> 29)).toUInt32
  md5Data { ctx with lo, hi } (savedLo &&& 0x3f).toUInt64 data size

/-- `MD5_Final` behind the `0x80`: zeros up to the counters, in a block of their own where the
    last one has no room. -/
def md5Zeros (ctx : MD5Ctx) (used : Nat) : Option MD5Ctx :=
  let available := 64 - used
  if available < 8 then do
    let ctx ← ctx.store used (List.replicate available 0)
    let ctx ← ctx.body
    ctx.store 0 (List.replicate (64 - 8) 0)
  else ctx.store used (List.replicate (available - 8) 0)

/-- `MD5_Final` behind the zeros: the counters, and the last block. -/
def md5Counters (ctx : MD5Ctx) : Option MD5Ctx := do
  let ctx := { ctx with lo := ctx.lo <<< 3 }
  let ctx ← ctx.store 56 (toLe ctx.lo)
  let ctx ← ctx.store 60 (toLe ctx.hi)
  ctx.body

/-- `memset(ctx, 0, sizeof(*ctx))` -/
def zeroCtx : MD5Ctx where
  lo := 0
  hi := 0
  registers := ⟨0, 0, 0, 0⟩
  buffer := List.replicate 64 0
  length_buffer := List.length_replicate

/-- `result[0]` to `result[15]` -/
def result (r : Registers) : List UInt8 := toLe r.a ++ toLe r.b ++ toLe r.c ++ toLe r.d

/-- `MD5_Final`: the result, and the context behind the call. -/
def md5Final (ctx : MD5Ctx) : Option (List UInt8 × MD5Ctx) := do
  let used := (ctx.lo &&& 0x3f).toNat
  let ctx ← ctx.store used [0x80]
  let ctx ← md5Zeros ctx (used + 1)
  let ctx ← md5Counters ctx
  some (result ctx.registers, zeroCtx)

/-- The pieces of a caller, one after the other. -/
def md5Updates (ctx : MD5Ctx) (pieces : List (List UInt8)) : Option MD5Ctx :=
  pieces.foldlM (fun ctx piece => md5Update ctx piece (UInt64.ofNat piece.length)) ctx

/-! ## The masks and the counters

  The code takes remainders with `&` and carries by comparing.  What that comes to, as numbers: `lo`
  is the length modulo 2^29, `hi` what was carried. -/

theorem and_63 (n : Nat) : n &&& 63 = n % 64 := Nat.and_two_pow_sub_one_eq_mod n 6

/-- All bits but the low six. -/
theorem and_not_63 {n : Nat} (h : n < 2 ^ 64) : n &&& (2 ^ 64 - 64) = 64 * (n / 64) := by
  have hmask : 2 ^ 64 - 64 = (2 ^ 58 - 1) <<< 6 := rfl
  have hdiv : 64 * (n / 64) = (n / 2 ^ 6) <<< 6 := by
    rw [Nat.shiftLeft_eq]
    omega
  rw [hmask, hdiv]
  apply Nat.eq_of_testBit_eq
  intro i
  rw [Nat.testBit_and, Nat.testBit_shiftLeft, Nat.testBit_shiftLeft, Nat.testBit_two_pow_sub_one,
    Nat.testBit_div_two_pow]
  by_cases hi : 6 ≤ i
  · rw [decide_eq_true hi, Bool.true_and, Bool.true_and, Nat.sub_add_cancel hi]
    by_cases hlt : i - 6 < 58
    · rw [decide_eq_true hlt, Bool.and_true]
    · have hbit : n.testBit i = false := by
        apply Nat.testBit_lt_two_pow
        exact Nat.lt_of_lt_of_le h (Nat.pow_le_pow_right (by decide) (by omega))
      rw [hbit, Bool.false_and]
  · rw [decide_eq_false hi, Bool.false_and, Bool.false_and, Bool.and_false]

/-- What is left behind full blocks. -/
theorem toNat_size_rest (size : UInt64) : (size &&& 0x3f).toNat = size.toNat % 64 := by
  rw [UInt64.toNat_and]
  exact and_63 _

/-- The bytes of the full blocks. -/
theorem size_blocks (size : UInt64) :
    size &&& ~~~0x3f = UInt64.ofNat (64 * (size.toNat / 64)) := by
  have hlt := size.toNat_lt
  apply UInt64.toNat_inj.mp
  rw [UInt64.toNat_and, UInt64.toNat_ofNat']
  show size.toNat &&& (2 ^ 64 - 64) = _
  rw [and_not_63 hlt]
  omega

theorem toNat_used (lo : UInt32) : (lo &&& 0x3f).toNat = lo.toNat % 64 := by
  rw [UInt32.toNat_and]
  exact and_63 _

theorem toNat_used_long (lo : UInt32) : (lo &&& 0x3f).toUInt64.toNat = lo.toNat % 64 := by
  rw [UInt32.toNat_toUInt64, toNat_used]

/-- The sum is one of 64 bits, so only the mask cuts it. -/
theorem toNat_new_lo (lo : UInt32) (size : UInt64) :
    ((lo.toUInt64 + size) &&& 0x1fffffff).toUInt32.toNat = (lo.toNat + size.toNat) % 2 ^ 29 := by
  rw [UInt64.toNat_toUInt32, UInt64.toNat_and, UInt64.toNat_add, UInt32.toNat_toUInt64]
  show ((lo.toNat + size.toNat) % 2 ^ 64 &&& (2 ^ 29 - 1)) % 2 ^ 32 = _
  rw [Nat.and_two_pow_sub_one_eq_mod]
  omega

/-- The upper counter, with the carry of the lower one left to its own test. -/
theorem toNat_new_hi (hi : UInt32) (size : UInt64) :
    (hi.toUInt64 + (size >>> 29)).toUInt32.toNat =
      (hi.toNat + size.toNat / 2 ^ 29) % 2 ^ 32 := by
  rw [UInt64.toNat_toUInt32, UInt64.toNat_add, UInt32.toNat_toUInt64, UInt64.toNat_shiftRight]
  show (hi.toNat + size.toNat >>> 29) % 2 ^ 64 % 2 ^ 32 = _
  rw [Nat.shiftRight_eq_div_pow]
  omega

/-- Bytes become bits. -/
theorem bits_low (lo : UInt32) : lo <<< 3 = UInt32.ofNat (lo.toNat * 8) := by
  apply UInt32.toNat_inj.mp
  rw [UInt32.toNat_shiftLeft, UInt32.toNat_ofNat']
  show _ <<< 3 % 2 ^ 32 = _
  rw [Nat.shiftLeft_eq]

/-! ## The bodies of the loops

  `Leaves` is what each piece of the code leaves: it ends, the counters and the registers are these,
  and the buffer begins with these bytes. -/

theorem readBytes_of_le {data : List UInt8} {n : Nat} (h : n ≤ data.length) :
    readBytes data n = some (data.take n) := if_pos h

/-- The size counts the blocks. -/
theorem md5Body_blocks (n : Nat) : ∀ (r : Registers) (data : List UInt8),
    64 * (n + 1) ≤ data.length → 64 * (n + 1) < 2 ^ 64 →
      md5Body r data (UInt64.ofNat (64 * (n + 1))) = some (blocks (n + 1) r data) := by
  induction n with
  | zero =>
    intro r data hdata hsize
    have hlast : UInt64.ofNat (64 * (0 + 1)) - 64 = 0 := rfl
    rw [md5Body, if_neg (by omega), hlast, if_pos rfl]
    rfl
  | succ n ih =>
    intro r data hdata hsize
    -- `size -= 64` does not wrap, and is not zero yet
    have hnext : UInt64.ofNat (64 * (n + 1 + 1)) - 64 = UInt64.ofNat (64 * (n + 1)) := by
      apply UInt64.toNat_inj.mp
      rw [UInt64.toNat_sub, UInt64.toNat_ofNat', UInt64.toNat_ofNat']
      show (2 ^ 64 - 64 + 64 * (n + 1 + 1) % 2 ^ 64) % 2 ^ 64 = _
      omega
    have hrest : UInt64.ofNat (64 * (n + 1)) ≠ 0 := by
      intro h
      have hzero := congrArg UInt64.toNat h
      rw [UInt64.toNat_ofNat', UInt64.toNat_zero] at hzero
      omega
    rw [md5Body, if_neg (by omega), hnext, if_neg hrest,
      ih _ _ (by rw [List.length_drop]; omega) (by omega)]
    rfl

/-- What a call leaves: counters, registers, and the front of the buffer. -/
def Leaves (left : Option MD5Ctx) (lo hi : UInt32) (registers : Registers) (front : List UInt8) :
    Prop :=
  ∃ ctx, left = some ctx ∧ ctx.lo = lo ∧ ctx.hi = hi ∧ ctx.registers = registers ∧
    ∃ behind, ctx.buffer = front ++ behind

/-- A write behind what is in use. -/
theorem store_leaves {ctx : MD5Ctx} {a b : List UInt8} (hbuffer : ctx.buffer = a ++ b)
    (data : List UInt8) (h : a.length + data.length ≤ 64) :
    Leaves (ctx.store a.length data) ctx.lo ctx.hi ctx.registers (a ++ data) := by
  have hfits : a.length + data.length ≤ ctx.buffer.length := by rw [ctx.length_buffer]; exact h
  unfold MD5Ctx.store
  split
  · rename_i buffer hsome
    obtain ⟨-, hbytes⟩ := store_eq hsome
    refine ⟨_, rfl, rfl, rfl, rfl, ctx.buffer.drop (a.length + data.length), ?_⟩
    show buffer = _
    rw [hbytes, hbuffer, List.take_left]
  · rename_i hnone
    have hsome := (store_isSome_iff ctx.buffer a.length data).mpr hfits
    rw [hnone] at hsome
    exact absurd hsome (by simp)

/-- A store at the front of the buffer leaves what follows. -/
theorem store_front (ctx : MD5Ctx) (data : List UInt8) (h : data.length ≤ 64) :
    Leaves (ctx.store 0 data) ctx.lo ctx.hi ctx.registers data := by
  apply store_leaves (a := []) rfl
  rw [List.length_nil]
  omega

theorem blocks_one {a b : List UInt8} (ha : a.length = 64) (r : Registers) :
    blocks 1 r (a ++ b) = (block r a, b) := by
  rw [blocks, List.take_left' ha, List.drop_left' ha, blocks]

/-- A full buffer is one block. -/
theorem body_leaves {ctx : MD5Ctx} {a b : List UInt8} (hbuffer : ctx.buffer = a ++ b)
    (ha : a.length = 64) :
    ctx.body = some { ctx with registers := block ctx.registers a } := by
  have hlength := ctx.length_buffer
  have hone := md5Body_blocks 0 ctx.registers ctx.buffer (Nat.le_of_eq hlength.symm) (by decide)
  have htake : ctx.buffer.take 64 = a := by rw [hbuffer, ← ha, List.take_left]
  show (md5Body ctx.registers ctx.buffer (UInt64.ofNat (64 * (0 + 1)))).bind _ = _
  rw [hone, Option.bind_some, blocks, htake]
  rfl

/-- What is left of the data after the full blocks. -/
theorem length_blocks_rest (r : Registers) (data : List UInt8) :
    (blocks (data.length / 64) r data).2.length = data.length % 64 := by
  rw [blocks_rest, List.length_drop]
  omega

/-- The data where nothing waits in the buffer. -/
theorem md5Rest_leaves {ctx : MD5Ctx} {data : List UInt8} {size : UInt64}
    (hsize : size.toNat = data.length) :
    Leaves (md5Rest ctx data size) ctx.lo ctx.hi (blocks (data.length / 64) ctx.registers data).1
      (blocks (data.length / 64) ctx.registers data).2 := by
  have hlength := length_blocks_rest ctx.registers data
  unfold md5Rest
  by_cases h : 64 ≤ size
  · have hnat : 64 ≤ size.toNat := h
    have hlt := size.toNat_lt
    -- full blocks first, and what is left goes to the front of the buffer
    have hcount : size.toNat / 64 - 1 + 1 = data.length / 64 := by omega
    have hbody := md5Body_blocks (size.toNat / 64 - 1) ctx.registers data (by omega) (by omega)
    have hrest : readBytes (blocks (data.length / 64) ctx.registers data).2
        (size &&& 0x3f).toNat = some (blocks (data.length / 64) ctx.registers data).2 := by
      rw [toNat_size_rest, hsize, readBytes_of_le (Nat.le_of_eq hlength.symm),
        List.take_of_length_le (Nat.le_of_eq hlength)]
    rw [hcount] at hbody
    rw [if_pos h, size_blocks, hsize, hbody, Option.bind_eq_bind, Option.bind_some]
    dsimp only
    rw [hrest, Option.bind_eq_bind, Option.bind_some]
    apply store_front
    omega
  · have hnat : size.toNat < 64 := Nat.not_le.mp h
    have hnone : data.length / 64 = 0 := by omega
    rw [if_neg h, readBytes_of_le (Nat.le_of_eq hsize), Option.bind_eq_bind, Option.bind_some,
      hnone, hsize, List.take_length]
    apply store_leaves (a := []) rfl
    rw [List.length_nil]
    omega

/-- A buffer that is filled up is one block. -/
theorem blocks_fill {a data : List UInt8} {n : Nat} (ha : a.length + n = 64) (hn : n ≤ data.length)
    (r : Registers) :
    blocks ((a ++ data).length / 64) r (a ++ data) =
      blocks ((data.drop n).length / 64) (block r (a ++ data.take n)) (data.drop n) := by
  have hcount : (a ++ data).length / 64 = 1 + (data.drop n).length / 64 := by
    rw [List.length_append, List.length_drop]
    omega
  have hfull : (a ++ data).take 64 = a ++ data.take n := by
    rw [List.take_append, List.take_of_length_le (by omega)]
    congr 2
    omega
  have hrest : (a ++ data).drop 64 = data.drop n := by
    rw [List.drop_append, List.drop_eq_nil_of_le (by omega), List.nil_append]
    congr 1
    omega
  rw [hcount, blocks_add, blocks, hfull, hrest]
  rfl

/-- **The three paths of `MD5_Update`**: what is in the buffer and what comes are one row. -/
theorem md5Data_leaves (ctx : MD5Ctx) {a behind data : List UInt8} {used size : UInt64}
    (hbuffer : ctx.buffer = a ++ behind) (hused : used.toNat = a.length) (ha : a.length < 64)
    (hsize : size.toNat = data.length) :
    Leaves (md5Data ctx used data size) ctx.lo ctx.hi
      (blocks ((a ++ data).length / 64) ctx.registers (a ++ data)).1
      (blocks ((a ++ data).length / 64) ctx.registers (a ++ data)).2 := by
  unfold md5Data
  by_cases hempty : used = 0
  · rw [hempty] at hused
    have hnil : a = [] := List.length_eq_zero_iff.mp hused.symm
    rw [if_neg (not_not.mpr hempty), hnil]
    exact md5Rest_leaves hsize
  have havailable : (64 - used).toNat = 64 - a.length := by
    rw [UInt64.toNat_sub_of_le _ _ (UInt64.le_iff_toNat_le.mpr (by rw [hused]; exact Nat.le_of_lt ha)), hused]
    rfl
  rw [if_pos hempty]
  dsimp only
  by_cases hshort : size < 64 - used
  · -- the buffer does not get full
    have hnat := UInt64.lt_iff_toNat_lt.mp hshort
    rw [havailable, hsize] at hnat
    have hnone : (a ++ data).length / 64 = 0 := by
      rw [List.length_append]
      omega
    rw [if_pos hshort, readBytes_of_le (Nat.le_of_eq hsize), Option.bind_eq_bind, Option.bind_some,
      hsize, List.take_length, hnone, hused]
    apply store_leaves hbuffer
    omega
  · -- the buffer is filled up, and one block
    have hnat := mt UInt64.lt_iff_toNat_lt.mpr hshort
    rw [havailable, hsize] at hnat
    have hn : 64 - a.length ≤ data.length := by omega
    have hpiece : (data.take (64 - a.length)).length = 64 - a.length := by
      rw [List.length_take]
      omega
    obtain ⟨full, hstore, hlo, hhi, hregisters, rest, hfull⟩ := store_leaves hbuffer
      (data.take (64 - a.length)) (by omega)
    have hlength : (a ++ data.take (64 - a.length)).length = 64 := by
      rw [List.length_append]
      omega
    have hleft : (size - (64 - used)).toNat = (data.drop (64 - a.length)).length := by
      rw [UInt64.toNat_sub_of_le _ _ (UInt64.le_iff_toNat_le.mpr (by omega)), havailable, hsize,
        List.length_drop]
    rw [if_neg hshort, havailable, readBytes_of_le hn, Option.bind_eq_bind, Option.bind_some, hused,
      hstore, Option.bind_eq_bind, Option.bind_some, body_leaves hfull hlength,
      Option.bind_some, blocks_fill (n := 64 - a.length) (by omega) hn,
      ← hlo, ← hhi, ← hregisters]
    exact md5Rest_leaves hleft

/-! ## The context holds that of the library

  `Holds` is the representation relation.  Of the buffer it says what is in front only, so the code
  may leave there what it likes behind the bytes in use. -/

/-- The context in memory is that of the library: counters, registers, and the bytes in use. -/
structure Holds (ctx : MD5Ctx) (held : Context) : Prop where
  lo : ctx.lo.toNat = held.lo
  hi : ctx.hi.toNat = held.hi
  registers : ctx.registers = held.registers
  used : held.buffer.length = held.lo % 64
  front : ∃ behind, ctx.buffer = held.buffer ++ behind

/-- A new context holds the empty one, whatever its buffer holds. -/
theorem md5Init_holds (ctx : MD5Ctx) : Holds (md5Init ctx) Md5.init where
  lo := rfl
  hi := rfl
  registers := rfl
  used := rfl
  front := ⟨ctx.buffer, rfl⟩

/-- The new counters are those of the library. -/
theorem counters_hold {ctx : MD5Ctx} {held : Context} (h : Holds ctx held) (size : UInt64) :
    let lo := ((ctx.lo.toUInt64 + size) &&& 0x1fffffff).toUInt32
    let hi := if lo < ctx.lo then ctx.hi + 1 else ctx.hi
    lo.toNat = (held.lo + size.toNat) % 2 ^ 29 ∧
      (hi.toUInt64 + (size >>> 29)).toUInt32.toNat =
        (held.hi + (if (held.lo + size.toNat) % 2 ^ 29 < held.lo then 1 else 0) +
          size.toNat / 2 ^ 29) % 2 ^ 32 := by
  dsimp only
  have hlo := toNat_new_lo ctx.lo size
  rw [h.lo] at hlo
  refine ⟨hlo, ?_⟩
  rw [toNat_new_hi]
  by_cases hcarry : ((ctx.lo.toUInt64 + size) &&& 0x1fffffff).toUInt32 < ctx.lo
  · have hnat := UInt32.lt_iff_toNat_lt.mp hcarry
    rw [hlo, h.lo] at hnat
    rw [if_pos hcarry, if_pos hnat, UInt32.toNat_add, h.hi]
    show ((held.hi + 1) % 2 ^ 32 + size.toNat / 2 ^ 29) % 2 ^ 32 = _
    omega
  · have hnat := mt UInt32.lt_iff_toNat_lt.mpr hcarry
    rw [hlo, h.lo] at hnat
    rw [if_neg hcarry, if_neg hnat, h.hi, Nat.add_zero]

/-- **One piece**: no access is outside, and the context in memory stays that of the library. -/
theorem md5Update_holds {ctx : MD5Ctx} {held : Context} (h : Holds ctx held)
    (data : List UInt8) (size : UInt64) (hsize : size.toNat = data.length) :
    ∃ ctx', md5Update ctx data size = some ctx' ∧ Holds ctx' (Md5.update held data) := by
  obtain ⟨hlo, hhi⟩ := counters_hold h size
  rw [hsize] at hlo hhi
  obtain ⟨behind, hfront⟩ := h.front
  have hused : (ctx.lo &&& 0x3f).toUInt64.toNat = held.buffer.length := by
    rw [toNat_used_long, h.lo, h.used]
  have hheld : held.buffer.length < 64 := by
    rw [h.used]
    omega
  obtain ⟨ctx', hupdate, hlo', hhi', hregisters, hbuffer⟩ := md5Data_leaves { ctx with
      lo := ((ctx.lo.toUInt64 + size) &&& 0x1fffffff).toUInt32
      hi := ((if ((ctx.lo.toUInt64 + size) &&& 0x1fffffff).toUInt32 < ctx.lo then ctx.hi + 1
        else ctx.hi).toUInt64 + (size >>> 29)).toUInt32 } hfront hused hheld hsize
  rw [h.registers] at hregisters hbuffer
  refine ⟨ctx', hupdate, ?_, ?_, hregisters, ?_, hbuffer⟩
  · rw [hlo']
    exact hlo
  · rw [hhi']
    exact hhi
  · -- the counter says how much waits in the buffer
    show (blocks ((held.buffer ++ data).length / 64) held.registers (held.buffer ++ data)).2.length =
      (held.lo + data.length) % 2 ^ 29 % 64
    rw [length_blocks_rest, List.length_append, h.used]
    omega

/-- No data changes nothing. -/
theorem Holds.update_nil {ctx : MD5Ctx} {held : Context} (h : Holds ctx held) :
    Holds ctx (Md5.update held []) := by
  have hnone : (held.buffer ++ []).length / 64 = 0 := by
    rw [List.append_nil, h.used]
    omega
  have hlo : (held.lo + 0) % 2 ^ 29 = held.lo := Nat.mod_eq_of_lt held.lo_lt
  have hlt := ctx.hi.toNat_lt
  refine ⟨h.lo.trans hlo.symm, ?_, ?_, ?_, ?_⟩
  · show _ = (held.hi + (if (held.lo + 0) % 2 ^ 29 < held.lo then 1 else 0) + 0) % 2 ^ 32
    rw [hlo, if_neg (Nat.lt_irrefl _), ← h.hi]
    omega
  · show _ = (blocks ((held.buffer ++ []).length / 64) held.registers (held.buffer ++ [])).1
    rw [hnone]
    exact h.registers
  · show (blocks ((held.buffer ++ []).length / 64) held.registers (held.buffer ++ [])).2.length =
      (held.lo + 0) % 2 ^ 29 % 64
    rw [hnone, hlo, ← h.used]
    exact congrArg List.length (List.append_nil _)
  · show ∃ behind, _ = (blocks ((held.buffer ++ []).length / 64) held.registers
      (held.buffer ++ [])).2 ++ behind
    rw [hnone, List.append_nil]
    exact h.front

/-- **Any number of pieces.** -/
theorem md5Updates_holds (pieces : List (List UInt8)) : ∀ {ctx : MD5Ctx} {held : Context},
    Holds ctx held → (∀ piece ∈ pieces, piece.length < 2 ^ 64) →
      ∃ ctx', md5Updates ctx pieces = some ctx' ∧ Holds ctx' (Md5.update held pieces.flatten) := by
  induction pieces with
  | nil =>
    intro ctx held h hsizes
    exact ⟨ctx, rfl, h.update_nil⟩
  | cons piece pieces ih =>
    intro ctx held h hsizes
    obtain ⟨hpiece, hrest⟩ := List.forall_mem_cons.mp hsizes
    obtain ⟨ctx₁, hfirst, hholds⟩ := md5Update_holds h piece
      (UInt64.ofNat piece.length) (UInt64.toNat_ofNat_of_lt' hpiece)
    obtain ⟨ctx₂, hlast, hend⟩ := ih hholds hrest
    rw [update_append] at hend
    refine ⟨ctx₂, ?_, hend⟩
    show (md5Update ctx piece (UInt64.ofNat piece.length)).bind _ = _
    rw [hfirst, Option.bind_some]
    exact hlast

/-! ## The last block

  The padding needs one block or two, depending on whether the eight bytes of the counters fit
  behind the 0x80. -/

/-- The data with the zeros up to the counters. -/
def upToCounters (a : List UInt8) : List UInt8 :=
  a ++ List.replicate (if 64 - a.length < 8 then 64 - a.length + 56 else 56 - a.length) 0

/-- The blocks before the last one. -/
def blocksBefore (a : List UInt8) : Nat := if 64 - a.length < 8 then 1 else 0

/-- The padding reaches up to the last eight bytes of a block. -/
theorem length_upToCounters {a : List UInt8} (ha : a.length ≤ 64) :
    (upToCounters a).length = 64 * blocksBefore a + 56 := by
  rw [upToCounters, blocksBefore, List.length_append, List.length_replicate]
  split
  · omega
  · omega

/-- What stands in the last block before the counters. -/
theorem length_lastBlock {a : List UInt8} (ha : a.length ≤ 64) (r : Registers) :
    (blocks (blocksBefore a) r (upToCounters a)).2.length = 56 := by
  rw [blocks_rest, List.length_drop, length_upToCounters ha]
  omega

/-- The padding, in one block or in two: this depends on the room that is left. -/
theorem md5Zeros_leaves {ctx : MD5Ctx} {a behind : List UInt8} (hbuffer : ctx.buffer = a ++ behind)
    (ha : a.length ≤ 64) :
    Leaves (md5Zeros ctx a.length) ctx.lo ctx.hi
      (blocks (blocksBefore a) ctx.registers (upToCounters a)).1
      (blocks (blocksBefore a) ctx.registers (upToCounters a)).2 := by
  unfold md5Zeros blocksBefore upToCounters
  dsimp only
  by_cases hroom : 64 - a.length < 8
  · -- the counters need a block of their own
    rw [if_pos hroom, if_pos hroom, if_pos hroom]
    have hzeros : (List.replicate (64 - a.length) (0 : UInt8)).length = 64 - a.length :=
      List.length_replicate
    have hfull : (a ++ List.replicate (64 - a.length) 0).length = 64 := by
      rw [List.length_append, hzeros]
      omega
    obtain ⟨full, hstore, hlo, hhi, hregisters, rest, hfront⟩ := store_leaves hbuffer
      (List.replicate (64 - a.length) 0) (by omega)
    have hblocks : blocks 1 ctx.registers (a ++ List.replicate (64 - a.length + 56) 0) =
        (block ctx.registers (a ++ List.replicate (64 - a.length) 0), List.replicate 56 0) := by
      rw [← List.replicate_append_replicate, ← List.append_assoc]
      exact blocks_one hfull _
    rw [hstore, Option.bind_eq_bind, Option.bind_some, body_leaves hfront hfull, Option.bind_some,
      hblocks, ← hlo, ← hhi, ← hregisters]
    apply store_front
    decide
  · have hzeros : 64 - a.length - 8 = 56 - a.length := by omega
    rw [if_neg hroom, if_neg hroom, if_neg hroom, hzeros]
    apply store_leaves hbuffer
    rw [List.length_replicate]
    omega

/-- The last block is the one with the counters in it. -/
theorem md5Counters_registers {ctx : MD5Ctx} {a behind : List UInt8}
    (hbuffer : ctx.buffer = a ++ behind) (ha : a.length = 56) :
    ∃ ctx', md5Counters ctx = some ctx' ∧
      ctx'.registers = block ctx.registers (a ++ (toLe (ctx.lo <<< 3) ++ toLe ctx.hi)) := by
  obtain ⟨ctx₁, hstore₁, -, hhi₁, hregisters₁, rest₁, hfront₁⟩ := store_leaves
    (show { ctx with lo := ctx.lo <<< 3 }.buffer = a ++ behind from hbuffer) (toLe (ctx.lo <<< 3))
    (by rw [ha]; show 56 + 4 ≤ 64; decide)
  -- eight bytes behind the 56, four at a time
  have hrow : (a ++ toLe (ctx.lo <<< 3)).length = 60 := by
    rw [List.length_append, ha]
    rfl
  obtain ⟨ctx₂, hstore₂, -, -, hregisters₂, rest₂, hfront₂⟩ := store_leaves hfront₁
    (toLe ctx₁.hi) (by rw [hrow]; show 60 + 4 ≤ 64; decide)
  have hfull : (a ++ toLe (ctx.lo <<< 3) ++ toLe ctx₁.hi).length = 64 := by
    rw [List.length_append, hrow]
    rfl
  rw [ha] at hstore₁
  rw [hrow] at hstore₂
  have hcounters : md5Counters ctx = some { ctx₂ with
      registers := block ctx₂.registers (a ++ toLe (ctx.lo <<< 3) ++ toLe ctx₁.hi) } := by
    unfold md5Counters
    dsimp only
    rw [hstore₁, Option.bind_eq_bind, Option.bind_some, hstore₂,
      Option.bind_some, body_leaves hfront₂ hfull]
  refine ⟨_, hcounters, ?_⟩
  show block ctx₂.registers _ = _
  rw [hregisters₂, hregisters₁, hhi₁, List.append_assoc]

/-- The library's last data are those blocks. -/
theorem final_eq {held : Context} (hheld : held.buffer.length < 64) :
    let a := held.buffer ++ [0x80]
    Md5.final held = result (block (blocks (blocksBefore a) held.registers (upToCounters a)).1
      ((blocks (blocksBefore a) held.registers (upToCounters a)).2 ++
        (toLe (UInt32.ofNat (held.lo * 8)) ++ toLe (UInt32.ofNat held.hi)))) := by
  dsimp only
  have hused : (held.buffer ++ [0x80]).length = held.buffer.length + 1 := List.length_append
  have hle : (held.buffer ++ [0x80]).length ≤ 64 := by omega
  -- the library writes zeros and counters at once, the code in two steps
  have hlast : held.buffer ++ 0x80 :: List.replicate
      (if 64 - (held.buffer.length + 1) < 8 then 64 - (held.buffer.length + 1) + 56
        else 56 - (held.buffer.length + 1)) (0 : UInt8) ++ toLe (UInt32.ofNat (held.lo * 8)) ++
          toLe (UInt32.ofNat held.hi) = upToCounters (held.buffer ++ [0x80]) ++
        (toLe (UInt32.ofNat (held.lo * 8)) ++ toLe (UInt32.ofNat held.hi)) := by
    rw [upToCounters, hused]
    simp only [List.append_assoc, List.cons_append, List.nil_append]
  have hcount : (upToCounters (held.buffer ++ [0x80]) ++ (toLe (UInt32.ofNat (held.lo * 8)) ++
      toLe (UInt32.ofNat held.hi))).length / 64 = blocksBefore (held.buffer ++ [0x80]) + 1 := by
    have hcounters : (toLe (UInt32.ofNat (held.lo * 8)) ++
      toLe (UInt32.ofNat held.hi)).length = 8 := rfl
    rw [List.length_append, hcounters, length_upToCounters hle]
    omega
  have hfull : ((blocks (blocksBefore (held.buffer ++ [0x80])) held.registers
      (upToCounters (held.buffer ++ [0x80]))).2 ++ (toLe (UInt32.ofNat (held.lo * 8)) ++
        toLe (UInt32.ofNat held.hi))).length = 64 := by
    rw [List.length_append, length_lastBlock hle]
    rfl
  have hone := blocks_one (b := []) hfull (blocks (blocksBefore (held.buffer ++ [0x80]))
    held.registers (upToCounters (held.buffer ++ [0x80]))).1
  rw [List.append_nil] at hone
  unfold Md5.final
  dsimp only
  rw [hlast, hcount, blocks_add, blocks_append _ (by rw [length_upToCounters hle]; omega), hone]
  rfl

/-- **The digest** of what the context holds, and a context of zeros. -/
theorem md5Final_holds {ctx : MD5Ctx} {held : Context} (h : Holds ctx held) :
    md5Final ctx = some (Md5.final held, zeroCtx) := by
  obtain ⟨behind, hfront⟩ := h.front
  have hused : (ctx.lo &&& 0x3f).toNat = held.buffer.length := by rw [toNat_used, h.lo, h.used]
  have hheld : held.buffer.length < 64 := by
    rw [h.used]
    omega
  have hend : (held.buffer ++ [0x80]).length = held.buffer.length + 1 := List.length_append
  have hle : (held.buffer ++ [0x80]).length ≤ 64 := by omega
  obtain ⟨ctx₁, hstore, hlo₁, hhi₁, hregisters₁, rest₁, hfront₁⟩ := store_leaves hfront
    [0x80] hheld
  obtain ⟨ctx₂, hzeros, hlo₂, hhi₂, hregisters₂, rest₂, hfront₂⟩ := md5Zeros_leaves hfront₁ hle
  obtain ⟨ctx₃, hcounters, hregisters₃⟩ := md5Counters_registers hfront₂ (length_lastBlock hle _)
  rw [hend] at hzeros
  have hlo : ctx₂.lo <<< 3 = UInt32.ofNat (held.lo * 8) := by
    rw [bits_low, hlo₂, hlo₁, h.lo]
  have hhi : ctx₂.hi = UInt32.ofNat held.hi := by
    rw [hhi₂, hhi₁, ← h.hi, UInt32.ofNat_toNat]
  rw [hregisters₂, hregisters₁, h.registers, hlo, hhi] at hregisters₃
  unfold md5Final
  dsimp only
  rw [hused, hstore, Option.bind_eq_bind, Option.bind_some, hzeros,
    Option.bind_some, hcounters, Option.bind_some, final_eq hheld, hregisters₃]

/-- **The code is the library's digest**: over data in any pieces, from any bytes in the context,
    with no access outside of the buffer or of the pieces. -/
theorem md5_pieces (ctx : MD5Ctx) {pieces : List (List UInt8)}
    (h : ∀ piece ∈ pieces, piece.length < 2 ^ 64) :
    (md5Updates (md5Init ctx) pieces).bind md5Final = some (digest pieces.flatten, zeroCtx) := by
  obtain ⟨ctx', hupdates, hholds⟩ := md5Updates_holds pieces (md5Init_holds ctx) h
  rw [hupdates, Option.bind_some, md5Final_holds hholds]
  rfl

/-! ## RFC 1321

  The library's functions against those of the RFC: each round function, the words of a block, the
  sixty-four operations, the padding. -/

section Functions

variable (x y z : UInt32)

/-- The function of the first round, with one operation less than the standard. -/
theorem f_eq : Md5.f x y z = Rfc1321.F x y z := by
  apply UInt32.eq_of_toBitVec_eq
  apply BitVec.eq_of_getLsbD_eq
  intro i hi
  simp only [Md5.f, Rfc1321.F, UInt32.toBitVec_xor, UInt32.toBitVec_and, UInt32.toBitVec_or,
    UInt32.toBitVec_not, BitVec.getLsbD_xor, BitVec.getLsbD_and, BitVec.getLsbD_or,
    BitVec.getLsbD_not, hi, decide_true, Bool.true_and]
  cases x.toBitVec.getLsbD i <;> cases y.toBitVec.getLsbD i <;> cases z.toBitVec.getLsbD i <;> rfl

/-- The function of the second round, with one operation less than the standard. -/
theorem g_eq : Md5.g x y z = Rfc1321.G x y z := by
  apply UInt32.eq_of_toBitVec_eq
  apply BitVec.eq_of_getLsbD_eq
  intro i hi
  simp only [Md5.g, Rfc1321.G, UInt32.toBitVec_xor, UInt32.toBitVec_and, UInt32.toBitVec_or,
    UInt32.toBitVec_not, BitVec.getLsbD_xor, BitVec.getLsbD_and, BitVec.getLsbD_or,
    BitVec.getLsbD_not, hi, decide_true, Bool.true_and]
  cases x.toBitVec.getLsbD i <;> cases y.toBitVec.getLsbD i <;> cases z.toBitVec.getLsbD i <;> rfl

/-- The two ways to write the third function. -/
theorem h2_eq : Md5.h2 x y z = Rfc1321.H x y z := (UInt32.xor_assoc x y z).symm

end Functions

/-- Bits that do not meet add up. -/
theorem or_eq_add {low high k : Nat} (h : low < 2 ^ k) : low ||| high <<< k = low + 2 ^ k * high := by
  rw [Nat.or_comm, ← Nat.shiftLeft_add_eq_or_of_lt h, Nat.shiftLeft_eq, Nat.mul_comm, Nat.add_comm]

/-- Both read the words of a block in the same order. -/
theorem word_eq (block : List UInt8) (n : Nat) : Md5.word block n = Rfc1321.word block n := by
  have h₀ := (block.getD (4 * n) 0).toNat_lt
  have h₁ := (block.getD (4 * n + 1) 0).toNat_lt
  have h₂ := (block.getD (4 * n + 2) 0).toNat_lt
  have h₃ := (block.getD (4 * n + 3) 0).toNat_lt
  apply UInt32.toNat_inj.mp
  simp only [Md5.word, Rfc1321.word, UInt32.toNat_or, UInt32.toNat_shiftLeft, UInt8.toNat_toUInt32,
    UInt32.toNat_ofNat']
  generalize (block.getD (4 * n) 0).toNat = b₀ at *
  generalize (block.getD (4 * n + 1) 0).toNat = b₁ at *
  generalize (block.getD (4 * n + 2) 0).toNat = b₂ at *
  generalize (block.getD (4 * n + 3) 0).toNat = b₃ at *
  show b₀ ||| b₁ <<< 8 % 2 ^ 32 ||| b₂ <<< 16 % 2 ^ 32 ||| b₃ <<< 24 % 2 ^ 32 = _
  -- no bit is shifted out, so the `|` of the code is the sum of RFC 1321
  have e₁ : b₁ <<< 8 % 2 ^ 32 = b₁ <<< 8 := by
    rw [Nat.shiftLeft_eq]
    omega
  have e₂ : b₂ <<< 16 % 2 ^ 32 = b₂ <<< 16 := by
    rw [Nat.shiftLeft_eq]
    omega
  have e₃ : b₃ <<< 24 % 2 ^ 32 = b₃ <<< 24 := by
    rw [Nat.shiftLeft_eq]
    omega
  rw [e₁, e₂, e₃, or_eq_add (show b₀ < 2 ^ 8 by omega),
    or_eq_add (show b₀ + 2 ^ 8 * b₁ < 2 ^ 16 by omega),
    or_eq_add (show b₀ + 2 ^ 8 * b₁ + 2 ^ 16 * b₂ < 2 ^ 24 by omega)]
  omega

/-- A byte of a word. -/
theorem toUInt8_shiftRight (n : UInt32) {j : Nat} (hj : j < 4) :
    (n >>> UInt32.ofNat (8 * j)).toUInt8 = UInt8.ofNat (n.toNat / 2 ^ (8 * j)) := by
  have hshift : (UInt32.ofNat (8 * j)).toNat = 8 * j := by
    rw [UInt32.toNat_ofNat']
    omega
  apply UInt8.toNat_inj.mp
  rw [UInt32.toNat_toUInt8, UInt32.toNat_shiftRight, hshift,
    Nat.mod_eq_of_lt (show 8 * j < 32 by omega), Nat.shiftRight_eq_div_pow, UInt8.toNat_ofNat']

/-- Low byte first. -/
theorem toLe_eq (n : UInt32) : toLe n = Rfc1321.bytes 4 n.toNat := by
  show [n.toUInt8, (n >>> UInt32.ofNat (8 * 1)).toUInt8, (n >>> UInt32.ofNat (8 * 2)).toUInt8,
    (n >>> UInt32.ofNat (8 * 3)).toUInt8] = _
  rw [toUInt8_shiftRight n (by decide), toUInt8_shiftRight n (by decide),
    toUInt8_shiftRight n (by decide)]
  have hlow : n.toUInt8 = UInt8.ofNat (n.toNat / 2 ^ (8 * 0)) := by
    rw [Nat.mul_zero, Nat.pow_zero, Nat.div_one]
    rfl
  rw [hlow]
  rfl

/-- The two counters are the number of bits. -/
theorem toLe_counters (n : Nat) :
    toLe (UInt32.ofNat (n % 2 ^ 29 * 8)) ++ toLe (UInt32.ofNat (n / 2 ^ 29 % 2 ^ 32)) =
      Rfc1321.bytes 8 (n * 8) := by
  have hbyte : ∀ {a b : Nat}, a % 2 ^ 8 = b % 2 ^ 8 → UInt8.ofNat a = UInt8.ofNat b := by
    intro a b h
    apply UInt8.toNat_inj.mp
    rw [UInt8.toNat_ofNat', UInt8.toNat_ofNat', h]
  rw [toLe_eq, toLe_eq, UInt32.toNat_ofNat', UInt32.toNat_ofNat']
  show [_, _, _, _, _, _, _, _] = [_, _, _, _, _, _, _, _]
  simp only [List.cons.injEq, and_true]
  refine ⟨?_, ?_, ?_, ?_, ?_, ?_, ?_, ?_⟩ <;> apply hbyte <;> omega

/-- The registers as the four words. -/
def words (r : Registers) : Rfc1321.State := ⟨r.a, r.b, r.c, r.d⟩

/-- The steps, each with its function, word, constant and shift, are the 64 operations. -/
theorem rounds_eq : round1 ++ round2 ++ round3 ++ round4 = (List.range 64).map fun i =>
    (Rfc1321.function i, Rfc1321.index i, Rfc1321.T.getD i 0, Rfc1321.shift i) := by
  have hf : Md5.f = Rfc1321.F := funext fun x => funext fun y => funext fun z => f_eq x y z
  have hg : Md5.g = Rfc1321.G := funext fun x => funext fun y => funext fun z => g_eq x y z
  have hh : Md5.h2 = Rfc1321.H := funext fun x => funext fun y => funext fun z => h2_eq x y z
  rw [round1, round2, round3, round4, hf, hg, hh]
  rfl

/-- One step is one operation; the registers have moved on instead of the names. -/
theorem step_eq (data : List UInt8) (r : Registers) (i : Nat) :
    words (Md5.step data r
      (Rfc1321.function i, Rfc1321.index i, Rfc1321.T.getD i 0, Rfc1321.shift i)) =
        Rfc1321.operation data (words r) i := by
  simp only [Md5.step, Rfc1321.operation, words, Rfc1321.rotate, word_eq, UInt32.add_assoc,
    UInt32.add_comm _ r.b]

/-- A row of steps is a row of operations. -/
theorem steps_eq (data : List UInt8) (is : List Nat) : ∀ r : Registers,
    words ((is.map fun i => (Rfc1321.function i, Rfc1321.index i, Rfc1321.T.getD i 0,
      Rfc1321.shift i)).foldl (Md5.step data) r) =
        is.foldl (Rfc1321.operation data) (words r) := by
  induction is with
  | nil => exact fun _ => rfl
  | cons i is ih =>
    intro r
    rw [List.map_cons, List.foldl_cons, List.foldl_cons, ih, step_eq]

/-- The sixteen steps of each round, four rounds: one block. -/
theorem block_eq (r : Registers) (data : List UInt8) :
    words (Md5.block r data) = Rfc1321.process (words r) data := by
  unfold Md5.block Rfc1321.process
  rw [rounds_eq, ← steps_eq]
  rfl

/-- One block after the other. -/
theorem blocks_eq (n : Nat) : ∀ (r : Registers) (data : List UInt8),
    words (blocks n r data).1 = Rfc1321.processAll n (words r) data := by
  induction n with
  | zero => exact fun _ _ => rfl
  | succ n ih =>
    intro r data
    rw [blocks, ih, block_eq, Rfc1321.processAll_succ]

/-- What the library hashes at the end is the padded message. -/
theorem pad_eq (data : List UInt8) {rest : List UInt8} (h : rest.length = data.length % 64) :
    data ++ (0x80 :: List.replicate (if 64 - (rest.length + 1) < 8 then 64 - (rest.length + 1) + 56
      else 56 - (rest.length + 1)) 0 ++ toLe (UInt32.ofNat (data.length % 2 ^ 29 * 8)) ++
        toLe (UInt32.ofNat (data.length / 2 ^ 29 % 2 ^ 32))) = Rfc1321.pad data := by
  have hzeros : (if 64 - (rest.length + 1) < 8 then 64 - (rest.length + 1) + 56
      else 56 - (rest.length + 1)) = (119 - data.length % 64) % 64 := by
    split
    · omega
    · omega
  rw [hzeros, Rfc1321.pad, List.append_assoc, toLe_counters, List.append_assoc]

/-- The blocks of the data, and then those of what is left and of what follows. -/
theorem blocks_behind (r : Registers) (data tail : List UInt8) :
    blocks (((blocks (data.length / 64) r data).2 ++ tail).length / 64)
        (blocks (data.length / 64) r data).1 ((blocks (data.length / 64) r data).2 ++ tail) =
      blocks ((data ++ tail).length / 64) r (data ++ tail) := by
  have hcount : (data ++ tail).length / 64 =
      data.length / 64 + ((blocks (data.length / 64) r data).2 ++ tail).length / 64 := by
    rw [List.length_append, List.length_append, length_blocks_rest]
    omega
  rw [hcount, blocks_add, blocks_append (data.length / 64) (x := data) (by omega)]

/-- What the library hashes at the end, with the padding apart. -/
theorem final_result (held : Context) : Md5.final held =
    let tail := 0x80 :: List.replicate (if 64 - (held.buffer.length + 1) < 8
      then 64 - (held.buffer.length + 1) + 56 else 56 - (held.buffer.length + 1)) 0 ++
        toLe (UInt32.ofNat (held.lo * 8)) ++ toLe (UInt32.ofNat held.hi)
    result (blocks ((held.buffer ++ tail).length / 64) held.registers (held.buffer ++ tail)).1 := by
  dsimp only
  rw [← List.append_assoc, ← List.append_assoc]
  rfl

/-- The context after all data at once. -/
theorem update_init (data : List UInt8) : Md5.update Md5.init data =
    { lo := data.length % 2 ^ 29, hi := data.length / 2 ^ 29 % 2 ^ 32,
      registers := (blocks (data.length / 64) Md5.init.registers data).1,
      buffer := (blocks (data.length / 64) Md5.init.registers data).2,
      lo_lt := Nat.mod_lt _ (by decide) } := by
  have hlo : (0 + data.length) % 2 ^ 29 = data.length % 2 ^ 29 := by rw [Nat.zero_add]
  have hhi : (0 + (if data.length % 2 ^ 29 < 0 then 1 else 0) + data.length / 2 ^ 29) % 2 ^ 32 =
      data.length / 2 ^ 29 % 2 ^ 32 := by
    rw [if_neg (Nat.not_lt_zero _), Nat.zero_add]
  unfold Md5.update
  simp only [show Md5.init.lo = 0 from rfl, show Md5.init.hi = 0 from rfl, hlo, hhi]
  rfl

/-- **RFC 1321 is met**, for every message. -/
theorem digest_eq_rfc1321 (data : List UInt8) : digest data = Rfc1321.md5 data := by
  have hpad := pad_eq data (length_blocks_rest Md5.init.registers data)
  have hwords := blocks_eq ((Rfc1321.pad data).length / 64) Md5.init.registers (Rfc1321.pad data)
  rw [digest, update_init, final_result]
  dsimp only
  rw [blocks_behind, hpad, result, toLe_eq, toLe_eq, toLe_eq, toLe_eq]
  unfold Rfc1321.md5
  dsimp only
  rw [show Rfc1321.initial = words Md5.init.registers from rfl, ← hwords]
  rfl

/-- **The code computes the digest of RFC 1321**: over data in any pieces, from any bytes in the
    context, with no access outside of the buffer or of the pieces; and it leaves zeros. -/
theorem md5_pieces_rfc1321 (ctx : MD5Ctx) {pieces : List (List UInt8)}
    (h : ∀ piece ∈ pieces, piece.length < 2 ^ 64) :
    (md5Updates (md5Init ctx) pieces).bind md5Final =
      some (Rfc1321.md5 pieces.flatten, zeroCtx) := by
  rw [md5_pieces ctx h, digest_eq_rfc1321]

/-- Two pieces around the end of a block. -/
theorem md5_pieces_rfc1321_two : (∀ piece ∈ [List.replicate 63 (1 : UInt8), [2, 3]],
      piece.length < 2 ^ 64) ∧
    (md5Updates (md5Init zeroCtx) [List.replicate 63 1, [2, 3]]).bind md5Final =
      some (Rfc1321.md5 [List.replicate 63 1, [2, 3]].flatten, zeroCtx) :=
  ⟨by decide, md5_pieces_rfc1321 zeroCtx (by decide)⟩

end Safewrt.Safeloader
