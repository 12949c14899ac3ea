/-
  The forwarding loop of the C client (packages/lifeline/lifeline.c, `splice` and `forward_loop`).

  1. **`step`**: one system call of the loop and its result.  `poll` tells which descriptors are
     ready, `read` puts a chunk into the buffer both directions share, `write` takes it out again
     and may accept a part of it.  The state is the call the loop stands at, so a run is the list of
     the results, and the environment may choose each of them freely.

  2. `Relayed`: what was written to each descriptor is what was read from the other, up to the
     chunk that is being written or whose `write` failed.

  3. **`relayed_iff`**: that is so after every run without a short write, and after no other.
     `splice` returns what `write` returns, so the loop takes a short write for a whole one, and
     what is missing then is never made up for (`Lossy`).

  4. **The invariant** has two sides, and a run is always on one of them (`Forwards`): as long as no
     write was short, everything is relayed; from the first short write on some direction has lost
     bytes, and no later step gives them back (`step_lossy`), since what was read is not kept.
-/
import Safewrt.Lib.Run

namespace Safewrt.Lifeline

open Safewrt.Lib

/-! ## The loop -/

/-- The two sockets of `forward_loop`. -/
inductive Fd
  | fd1   -- the local one
  | fd2   -- the remote one
  deriving Repr, DecidableEq

/-- The descriptor that is written to what is read from this one. -/
def Fd.other : Fd → Fd
  | .fd1 => .fd2
  | .fd2 => .fd1

/-- The call the loop is in.  `also` says that `fds[1].revents` is still to be looked at and is
    set. -/
inductive Call
  | poll
  | read (src : Fd) (also : Bool)
  | write (src : Fd) (size : Nat) (also : Bool)
  | done                               -- `read` was below 1: `return`
  | failed (src : Fd) (size : Nat)     -- `write` was below 1: `return`
  | exit                               -- `exit(ret)`
  deriving Repr, DecidableEq

/-- What the call returns. -/
inductive Result
  | ready (fd1 fd2 : Bool)          -- `poll`, at least one
  | pollError
  | chunk (bytes : List UInt8)      -- `read`, at least one byte
  | readEnd                         -- 0 or -1
  | wrote (n : Nat)                 -- `write`, at least one byte and at most all
  | writeError                      -- 0 or -1
  deriving Repr, DecidableEq

/-- The loop, and what passed through each descriptor so far. -/
structure Loop where
  call : Call
  /-- `static char buf[1024]` -/
  buf : List UInt8
  got : Fd → List UInt8
  sent : Fd → List UInt8

/-- `sizeof buf` -/
def bufSize : Nat := 1024

/-- Before the first `poll` nothing is read and nothing is sent. -/
def start : Loop where
  call := .poll
  buf := List.replicate bufSize 0
  got _ := []
  sent _ := []

/-- `f` with more bytes at `fd`. -/
def append (f : Fd → List UInt8) (fd : Fd) (bytes : List UInt8) : Fd → List UInt8 :=
  fun x => if x = fd then f x ++ bytes else f x

@[simp] theorem append_self (f : Fd → List UInt8) (fd : Fd) (bytes : List UInt8) :
    append f fd bytes fd = f fd ++ bytes := if_pos rfl

theorem append_ne (f : Fd → List UInt8) {fd x : Fd} (bytes : List UInt8) (h : x ≠ fd) :
    append f fd bytes x = f x := if_neg h

/-- The second `if` of the loop, then `poll` again. -/
def rest (also : Bool) : Call := if also then .read .fd2 false else .poll

/-- One call of the loop, and what comes after it. -/
def step (s : Loop) (result : Result) : Option Loop :=
  match s.call, result with
  | .poll, .ready ready1 ready2 =>
    if ready1 then some { s with call := .read .fd1 ready2 }
    else if ready2 then some { s with call := .read .fd2 false }
    else none
  | .poll, .pollError => some { s with call := .exit }
  | .read src also, .chunk bytes =>
    if 1 ≤ bytes.length ∧ bytes.length ≤ bufSize then
      some { s with call := .write src bytes.length also,
                    buf := bytes ++ s.buf.drop bytes.length,
                    got := append s.got src bytes }
    else none
  | .read _ _, .readEnd => some { s with call := .done }
  | .write src size also, .wrote n =>
    if 1 ≤ n ∧ n ≤ size then
      some { s with call := rest also,
                    sent := append s.sent src.other ((s.buf.take size).take n) }
    else none
  | .write src size _, .writeError => some { s with call := .failed src size }
  | _, _ => none

/-- What one call can do. -/
theorem step_cases {s t : Loop} {result : Result} (h : step s result = some t) :
    (∃ ready1 ready2 src also, s.call = .poll ∧ result = .ready ready1 ready2 ∧
      t = { s with call := .read src also }) ∨
    (s.call = .poll ∧ result = .pollError ∧ t = { s with call := .exit }) ∨
    (∃ src also bytes, s.call = .read src also ∧ result = .chunk bytes ∧
      t = { s with call := .write src bytes.length also,
                   buf := bytes ++ s.buf.drop bytes.length,
                   got := append s.got src bytes }) ∨
    (∃ src also, s.call = .read src also ∧ result = .readEnd ∧ t = { s with call := .done }) ∨
    (∃ src size also n, s.call = .write src size also ∧ result = .wrote n ∧ 1 ≤ n ∧ n ≤ size ∧
      t = { s with call := rest also,
                   sent := append s.sent src.other ((s.buf.take size).take n) }) ∨
    (∃ src size also, s.call = .write src size also ∧ result = .writeError ∧
      t = { s with call := .failed src size }) := by
  -- one disjunct for each arm of `step`, in its order
  unfold step at h
  split at h
  · rename_i ready1 ready2 hcall
    split at h
    · exact .inl ⟨ready1, ready2, .fd1, ready2, hcall, rfl, (Option.some.inj h).symm⟩
    · split at h
      · exact .inl ⟨ready1, ready2, .fd2, false, hcall, rfl, (Option.some.inj h).symm⟩
      · exact absurd h (by simp)
  · rename_i hcall
    exact .inr (.inl ⟨hcall, rfl, (Option.some.inj h).symm⟩)
  · rename_i src also bytes hcall
    split at h
    · exact .inr (.inr (.inl ⟨src, also, bytes, hcall, rfl, (Option.some.inj h).symm⟩))
    · exact absurd h (by simp)
  · rename_i src also hcall
    exact .inr (.inr (.inr (.inl ⟨src, also, hcall, rfl, (Option.some.inj h).symm⟩)))
  · rename_i src size also n hcall
    split at h
    · rename_i hn
      exact .inr (.inr (.inr (.inr (.inl ⟨src, size, also, n, hcall, rfl, hn.1, hn.2,
        (Option.some.inj h).symm⟩))))
    · exact absurd h (by simp)
  · rename_i src size also hcall
    exact .inr (.inr (.inr (.inr (.inr ⟨src, size, also, hcall, rfl,
      (Option.some.inj h).symm⟩))))
  · exact absurd h (by simp)

/-! ## What is relayed -/

/-- The chunk from `fd` that is being written, or whose `write` failed. -/
def Loop.unsent (s : Loop) (fd : Fd) : List UInt8 :=
  match s.call with
  | .write src size _ => if src = fd then s.buf.take size else []
  | .failed src size => if src = fd then s.buf.take size else []
  | _ => []

/-- No byte is lost, duplicated, out of order or on the wrong side. -/
def Loop.Relayed (s : Loop) : Prop := ∀ fd, s.sent fd.other ++ s.unsent fd = s.got fd

/-- As far as lengths go, at most what was read is written. -/
def Loop.Bounded (s : Loop) : Prop :=
  ∀ fd, (s.sent fd.other).length + (s.unsent fd).length ≤ (s.got fd).length

/-- Bytes are missing that no later call writes. -/
def Loop.Lossy (s : Loop) : Prop :=
  ∃ fd, (s.sent fd.other).length + (s.unsent fd).length < (s.got fd).length

/-- `write` accepts a part of the chunk only. -/
def Loop.Short (s : Loop) (result : Result) : Prop :=
  ∃ src size also n, s.call = .write src size also ∧ result = .wrote n ∧ 1 ≤ n ∧ n < size

/-- A loss is never made good: what was sent has a gap before its last byte. -/
theorem Loop.Lossy.not_relayed {s : Loop} (h : s.Lossy) : ¬ s.Relayed := by
  obtain ⟨fd, hlt⟩ := h
  intro hrelayed
  have hlen := congrArg List.length (hrelayed fd)
  rw [List.length_append] at hlen
  omega

@[simp] theorem other_inj (a b : Fd) : a.other = b.other ↔ a = b := by
  cases a <;> cases b <;> decide

/-- Back at the head of the loop, no chunk waits for its `write`. -/
theorem unsent_rest (s : Loop) (also : Bool) (fd : Fd) (sent : Fd → List UInt8) :
    Loop.unsent { s with call := rest also, sent := sent } fd = [] := by
  cases also <;> rfl

/-- The bytes on their way from `fd`, after one call. -/
inductive Moved (s t : Loop) (result : Result) (fd : Fd) : Prop
  /-- nothing happened to this direction -/
  | kept (got : t.got fd = s.got fd) (sent : t.sent fd.other = s.sent fd.other)
      (unsent : t.unsent fd = s.unsent fd) : Moved s t result fd
  /-- a chunk was read, where none was under way -/
  | read (bytes : List UInt8) (before : s.unsent fd = []) (got : t.got fd = s.got fd ++ bytes)
      (sent : t.sent fd.other = s.sent fd.other) (unsent : t.unsent fd = bytes) :
      Moved s t result fd
  /-- `n` bytes of the chunk were written, and the loop goes on -/
  | wrote (n : Nat) (pos : 1 ≤ n) (fits : n ≤ (s.unsent fd).length)
      (hresult : result = .wrote n) (got : t.got fd = s.got fd)
      (sent : t.sent fd.other = s.sent fd.other ++ (s.unsent fd).take n) (unsent : t.unsent fd = [])
      (short : s.Short (.wrote n) ↔ n < (s.unsent fd).length) : Moved s t result fd

/-- `size` bytes of the buffer are in use while they are written. -/
def Loop.Fits (s : Loop) : Prop := ∀ src size also, s.call = .write src size also →
  size ≤ s.buf.length

/-- A chunk that was read fits into the buffer. -/
theorem step_fits {s t : Loop} {result : Result} (h : step s result = some t) : t.Fits := by
  rintro src size also hcall
  rcases step_cases h with ⟨_, _, _, _, -, -, rfl⟩ | ⟨-, -, rfl⟩ | ⟨_, _, bytes, -, -, rfl⟩ |
    ⟨_, _, -, -, rfl⟩ | ⟨_, _, also', _, -, -, -, -, rfl⟩ | ⟨_, _, _, -, -, rfl⟩
  · exact absurd hcall (by simp)
  · exact absurd hcall (by simp)
  · obtain ⟨-, rfl, -⟩ := Call.write.inj hcall
    show bytes.length ≤ (bytes ++ _).length
    rw [List.length_append]
    omega
  · exact absurd hcall (by simp)
  · cases also' <;> exact absurd hcall (by simp [rest])
  · exact absurd hcall (by simp)

/-- **One call moves bytes in one direction, and by what it returned.** -/
theorem step_moved {s t : Loop} {result : Result} (hfits : s.Fits) (h : step s result = some t)
    (fd : Fd) : Moved s t result fd := by
  rcases step_cases h with ⟨_, _, src, also, hcall, -, rfl⟩ | ⟨hcall, -, rfl⟩ |
    ⟨src, also, bytes, hcall, -, rfl⟩ | ⟨src, also, hcall, -, rfl⟩ |
    ⟨src, size, also, n, hcall, hresult, hpos, hn, rfl⟩ | ⟨src, size, also, hcall, -, rfl⟩
  · -- `poll` moves no byte
    exact .kept rfl rfl (by simp [Loop.unsent, hcall])
  · exact .kept rfl rfl (by simp [Loop.unsent, hcall])
  · by_cases hsrc : src = fd
    · subst hsrc
      exact .read bytes (by simp [Loop.unsent, hcall]) (append_self ..) rfl
        (by simp [Loop.unsent])
    · -- a read from the other descriptor
      exact .kept (append_ne _ _ (Ne.symm hsrc)) rfl (by simp [Loop.unsent, hcall, hsrc])
  · exact .kept rfl rfl (by simp [Loop.unsent, hcall])
  · -- a write takes bytes from the front of the chunk; it is short if some are left
    have hsize := hfits src size also hcall
    by_cases hsrc : src = fd
    · subst hsrc
      have hunsent : s.unsent src = s.buf.take size := by simp [Loop.unsent, hcall]
      have hlen : (s.unsent src).length = size := by
        rw [hunsent, List.length_take]
        omega
      refine .wrote n hpos (by omega) hresult rfl ?_ (unsent_rest ..) ?_
      · rw [hunsent]
        exact append_self ..
      · rw [hlen]
        constructor
        · rintro ⟨_, _, _, _, hcall', hwrote, -, hlt⟩
          rw [hcall] at hcall'
          obtain ⟨-, rfl, -⟩ := Call.write.inj hcall'
          rw [Result.wrote.inj hwrote]
          exact hlt
        · exact fun hlt => ⟨src, size, also, n, hcall, rfl, hpos, hlt⟩
    · refine .kept rfl (append_ne _ _ ?_) ?_
      · rw [Ne, other_inj]
        exact Ne.symm hsrc
      · rw [unsent_rest]
        simp [Loop.unsent, hcall, hsrc]
  · exact .kept rfl rfl (by simp [Loop.unsent, hcall])

/-! ## Whole runs -/

/-- Every `write` of the run accepts its whole chunk. -/
def FullWrites (results : List Result) : Prop :=
  ∀ before result s, before ++ [result] <+: results → run step start before = some s →
    ¬ s.Short result

theorem fullWrites_nil : FullWrites [] := by
  intro before result s h
  exact absurd (List.prefix_nil.mp h) (by simp)

/-- One call more. -/
theorem fullWrites_concat {results : List Result} {result : Result} {s : Loop}
    (hrun : run step start results = some s) :
    FullWrites (results ++ [result]) ↔ FullWrites results ∧ ¬ s.Short result := by
  constructor
  · intro h
    exact ⟨fun before r t hpre => h before r t (hpre.trans (List.prefix_append ..)),
      h results result s (List.prefix_refl _) hrun⟩
  · rintro ⟨h, hlast⟩ before r t hpre ht
    rcases List.prefix_concat_iff.mp hpre with heq | hpre
    · obtain ⟨rfl, hr⟩ := List.append_inj' heq rfl
      rw [hrun] at ht
      rw [← Option.some.inj ht, List.singleton_inj.mp hr]
      exact hlast
    · exact h before r t hpre ht

/-- What a run keeps: it relays until a `write` is short, and is lossy from then on. -/
structure Forwards (results : List Result) (s : Loop) : Prop where
  fits : s.Fits
  bounded : s.Bounded
  relayed : FullWrites results → s.Relayed
  lossy : ¬ FullWrites results → s.Lossy

/-- The invariant holds at the start. -/
theorem forwards_start : Forwards [] start where
  fits := fun _ _ _ h => absurd h (by simp [start])
  bounded := fun _ => Nat.le_refl _
  relayed := fun _ _ => rfl
  lossy := fun h => absurd fullWrites_nil h

/-- No step sends more than was read. -/
theorem step_bounded {s t : Loop} {result : Result} (hfits : s.Fits)
    (h : step s result = some t) (hbounded : s.Bounded) : t.Bounded := by
  intro fd
  have hfd := hbounded fd
  cases step_moved hfits h fd with
  | kept got sent unsent => rw [got, sent, unsent]; exact hfd
  | read bytes before got sent unsent =>
    rw [got, sent, unsent, List.length_append]
    omega
  | wrote n pos fits hresult got sent unsent short =>
    rw [got, sent, unsent, List.length_append, List.length_take, List.length_nil]
    omega

/-- A step without a short write keeps the relation. -/
theorem step_relayed {s t : Loop} {result : Result} (hfits : s.Fits)
    (h : step s result = some t) (hfull : ¬ s.Short result) (hrelayed : s.Relayed) :
    t.Relayed := by
  intro fd
  have hfd := hrelayed fd
  cases step_moved hfits h fd with
  | kept got sent unsent => rw [got, sent, unsent]; exact hfd
  | read bytes before got sent unsent =>
    rw [before, List.append_nil] at hfd
    rw [got, sent, unsent, hfd]
  | wrote n pos fits hresult got sent unsent short =>
    rw [hresult, short] at hfull
    rw [got, sent, unsent, List.append_nil, List.take_of_length_le (by omega)]
    exact hfd

/-- What is missing stays missing. -/
theorem step_lossy {s t : Loop} {result : Result} (hfits : s.Fits)
    (h : step s result = some t) (hlossy : s.Lossy) : t.Lossy := by
  obtain ⟨fd, hfd⟩ := hlossy
  refine ⟨fd, ?_⟩
  cases step_moved hfits h fd with
  | kept got sent unsent => rw [got, sent, unsent]; exact hfd
  | read bytes before got sent unsent =>
    rw [before, List.length_nil] at hfd
    rw [got, sent, unsent, List.length_append]
    omega
  | wrote n pos fits hresult got sent unsent short =>
    rw [got, sent, unsent, List.length_append, List.length_take, List.length_nil]
    omega

/-- A short `write` loses the rest of its chunk. -/
theorem step_short {s t : Loop} {result : Result} (hfits : s.Fits)
    (h : step s result = some t) (hbounded : s.Bounded) (hshort : s.Short result) : t.Lossy := by
  obtain ⟨src, size, also, n, hcall, rfl, hpos, hlt⟩ := hshort
  have hunsent : s.unsent src = s.buf.take size := by simp [Loop.unsent, hcall]
  have hlen : (s.unsent src).length = size := by
    have hsize := hfits src size also hcall
    rw [hunsent, List.length_take]
    omega
  have hsrc := hbounded src
  refine ⟨src, ?_⟩
  cases step_moved hfits h src with
  | kept got sent unsent =>
    -- the loop is past this chunk
    have hrest : t.unsent src = [] := by
      rcases step_cases h with ⟨_, _, _, _, hcall', -⟩ | ⟨hcall', -⟩ | ⟨_, _, _, hcall', -⟩ |
        ⟨_, _, hcall', -⟩ | ⟨_, _, _, _, -, -, -, -, rfl⟩ | ⟨_, _, _, -, hresult, -⟩
      · exact absurd (hcall.symm.trans hcall') (by simp)
      · exact absurd (hcall.symm.trans hcall') (by simp)
      · exact absurd (hcall.symm.trans hcall') (by simp)
      · exact absurd (hcall.symm.trans hcall') (by simp)
      · exact unsent_rest ..
      · exact absurd hresult (by simp)
    rw [unsent] at hrest
    rw [hrest, List.length_nil] at hlen
    omega
  | read bytes before got sent unsent =>
    rw [before, List.length_nil] at hlen
    omega
  | wrote m pos fits hresult got sent unsent short =>
    obtain rfl := Result.wrote.inj hresult
    rw [got, sent, unsent, List.length_append, List.length_take, List.length_nil]
    omega

/-- By induction along the run, with both halves of the equivalence in the invariant. -/
theorem forwards_run : ∀ results s, run step start results = some s → Forwards results s := by
  refine run_induction Forwards forwards_start ?_
  intro results s result t hrun hs hstep
  have hconcat := @fullWrites_concat results result s hrun
  refine ⟨step_fits hstep, step_bounded hs.fits hstep hs.bounded, ?_, ?_⟩
  · intro hfull
    obtain ⟨hbefore, hlast⟩ := hconcat.mp hfull
    exact step_relayed hs.fits hstep hlast (hs.relayed hbefore)
  · intro hnot
    by_cases hshort : s.Short result
    · exact step_short hs.fits hstep hs.bounded hshort
    · exact step_lossy hs.fits hstep (hs.lossy fun hbefore => hnot (hconcat.mpr ⟨hbefore, hshort⟩))

/-- **A run relays every byte exactly where every `write` was whole.** -/
theorem relayed_iff (results : List Result) (s : Loop) (h : run step start results = some s) :
    s.Relayed ↔ FullWrites results := by
  have hforwards := forwards_run results s h
  refine ⟨fun hrelayed => ?_, hforwards.relayed⟩
  by_contra hnot
  exact (hforwards.lossy hnot).not_relayed hrelayed

/-! ### Three bytes from the local side -/

/-- `poll` reports them, `read` takes them, `write` accepts the first `n`. -/
def threeBytes (n : Nat) : List Result := [.ready true false, .chunk [0x53, 0x53, 0x48], .wrote n]

/-- All three: nothing is missing. -/
theorem relayed_iff_threeBytes : ∃ s, run step start (threeBytes 3) = some s ∧
    s.Relayed ∧ FullWrites (threeBytes 3) := by
  have hrelayed : ∃ s, run step start (threeBytes 3) = some s ∧
      ∀ fd, s.sent fd.other ++ s.unsent fd = s.got fd :=
    ⟨_, rfl, fun fd => by cases fd <;> decide⟩
  obtain ⟨s, hrun, hrelayed⟩ := hrelayed
  exact ⟨s, hrun, hrelayed, (relayed_iff (threeBytes 3) s hrun).mp hrelayed⟩

/-- **Two of three**: the loop polls again, and the last byte is gone. -/
theorem shortWrite_loses : ∃ s, run step start (threeBytes 2) = some s ∧ s.call = .poll ∧
    s.got .fd1 = [0x53, 0x53, 0x48] ∧ s.sent .fd2 = [0x53, 0x53] ∧ ¬ s.Relayed := by
  refine ⟨_, rfl, rfl, rfl, by decide, fun hrelayed => ?_⟩
  exact absurd (congrArg List.length (hrelayed .fd1)) (by decide)

end Safewrt.Lifeline
