/-
  `CopyWithDeadline` (hatch/src/services/lifeline1/copy.rs) as a machine.

  The future is polled again and again, and each poll goes as far as the answers of its reader, its
  writer and its timer let it.  Nothing may depend on where a poll was suspended; so a state is what
  the future keeps between polls together with the place in `poll` where the code is.

  1. **Machine** — one `Point` for every place of `poll` where something is tested or where the
     code waits for an answer; the labels are those answers (what the timer, `read`, `write` and
     `flush` return) and `go` for a test.  `poll` returning `NotReady` is the point `suspended`,
     so a run of the machine is any sequence of polls with any answers, cut anywhere.

  2. **Log** — every transfer is recorded as it happens.  What was read and what the writer
     accepted are projections of the log, so nothing is claimed about a counter that the code
     keeps itself.

  3. **Invariant** (`Sound`) — the bytes read are the bytes accepted followed by
     `buf[pos..cap]`.  Every step keeps it (`sound_step`), by the point the step is taken at.  The
     point says more while a test is being made (`PointOk`): that the slice to be written is not
     empty and is the pending one, that the buffer is drained where it is refilled or flushed.

  4. `copy_sound`: the invariant for all runs, and what a completed copy has done.
-/
import Safewrt.Lib.Run
import Mathlib.Data.UInt

namespace Safewrt.Lifeline1

open Safewrt.Lib

/-! ## The future -/

/-- The length of `buf`. -/
def bufSize : Nat := 2048

/-- The boxed slice: its length never changes. -/
structure Buffer where
  bytes : List UInt8
  size : bytes.length = bufSize

/-- `Box::new([0; 2048])`. -/
def Buffer.zeroed : Buffer := ⟨List.replicate bufSize 0, List.length_replicate ..⟩

/-- `read` puts `data` at the front of the slice it is given. -/
def Buffer.fill (b : Buffer) (data : List UInt8) (h : data.length ≤ bufSize) : Buffer :=
  ⟨data ++ b.bytes.drop data.length, by rw [List.length_append, List.length_drop, b.size]; omega⟩

/-- `&buf[pos..cap]`; `none` where Rust panics. -/
def Buffer.slice (b : Buffer) (pos cap : Nat) : Option (List UInt8) :=
  if pos ≤ cap ∧ cap ≤ b.bytes.length then some ((b.bytes.take cap).drop pos) else none

/-- The fields of `CopyWithDeadline`.  A timer is the instant it fires at; it is missing where it
    could not be created.  Instants and durations count nanoseconds.  `reader` and `writer` are
    there until the future completes. -/
structure CopyWithDeadline where
  deadline : Nat
  timeout : Option Nat
  readDone : Bool
  pos : Nat
  cap : Nat
  amt : UInt64
  buf : Buffer

/-- `copy_with_deadline`, once `Timeout::new(deadline, &handle).ok()` has given `timeout`. -/
def copyWithDeadline (deadline : Nat) (timeout : Option Nat) : CopyWithDeadline :=
  ⟨deadline, timeout, false, 0, 0, 0, .zeroed⟩

/-- `if let Some(timeout) = self.timeout.as_mut() { timeout.reset(now + self.deadline) }` -/
def CopyWithDeadline.reset (c : CopyWithDeadline) (now : Nat) : CopyWithDeadline :=
  { c with timeout := c.timeout.map fun _ => now + c.deadline }

/-- The bytes read and not yet written, `buf[pos..cap]`. -/
def CopyWithDeadline.pending (c : CopyWithDeadline) : List UInt8 :=
  (c.buf.bytes.take c.cap).drop c.pos

/-! ## The machine -/

/-- How the future completes: `Ok` through the deadline, `Ok` at the end of the copy, `Err`. -/
inductive Exit
  | deadline
  | copied
  | failed
  deriving Repr, DecidableEq

/-- Where the code of `poll` stands. -/
inductive Point
  | suspended                 -- not yet polled, or the last poll returned `NotReady`
  | top                       -- head of `loop`
  | reading                   -- in `reader.read(&mut self.buf)`
  | whileTest                 -- head of `while self.pos < self.cap`
  | writing (slice : List UInt8)  -- in `writer.write(&self.buf[self.pos..self.cap])`
  | finishTest                -- `if self.pos == self.cap && self.read_done`
  | flushing                  -- in `writer.flush()`
  | returned (exit : Exit)
  | panicked
  deriving Repr, DecidableEq

/-- One I/O call that succeeded, with the time it returned at. -/
inductive Transfer
  | read (now : Nat) (data : List UInt8)
  | wrote (now : Nat) (data : List UInt8)
  | flushed (now : Nat)
  deriving Repr, DecidableEq

/-- What a transfer took from the reader. -/
def Transfer.readBytes : Transfer → List UInt8
  | .read _ data => data
  | .wrote _ _ => []
  | .flushed _ => []

/-- What a transfer gave the writer. -/
def Transfer.wroteBytes : Transfer → List UInt8
  | .read _ _ => []
  | .wrote _ data => data
  | .flushed _ => []

/-- The bytes the reader has given. -/
def bytesRead (log : List Transfer) : List UInt8 := log.flatMap Transfer.readBytes

/-- The bytes the writer has accepted. -/
def accepted (log : List Transfer) : List UInt8 := log.flatMap Transfer.wroteBytes

@[simp] theorem bytesRead_concat (log : List Transfer) (t : Transfer) :
    bytesRead (log ++ [t]) = bytesRead log ++ t.readBytes := by
  simp [bytesRead]

@[simp] theorem accepted_concat (log : List Transfer) (t : Transfer) :
    accepted (log ++ [t]) = accepted log ++ t.wroteBytes := by
  simp [accepted]

/-- A copy in progress. -/
structure Copy where
  future : CopyWithDeadline
  point : Point
  log : List Transfer

/-- A future that has not been polled. -/
def Copy.init (deadline : Nat) (timeout : Option Nat) : Copy :=
  ⟨copyWithDeadline deadline timeout, .suspended, []⟩

/-- What `self.timeout.poll()` answers. -/
inductive TimerAnswer
  | ready
  | notReady
  | error
  deriving Repr, DecidableEq

/-- What `poll_read` returns. -/
inductive ReadAnswer
  | ready (data : List UInt8)    -- `Ok(n)`, `n` the length; none at the end of the stream
  | wouldBlock
  | error
  deriving Repr, DecidableEq

/-- What `poll_write` returns; `i` may be less than what it was given, and 0. -/
inductive WriteAnswer
  | ready (i : Nat)
  | wouldBlock
  | error
  deriving Repr, DecidableEq

/-- What `poll_flush` returns. -/
inductive FlushAnswer
  | ready
  | wouldBlock
  | error
  deriving Repr, DecidableEq

/-- What happens next, and when. -/
inductive Event
  | go (now : Nat)
  | poll (now : Nat) (answer : TimerAnswer)
  | read (now : Nat) (answer : ReadAnswer)
  | write (now : Nat) (answer : WriteAnswer)
  | flush (now : Nat) (answer : FlushAnswer)
  deriving Repr, DecidableEq

/-- The poll of the timer at the head of `poll`. -/
def Copy.onTimer (s : Copy) : TimerAnswer → Copy
  | .ready => { s with point := .returned .deadline }
  | _ => { s with point := .top }

/-- `reader.read` has returned.  It answers with at most as many bytes as the buffer holds. -/
def Copy.onRead (s : Copy) (now : Nat) : ReadAnswer → Option Copy
  | .wouldBlock => some { s with point := .suspended }
  | .error => some { s with point := .returned .failed }
  | .ready data =>
    if h : data.length ≤ bufSize then
      let c := s.future.reset now
      -- the deadline is reset at the end of the stream as well
      let c := if data.length = 0 then { c with readDone := true }
        else { c with buf := c.buf.fill data h, pos := 0, cap := data.length }
      some ⟨c, .whileTest, s.log ++ [.read now data]⟩
    else none

/-- `writer.write(slice)` has returned.  It accepts at most the slice. -/
def Copy.onWrite (s : Copy) (slice : List UInt8) (now : Nat) : WriteAnswer → Option Copy
  | .wouldBlock => some { s with point := .suspended }
  | .error => some { s with point := .returned .failed }
  | .ready i =>
    if i ≤ slice.length then
      let c := s.future.reset now
      -- `ErrorKind::WriteZero`
      if i = 0 then some ⟨c, .returned .failed, s.log⟩
      else some ⟨{ c with pos := c.pos + i, amt := c.amt + UInt64.ofNat i }, .whileTest,
        s.log ++ [.wrote now (slice.take i)]⟩
    else none

/-- `writer.flush` has returned. -/
def Copy.onFlush (s : Copy) (now : Nat) : FlushAnswer → Copy
  | .wouldBlock => { s with point := .suspended }
  | .error => { s with point := .returned .failed }
  | .ready => ⟨s.future, .returned .copied, s.log ++ [.flushed now]⟩

/-- One step of `poll`.  A future that has completed is not polled again. -/
def Copy.step (s : Copy) (e : Event) : Option Copy :=
  match s.point, e with
  | .suspended, .poll _ answer => some (s.onTimer answer)
  | .top, .go _ =>
    some { s with
      point := if s.future.pos = s.future.cap ∧ s.future.readDone = false then .reading
        else .whileTest }
  | .reading, .read now answer => s.onRead now answer
  | .whileTest, .go _ =>
    if s.future.pos < s.future.cap then
      match s.future.buf.slice s.future.pos s.future.cap with
      | some slice => some { s with point := .writing slice }
      | none => some { s with point := .panicked }
    else some { s with point := .finishTest }
  | .writing slice, .write now answer => s.onWrite slice now answer
  | .finishTest, .go _ =>
    some { s with
      point := if s.future.pos = s.future.cap ∧ s.future.readDone = true then .flushing
        else .top }
  | .flushing, .flush now answer => some (s.onFlush now answer)
  | _, _ => none

/-! ## What a step adds to the log -/

/-- The bytes that the label hands to the copy. -/
def Event.readData : Event → Option (List UInt8)
  | .read _ (.ready data) => some data
  | _ => none

/-- At most one transfer that is not a read. -/
def OneMore (log log' : List Transfer) : Prop :=
  log' = log ∨ ∃ x, log' = log ++ [x] ∧ x.readBytes = [] ∧ ∀ now data, x ≠ .read now data

/-- Nothing is transferred when the timer is polled. -/
theorem onTimer_log (s : Copy) (answer : TimerAnswer) : (s.onTimer answer).log = s.log := by
  cases answer <;> rfl

/-- A read that returns is logged, also the one of no bytes that means the end. -/
theorem onRead_log {s t : Copy} {now : Nat} {answer : ReadAnswer}
    (h : s.onRead now answer = some t) :
    (∃ data, answer = .ready data ∧ t.log = s.log ++ [.read now data]) ∨
      ((Event.read now answer).readData = none ∧ t.log = s.log) := by
  cases answer with
  | wouldBlock => exact Or.inr ⟨rfl, by rw [← Option.some.inj h]⟩
  | error => exact Or.inr ⟨rfl, by rw [← Option.some.inj h]⟩
  | ready data =>
    simp only [Copy.onRead] at h
    split at h
    · exact Or.inl ⟨data, rfl, by rw [← Option.some.inj h]⟩
    · exact absurd h (by simp)

/-- A write adds what was accepted. -/
theorem onWrite_log {s t : Copy} {slice : List UInt8} {now : Nat} {answer : WriteAnswer}
    (h : s.onWrite slice now answer = some t) : OneMore s.log t.log := by
  cases answer with
  | wouldBlock => exact Or.inl (by rw [← Option.some.inj h])
  | error => exact Or.inl (by rw [← Option.some.inj h])
  | ready i =>
    simp only [Copy.onWrite] at h
    split at h
    · split at h
      · exact Or.inl (by rw [← Option.some.inj h])
      · exact Or.inr ⟨.wrote now (slice.take i), by rw [← Option.some.inj h], rfl, nofun⟩
    · exact absurd h (by simp)

/-- A flush adds that it was done, or nothing. -/
theorem onFlush_log (s : Copy) (now : Nat) (answer : FlushAnswer) :
    OneMore s.log (s.onFlush now answer).log := by
  cases answer with
  | wouldBlock => exact Or.inl rfl
  | error => exact Or.inl rfl
  | ready => exact Or.inr ⟨.flushed now, rfl, rfl, nofun⟩

/-- **A step logs the read it was answered with, or at most one transfer that is no read.** -/
theorem step_log {s t : Copy} {e : Event} (h : s.step e = some t) :
    (∃ now data, e = .read now (.ready data) ∧ t.log = s.log ++ [.read now data]) ∨
      (e.readData = none ∧ OneMore s.log t.log) := by
  unfold Copy.step at h
  split at h
  · rw [← Option.some.inj h]
    exact Or.inr ⟨rfl, Or.inl (onTimer_log s _)⟩
  · rw [← Option.some.inj h]
    exact Or.inr ⟨rfl, Or.inl rfl⟩
  · rename_i now answer _
    rcases onRead_log h with ⟨data, hdata, hlog⟩ | ⟨hdata, hlog⟩
    · exact Or.inl ⟨now, data, by rw [hdata], hlog⟩
    · exact Or.inr ⟨hdata, Or.inl hlog⟩
  · refine Or.inr ⟨rfl, Or.inl ?_⟩
    split at h
    · split at h <;> rw [← Option.some.inj h]
    · rw [← Option.some.inj h]
  · exact Or.inr ⟨rfl, onWrite_log h⟩
  · rw [← Option.some.inj h]
    exact Or.inr ⟨rfl, Or.inl rfl⟩
  · rw [← Option.some.inj h]
    exact Or.inr ⟨rfl, onFlush_log s _ _⟩
  · exact absurd h (by simp)

/-! ## No byte lost, none twice -/

/-- What the code knows at a point beyond the invariant. -/
def Copy.PointOk (s : Copy) : Prop :=
  match s.point with
  | .reading => s.future.pos = s.future.cap
  | .writing slice => slice = s.future.pending ∧ s.future.pos < s.future.cap
  | .finishTest => s.future.pos = s.future.cap
  | .flushing => s.future.pos = s.future.cap ∧ s.future.readDone = true
  | .returned .copied =>
    s.future.pos = s.future.cap ∧ s.future.readDone = true ∧
      ∃ log now, s.log = log ++ [.flushed now]
  | .panicked => False
  | _ => True

/-- **The invariant of the copy.** -/
structure Sound (s : Copy) : Prop where
  pos_le_cap : s.future.pos ≤ s.future.cap
  cap_le : s.future.cap ≤ bufSize
  stream : bytesRead s.log = accepted s.log ++ s.future.pending
  amt : s.future.amt = UInt64.ofNat (accepted s.log).length
  eof : s.future.readDone = true → ∃ now, Transfer.read now [] ∈ s.log
  point : s.PointOk

/-- The part of the invariant that belongs to the point the copy is at. -/
theorem Sound.at_point {s : Copy} {p : Point} (h : Sound s) (hp : s.point = p) :
    Copy.PointOk { s with point := p } := by
  obtain rfl := hp
  exact h.point

theorem pending_eq_nil {c : CopyWithDeadline} (h : c.pos = c.cap) : c.pending = [] := by
  rw [CopyWithDeadline.pending, h]
  exact List.drop_eq_nil_of_le (List.length_take_le ..)

/-- The slice that is passed to `write`. -/
theorem length_pending {c : CopyWithDeadline} (h : c.cap ≤ bufSize) :
    c.pending.length = c.cap - c.pos := by
  rw [CopyWithDeadline.pending, List.length_drop, List.length_take, c.buf.size, Nat.min_eq_left h]

/-- A fresh buffer holds nothing else than what was read into it. -/
theorem take_fill {b : Buffer} {data : List UInt8} (h : data.length ≤ bufSize) :
    ((b.fill data h).bytes.take data.length).drop 0 = data := by
  rw [List.drop_zero]
  exact List.take_left

theorem sound_init (deadline : Nat) (timeout : Option Nat) : Sound (.init deadline timeout) :=
  ⟨Nat.le_refl 0, Nat.zero_le _, rfl, rfl, nofun, trivial⟩

/-- A move that leaves the future and the log alone has only its new point to answer for. -/
theorem Sound.move {s : Copy} (h : Sound s) {p : Point} (hp : Copy.PointOk { s with point := p }) :
    Sound { s with point := p } :=
  ⟨h.pos_le_cap, h.cap_le, h.stream, h.amt, h.eof, hp⟩

/-- The end of the stream stays in the log. -/
theorem Sound.eof_concat {s : Copy} (h : Sound s) (t : Transfer)
    (hdone : s.future.readDone = true) : ∃ now, Transfer.read now [] ∈ s.log ++ [t] := by
  obtain ⟨now, hmem⟩ := h.eof hdone
  exact ⟨now, List.mem_append_left _ hmem⟩

/-- The timer changes the point only. -/
theorem sound_onTimer {s : Copy} (h : Sound s) (answer : TimerAnswer) :
    Sound (s.onTimer answer) := by
  cases answer with
  | ready => exact h.move trivial
  | notReady => exact h.move trivial
  | error => exact h.move trivial

/-- The buffer is empty when the reader is asked, so `data` is all that is pending afterwards. -/
theorem sound_onRead {s t : Copy} {now : Nat} {answer : ReadAnswer} (h : Sound s)
    (hpos : s.future.pos = s.future.cap) (ht : s.onRead now answer = some t) : Sound t := by
  cases answer with
  | wouldBlock =>
    rw [← Option.some.inj ht]
    exact h.move trivial
  | error =>
    rw [← Option.some.inj ht]
    exact h.move trivial
  | ready data =>
    -- the reader is only asked for an empty buffer, so the chunk is all that is pending then
    have hread : bytesRead s.log = accepted s.log := by
      rw [h.stream, pending_eq_nil hpos, List.append_nil]
    simp only [Copy.onRead] at ht
    split at ht
    · rename_i hlen
      rw [← Option.some.inj ht]
      by_cases h0 : data.length = 0
      · -- end of the stream
        have hdata : data = [] := List.length_eq_zero_iff.mp h0
        subst hdata
        refine ⟨h.pos_le_cap, h.cap_le, ?_, ?_, fun _ => ⟨now, by simp⟩, trivial⟩
        · show bytesRead (s.log ++ [.read now []]) = accepted (s.log ++ [.read now []]) ++
            s.future.pending
          rw [bytesRead_concat, accepted_concat, h.stream]
          simp [Transfer.readBytes, Transfer.wroteBytes]
        · show s.future.amt = UInt64.ofNat (accepted (s.log ++ [.read now []])).length
          rw [accepted_concat, Transfer.wroteBytes, List.append_nil, h.amt]
      · simp only [if_neg h0]
        refine ⟨Nat.zero_le _, hlen, ?_, ?_, h.eof_concat _, trivial⟩
        · show bytesRead (s.log ++ [.read now data]) = accepted (s.log ++ [.read now data]) ++
            ((s.future.buf.fill data hlen).bytes.take data.length).drop 0
          rw [take_fill, bytesRead_concat, accepted_concat, hread, Transfer.readBytes,
            Transfer.wroteBytes, List.append_nil]
        · show s.future.amt = UInt64.ofNat (accepted (s.log ++ [.read now data])).length
          rw [accepted_concat, Transfer.wroteBytes, List.append_nil, h.amt]
    · exact absurd ht (by simp)

/-- The writer takes the first `i` pending bytes, and `pos` moves behind them. -/
theorem sound_onWrite {s t : Copy} {slice : List UInt8} {now : Nat} {answer : WriteAnswer}
    (h : Sound s) (hslice : slice = s.future.pending) (ht : s.onWrite slice now answer = some t) :
    Sound t := by
  cases answer with
  | wouldBlock =>
    rw [← Option.some.inj ht]
    exact h.move trivial
  | error =>
    rw [← Option.some.inj ht]
    exact h.move trivial
  | ready i =>
    simp only [Copy.onWrite] at ht
    split at ht
    · rename_i hi
      by_cases h0 : i = 0
      · simp only [if_pos h0] at ht
        rw [← Option.some.inj ht]
        exact ⟨h.pos_le_cap, h.cap_le, h.stream, h.amt, h.eof, trivial⟩
      · simp only [if_neg h0] at ht
        rw [← Option.some.inj ht]
        have hlen := length_pending (c := s.future) h.cap_le
        have hacc : accepted (s.log ++ [.wrote now (slice.take i)]) =
            accepted s.log ++ s.future.pending.take i := by
          rw [accepted_concat, Transfer.wroteBytes, hslice]
        rw [hslice] at hi
        -- `pending` is cut behind the `i` bytes that the log gains
        refine ⟨?_, h.cap_le, ?_, ?_, h.eof_concat _, trivial⟩
        · show s.future.pos + i ≤ s.future.cap
          have hle := h.pos_le_cap
          omega
        · show bytesRead (s.log ++ [.wrote now (slice.take i)]) =
            accepted (s.log ++ [.wrote now (slice.take i)]) ++
              (s.future.buf.bytes.take s.future.cap).drop (s.future.pos + i)
          rw [hacc, ← List.drop_drop, List.append_assoc]
          show _ = accepted s.log ++ (s.future.pending.take i ++ s.future.pending.drop i)
          rw [List.take_append_drop, ← h.stream, bytesRead_concat, Transfer.readBytes,
            List.append_nil]
        · show s.future.amt + UInt64.ofNat i =
            UInt64.ofNat (accepted (s.log ++ [.wrote now (slice.take i)])).length
          rw [hacc, List.length_append, List.length_take, Nat.min_eq_left hi, h.amt,
            UInt64.ofNat_add]
    · exact absurd ht (by simp)

/-- A flush that is done is the normal end: then the buffer was empty, and `read_done` set. -/
theorem sound_onFlush {s : Copy} (h : Sound s) (now : Nat)
    (hpoint : s.future.pos = s.future.cap ∧ s.future.readDone = true) (answer : FlushAnswer) :
    Sound (s.onFlush now answer) := by
  cases answer with
  | wouldBlock => exact h.move trivial
  | error => exact h.move trivial
  | ready =>
    refine ⟨h.pos_le_cap, h.cap_le, ?_, ?_, h.eof_concat _, hpoint.1, hpoint.2, s.log, now, rfl⟩
    · show bytesRead (s.log ++ [.flushed now]) = accepted (s.log ++ [.flushed now]) ++
        s.future.pending
      rw [bytesRead_concat, accepted_concat, Transfer.readBytes, Transfer.wroteBytes,
        List.append_nil, List.append_nil, h.stream]
    · show s.future.amt = UInt64.ofNat (accepted (s.log ++ [.flushed now])).length
      rw [accepted_concat, Transfer.wroteBytes, List.append_nil, h.amt]

/-- The slice for `write` is always in range, so the code does not panic. -/
theorem slice_of_sound {s : Copy} (h : Sound s) :
    s.future.buf.slice s.future.pos s.future.cap = some s.future.pending := by
  unfold Buffer.slice
  rw [if_pos ⟨h.pos_le_cap, by rw [s.future.buf.size]; exact h.cap_le⟩]
  rfl

/-- **One step keeps the invariant**, whatever is answered. -/
theorem sound_step {s t : Copy} {e : Event} (h : Sound s) (ht : s.step e = some t) : Sound t := by
  unfold Copy.step at ht
  split at ht
  · -- the timer is polled
    rw [← Option.some.inj ht]
    exact sound_onTimer h _
  · -- the buffer is empty where the reader is asked next
    rw [← Option.some.inj ht]
    refine h.move ?_
    split
    · rename_i hc; exact hc.1
    · trivial
  · -- the reader answers
    rename_i hpt
    exact sound_onRead h (h.at_point hpt) ht
  · -- the writer is given what is pending, or the buffer is empty
    split at ht
    · rename_i hlt
      rw [slice_of_sound h] at ht
      rw [← Option.some.inj ht]
      exact h.move ⟨rfl, hlt⟩
    · rename_i hge
      rw [← Option.some.inj ht]
      have hle := h.pos_le_cap
      exact h.move (show s.future.pos = s.future.cap by omega)
  · -- the writer answers
    rename_i hpt
    exact sound_onWrite h (h.at_point hpt).1 ht
  · -- `finishTest`
    rw [← Option.some.inj ht]
    refine h.move ?_
    split
    · rename_i hc; exact hc
    · trivial
  · -- the writer answers
    rename_i hpt
    rw [← Option.some.inj ht]
    exact sound_onFlush h _ (h.at_point hpt) _
  · exact absurd ht (by simp)

theorem sound_run {deadline : Nat} {timeout : Option Nat} :
    ∀ es t, run Copy.step (.init deadline timeout) es = some t → Sound t :=
  run_invariant Sound (sound_init deadline timeout) fun _ _ _ => sound_step

/-- **The copy is faithful.**  In every state of every run the bytes read are the bytes accepted
    and then `buf[pos..cap]`, the slice is in range, and `amt` (a `u64`) is the number of bytes
    accepted; and a copy that has completed by itself has met the end of the stream, has written
    all it read, and ended with a flush. -/
theorem copy_sound (deadline : Nat) (timeout : Option Nat) (es : List Event) (s : Copy)
    (hrun : run Copy.step (.init deadline timeout) es = some s) :
    (bytesRead s.log = accepted s.log ++ (s.future.buf.bytes.take s.future.cap).drop s.future.pos ∧
      s.future.pos ≤ s.future.cap ∧ s.future.cap ≤ 2048 ∧ s.point ≠ .panicked ∧
      s.future.amt = UInt64.ofNat (accepted s.log).length ∧
      ((accepted s.log).length < 2 ^ 64 → s.future.amt.toNat = (accepted s.log).length)) ∧
    (s.point = .returned .copied →
      (∃ now, Transfer.read now [] ∈ s.log) ∧ accepted s.log = bytesRead s.log ∧
        ∃ log now, s.log = log ++ [.flushed now]) := by
  have h := sound_run es s hrun
  refine ⟨⟨h.stream, h.pos_le_cap, h.cap_le, fun hpt => h.at_point hpt, h.amt, fun hlt => ?_⟩,
    fun hpt => ?_⟩
  · rw [h.amt]
    exact UInt64.toNat_ofNat_of_lt' hlt
  · have hp := h.at_point hpt
    refine ⟨h.eof hp.2.1, ?_, hp.2.2⟩
    rw [h.stream, pending_eq_nil hp.1, List.append_nil]

/-- Three bytes are read, two written; the writer blocks; the next poll writes the third and
    meets the end of the stream. -/
def resumedCopy : List Event :=
  [.poll 0 .notReady, .go 0, .read 1 (.ready [1, 2, 3]), .go 1, .write 1 (.ready 2), .go 1,
    .write 1 .wouldBlock, .poll 5 .notReady, .go 5, .go 5, .write 5 (.ready 1), .go 5, .go 5, .go 5,
    .read 5 (.ready []), .go 5, .go 5, .flush 5 .ready]

theorem resumedCopy_runs :
    (run Copy.step (.init 60 (some 60)) resumedCopy).isSome = true := by decide +kernel

/-- In this run all three bytes arrive. -/
theorem copy_sound_resumed :
    let s := (run Copy.step (.init 60 (some 60)) resumedCopy).get resumedCopy_runs
    bytesRead s.log = [1, 2, 3] ∧ accepted s.log = bytesRead s.log := by
  have hcopied := (copy_sound 60 (some 60) resumedCopy _ (Option.some_get resumedCopy_runs).symm).2
  exact ⟨by decide +kernel, (hcopied (by decide +kernel)).2.1⟩

end Safewrt.Lifeline1
