/-
  One call of `poll` ends (hatch/src/services/lifeline1/copy.rs).

  `poll` is a loop within a loop.  The inner one writes until the buffer is empty, the outer one
  refills it; neither has a bound in the code, and a writer may take one byte at a time.

  1. **Calls** — `Copy.turn` is a step within one call; it counts how often the body of `loop` is
     entered.  A call is a run of it from what the timer leaves, up to a state that rests.

  2. **`Turn`**: every move the code can make, once, with what it does to `pos`, `cap` and
     `read_done`.  `Settled` is what the moves keep: `read_done` is only ever set while the buffer
     is empty, and the reader is only asked while it is not set.

  3. **The measure** — `potential` bounds the moves that are left if the reader gives no more data.
     Every move lowers it, except that a chunk of data pays for a full buffer (`potential_step`).
     The budget of a call is therefore a number for the state it starts in and one for each chunk
     (`pollBound`), and `run_budget` turns that into a bound on its length.

  4. `poll_ends`: with finitely many chunks the call returns, however writer, timer and clock
     behave; and what the iterations of the two loops do on the way.  A call that the timer ends
     does not enter the loop at all, whatever `read_done` says (`flushPending_late`).
-/
import Safewrt.Lib.Run
import Safewrt.Lifeline1.Copy

namespace Safewrt.Lifeline1

open Safewrt.Lib

/-! ## Calls -/

/-- No call of `poll` is under way. -/
def Point.resting : Point → Bool
  | .suspended => true
  | .returned _ => true
  | .panicked => true
  | _ => false

/-- 1 where the code is about to enter the body of `loop`. -/
def Copy.heads (s : Copy) : Nat := if s.point = .top then 1 else 0

/-- A call that has come to `s`, not counting what it went through before. -/
def Copy.entered (s : Copy) : Nat × Copy := (s.heads, s)

/-- A step within a call, with the number of times the body of `loop` has been entered. -/
def Copy.turn (s : Nat × Copy) (e : Event) : Option (Nat × Copy) :=
  if s.2.point.resting then none else (s.2.step e).map fun t => (s.1 + t.heads, t)

/-- A future between two polls. -/
structure Waiting (s : Copy) : Prop where
  reached : ∃ deadline timeout es, run Copy.step (.init deadline timeout) es = some s
  suspended : s.point = .suspended

/-- A call of `poll` on `s`: the timer gave `answer`, then `es` happened, and it stands at `t`, having
    entered the body of `loop` `n` times. -/
structure Called (s : Copy) (answer : TimerAnswer) (es : List Event) (n : Nat) (t : Copy) : Prop where
  waiting : Waiting s
  ran : run Copy.turn (s.onTimer answer).entered es = some (n, t)

/-- A turn is a step of a call that goes on, and counts the heads of the loop. -/
theorem turn_eq {s u : Nat × Copy} {e : Event} (h : Copy.turn s e = some u) :
    s.2.point.resting = false ∧ s.2.step e = some u.2 ∧ u.1 = s.1 + u.2.heads := by
  unfold Copy.turn at h
  split at h
  · exact absurd h (by simp)
  · rename_i hrest
    obtain ⟨t, ht, rfl⟩ := Option.map_eq_some_iff.mp h
    exact ⟨Bool.eq_false_iff.mpr hrest, ht, rfl⟩

/-! ## The moves -/

/-- `pos`, `cap` and `read_done` are as they were. -/
structure SameCursor (s t : Copy) : Prop where
  readDone : t.future.readDone = s.future.readDone
  pos : t.future.pos = s.future.pos
  cap : t.future.cap = s.future.cap

/-- A move that only goes to another point. -/
theorem SameCursor.move (s : Copy) (p : Point) : SameCursor s { s with point := p } :=
  ⟨rfl, rfl, rfl⟩

/-- **What a step can do.** -/
inductive Turn (s t : Copy) : Event → Prop
  | polls (now : Nat) (answer : TimerAnswer) :
      s.point = .suspended → t = s.onTimer answer → Turn s t (.poll now answer)
  | rests (e : Event) :
      s.point.resting = false → t.point.resting = true → SameCursor s t → Turn s t e
  | asks (now : Nat) : s.point = .top → s.future.pos = s.future.cap →
      s.future.readDone = false → t.point = .reading → SameCursor s t → Turn s t (.go now)
  | skips (now : Nat) : s.point = .top →
      ¬ (s.future.pos = s.future.cap ∧ s.future.readDone = false) →
      t.point = .whileTest → SameCursor s t → Turn s t (.go now)
  | eof (now : Nat) : s.point = .reading → t.point = .whileTest → t.future.readDone = true →
      t.future.pos = s.future.pos → t.future.cap = s.future.cap → Turn s t (.read now (.ready []))
  | chunk (now : Nat) (data : List UInt8) : s.point = .reading → data ≠ [] →
      t.point = .whileTest → t.future.readDone = s.future.readDone → t.future.pos = 0 →
      t.future.cap = data.length → data.length ≤ bufSize → Turn s t (.read now (.ready data))
  | offers (now : Nat) (slice : List UInt8) : s.point = .whileTest →
      s.future.pos < s.future.cap → t.point = .writing slice → SameCursor s t → Turn s t (.go now)
  | leaves (now : Nat) : s.point = .whileTest → s.future.pos = s.future.cap →
      t.point = .finishTest → SameCursor s t → Turn s t (.go now)
  | wrote (now i : Nat) (slice : List UInt8) : s.point = .writing slice →
      t.point = .whileTest → s.future.pos < t.future.pos → t.future.pos ≤ s.future.cap →
      t.future.cap = s.future.cap → t.future.readDone = s.future.readDone →
      Turn s t (.write now (.ready i))
  | finishes (now : Nat) : s.point = .finishTest → s.future.pos = s.future.cap →
      s.future.readDone = true → t.point = .flushing → SameCursor s t → Turn s t (.go now)
  | again (now : Nat) : s.point = .finishTest → s.future.pos = s.future.cap →
      s.future.readDone = false → t.point = .top → SameCursor s t → Turn s t (.go now)

/-- The moves a read can make. -/
theorem turn_onRead {s t : Copy} {now : Nat} {answer : ReadAnswer} (hp : s.point = .reading)
    (h : s.onRead now answer = some t) : Turn s t (.read now answer) := by
  have hrest : s.point.resting = false := by rw [hp]; rfl
  cases answer with
  | wouldBlock =>
    rw [← Option.some.inj h]
    exact .rests _ hrest rfl ⟨rfl, rfl, rfl⟩
  | error =>
    rw [← Option.some.inj h]
    exact .rests _ hrest rfl ⟨rfl, rfl, rfl⟩
  | ready data =>
    simp only [Copy.onRead] at h
    split at h
    · rename_i hlen
      rw [← Option.some.inj h]
      by_cases h0 : data.length = 0
      · obtain rfl : data = [] := List.length_eq_zero_iff.mp h0
        exact .eof now hp rfl rfl rfl rfl
      · simp only [if_neg h0]
        exact .chunk now data hp (fun hnil => h0 (by rw [hnil]; rfl)) rfl rfl rfl rfl hlen
    · exact absurd h (by simp)

/-- The moves a write can make; that its slice is what is pending is part of `Sound`. -/
theorem turn_onWrite {s t : Copy} {slice : List UInt8} {now : Nat} {answer : WriteAnswer}
    (hs : Sound s) (hp : s.point = .writing slice) (h : s.onWrite slice now answer = some t) :
    Turn s t (.write now answer) := by
  have hrest : s.point.resting = false := by rw [hp]; rfl
  cases answer with
  | wouldBlock =>
    rw [← Option.some.inj h]
    exact .rests _ hrest rfl ⟨rfl, rfl, rfl⟩
  | error =>
    rw [← Option.some.inj h]
    exact .rests _ hrest rfl ⟨rfl, rfl, rfl⟩
  | ready i =>
    simp only [Copy.onWrite] at h
    split at h
    · rename_i hi
      split at h
      · -- `WriteZero`
        rw [← Option.some.inj h]
        exact .rests _ hrest rfl ⟨rfl, rfl, rfl⟩
      · rename_i h0
        rw [(hs.at_point hp).1, length_pending hs.cap_le] at hi
        rw [← Option.some.inj h]
        -- a byte at least, and no more than was offered
        have hshrinks : s.future.pos < s.future.pos + i := by omega
        have hinside : s.future.pos + i ≤ s.future.cap := by omega
        exact .wrote now i slice hp rfl hshrinks hinside rfl rfl
    · exact absurd h (by simp)

/-- The moves a flush can make. -/
theorem turn_onFlush {s : Copy} (hp : s.point = .flushing) (now : Nat) (answer : FlushAnswer) :
    Turn s (s.onFlush now answer) (.flush now answer) := by
  have hrest : s.point.resting = false := by rw [hp]; rfl
  cases answer with
  | wouldBlock => exact .rests _ hrest rfl ⟨rfl, rfl, rfl⟩
  | error => exact .rests _ hrest rfl ⟨rfl, rfl, rfl⟩
  | ready => exact .rests _ hrest rfl ⟨rfl, rfl, rfl⟩

/-- Every step is one of the moves. -/
theorem step_turn {s t : Copy} {e : Event} (hs : Sound s) (h : s.step e = some t) : Turn s t e := by
  -- the arms of the step function, each with its move
  unfold Copy.step at h
  split at h
  · rename_i hp
    exact .polls _ _ hp (Option.some.inj h).symm
  · rename_i hp
    by_cases hask : s.future.pos = s.future.cap ∧ s.future.readDone = false
    · rw [if_pos hask] at h
      rw [← Option.some.inj h]
      exact .asks _ hp hask.1 hask.2 rfl (.move s _)
    · rw [if_neg hask] at h
      rw [← Option.some.inj h]
      exact .skips _ hp hask rfl (.move s _)
  · rename_i hp
    exact turn_onRead hp h
  · rename_i hp
    split at h
    · rename_i hlt
      rw [slice_of_sound hs] at h
      rw [← Option.some.inj h]
      exact .offers _ _ hp hlt rfl (.move s _)
    · rename_i hge
      rw [← Option.some.inj h]
      have hle := hs.pos_le_cap
      exact .leaves _ hp (by omega) rfl (.move s _)
  · rename_i hp
    exact turn_onWrite hs hp h
  · rename_i hp
    have hpoint : s.future.pos = s.future.cap := hs.at_point hp
    rw [← Option.some.inj h]
    cases hdone : s.future.readDone with
    | true =>
      rw [if_pos ⟨hpoint, rfl⟩]
      exact .finishes _ hp hpoint hdone rfl (.move s _)
    | false =>
      rw [if_neg (by simp)]
      exact .again _ hp hpoint hdone rfl (.move s _)
  · rename_i hp
    rw [← Option.some.inj h]
    exact turn_onFlush hp _ _
  · exact absurd h (by simp)

/-! ## What the moves keep -/

structure Settled (s : Copy) : Prop where
  sound : Sound s
  /-- `read_done` is only set while the buffer is empty -/
  drained : s.future.readDone = true → s.future.pos = s.future.cap
  /-- the reader is only asked while `read_done` is not set -/
  asking : s.point = .reading → s.future.readDone = false

/-- Nothing is read yet. -/
theorem settled_init (deadline : Nat) (timeout : Option Nat) : Settled (.init deadline timeout) :=
  ⟨sound_init deadline timeout, fun _ => rfl, fun _ => rfl⟩

/-- A move that leaves buffer and `read_done` alone keeps what is said about them. -/
theorem SameCursor.drained {s t : Copy} (h : SameCursor s t)
    (hs : s.future.readDone = true → s.future.pos = s.future.cap) :
    t.future.readDone = true → t.future.pos = t.future.cap := by
  intro hdone
  rw [h.pos, h.cap]
  exact hs (h.readDone ▸ hdone)

/-- The poll of the timer is such a move. -/
theorem sameCursor_onTimer (s : Copy) (answer : TimerAnswer) :
    SameCursor s (s.onTimer answer) := by
  cases answer <;> exact ⟨rfl, rfl, rfl⟩

theorem settled_onTimer {s : Copy} (h : Settled s) (answer : TimerAnswer) :
    Settled (s.onTimer answer) := by
  refine ⟨sound_onTimer h.sound answer, (sameCursor_onTimer s answer).drained h.drained, ?_⟩
  cases answer <;> exact fun hp => absurd hp (by simp [Copy.onTimer])

/-- **What a step can do to the cursor**: nothing, end the stream, refill the buffer that was asked
    for, or advance `pos`. -/
theorem Turn.cursor {s t : Copy} {e : Event} (h : Turn s t e) :
    SameCursor s t ∨
    (s.point = .reading ∧ t.future.readDone = true ∧ t.future.pos = s.future.pos ∧
      t.future.cap = s.future.cap) ∨
    (s.point = .reading ∧ t.future.readDone = s.future.readDone) ∨
    (s.future.pos < t.future.pos ∧ t.future.pos ≤ s.future.cap ∧
      t.future.readDone = s.future.readDone) := by
  cases h with
  | polls now answer _ ht =>
    rw [ht]
    exact .inl (sameCursor_onTimer s answer)
  | rests e _ _ hsame => exact .inl hsame
  | asks now _ _ _ _ hsame => exact .inl hsame
  | skips now _ _ _ hsame => exact .inl hsame
  | eof now hp _ hdone hpos hcap => exact .inr (.inl ⟨hp, hdone, hpos, hcap⟩)
  | chunk now data hp _ _ hdone _ _ _ => exact .inr (.inr (.inl ⟨hp, hdone⟩))
  | offers now slice _ _ _ hsame => exact .inl hsame
  | leaves now _ _ _ hsame => exact .inl hsame
  | wrote now i slice _ _ hlt hle _ hdone => exact .inr (.inr (.inr ⟨hlt, hle, hdone⟩))
  | finishes now _ _ _ _ hsame => exact .inl hsame
  | again now _ _ _ _ hsame => exact .inl hsame

/-- Every step does, case by case over the moves. -/
theorem settled_step {s t : Copy} {e : Event} (h : Settled s) (hst : s.step e = some t) :
    Settled t := by
  refine ⟨sound_step h.sound hst, ?_, ?_⟩
  · rcases (step_turn h.sound hst).cursor with hsame | ⟨hp, _, hpos, hcap⟩ | ⟨hp, hdone⟩ |
      ⟨hlt, hle, hdone⟩
    · -- nothing changes in the buffer
      exact hsame.drained h.drained
    · -- the reader is only asked for an empty buffer
      intro _
      rw [hpos, hcap]
      exact h.sound.at_point hp
    · -- a chunk: `read_done` was not set, or the reader would not have been asked
      intro hdone'
      rw [hdone, h.asking hp] at hdone'
      exact absurd hdone' (by decide)
    · -- a write: there was something in the buffer, so `read_done` was not set
      intro hdone'
      have hempty := h.drained (hdone ▸ hdone')
      omega
  · intro hp
    cases step_turn h.sound hst with
    | polls now answer _ ht => rw [ht] at hp ⊢; exact (settled_onTimer h answer).asking hp
    | rests e _ hrest _ => rw [hp] at hrest; exact absurd hrest (by decide)
    | asks now _ _ hdone _ hsame => rw [hsame.readDone]; exact hdone
    | skips now _ _ ht _ => rw [ht] at hp; exact absurd hp (by decide)
    | eof now _ ht _ _ _ => rw [ht] at hp; exact absurd hp (by decide)
    | chunk now data _ _ ht _ _ _ _ => rw [ht] at hp; exact absurd hp (by decide)
    | offers now slice _ _ ht _ => rw [ht] at hp; exact absurd hp (by simp)
    | leaves now _ _ ht _ => rw [ht] at hp; exact absurd hp (by decide)
    | wrote now i slice _ ht _ _ _ _ => rw [ht] at hp; exact absurd hp (by decide)
    | finishes now _ _ _ ht _ => rw [ht] at hp; exact absurd hp (by decide)
    | again now _ _ _ ht _ => rw [ht] at hp; exact absurd hp (by decide)

theorem Waiting.settled {s : Copy} (h : Waiting s) : Settled s := by
  obtain ⟨deadline, timeout, es, hrun⟩ := h.reached
  exact run_invariant Settled (settled_init deadline timeout) (fun _ _ _ => settled_step) es s hrun

theorem Called.settled {s t : Copy} {answer : TimerAnswer} {es : List Event} {n : Nat}
    (h : Called s answer es n t) : Settled t :=
  run_invariant (fun u => Settled u.2) (settled_onTimer h.waiting.settled answer)
    (fun _ _ _ hs hu => settled_step hs (turn_eq hu).2.1) es (n, t) h.ran

/-! ## The measure -/

/-- The passes of the inner loop that are left, two moves each. -/
def Copy.left (s : Copy) : Nat := 2 * (s.future.cap - s.future.pos)

/-- From `finishTest` to the end: the flush, or an iteration that meets the end of the stream. -/
def Copy.finish (s : Copy) : Nat := if s.future.readDone then 2 else 6

/-- How many moves are left at most, if the reader gives no more data. -/
def potential (s : Copy) : Nat :=
  match s.point with
  | .top =>
    if s.future.pos = s.future.cap ∧ s.future.readDone = false then 5 else s.left + s.finish + 2
  | .reading => 4
  | .whileTest => s.left + s.finish + 1
  | .writing _ => s.left + s.finish
  | .finishTest => s.finish
  | .flushing => 1
  | _ => 0

/-- A chunk of data pays for writing a full buffer byte by byte. -/
def Event.pay : Event → Nat
  | .read _ (.ready (_ :: _)) => 2 * bufSize + 4
  | _ => 0

theorem SameCursor.left {s t : Copy} (h : SameCursor s t) : t.left = s.left := by
  show 2 * (t.future.cap - t.future.pos) = _
  rw [h.pos, h.cap]
  rfl

theorem SameCursor.finish {s t : Copy} (h : SameCursor s t) : t.finish = s.finish := by
  unfold Copy.finish
  rw [h.readDone]

/-- At the head of the loop with an empty buffer the reader is asked next. -/
theorem potential_asks {s : Copy} (hp : s.point = .top) (hpos : s.future.pos = s.future.cap)
    (hdone : s.future.readDone = false) : potential s = 5 := by
  rw [potential, hp]
  exact if_pos ⟨hpos, hdone⟩

/-- With something to write, or after the end, the reader is skipped. -/
theorem potential_skips {s : Copy} (hp : s.point = .top)
    (hask : ¬ (s.future.pos = s.future.cap ∧ s.future.readDone = false)) :
    potential s = s.left + s.finish + 2 := by
  rw [potential, hp]
  exact if_neg hask

/-- A read that blocks or fails ends the call. -/
theorem potential_reading {s : Copy} (hp : s.point = .reading) : potential s = 4 := by
  rw [potential, hp]

/-- The test of the inner loop, then as many writes as there are bytes at most. -/
theorem potential_whileTest {s : Copy} (hp : s.point = .whileTest) :
    potential s = s.left + s.finish + 1 := by
  rw [potential, hp]

/-- A write accepts a byte at least, or ends the call. -/
theorem potential_writing {s : Copy} {slice : List UInt8} (hp : s.point = .writing slice) :
    potential s = s.left + s.finish := by
  rw [potential, hp]

/-- Behind the inner loop the buffer is empty. -/
theorem potential_finishTest {s : Copy} (hp : s.point = .finishTest) :
    potential s = s.finish := by
  rw [potential, hp]

/-- The flush is the last move, however it ends. -/
theorem potential_flushing {s : Copy} (hp : s.point = .flushing) : potential s = 1 := by
  rw [potential, hp]

/-- After the end of the stream: the test and the flush. -/
theorem finish_done {s : Copy} (hdone : s.future.readDone = true) : s.finish = 2 := by
  rw [Copy.finish, hdone]
  rfl

/-- Before it, the loop is entered once more, and that is all without data. -/
theorem finish_going {s : Copy} (hdone : s.future.readDone = false) : s.finish = 6 := by
  rw [Copy.finish, hdone]
  rfl

/-- Both lie between these. -/
theorem finish_bounds (s : Copy) : 2 ≤ s.finish ∧ s.finish ≤ 6 := by
  unfold Copy.finish
  split <;> decide

/-- A call that has not returned makes at least one more move. -/
theorem potential_pos {s : Copy} (h : s.point.resting = false) : 1 ≤ potential s := by
  have hfinish := (finish_bounds s).1
  unfold potential
  cases hp : s.point with
  | top =>
    dsimp only
    split <;> omega
  | reading => exact Nat.succ_pos 3
  | whileTest => dsimp only; omega
  | writing slice => dsimp only; omega
  | finishTest => dsimp only; omega
  | flushing => exact Nat.le_refl 1
  | suspended => rw [hp] at h; exact absurd h (by decide)
  | returned exit => rw [hp] at h; exact absurd h (by simp [Point.resting])
  | panicked => rw [hp] at h; exact absurd h (by decide)

/-- A call that is over moves no more. -/
theorem potential_rest {s : Copy} (h : s.point.resting = true) : potential s = 0 := by
  unfold potential
  cases hp : s.point with
  | suspended => rfl
  | returned exit => rfl
  | panicked => rfl
  | _ => rw [hp] at h; exact absurd h (by simp [Point.resting])

/-- **Every move of a call lowers the measure by one,** or by what the reader pays less. -/
theorem potential_step {s t : Copy} {e : Event} (h : Settled s) (hrest : s.point.resting = false)
    (hst : s.step e = some t) : potential t + 1 ≤ potential s + e.pay := by
  have hfinish := finish_bounds s
  cases step_turn h.sound hst with
  -- no call begins within a call
  | polls now answer hp _ => rw [hp] at hrest; exact absurd hrest (by decide)
  | rests e _ ht _ =>
    have hpos := potential_pos hrest
    rw [potential_rest ht]
    omega
  | asks now hp hpos hdone ht _ =>
    rw [potential_asks hp hpos hdone, potential_reading ht]
    omega
  | skips now hp hask ht hsame =>
    rw [potential_skips hp hask, potential_whileTest ht, hsame.left, hsame.finish]
    omega
  | eof now hp ht hdone hpos hcap =>
    have hempty : s.future.pos = s.future.cap := h.sound.at_point hp
    have hleft : t.left = 0 := by
      show 2 * (t.future.cap - t.future.pos) = 0
      omega
    rw [potential_reading hp, potential_whileTest ht, hleft, finish_done hdone]
    omega
  -- the one move that raises the potential, and pays for it
  | chunk now data hp hne ht hdone hpos hcap hlen =>
    have hleft : t.left ≤ 2 * bufSize := by
      show 2 * (t.future.cap - t.future.pos) ≤ _
      omega
    have hfinish' := (finish_bounds t).2
    have hpay : (Event.read now (.ready data)).pay = 2 * bufSize + 4 := by
      cases data with
      | nil => exact absurd rfl hne
      | cons b data => rfl
    rw [potential_reading hp, potential_whileTest ht, hpay]
    omega
  | offers now slice hp hlt ht hsame =>
    rw [potential_whileTest hp, potential_writing ht, hsame.left, hsame.finish]
    omega
  | leaves now hp hpos ht hsame =>
    rw [potential_whileTest hp, potential_finishTest ht, hsame.finish]
    omega
  -- back at the test of the inner loop, with a byte less
  | wrote now i slice hp ht hlt hle hcap hdone =>
    have hleft : t.left + 2 ≤ s.left := by
      show 2 * (t.future.cap - t.future.pos) + 2 ≤ 2 * (s.future.cap - s.future.pos)
      omega
    have hsame : t.finish = s.finish := by
      rw [Copy.finish, hdone, Copy.finish]
    rw [potential_writing hp, potential_whileTest ht, hsame]
    omega
  | finishes now hp _ _ ht _ =>
    rw [potential_finishTest hp, potential_flushing ht]
    omega
  | again now hp hpos hdone ht hsame =>
    have hpos' : t.future.pos = t.future.cap := by rw [hsame.pos, hsame.cap, hpos]
    rw [potential_finishTest hp, finish_going hdone,
      potential_asks ht hpos' (hsame.readDone.trans hdone)]
    omega

/-- The most there is: a full buffer, written byte by byte. -/
theorem potential_top {s : Copy} (h : Sound s) (hp : s.point = .top) :
    potential s ≤ 2 * bufSize + 8 := by
  have hfinish := (finish_bounds s).2
  have hleft : s.left ≤ 2 * bufSize := by
    have hcap := h.cap_le
    show 2 * (s.future.cap - s.future.pos) ≤ _
    omega
  by_cases hask : s.future.pos = s.future.cap ∧ s.future.readDone = false
  · rw [potential_asks hp hask.1 hask.2]
    omega
  · rw [potential_skips hp hask]
    omega

/-- The measure of a call that begins. -/
theorem potential_onTimer {s : Copy} (h : Settled s) (answer : TimerAnswer) :
    potential (s.onTimer answer) ≤ 2 * bufSize + 8 := by
  have hsound := sound_onTimer h.sound answer
  cases answer with
  | ready => exact Nat.zero_le _
  | notReady => exact potential_top hsound rfl
  | error => exact potential_top hsound rfl

/-- **A call is short**: at most one full buffer and what the reader pays for. -/
theorem called_bounded {s t : Copy} {answer : TimerAnswer} {es : List Event} {n : Nat}
    (h : Called s answer es n t) :
    es.length + potential t ≤ 2 * bufSize + 8 + (es.map Event.pay).sum := by
  have hbudget := run_budget (fun u : Nat × Copy => Settled u.2) (fun u => potential u.2) Event.pay
    (fun u e v hu huv => ⟨settled_step hu (turn_eq huv).2.1,
      potential_step hu (turn_eq huv).1 (turn_eq huv).2.1⟩)
    es _ _ (settled_onTimer h.waiting.settled answer) h.ran
  have hstart : potential (s.onTimer answer).entered.2 ≤ 2 * bufSize + 8 :=
    potential_onTimer h.waiting.settled answer
  dsimp only at hbudget
  omega

/-! ## The iterations of the outer loop -/

/-- Only the end of an iteration that has not seen the end of the stream leads back to the head. -/
theorem step_top {s t : Copy} {e : Event} (h : Settled s) (hrest : s.point.resting = false)
    (hst : s.step e = some t) (ht : t.point = .top) :
    t.future.pos = t.future.cap ∧ s.future.readDone = false ∧ t.future.readDone = false := by
  cases step_turn h.sound hst with
  | polls now answer hp _ => rw [hp] at hrest; exact absurd hrest (by decide)
  | rests e _ ht' _ => rw [ht] at ht'; exact absurd ht' (by decide)
  | asks now _ _ _ ht' _ => rw [ht] at ht'; exact absurd ht' (by decide)
  | skips now _ _ ht' _ => rw [ht] at ht'; exact absurd ht' (by decide)
  | eof now _ ht' _ _ _ => rw [ht] at ht'; exact absurd ht' (by decide)
  | chunk now data _ _ ht' _ _ _ _ => rw [ht] at ht'; exact absurd ht' (by decide)
  | offers now slice _ _ ht' _ => rw [ht] at ht'; exact absurd ht' (by simp)
  | leaves now _ _ ht' _ => rw [ht] at ht'; exact absurd ht' (by decide)
  | wrote now i slice _ ht' _ _ _ _ => rw [ht] at ht'; exact absurd ht' (by decide)
  | finishes now _ _ _ ht' _ => rw [ht] at ht'; exact absurd ht' (by decide)
  | again now _ hpos hdone _ hsame =>
    exact ⟨by rw [hsame.pos, hsame.cap, hpos], hdone, by rw [hsame.readDone, hdone]⟩

/-- Once `read_done` is set it stays set. -/
theorem step_readDone {s t : Copy} {e : Event} (h : Settled s) (hst : s.step e = some t)
    (hdone : s.future.readDone = true) : t.future.readDone = true := by
  rcases (step_turn h.sound hst).cursor with hsame | ⟨_, ht, _, _⟩ | ⟨_, ht⟩ | ⟨_, _, ht⟩
  · rw [hsame.readDone]
    exact hdone
  · exact ht
  · rw [ht]
    exact hdone
  · rw [ht]
    exact hdone

theorem heads_eq_zero {s : Copy} (h : s.point ≠ .top) : s.heads = 0 := if_neg h

theorem heads_le (s : Copy) : s.heads ≤ 1 := by
  unfold Copy.heads
  split <;> decide

/-- At the head of a later iteration the buffer is empty and the stream has not ended. -/
theorem called_top {s t : Copy} {answer : TimerAnswer} {es : List Event} {n : Nat}
    (h : Called s answer es n t) (ht : t.point = .top) (hn : 1 < n) :
    t.future.pos = t.future.cap ∧ t.future.readDone = false := by
  have hinv := run_invariant
    (fun u : Nat × Copy => Settled u.2 ∧ (u.2.point = .top → 1 < u.1 →
      u.2.future.pos = u.2.future.cap ∧ u.2.future.readDone = false))
    ⟨settled_onTimer h.waiting.settled answer, fun _ hlt =>
      absurd (heads_le (s.onTimer answer)) (Nat.not_le.mpr hlt)⟩
    (fun u e v hu huv => by
      obtain ⟨hrest, hstep, -⟩ := turn_eq huv
      refine ⟨settled_step hu.1 hstep, fun htop _ => ?_⟩
      obtain ⟨hpos, -, hdone⟩ := step_top hu.1 hrest hstep htop
      exact ⟨hpos, hdone⟩)
    es (n, t) h.ran
  exact hinv.2 ht hn

/-- A call on a future that has met the end of the stream never comes back to the head. -/
theorem called_readDone {s t : Copy} {answer : TimerAnswer} {es : List Event} {n : Nat}
    (h : Called s answer es n t) (hdone : s.future.readDone = true) :
    n = (s.onTimer answer).heads := by
  have hstart : (s.onTimer answer).future.readDone = true :=
    (sameCursor_onTimer s answer).readDone.trans hdone
  have hinv := run_invariant
    (fun u : Nat × Copy => Settled u.2 ∧ u.2.future.readDone = true ∧
      u.1 = (s.onTimer answer).heads)
    ⟨settled_onTimer h.waiting.settled answer, hstart, rfl⟩
    (fun u e v hu huv => by
      obtain ⟨hrest, hstep, hcount⟩ := turn_eq huv
      refine ⟨settled_step hu.1 hstep, step_readDone hu.1 hstep hu.2.1, ?_⟩
      have hhead : v.2.point ≠ .top := by
        intro htop
        have hnot := (step_top hu.1 hrest hstep htop).2.1
        rw [hu.2.1] at hnot
        exact absurd hnot (by decide)
      rw [hcount, heads_eq_zero hhead, hu.2.2, Nat.add_zero])
    es (n, t) h.ran
  exact hinv.2.2

/-- The first entry of the call is the one behind the timer, unless the timer ends it. -/
theorem heads_onTimer (s : Copy) (answer : TimerAnswer) :
    (s.onTimer answer).heads = if answer = .ready then 0 else 1 := by
  cases answer <;> rfl

/-- A pass of the inner loop returns or brings `pos` closer to `cap`. -/
theorem step_writing {s t : Copy} {e : Event} {slice : List UInt8} (h : Settled s)
    (hp : s.point = .writing slice) (hst : s.step e = some t) :
    t.point.resting = true ∨ t.point = .whileTest ∧
      t.future.cap - t.future.pos < s.future.cap - s.future.pos := by
  cases step_turn h.sound hst with
  | polls now answer hp' _ => rw [hp] at hp'; exact absurd hp' (by simp)
  | rests e _ ht _ => exact .inl ht
  | asks now hp' _ _ _ _ => rw [hp] at hp'; exact absurd hp' (by simp)
  | skips now hp' _ _ _ => rw [hp] at hp'; exact absurd hp' (by simp)
  | eof now hp' _ _ _ _ => rw [hp] at hp'; exact absurd hp' (by simp)
  | chunk now data hp' _ _ _ _ _ _ => rw [hp] at hp'; exact absurd hp' (by simp)
  | offers now slice hp' _ _ _ => rw [hp] at hp'; exact absurd hp' (by simp)
  | leaves now hp' _ _ _ => rw [hp] at hp'; exact absurd hp' (by simp)
  | wrote now i slice _ ht hlt hle hcap _ => exact .inr ⟨ht, by omega⟩
  | finishes now hp' _ _ _ _ => rw [hp] at hp'; exact absurd hp' (by simp)
  | again now hp' _ _ _ _ => rw [hp] at hp'; exact absurd hp' (by simp)

/-! ## Readers that stop -/

/-- Data that a reader gives at once. -/
structure Chunk where
  bytes : List UInt8
  nonempty : bytes ≠ []
  fits : bytes.length ≤ bufSize

/-- How a reader answers that gives no data. -/
inductive Stop
  | eof
  | wouldBlock
  | error
  deriving Repr, DecidableEq

/-- The answers after which no more data comes in this call. -/
def Stop.answer : Stop → ReadAnswer
  | .eof => .ready []
  | .wouldBlock => .wouldBlock
  | .error => .error

/-- Everything a call of `poll` deals with.  The reader gives `chunks` and then stops; writer and
    flush may look at all that has happened, and the writer accepts no more than it is given. -/
structure World where
  timer : TimerAnswer
  clock : List Event → Nat
  chunks : List Chunk
  stop : Stop
  writer : List Event → List UInt8 → WriteAnswer
  writer_fits : ∀ es slice i, writer es slice = .ready i → i ≤ slice.length
  flush : List Event → FlushAnswer

/-- The answer to the `k`-th `read` of the call. -/
def World.reader (w : World) (k : Nat) : ReadAnswer :=
  match w.chunks[k]? with
  | some chunk => .ready chunk.bytes
  | none => w.stop.answer

/-- The answer of a read. -/
def Event.isRead : Event → Bool
  | .read _ _ => true
  | _ => false

/-- What happens next in a call. -/
def World.next (w : World) (es : List Event) (s : Nat × Copy) : Event :=
  match s.2.point with
  | .reading => .read (w.clock es) (w.reader (es.countP Event.isRead))
  | .writing slice => .write (w.clock es) (w.writer es slice)
  | .flushing => .flush (w.clock es) (w.flush es)
  | _ => .go (w.clock es)

/-- The moves a call can make that gets `chunks` chunks. -/
def pollBound (chunks : Nat) : Nat := 2 * bufSize + 8 + (2 * bufSize + 4) * chunks

/-- A call of `poll`: what happened, and where it ended. -/
def World.poll (w : World) (s : Copy) : Option (List Event × Nat × Copy) :=
  follow Copy.turn (fun u => u.2.point.resting) w.next (pollBound w.chunks.length) []
    (s.onTimer w.timer).entered

/-- A chunk that fits into the buffer can be answered. -/
theorem onRead_fits (s : Copy) (now : Nat) {data : List UInt8} (h : data.length ≤ bufSize) :
    ∃ t, s.onRead now (.ready data) = some t := by
  simp only [Copy.onRead, dif_pos h]
  exact ⟨_, rfl⟩

/-- What the world answers fits. -/
theorem next_fits (w : World) (es : List Event) {n : Nat} {t : Copy} (h : Settled t)
    (hrest : t.point.resting = false) : ∃ u, t.step (w.next es (n, t)) = some u := by
  -- the world answers what the point asks for
  unfold World.next Copy.step
  cases hp : t.point with
  | top => exact ⟨_, rfl⟩
  | reading =>
    show ∃ u, t.onRead _ (w.reader _) = some u
    unfold World.reader
    cases hchunk : w.chunks[es.countP Event.isRead]? with
    | some chunk => exact onRead_fits t _ chunk.fits
    | none =>
      show ∃ u, t.onRead _ w.stop.answer = some u
      cases w.stop with
      | eof => exact onRead_fits t _ (Nat.zero_le _)
      | wouldBlock => exact ⟨_, rfl⟩
      | error => exact ⟨_, rfl⟩
  | whileTest =>
    dsimp only
    split
    · rw [slice_of_sound h.sound]
      exact ⟨_, rfl⟩
    · exact ⟨_, rfl⟩
  | writing slice =>
    show ∃ u, t.onWrite slice _ (w.writer es slice) = some u
    cases hwrite : w.writer es slice with
    | wouldBlock => exact ⟨_, rfl⟩
    | error => exact ⟨_, rfl⟩
    | ready i =>
      rw [Copy.onWrite, if_pos (w.writer_fits es slice i hwrite)]
      dsimp only
      split <;> exact ⟨_, rfl⟩
  | finishTest => exact ⟨_, rfl⟩
  | flushing => exact ⟨_, rfl⟩
  | suspended => rw [hp] at hrest; exact absurd hrest (by decide)
  | returned exit => rw [hp] at hrest; exact absurd hrest (by simp [Point.resting])
  | panicked => rw [hp] at hrest; exact absurd hrest (by decide)

/-- A reader pays while it has chunks. -/
theorem pay_reader (w : World) (now k : Nat) :
    (Event.read now (w.reader k)).pay = if k < w.chunks.length then 2 * bufSize + 4 else 0 := by
  unfold World.reader
  by_cases hk : k < w.chunks.length
  · rw [List.getElem?_eq_getElem hk, if_pos hk]
    have hne := w.chunks[k].nonempty
    show (Event.read now (.ready w.chunks[k].bytes)).pay = _
    cases hbytes : w.chunks[k].bytes with
    | nil => exact absurd hbytes hne
    | cons b bytes => rfl
  · rw [List.getElem?_eq_none (Nat.le_of_not_lt hk), if_neg hk]
    show (Event.read now w.stop.answer).pay = 0
    cases w.stop <;> rfl

theorem pay_other {e : Event} (h : e.isRead = false) : e.pay = 0 := by
  cases e with
  | read now answer => exact absurd h (by simp [Event.isRead])
  | _ => rfl

/-- A read is answered by the next chunk. -/
theorem next_isRead {w : World} {es : List Event} {s : Nat × Copy}
    (h : (w.next es s).isRead = true) :
    w.next es s = .read (w.clock es) (w.reader (es.countP Event.isRead)) := by
  unfold World.next at h ⊢
  cases hp : s.2.point with
  | reading => rfl
  | _ => rw [hp] at h; exact absurd h (by simp [Event.isRead])

/-- The reader has paid for the chunks it has given, of those it has. -/
theorem next_paid (w : World) (es : List Event) (s : Nat × Copy)
    (h : (es.map Event.pay).sum =
      (2 * bufSize + 4) * min (es.countP Event.isRead) w.chunks.length) :
    ((es ++ [w.next es s]).map Event.pay).sum =
      (2 * bufSize + 4) * min ((es ++ [w.next es s]).countP Event.isRead) w.chunks.length := by
  rw [List.map_append, List.sum_append, List.countP_append, h, List.map_singleton,
    List.sum_singleton, List.countP_singleton]
  cases hread : (w.next es s).isRead with
  | true =>
    rw [next_isRead hread, pay_reader, if_pos rfl]
    generalize es.countP Event.isRead = k
    by_cases hk : k < w.chunks.length
    · rw [if_pos hk, Nat.min_eq_left (by omega), Nat.min_eq_left (by omega), Nat.mul_succ]
    · rw [if_neg hk, Nat.min_eq_right (by omega), Nat.min_eq_right (by omega), Nat.add_zero]
  | false =>
    rw [pay_other hread, if_neg Bool.false_ne_true]
    rfl

/-- **The call returns**, in every world. -/
theorem poll_returns {s : Copy} (h : Waiting s) (w : World) :
    ∃ es n t, w.poll s = some (es, n, t) ∧ Called s w.timer es n t ∧ t.point.resting = true := by
  -- the invariant counts what the reads have paid, which bounds the moves of the call
  have hfollow := follow_rests (fun u : Nat × Copy => u.2.point.resting) w.next
    (pollBound w.chunks.length) (fun es u => Called s w.timer es u.1 u.2 ∧ (es.map Event.pay).sum =
      (2 * bufSize + 4) * min (es.countP Event.isRead) w.chunks.length)
    (fun es u hu hrest => by
      obtain ⟨t, ht⟩ := next_fits w es (n := u.1) hu.1.settled hrest
      have hturn : Copy.turn u (w.next es u) = some (u.1 + t.heads, t) := by
        unfold Copy.turn
        rw [if_neg (by rw [hrest]; decide), ht]
        rfl
      exact ⟨(u.1 + t.heads, t), hturn,
        ⟨h, run_concat.mpr ⟨u, hu.1.ran, hturn⟩⟩, next_paid w es u hu.2⟩)
    (fun es u hu hrest => by
      have hbound := called_bounded hu.1
      have hpos := potential_pos hrest
      have hmin : (2 * bufSize + 4) * min (es.countP Event.isRead) w.chunks.length ≤
          (2 * bufSize + 4) * w.chunks.length := Nat.mul_le_mul_left _ (Nat.min_le_right _ _)
      rw [hu.2] at hbound
      unfold pollBound
      omega)
    (pollBound w.chunks.length) [] (s.onTimer w.timer).entered ⟨⟨h, rfl⟩, by simp⟩
    (Nat.le_add_left _ _)
  obtain ⟨es, u, hpoll, hcalled, hrest⟩ := hfollow
  exact ⟨es, u.1, u.2, hpoll, hcalled.1, hrest⟩

/-! ## One call -/

/-- What can be said of every call of `poll` on `s`. -/
structure PollEnds (s : Copy) : Prop where
  /-- with a reader that gives finitely many chunks the call returns -/
  returns : ∀ w : World, ∃ es n t, w.poll s = some (es, n, t) ∧ Called s w.timer es n t ∧
    (t.point = .suspended ∨ ∃ exit, t.point = .returned exit)
  /-- every iteration of the outer loop after the first one asks the reader first -/
  consumes : ∀ answer es n t, Called s answer es n t → t.point = .top → 1 < n →
    ∀ e u, t.step e = some u → u.point = .reading ∧
      ∀ e' v, u.step e' = some v → ∃ now result, e' = .read now result
  /-- every pass of the inner loop that does not return shrinks `cap - pos` -/
  shrinks : ∀ answer es n t slice, Called s answer es n t → t.point = .writing slice →
    ∀ e u, t.step e = some u → u.point.resting = true ∨ u.point = .whileTest ∧
      u.future.cap - u.future.pos < t.future.cap - t.future.pos
  /-- once the stream has ended, the body of the outer loop is entered once, unless the timer ends
      the call before -/
  once : s.future.readDone = true → ∀ answer es n t, Called s answer es n t →
    n = if answer = .ready then 0 else 1

theorem Settled.not_panicked {s : Copy} (h : Settled s) : s.point ≠ .panicked :=
  fun hp => h.sound.at_point hp

/-- From the head with an empty buffer and no end of the stream the reader is asked. -/
theorem step_asks {s t : Copy} {e : Event} (hp : s.point = .top)
    (hask : s.future.pos = s.future.cap ∧ s.future.readDone = false) (hst : s.step e = some t) :
    t.point = .reading ∧ ∀ e' u, t.step e' = some u → ∃ now result, e' = .read now result := by
  have ht : t.point = .reading := by
    unfold Copy.step at hst
    rw [hp] at hst
    cases e with
    | go now =>
      dsimp only at hst
      rw [if_pos hask] at hst
      rw [← Option.some.inj hst]
    | _ => exact absurd hst (by simp)
  refine ⟨ht, fun e' u hu => ?_⟩
  unfold Copy.step at hu
  rw [ht] at hu
  cases e' with
  | read now result => exact ⟨now, result, rfl⟩
  | _ => exact absurd hu (by simp)

/-- **A call of `poll` ends.**  For every state between two polls and every reader that gives
    finitely many chunks before it stops. -/
theorem poll_ends (s : Copy) (h : Waiting s) : PollEnds s := by
  refine ⟨fun w => ?_, fun answer es n t hcalled ht hn e u hu => ?_,
    fun answer es n t slice hcalled hp e u hu => ?_, fun hdone answer es n t hcalled => ?_⟩
  · obtain ⟨es, n, t, hpoll, hcalled, hrest⟩ := poll_returns h w
    refine ⟨es, n, t, hpoll, hcalled, ?_⟩
    cases hp : t.point with
    | suspended => exact .inl rfl
    | returned exit => exact .inr ⟨exit, rfl⟩
    | panicked => exact absurd hp hcalled.settled.not_panicked
    | _ => rw [hp] at hrest; exact absurd hrest (by simp [Point.resting])
  · exact step_asks ht (called_top hcalled ht hn) hu
  · exact step_writing hcalled.settled hp hu
  · rw [called_readDone hcalled hdone, heads_onTimer]

/-! ### A copy that waits for its flush -/

/-- The stream is over at once, and the flush has to wait. -/
def flushBlocked : List Event :=
  [.poll 0 .notReady, .go 0, .read 1 (.ready []), .go 1, .go 1, .flush 1 .wouldBlock]

theorem flushBlocked_runs :
    (run Copy.step (.init 60 (some 60)) flushBlocked).isSome = true := by decide +kernel

/-- Between that poll and the next. -/
def flushPending : Copy := (run Copy.step (.init 60 (some 60)) flushBlocked).get flushBlocked_runs

/-- A state of a real copy: everything is written, and the flush did not return. -/
theorem flushPending_waiting : Waiting flushPending :=
  ⟨⟨60, some 60, flushBlocked, (Option.some_get flushBlocked_runs).symm⟩, by decide +kernel⟩

/-- The flush is tried again in a body that is entered once. -/
theorem poll_ends_flushPending :
    flushPending.future.readDone = true ∧
      ∀ es n t, Called flushPending .notReady es n t → n = 1 :=
  ⟨by decide +kernel, fun es n t =>
    (poll_ends flushPending flushPending_waiting).once (by decide +kernel) .notReady es n t⟩

/-- **After the deadline the body is not entered at all**, although `read_done` is set: the timer is
    asked before the loop. -/
theorem flushPending_late :
    ¬ ∀ s, Waiting s → s.future.readDone = true → ∀ answer es n t, Called s answer es n t →
      t.point.resting = true → n = 1 := by
  intro h
  have hlate : Called flushPending .ready [] 0 (flushPending.onTimer .ready) :=
    ⟨flushPending_waiting, rfl⟩
  exact absurd (h flushPending flushPending_waiting (by decide +kernel) .ready [] 0 _ hlate rfl)
    (by decide)

end Safewrt.Lifeline1
