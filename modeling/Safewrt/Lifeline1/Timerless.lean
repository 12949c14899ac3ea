/-
  One copy by itself: when its deadline exit is sound.

  1. **`Copy.clockedStep`**: the timed steps of a single copy, with the clock in the state.

  2. **`Copy.plainStep`**: the same copy without the poll of the timer at the head of `poll`, which
     is what a copy without a deadline does.

  3. **`deadline_exit_iff`**: with a timer the exit is taken only after one idle deadline, in every
     run.  Without one, `self.timeout.poll()` answers `Ready(None)`, and the match takes that for a
     deadline that has passed: the first poll ends the copy before it has read anything.

  `timeout` is an `Option<Timeout>`, so the code means to allow a copy without a deadline.  That the
  plain copy never leaves by the deadline (`plain_run`) is what it would do then; the two are
  compared on the same answers.
-/
import Safewrt.Lib.Run
import Safewrt.Lifeline1.Deadline

namespace Safewrt.Lifeline1

open Safewrt.Lib

/-! ## Runs of one copy -/

/-- A timed step; the clock is then at the time of the event. -/
def Copy.clockedStep (s : Nat × Copy) (e : Event) : Option (Nat × Copy) :=
  (s.2.timedStep s.1 e).map fun t => (e.now, t)

/-- A step of a copy that has no deadline: `poll` begins with its loop. -/
def Copy.plainStep (s : Copy) (e : Event) : Option Copy :=
  match s.point, e with
  | .suspended, .poll _ _ => some { s with point := .top }
  | _, _ => s.step e

/-- The event is the poll of the timer, which begins a call. -/
def Event.IsPoll : Event → Prop
  | .poll _ _ => True
  | _ => False

/-- The clock of the state is when the event happened. -/
theorem clockedStep_eq {s u : Nat × Copy} {e : Event} (h : Copy.clockedStep s e = some u) :
    u.1 = e.now ∧ s.2.timedStep s.1 e = some u.2 := by
  obtain ⟨t, ht, rfl⟩ := Option.map_eq_some_iff.mp h
  exact ⟨rfl, ht⟩

/-- The timer invariant, and the configuration the copy was created with. -/
structure ClockedOk (created deadline : Nat) (armed : Bool) (s : Nat × Copy) : Prop where
  timed : Timed created s.1 s.2
  deadline : s.2.future.deadline = deadline
  timer : s.2.future.timeout = none ↔ armed = false

/-- A new copy is well timed. -/
theorem clockedOk_init (created deadline : Nat) (armed : Bool) :
    ClockedOk created deadline armed
      (created, .init deadline (newTimer created deadline armed)) := by
  have htimer : newTimer created deadline armed = none ↔ armed = false := by
    cases armed <;> simp [newTimer]
  exact ⟨timed_init created deadline armed, rfl, htimer⟩

/-- A step keeps it so: `Timed` with a timer, and without one that there is none. -/
theorem clockedOk_step {created deadline : Nat} {armed : Bool} {s u : Nat × Copy} {e : Event}
    (h : ClockedOk created deadline armed s) (hu : Copy.clockedStep s e = some u) :
    ClockedOk created deadline armed u := by
  obtain ⟨hclock, hstep⟩ := clockedStep_eq hu
  have hsame := step_sameTimer (timedStep_eq hstep).2.2
  refine ⟨?_, hsame.1.trans h.deadline, hsame.2.trans h.timer⟩
  rw [hclock]
  exact timed_step h.timed hstep

/-- The same along every run. -/
theorem clockedOk_run {created deadline : Nat} {armed : Bool} :
    ∀ es s, run Copy.clockedStep (created, .init deadline (newTimer created deadline armed)) es =
      some s → ClockedOk created deadline armed s :=
  run_invariant (ClockedOk created deadline armed) (clockedOk_init created deadline armed)
    fun _ _ _ h hu => clockedOk_step h hu

/-! ## A copy without a timer -/

/-- Without a timer nothing happens before the first poll, and nothing after it. -/
theorem timerless_run {created deadline : Nat} :
    ∀ es s, run Copy.clockedStep (created, .init deadline none) es = some s →
      (es = [] ∧ s = (created, .init deadline none)) ∨
        ((∃ e ∈ es, e.IsPoll) ∧ s.2.point = .returned .deadline) := by
  refine run_induction _ (Or.inl ⟨rfl, rfl⟩) fun es s e u _ h hu => Or.inr ?_
  obtain ⟨-, hstep⟩ := clockedStep_eq hu
  obtain ⟨-, hanswers, hstep⟩ := timedStep_eq hstep
  rcases h with ⟨-, rfl⟩ | ⟨-, hpoint⟩
  · -- only `poll` can be called, and the missing timer is ready
    cases e with
    | poll now answer =>
      have hready : answer = .ready := hanswers
      subst hready
      refine ⟨⟨.poll now .ready, by simp, trivial⟩, ?_⟩
      rw [← Option.some.inj hstep]
      rfl
    | go now => exact absurd hstep (by simp [Copy.step, Copy.init])
    | read now answer => exact absurd hstep (by simp [Copy.step, Copy.init])
    | write now answer => exact absurd hstep (by simp [Copy.step, Copy.init])
    | flush now answer => exact absurd hstep (by simp [Copy.step, Copy.init])
  · exact absurd hstep (by simp [Copy.step, hpoint])

/-- No read ends a copy by its deadline: that exit is taken at the poll of the timer. -/
theorem onRead_point {s t : Copy} {now : Nat} {answer : ReadAnswer}
    (h : s.onRead now answer = some t) : t.point ≠ .returned .deadline := by
  cases answer with
  | wouldBlock => rw [← Option.some.inj h]; simp
  | error => rw [← Option.some.inj h]; simp
  | ready data =>
    simp only [Copy.onRead] at h
    split at h
    · rw [← Option.some.inj h]; simp
    · exact absurd h (by simp)

/-- No write ends a copy by its deadline. -/
theorem onWrite_point {s t : Copy} {slice : List UInt8} {now : Nat} {answer : WriteAnswer}
    (h : s.onWrite slice now answer = some t) : t.point ≠ .returned .deadline := by
  cases answer with
  | wouldBlock => rw [← Option.some.inj h]; simp
  | error => rw [← Option.some.inj h]; simp
  | ready i =>
    simp only [Copy.onWrite] at h
    split at h
    · split at h <;> rw [← Option.some.inj h] <;> simp
    · exact absurd h (by simp)

theorem onFlush_point (s : Copy) (now : Nat) (answer : FlushAnswer) :
    (s.onFlush now answer).point ≠ .returned .deadline := by
  cases answer <;> simp [Copy.onFlush]

/-- Beyond the poll of the timer, nothing leads to the deadline exit. -/
theorem plainStep_point {s t : Copy} {e : Event} (h : s.plainStep e = some t) :
    t.point ≠ .returned .deadline := by
  unfold Copy.plainStep at h
  split at h
  · rw [← Option.some.inj h]
    simp
  · next hplain =>
    unfold Copy.step at h
    split at h
    · -- the poll of the timer is the arm that `plainStep` leaves out
      next now answer hp => exact absurd rfl (hplain now answer hp)
    · rw [← Option.some.inj h]
      show (if _ then Point.reading else Point.whileTest) ≠ _
      split <;> simp
    · exact onRead_point h
    · split at h
      · split at h <;> rw [← Option.some.inj h] <;> simp
      · rw [← Option.some.inj h]
        simp
    · exact onWrite_point h
    · rw [← Option.some.inj h]
      show (if _ then Point.flushing else Point.top) ≠ _
      split <;> simp
    · rw [← Option.some.inj h]
      exact onFlush_point _ _ _
    · exact absurd h (by simp)

/-- Every run of the copy without a deadline. -/
theorem plain_run {deadline : Nat} {timeout : Option Nat} :
    ∀ es s, run Copy.plainStep (.init deadline timeout) es = some s →
      s.point ≠ .returned .deadline :=
  run_invariant (fun s => s.point ≠ .returned .deadline) (by simp [Copy.init])
    fun _ _ _ _ hu => plainStep_point hu

/-! ## When the exit is sound -/

/-- **The deadline exit of one copy**: in every run, it is taken only when the deadline has passed
    since the creation and since every read and write, and a copy whose timer could not be created
    copies without one, exactly where there is a timer or the copy was never polled. -/
theorem deadline_exit_iff (created deadline : Nat) (armed : Bool) (es : List Event) (clock : Nat)
    (s : Copy)
    (hrun : run Copy.clockedStep
      (created, .init deadline (newTimer created deadline armed)) es = some (clock, s)) :
    ((s.point = .returned .deadline →
        created + deadline ≤ clock ∧ ∀ x ∈ s.log, x.IsIo → x.now + deadline ≤ clock) ∧
      (armed = false → run Copy.plainStep (.init deadline none) es = some s)) ↔
      armed = true ∨ ∀ e ∈ es, ¬ e.IsPoll := by
  have hok := clockedOk_run es _ hrun
  cases armed with
  | true =>
    refine ⟨fun _ => Or.inl rfl, fun _ => ⟨fun hexit => ?_, fun h => absurd h (by simp)⟩⟩
    obtain ⟨hio, hcreated⟩ := hok.timed.idle hexit
    have hdeadline : s.future.deadline = deadline := hok.deadline
    have htimer : s.future.timeout ≠ none := fun h => absurd (hok.timer.mp h) (by simp)
    rw [hdeadline] at hio hcreated
    exact ⟨hcreated htimer, hio⟩
  | false =>
    have hnone : newTimer created deadline false = none := rfl
    rw [hnone] at hrun
    -- without a timer the first poll is the last event
    rcases timerless_run es _ hrun with ⟨rfl, hs⟩ | ⟨⟨e, he, hpoll⟩, hpoint⟩
    · rw [Prod.mk.injEq] at hs
      rw [hs.2]
      exact ⟨fun _ => Or.inr (by simp), fun _ => ⟨fun h => absurd h (by simp [Copy.init]), fun _ => rfl⟩⟩
    · constructor
      · intro h
        exact absurd hpoint (plain_run es s (h.2 rfl))
      · rintro (h | h)
        · exact absurd h (by simp)
        · exact absurd hpoll (h e he)

/-! ### A copy with a timer that runs out, and one without -/

/-- One byte is copied; then nothing comes for a deadline of 60. -/
def idleCopy : List Event :=
  [.poll 0 .notReady, .go 0, .read 5 (.ready [7]), .go 5, .write 6 (.ready 1), .go 6, .go 6, .go 6,
    .read 6 .wouldBlock, .poll 66 .ready]

theorem idleCopy_runs :
    (run Copy.clockedStep (0, .init 60 (newTimer 0 60 true)) idleCopy).isSome = true := by
  decide +kernel

/-- A copy that is left alone for 60 seconds. -/
theorem deadline_exit_idle :
    ∃ clock s, run Copy.clockedStep (0, .init 60 (newTimer 0 60 true)) idleCopy =
        some (clock, s) ∧
      s.point = .returned .deadline ∧ ∀ x ∈ s.log, x.IsIo → x.now + 60 ≤ clock := by
  obtain ⟨⟨clock, s⟩, hrun⟩ := Option.isSome_iff_exists.mp idleCopy_runs
  have hpoint : (run Copy.clockedStep (0, .init 60 (newTimer 0 60 true)) idleCopy).map
      (fun s => s.2.point) = some (.returned .deadline) := by decide +kernel
  rw [hrun, Option.map_some, Option.some.injEq] at hpoint
  have hexit := ((deadline_exit_iff 0 60 true idleCopy clock s hrun).mpr (Or.inl rfl)).1 hpoint
  exact ⟨clock, s, hrun, hpoint, hexit.2⟩

theorem firstPoll_runs :
    (run Copy.clockedStep (0, .init 60 (newTimer 0 60 false)) [.poll 0 .ready]).isSome = true := by
  decide +kernel

/-- Without a timer the first poll, at the very instant of the creation, takes the exit. -/
theorem timerless_exit :
    let s := (run Copy.clockedStep (0, .init 60 (newTimer 0 60 false)) [.poll 0 .ready]).get
      firstPoll_runs
    s.2.point = .returned .deadline ∧ s.1 < 0 + 60 ∧
      run Copy.plainStep (.init 60 none) [.poll 0 .ready] ≠ some s.2 := by
  have hpoint : ((run Copy.clockedStep (0, .init 60 (newTimer 0 60 false)) [.poll 0 .ready]).get
      firstPoll_runs).2.point = .returned .deadline := by decide +kernel
  exact ⟨hpoint, by decide +kernel, fun h => plain_run _ _ h hpoint⟩

end Safewrt.Lifeline1
