/-
  The timer of one copy against a clock.

  1. **Answers** — `Copy.step` lets the timer answer anything.  Here it answers as `Option<Timeout>`
     does: a missing timer is ready at once, another one from its instant on (`timerAnswer`), and
     time does not run backwards (`Copy.timedStep`).  Each answer carries the time it was given at.

  2. **Invariant** — `Timed` says what the timer knows about the log: its instant is at least one
     deadline after the creation and after every read and write.  Every transfer resets the timer,
     so the last one is what the instant is measured from, and a copy that completes by a flush
     needs it no more.

  3. **`Timed.idle`** — so a copy that has left by its deadline was idle for that long.

  4. `SameTimer`: whether there is a timer, and the deadline itself, never change.
-/
import Safewrt.Lifeline1.Copy

namespace Safewrt.Lifeline1

/-! ## The answers of a timer -/

/-- `Timeout::new(deadline, &handle).ok()` at `created`, where the reactor gives one. -/
def newTimer (created deadline : Nat) (armed : Bool) : Option Nat :=
  if armed then some (created + deadline) else none

/-- `self.timeout.poll()` at `now`. -/
def timerAnswer : Option Nat → Nat → TimerAnswer
  | none, _ => .ready
  | some instant, now => if instant ≤ now then .ready else .notReady

/-- When the code gets the answer. -/
def Event.now : Event → Nat
  | .go now => now
  | .poll now _ => now
  | .read now _ => now
  | .write now _ => now
  | .flush now _ => now

/-- A poll of the timer is answered by the timer the copy has. -/
def Copy.Answers (s : Copy) : Event → Prop
  | .poll now answer => answer = timerAnswer s.future.timeout now
  | _ => True

instance (s : Copy) (e : Event) : Decidable (s.Answers e) := by
  cases e <;> unfold Copy.Answers <;> infer_instance

/-- One step of `poll` at a time when the clock had reached `clock`. -/
def Copy.timedStep (clock : Nat) (s : Copy) (e : Event) : Option Copy :=
  if clock ≤ e.now ∧ s.Answers e then s.step e else none

/-- A timed step is a step at which the clock does not go back and the timer is true. -/
theorem timedStep_eq {clock : Nat} {s t : Copy} {e : Event} (h : s.timedStep clock e = some t) :
    clock ≤ e.now ∧ s.Answers e ∧ s.step e = some t := by
  unfold Copy.timedStep at h
  split at h
  · rename_i hc; exact ⟨hc.1, hc.2, h⟩
  · exact absurd h (by simp)

/-! ## What the timer knows

  One lemma for each thing a step can do: move on without a transfer, transfer and reset, or be
  suspended.  `timed_step` puts them together. -/

/-- When the transfer was made. -/
def Transfer.now : Transfer → Nat
  | .read now _ => now
  | .wrote now _ => now
  | .flushed now => now

/-- A successful read or write, of any number of bytes. -/
def Transfer.IsIo : Transfer → Prop
  | .flushed _ => False
  | _ => True

/-- What the timer field knows.  Without a timer the copy ends at its first poll. -/
def TimerOk (created : Nat) (s : Copy) : Option Nat → Prop
  | none => s.log = [] ∧ (s.point = .suspended ∨ s.point = .returned .deadline)
  | some instant => created + s.future.deadline ≤ instant ∧
    ∀ x ∈ s.log, x.IsIo → x.now + s.future.deadline ≤ instant

/-- **The timer invariant** of a copy created at `created`, when the clock is at `clock`. -/
structure Timed (created clock : Nat) (s : Copy) : Prop where
  start : created ≤ clock
  past : ∀ x ∈ s.log, x.now ≤ clock
  timer : TimerOk created s s.future.timeout
  /-- the deadline exit was taken with the timer ready -/
  exit : s.point = .returned .deadline → timerAnswer s.future.timeout clock = .ready

/-- A new timer runs out one deadline after the creation. -/
theorem timed_init (created deadline : Nat) (armed : Bool) :
    Timed created created (.init deadline (newTimer created deadline armed)) := by
  refine ⟨Nat.le_refl _, fun x hx => absurd hx List.not_mem_nil, ?_, nofun⟩
  cases armed with
  | false => exact ⟨rfl, Or.inl rfl⟩
  | true => exact ⟨Nat.le_refl _, fun x hx => absurd hx List.not_mem_nil⟩

/-- The timer is ready from its instant on; one that is missing, always. -/
theorem timerAnswer_ready_iff {timeout : Option Nat} {now : Nat} :
    timerAnswer timeout now = .ready ↔ ∀ instant, timeout = some instant → instant ≤ now := by
  cases timeout with
  | none => exact ⟨fun _ instant h => absurd h (by simp), fun _ => rfl⟩
  | some i =>
    by_cases hle : i ≤ now
    · refine ⟨fun _ instant h => Option.some.inj h ▸ hle, fun _ => ?_⟩
      show (if i ≤ now then TimerAnswer.ready else .notReady) = .ready
      rw [if_pos hle]
    · refine ⟨fun h => ?_, fun h => absurd (h i rfl) hle⟩
      change (if i ≤ now then TimerAnswer.ready else .notReady) = .ready at h
      rw [if_neg hle] at h
      exact absurd h (by decide)

/-- A timer that has run out stays so. -/
theorem timerAnswer_later {timeout : Option Nat} {clock now : Nat} (hle : clock ≤ now)
    (h : timerAnswer timeout clock = .ready) : timerAnswer timeout now = .ready :=
  timerAnswer_ready_iff.mpr fun instant hi =>
    Nat.le_trans (timerAnswer_ready_iff.mp h instant hi) hle

/-- Time passes, nothing else. -/
theorem Timed.later {created clock now : Nat} {s : Copy} (h : Timed created clock s)
    (hle : clock ≤ now) : Timed created now s :=
  ⟨Nat.le_trans h.start hle, fun x hx => Nat.le_trans (h.past x hx) hle, h.timer,
    fun hp => timerAnswer_later hle (h.exit hp)⟩

/-- Away from `suspended` and the deadline exit there is a timer. -/
theorem Timed.armed {created clock : Nat} {s : Copy} (h : Timed created clock s)
    (hs : s.point ≠ .suspended) (hd : s.point ≠ .returned .deadline) :
    ∃ instant, s.future.timeout = some instant ∧ TimerOk created s (some instant) := by
  have ht := h.timer
  cases hto : s.future.timeout with
  | none =>
    rw [hto] at ht
    rcases ht.2 with h' | h'
    · exact absurd h' hs
    · exact absurd h' hd
  | some instant => exact ⟨instant, rfl, hto ▸ ht⟩

/-- A step that neither touches the timer nor logs a read or write. -/
theorem Timed.move {created clock now : Nat} {s t : Copy} (h : Timed created clock s)
    (hle : clock ≤ now) (hs : s.point ≠ .suspended) (hd : s.point ≠ .returned .deadline)
    (hfuture : t.future = s.future) (hpoint : t.point ≠ .returned .deadline)
    (hlog : t.log = s.log ∨ t.log = s.log ++ [.flushed now]) : Timed created now t := by
  obtain ⟨instant, hto, hcreated, hio⟩ := h.armed hs hd
  have hmem : ∀ x ∈ t.log, x ∈ s.log ∨ x = .flushed now := by
    intro x hx
    rcases hlog with hlog | hlog
    · rw [hlog] at hx
      exact Or.inl hx
    · rw [hlog, List.mem_append, List.mem_singleton] at hx
      exact hx
  refine ⟨Nat.le_trans h.start hle, fun x hx => ?_, ?_, fun hp => absurd hp hpoint⟩
  · rcases hmem x hx with hx | rfl
    · exact Nat.le_trans (h.past x hx) hle
    · exact Nat.le_refl now
  · rw [hfuture, hto]
    refine ⟨hfuture ▸ hcreated, fun x hx hxio => ?_⟩
    rw [hfuture]
    rcases hmem x hx with hx | rfl
    · exact hio x hx hxio
    · exact absurd hxio id

/-- A step that resets the timer: everything logged so far lies before `now`. -/
theorem Timed.reset {created clock now : Nat} {s t : Copy} (h : Timed created clock s)
    (hle : clock ≤ now) (hs : s.point ≠ .suspended) (hd : s.point ≠ .returned .deadline)
    (hdead : t.future.deadline = s.future.deadline)
    (htime : t.future.timeout = (s.future.reset now).timeout)
    (hpoint : t.point ≠ .returned .deadline)
    (hlog : ∀ x ∈ t.log, x ∈ s.log ∨ x.now = now) : Timed created now t := by
  obtain ⟨instant, hto, -, -⟩ := h.armed hs hd
  have hpast : ∀ x ∈ t.log, x.now ≤ now := by
    intro x hx
    rcases hlog x hx with hx | hx
    · exact Nat.le_trans (h.past x hx) hle
    · exact Nat.le_of_eq hx
  have hstart := Nat.le_trans h.start hle
  refine ⟨hstart, hpast, ?_, fun hp => absurd hp hpoint⟩
  have hnew : t.future.timeout = some (now + s.future.deadline) := by
    rw [htime, CopyWithDeadline.reset, hto]
    rfl
  rw [hnew]
  refine ⟨by rw [hdead]; omega, fun x hx _ => ?_⟩
  have := hpast x hx
  rw [hdead]
  omega

/-- The poll of the timer, which is what its exit knows about the log. -/
theorem timed_onTimer {created clock now : Nat} {s : Copy} {answer : TimerAnswer}
    (h : Timed created clock s) (hle : clock ≤ now)
    (hanswer : answer = timerAnswer s.future.timeout now) :
    Timed created now (s.onTimer answer) := by
  have hlater := h.later hle
  cases hto : s.future.timeout with
  | none =>
    -- without a timer the first poll is the last: nothing has been logged
    rw [hto] at hanswer
    have ht := hlater.timer
    rw [hto] at ht
    subst hanswer
    refine ⟨hlater.start, hlater.past, ?_, fun _ => ?_⟩
    · show TimerOk created { s with point := .returned .deadline } s.future.timeout
      rw [hto]
      exact ⟨ht.1, Or.inr rfl⟩
    · show timerAnswer s.future.timeout now = .ready
      rw [hto]
      rfl
  | some instant =>
    have ht := hlater.timer
    rw [hto] at ht
    have htimer : ∀ p, TimerOk created { s with point := p } s.future.timeout := by
      intro p
      rw [hto]
      exact ht
    cases answer with
    | ready => exact ⟨hlater.start, hlater.past, htimer _, fun _ => hanswer.symm⟩
    | notReady => exact ⟨hlater.start, hlater.past, htimer _, nofun⟩
    | error => exact ⟨hlater.start, hlater.past, htimer _, nofun⟩

/-- A read sets the timer anew, so its instant is a deadline after it. -/
theorem timed_onRead {created clock now : Nat} {s t : Copy} {answer : ReadAnswer}
    (h : Timed created clock s) (hle : clock ≤ now) (hp : s.point = .reading)
    (ht : s.onRead now answer = some t) : Timed created now t := by
  have hs : s.point ≠ .suspended := by rw [hp]; decide
  have hd : s.point ≠ .returned .deadline := by rw [hp]; decide
  cases answer with
  | wouldBlock =>
    rw [← Option.some.inj ht]
    exact h.move hle hs hd rfl (by simp) (Or.inl rfl)
  | error =>
    rw [← Option.some.inj ht]
    exact h.move hle hs hd rfl (by simp) (Or.inl rfl)
  | ready data =>
    simp only [Copy.onRead] at ht
    split at ht
    · rw [← Option.some.inj ht]
      refine h.reset hle hs hd ?_ ?_ (by simp) fun x hx => ?_
      · split <;> rfl
      · split <;> rfl
      · rcases List.mem_append.mp hx with hx | hx
        · exact Or.inl hx
        · exact Or.inr (by rw [List.mem_singleton.mp hx]; rfl)
    · exact absurd ht (by simp)

/-- A write sets the timer anew as well. -/
theorem timed_onWrite {created clock now : Nat} {s t : Copy} {slice : List UInt8}
    {answer : WriteAnswer} (h : Timed created clock s) (hle : clock ≤ now)
    (hp : s.point = .writing slice) (ht : s.onWrite slice now answer = some t) :
    Timed created now t := by
  have hs : s.point ≠ .suspended := by simp [hp]
  have hd : s.point ≠ .returned .deadline := by simp [hp]
  cases answer with
  | wouldBlock =>
    rw [← Option.some.inj ht]
    exact h.move hle hs hd rfl (by simp) (Or.inl rfl)
  | error =>
    rw [← Option.some.inj ht]
    exact h.move hle hs hd rfl (by simp) (Or.inl rfl)
  | ready i =>
    simp only [Copy.onWrite] at ht
    split at ht
    · split at ht
      · -- `WriteZero`: the copy ends, though the timer was set anew just before
        rw [← Option.some.inj ht]
        exact h.reset hle hs hd rfl rfl (by simp) fun x hx => Or.inl hx
      · rw [← Option.some.inj ht]
        -- the new entry of the log is as old as the timer
        refine h.reset hle hs hd rfl rfl (by simp) fun x hx => ?_
        rcases List.mem_append.mp hx with hx | hx
        · exact Or.inl hx
        · exact Or.inr (by rw [List.mem_singleton.mp hx]; rfl)
    · exact absurd ht (by simp)

/-- A flush leaves the timer where it is, and is no transfer of bytes. -/
theorem timed_onFlush {created clock now : Nat} {s : Copy} (h : Timed created clock s)
    (hle : clock ≤ now) (hp : s.point = .flushing) (answer : FlushAnswer) :
    Timed created now (s.onFlush now answer) := by
  have hs : s.point ≠ .suspended := by rw [hp]; decide
  have hd : s.point ≠ .returned .deadline := by rw [hp]; decide
  cases answer with
  | wouldBlock => exact h.move hle hs hd rfl (by simp [Copy.onFlush]) (Or.inl rfl)
  | error => exact h.move hle hs hd rfl (by simp [Copy.onFlush]) (Or.inl rfl)
  | ready => exact h.move hle hs hd rfl (by simp [Copy.onFlush]) (Or.inr rfl)

/-- **One timed step keeps the timer invariant.** -/
theorem timed_step {created clock : Nat} {s t : Copy} {e : Event} (h : Timed created clock s)
    (ht : s.timedStep clock e = some t) : Timed created e.now t := by
  obtain ⟨hle, hanswers, hstep⟩ := timedStep_eq ht
  clear ht
  unfold Copy.step at hstep
  split at hstep
  · rw [← Option.some.inj hstep]
    exact timed_onTimer h hle hanswers
  · -- `top`
    rename_i hp
    rw [← Option.some.inj hstep]
    refine h.move hle (by rw [hp]; decide) (by rw [hp]; decide) rfl ?_ (Or.inl rfl)
    show (if _ then Point.reading else Point.whileTest) ≠ _
    split <;> nofun
  · rename_i hp
    exact timed_onRead h hle hp hstep
  · -- `whileTest`: to the writer, to a panic, or out of the loop
    rename_i hp
    have hs : s.point ≠ .suspended := by rw [hp]; decide
    have hd : s.point ≠ .returned .deadline := by rw [hp]; decide
    split at hstep
    · split at hstep
      · rw [← Option.some.inj hstep]
        exact h.move hle hs hd rfl nofun (Or.inl rfl)
      · rw [← Option.some.inj hstep]
        exact h.move hle hs hd rfl nofun (Or.inl rfl)
    · rw [← Option.some.inj hstep]
      exact h.move hle hs hd rfl nofun (Or.inl rfl)
  · rename_i hp
    exact timed_onWrite h hle hp hstep
  · -- `finishTest`
    rename_i hp
    rw [← Option.some.inj hstep]
    refine h.move hle (by rw [hp]; decide) (by rw [hp]; decide) rfl ?_ (Or.inl rfl)
    show (if _ then Point.flushing else Point.top) ≠ _
    split <;> nofun
  · rename_i hp
    rw [← Option.some.inj hstep]
    exact timed_onFlush h hle hp _
  · exact absurd hstep (by simp)

/-- **At the deadline exit**, taken at `clock`: one deadline has passed since every read and
    write, and, if there was a timer at all, since the creation. -/
theorem Timed.idle {created clock : Nat} {s : Copy} (h : Timed created clock s)
    (hexit : s.point = .returned .deadline) :
    (∀ x ∈ s.log, x.IsIo → x.now + s.future.deadline ≤ clock) ∧
    (s.future.timeout ≠ none → created + s.future.deadline ≤ clock) := by
  have ht := h.timer
  have hready := timerAnswer_ready_iff.mp (h.exit hexit)
  cases hto : s.future.timeout with
  | none =>
    rw [hto] at ht
    refine ⟨fun x hx _ => ?_, fun hne => absurd rfl hne⟩
    rw [ht.1] at hx
    exact absurd hx List.not_mem_nil
  | some instant =>
    rw [hto] at ht
    have hle := hready instant hto
    exact ⟨fun x hx hio => Nat.le_trans (ht.2 x hx hio) hle, fun _ => Nat.le_trans ht.1 hle⟩

/-! ## What never changes -/

/-- The deadline is the same, and there still is a timer or still none. -/
def SameTimer (c c' : CopyWithDeadline) : Prop :=
  c'.deadline = c.deadline ∧ (c'.timeout = none ↔ c.timeout = none)

theorem SameTimer.refl (c : CopyWithDeadline) : SameTimer c c := ⟨rfl, Iff.rfl⟩

/-- `reset` moves the instant of a timer that is there, and makes none. -/
theorem sameTimer_reset (c : CopyWithDeadline) (now : Nat) : SameTimer c (c.reset now) :=
  ⟨rfl, by simp [CopyWithDeadline.reset]⟩

/-- No read makes a timer or takes it away. -/
theorem sameTimer_onRead {s t : Copy} {now : Nat} {answer : ReadAnswer}
    (h : s.onRead now answer = some t) : SameTimer s.future t.future := by
  have hreset := sameTimer_reset s.future now
  cases answer with
  | wouldBlock => rw [← Option.some.inj h]; exact SameTimer.refl _
  | error => rw [← Option.some.inj h]; exact SameTimer.refl _
  | ready data =>
    simp only [Copy.onRead] at h
    split at h
    · rw [← Option.some.inj h]
      by_cases h0 : data.length = 0
      · simp only [if_pos h0]
        exact hreset
      · simp only [if_neg h0]
        exact hreset
    · exact absurd h (by simp)

/-- No write makes a timer or takes it away. -/
theorem sameTimer_onWrite {s t : Copy} {slice : List UInt8} {now : Nat} {answer : WriteAnswer}
    (h : s.onWrite slice now answer = some t) : SameTimer s.future t.future := by
  have hreset := sameTimer_reset s.future now
  cases answer with
  | wouldBlock => rw [← Option.some.inj h]; exact SameTimer.refl _
  | error => rw [← Option.some.inj h]; exact SameTimer.refl _
  | ready i =>
    simp only [Copy.onWrite] at h
    split at h
    · split at h
      · rw [← Option.some.inj h]; exact hreset
      · rw [← Option.some.inj h]; exact hreset
    · exact absurd h (by simp)

/-- No step changes the deadline or makes or drops a timer. -/
theorem step_sameTimer {s t : Copy} {e : Event} (h : s.step e = some t) :
    SameTimer s.future t.future := by
  unfold Copy.step at h
  split at h
  · rw [← Option.some.inj h]
    unfold Copy.onTimer
    split <;> exact SameTimer.refl _
  · rw [← Option.some.inj h]
    exact SameTimer.refl _
  · exact sameTimer_onRead h
  · split at h
    · split at h
      · rw [← Option.some.inj h]; exact SameTimer.refl _
      · rw [← Option.some.inj h]; exact SameTimer.refl _
    · rw [← Option.some.inj h]; exact SameTimer.refl _
  · exact sameTimer_onWrite h
  · rw [← Option.some.inj h]
    exact SameTimer.refl _
  · rw [← Option.some.inj h]
    unfold Copy.onFlush
    split <;> exact SameTimer.refl _
  · exact absurd h (by simp)

end Safewrt.Lifeline1
