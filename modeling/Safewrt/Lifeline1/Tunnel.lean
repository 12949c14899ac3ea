/-
  The tunnel of lifeline1 (hatch/src/services/lifeline1/mod.rs, `remote`): two copies with a
  deadline of 60 seconds each, joined by `select2`.

  1. **Turns** — `select2` polls the first future, and if that returns `NotReady` the second; it
     is ready as soon as one of them is.  A tunnel is the two copies, whose turn it is and the
     clock; its labels are the answers the copy at turn gets.

  2. `deadline_idle_direction`: a tunnel ended by a deadline was idle for 60 seconds in the
     direction of that deadline.  `oneWayTraffic` shows that nothing follows for the other one.

  Each copy has a timer of its own and resets only that one, so the invariant is one about each copy
  by itself (`Timed`, of `Lifeline1.Deadline`) and the clock they share (`TunnelOk`): a turn of one
  side leaves the other as it is, and makes it only later.
-/
import Safewrt.Lifeline1.Deadline

namespace Safewrt.Lifeline1

open Safewrt.Lib

/-! ## Two copies under `select2` -/

/-- `Duration::from_secs(60)` -/
def tunnelDeadline : Nat := 60 * 10 ^ 9

/-- The two directions, by where the bytes go. -/
inductive Side
  | remoteToLocal
  | localToRemote
  deriving Repr, DecidableEq

/-- The other direction. -/
def Side.other : Side → Side
  | .remoteToLocal => .localToRemote
  | .localToRemote => .remoteToLocal

/-- Both copies, and which of them `select2` polls. -/
structure Tunnel where
  copy1 : Copy
  copy2 : Copy
  /-- the future that is being polled, or is polled next -/
  turn : Side
  clock : Nat
  /-- which future completed, and how -/
  ended : Option (Side × Exit)

/-- The copy of a direction. -/
def Tunnel.copy (t : Tunnel) : Side → Copy
  | .remoteToLocal => t.copy1
  | .localToRemote => t.copy2

/-- The tunnel with this copy changed. -/
def Tunnel.setCopy (t : Tunnel) (c : Copy) : Side → Tunnel
  | .remoteToLocal => { t with copy1 := c }
  | .localToRemote => { t with copy2 := c }

/-- `copy1.select2(copy2)`, before the first poll. -/
def Tunnel.init (created1 created2 : Nat) (armed1 armed2 : Bool) : Tunnel where
  copy1 := .init tunnelDeadline (newTimer created1 tunnelDeadline armed1)
  copy2 := .init tunnelDeadline (newTimer created2 tunnelDeadline armed2)
  turn := .remoteToLocal
  clock := max created1 created2
  ended := none

/-- One answer to the copy at turn.  Its `NotReady` passes the turn on; its completion ends the
    tunnel and drops the other copy. -/
def Tunnel.step (t : Tunnel) (e : Event) : Option Tunnel :=
  if t.ended.isSome then none
  else
    ((t.copy t.turn).timedStep t.clock e).map fun c =>
      let t' := { t.setCopy c t.turn with clock := e.now }
      match c.point with
      | .suspended => { t' with turn := t.turn.other }
      | .returned exit => { t' with ended := some (t.turn, exit) }
      | _ => t'

@[simp] theorem copy_setCopy (t : Tunnel) (c : Copy) (side : Side) :
    (t.setCopy c side).copy side = c := by
  cases side <;> rfl

theorem copy_setCopy_of_ne (t : Tunnel) (c : Copy) {side s : Side} (h : s ≠ side) :
    (t.setCopy c side).copy s = t.copy s := by
  cases side <;> cases s <;> first | rfl | exact absurd rfl h

/-- What a step does: one copy moves, the clock is set, and a completion is noted. -/
theorem tunnel_step_eq {t u : Tunnel} {e : Event} (h : t.step e = some u) :
    ∃ c, (t.copy t.turn).timedStep t.clock e = some c ∧ u.copy t.turn = c ∧
      (∀ s, s ≠ t.turn → u.copy s = t.copy s) ∧ u.clock = e.now ∧
      ∀ s exit, u.ended = some (s, exit) → s = t.turn ∧ c.point = .returned exit := by
  unfold Tunnel.step at h
  split at h
  · exact absurd h (by simp)
  · rename_i hopen
    have hnone : t.ended = none := by
      cases hended : t.ended with
      | none => rfl
      | some x => exact absurd (by rw [hended]; rfl) hopen
    obtain ⟨c, hc, hu⟩ := Option.map_eq_some_iff.mp h
    have hset : (t.setCopy c t.turn).ended = none := by
      cases t.turn <;> exact hnone
    refine ⟨c, hc, ?_⟩
    rw [← hu]
    -- whether the copy is suspended, has returned, or goes on
    split
    · exact ⟨copy_setCopy t c t.turn, fun s hs => copy_setCopy_of_ne t c hs, rfl,
        fun s exit hs => absurd (hset.symm.trans hs) (by simp)⟩
    · rename_i exit hp
      refine ⟨copy_setCopy t c t.turn, fun s hs => copy_setCopy_of_ne t c hs, rfl, ?_⟩
      intro s exit' hs
      have heq := Option.some.inj hs
      rw [Prod.mk.injEq] at heq
      exact ⟨heq.1.symm, by rw [hp, heq.2]⟩
    · exact ⟨copy_setCopy t c t.turn, fun s hs => copy_setCopy_of_ne t c hs, rfl,
        fun s exit hs => absurd (hset.symm.trans hs) (by simp)⟩

/-! ## What a deadline says -/

/-- No byte moved in the `duration` before `clock`. -/
def IdleFor (duration clock : Nat) (log : List Transfer) : Prop :=
  ∀ x ∈ log, x.readBytes ≠ [] ∨ x.wroteBytes ≠ [] → x.now + duration ≤ clock

instance (duration clock : Nat) (log : List Transfer) : Decidable (IdleFor duration clock log) := by
  unfold IdleFor; infer_instance

/-- Bytes move in a read or a write, never in a flush. -/
theorem Transfer.isIo_of_bytes {x : Transfer} (h : x.readBytes ≠ [] ∨ x.wroteBytes ≠ []) :
    x.IsIo := by
  cases x with
  | read now data => trivial
  | wrote now data => trivial
  | flushed now =>
    rcases h with h | h
    · exact absurd rfl h
    · exact absurd rfl h

/-- Both copies keep their timers, and the end that is noted is the one a copy came to. -/
structure TunnelOk (created : Side → Nat) (t : Tunnel) : Prop where
  timed : ∀ side, Timed (created side) t.clock (t.copy side)
  deadline : ∀ side, (t.copy side).future.deadline = tunnelDeadline
  ended : ∀ side exit, t.ended = some (side, exit) → (t.copy side).point = .returned exit

/-- Two new copies. -/
theorem tunnelOk_init (created1 created2 : Nat) (armed1 armed2 : Bool) :
    TunnelOk (fun | .remoteToLocal => created1 | .localToRemote => created2)
      (.init created1 created2 armed1 armed2) := by
  refine ⟨fun side => ?_, fun side => ?_, nofun⟩
  · cases side with
    | remoteToLocal => exact (timed_init created1 _ armed1).later (Nat.le_max_left ..)
    | localToRemote => exact (timed_init created2 _ armed2).later (Nat.le_max_right ..)
  · cases side <;> rfl

/-- A step moves the copy at turn; the other one only sees the clock go on. -/
theorem tunnelOk_step {created : Side → Nat} {t u : Tunnel} {e : Event} (h : TunnelOk created t)
    (hu : t.step e = some u) : TunnelOk created u := by
  obtain ⟨c, hc, hturn, hother, hclock, hended⟩ := tunnel_step_eq hu
  obtain ⟨hle, -, hstep⟩ := timedStep_eq hc
  refine ⟨fun side => ?_, fun side => ?_, fun side exit hend => ?_⟩
  · by_cases hs : side = t.turn
    · rw [hs, hturn, hclock]
      exact timed_step (h.timed t.turn) hc
    · rw [hother side hs, hclock]
      exact (h.timed side).later hle
  · -- no step changes a deadline
    by_cases hs : side = t.turn
    · rw [hs, hturn, (step_sameTimer hstep).1]
      exact h.deadline t.turn
    · rw [hother side hs]
      exact h.deadline side
  · obtain ⟨hs, hp⟩ := hended side exit hend
    rw [hs, hturn]
    exact hp

/-- **The direction whose deadline ends the tunnel was idle.** -/
theorem deadline_idle_direction (created1 created2 : Nat) (armed1 armed2 : Bool)
    (es : List Event) (t : Tunnel) (side : Side)
    (hrun : run Tunnel.step (.init created1 created2 armed1 armed2) es = some t)
    (hended : t.ended = some (side, .deadline)) :
    IdleFor tunnelDeadline t.clock (t.copy side).log := by
  have hok := run_invariant _ (tunnelOk_init created1 created2 armed1 armed2)
    (fun _ _ _ => tunnelOk_step) es t hrun
  have hidle := ((hok.timed side).idle (hok.ended side _ hended)).1
  rw [hok.deadline side] at hidle
  exact fun x hx hbytes => hidle x hx (Transfer.isIo_of_bytes hbytes)

/-- Data comes from the remote side half a minute in, none goes back. -/
def oneWayTraffic : List Event :=
  let second := 10 ^ 9
  [.poll second .notReady, .go second, .read second .wouldBlock,
    .poll second .notReady, .go second, .read second .wouldBlock,
    .poll (30 * second) .notReady, .go (30 * second), .read (30 * second) (.ready [0x41]),
    .go (30 * second), .write (30 * second) (.ready 1), .go (30 * second), .go (30 * second),
    .go (30 * second), .read (30 * second) .wouldBlock,
    .poll (30 * second) .notReady, .go (30 * second), .read (30 * second) .wouldBlock,
    .poll (60 * second) .notReady, .go (60 * second), .read (60 * second) .wouldBlock,
    .poll (60 * second) .ready]

theorem oneWayTraffic_runs :
    (run Tunnel.step (.init 0 0 true true) oneWayTraffic).isSome = true := by decide +kernel

/-- The direction of the deadline was idle indeed, while the other one was busy all the time. -/
theorem deadline_idle_direction_oneWay :
    let t := (run Tunnel.step (.init 0 0 true true) oneWayTraffic).get oneWayTraffic_runs
    IdleFor tunnelDeadline t.clock (t.copy .localToRemote).log :=
  deadline_idle_direction 0 0 true true oneWayTraffic _ .localToRemote
    (Option.some_get oneWayTraffic_runs).symm (by decide +kernel)

/-- The tunnel of `oneWayTraffic` is torn down 30 seconds after a byte was delivered. -/
theorem oneWayTraffic_torn_down :
    let t := (run Tunnel.step (.init 0 0 true true) oneWayTraffic).get oneWayTraffic_runs
    t.ended = some (.localToRemote, .deadline) ∧ t.clock = 60 * 10 ^ 9 ∧
      Transfer.wrote (30 * 10 ^ 9) [0x41] ∈ (t.copy .remoteToLocal).log ∧
      ¬ IdleFor tunnelDeadline t.clock (t.copy .remoteToLocal).log := by
  decide +kernel

end Safewrt.Lifeline1
