/-
  The descriptors `attempt_remote` leaves behind (packages/lifeline/lifeline.c, `remote_connect`,
  `local_connect` and `attempt_remote`).

  1. **Descriptors** — the open ones as a set, and a log of what was opened and closed.  `socket`
     takes the lowest number that is free, so a process that runs without standard input or
     output gets 0 or 1, which the callers take for a failure.

  2. **Program** — the two constructors and the six exits of `attempt_remote`, for every answer of
     the calls it makes (`Outcomes`).  The handshake is `attemptRemoteSplit` on what the server
     sends, the end of forwarding what `forward_loop` comes to on what its calls return.

  3. **`attemptRemoteSockets_restores_iff`** — a call that returns has closed what it opened exactly
     where there was no socket, where the connection timed out, or where the handshake failed on
     a descriptor above 1.  After a handshake no path closes anything.

  A call may also end the process, or forward for ever; of these there is nothing left to restore,
  and the result is about calls that return.  Each path is a lemma of its own, and the result puts
  them together.
-/
import Mathlib.Data.Finset.Card
import Mathlib.Data.Finset.Range
import Safewrt.Lifeline.Segments
import Safewrt.Lifeline.ForwardLoop

namespace Safewrt.Lifeline

open Safewrt.Lib

/-! ## Descriptors -/

/-- The open descriptors, and what was opened and closed in the order it happened. -/
structure Descriptors where
  held : Finset Nat
  opened : List Nat
  closed : List Nat

/-- The open descriptors before the call, with nothing logged. -/
def Descriptors.of (held : Finset Nat) : Descriptors := ⟨held, [], []⟩

/-- The lowest number that is no open descriptor. -/
def lowest (held : Finset Nat) : Nat :=
  ((List.range (held.card + 1)).find? fun fd => decide (fd ∉ held)).getD held.card

/-- The number that `socket` takes is free. -/
theorem lowest_notMem (held : Finset Nat) : lowest held ∉ held := by
  cases hfind : (List.range (held.card + 1)).find? fun fd => decide (fd ∉ held) with
  | some fd =>
    have hfd := List.find?_some hfind
    rw [lowest, hfind]
    exact of_decide_eq_true hfd
  | none =>
    -- more numbers than open descriptors
    have hall : Finset.range (held.card + 1) ⊆ held := by
      intro fd hfd
      have hmem := List.mem_range.mpr (Finset.mem_range.mp hfd)
      have hnot := List.find?_eq_none.mp hfind fd hmem
      simpa using hnot
    have hcard := Finset.card_le_card hall
    rw [Finset.card_range] at hcard
    omega

theorem zero_mem_of_lowest {held : Finset Nat} (h : 0 < lowest held) : 0 ∈ held := by
  by_contra h0
  rw [lowest, List.range_succ_eq_map, List.find?_cons_of_pos (by simpa using h0)] at h
  exact absurd h (by simp)

/-- `socket`: the descriptor, unless the system has none to give. -/
def Descriptors.socket (d : Descriptors) (succeeds : Bool) : Option Nat × Descriptors :=
  if succeeds then
    (some (lowest d.held),
      { d with held := insert (lowest d.held) d.held, opened := d.opened ++ [lowest d.held] })
  else (none, d)

/-- `close` -/
def Descriptors.close (d : Descriptors) (fd : Nat) : Descriptors :=
  { d with held := d.held.erase fd, closed := d.closed ++ [fd] }

/-! ## The program -/

/-- How `forward_loop` ends. -/
inductive Forwarding
  | returned
  | exited     -- `exit(ret)`
  | running    -- it has not ended
  deriving Repr, DecidableEq

/-- What the calls of `forward_loop` return decides how it ends. -/
def forwarding (results : List Result) : Forwarding :=
  match (run step start results).map Loop.call with
  | some .done => .returned
  | some (.failed _ _) => .returned
  | some .exit => .exited
  | _ => .running

/-- What the calls of `attempt_remote` come to. -/
structure Outcomes where
  /-- `socket` in `remote_connect` -/
  remoteSocket : Bool
  /-- `poll(fds, 1, 5000) == 1` -/
  connected : Bool
  segmentation : Segmentation
  stream : List UInt8
  /-- `socket` in `local_connect` -/
  localSocket : Bool
  /-- `inet_pton(..) > 0` -/
  inetPton : Bool
  /-- `connect(..) >= 0` in `local_connect` -/
  localConnect : Bool
  results : List Result

/-- `remote_connect`: -1 without a socket, -3 behind a connection that timed out. -/
def remoteConnect (o : Outcomes) (d : Descriptors) : Int × Descriptors :=
  match d.socket o.remoteSocket with
  | (none, d) => (-1, d)
  | (some sockfd, d) => if o.connected then (sockfd, d) else (-3, d.close sockfd)

/-- `local_connect`: a socket that cannot be connected stays open. -/
def localConnect (o : Outcomes) (d : Descriptors) : Int × Descriptors :=
  match d.socket o.localSocket with
  | (none, d) => (-1, d)
  | (some sockfd, d) =>
    if ¬ o.inetPton then (-1, d)
    else if ¬ o.localConnect then (-1, d)
    else (sockfd, d)

/-- How `attempt_remote` ends: with a value (none, where it runs off its end), or not at all. -/
inductive Left
  | returned (value : Option Int)
  | exited
  | running
  deriving Repr, DecidableEq

/-- `attempt_remote`, as far as descriptors go. -/
def attemptRemoteSockets (o : Outcomes) (d : Descriptors) : Left × Descriptors :=
  let (remoteSocket, d) := remoteConnect o d
  if remoteSocket > 1 then
    match attemptRemoteSplit o.segmentation o.stream with
    | .died => (.returned (some 1), d.close remoteSocket.toNat)
    | .invalid => (.returned (some 2), d.close remoteSocket.toNat)
    | .accepted _ =>
      let (localSocket, d) := localConnect o d
      if localSocket < 1 then (.returned (some localSocket), d)
      else
        match forwarding o.results with
        | .returned => (.returned (some 0), d)
        | .exited => (.exited, d)
        | .running => (.running, d)
  else (.returned none, d)

/-! ## Paths -/

/-- A socket opened and closed again. -/
theorem close_socket (held : Finset Nat) :
    ((Descriptors.of held).socket true).2.close (lowest held) =
      ⟨held, [lowest held], [lowest held]⟩ := by
  show (⟨(insert (lowest held) held).erase (lowest held), _, _⟩ : Descriptors) = _
  rw [Finset.erase_insert (lowest_notMem held)]
  rfl

/-- `remote_connect` ends in one of three ways; the first is that there is no socket. -/
theorem remoteConnect_noSocket {o : Outcomes} (h : o.remoteSocket = false) (d : Descriptors) :
    remoteConnect o d = (-1, d) := by
  rw [remoteConnect, h]
  rfl

/-- A connection that times out has its socket closed again. -/
theorem remoteConnect_timeout {o : Outcomes} (hs : o.remoteSocket = true)
    (hc : o.connected = false) (held : Finset Nat) :
    remoteConnect o (Descriptors.of held) = (-3, ⟨held, [lowest held], [lowest held]⟩) := by
  rw [← close_socket, remoteConnect, hs, hc]
  rfl

/-- A connection that is made is the descriptor taken. -/
theorem remoteConnect_connected {o : Outcomes} (hs : o.remoteSocket = true)
    (hc : o.connected = true) (held : Finset Nat) :
    remoteConnect o (Descriptors.of held) =
      ((lowest held : Int), ((Descriptors.of held).socket true).2) := by
  rw [remoteConnect, hs, hc]
  rfl

/-- `local_connect` succeeds. -/
def Outcomes.Local (o : Outcomes) : Prop :=
  o.localSocket = true ∧ o.inetPton = true ∧ o.localConnect = true

/-- With everything in order, `local_connect` returns the descriptor it took. -/
theorem localConnect_connected {o : Outcomes} (h : o.Local) (d : Descriptors) :
    localConnect o d = ((lowest d.held : Int), (d.socket true).2) := by
  rw [localConnect, h.1, h.2.1, h.2.2]
  rfl

/-- `local_connect` returns -1 if any of its calls fails. -/
theorem localConnect_failed {o : Outcomes} (h : ¬ o.Local) (d : Descriptors) :
    (localConnect o d).1 = -1 := by
  rw [localConnect]
  cases hs : o.localSocket with
  | false => rfl
  | true =>
    cases hp : o.inetPton with
    | false => rfl
    | true =>
      cases hc : o.localConnect with
      | false => rfl
      | true => exact absurd ⟨hs, hp, hc⟩ h

/-- `local_connect` closes nothing, whatever it opened. -/
theorem localConnect_log (o : Outcomes) (d : Descriptors) :
    (localConnect o d).2.closed = d.closed ∧
      ∃ fds, (localConnect o d).2.opened = d.opened ++ fds := by
  rw [localConnect]
  cases o.localSocket with
  | false => exact ⟨rfl, [], (List.append_nil _).symm⟩
  | true =>
    cases o.inetPton with
    | false => exact ⟨rfl, _, rfl⟩
    | true =>
      cases o.localConnect with
      | false => exact ⟨rfl, _, rfl⟩
      | true => exact ⟨rfl, _, rfl⟩

/-! ## What is left open -/

/-- When the call returns, the open descriptors are those before it, and everything it opened was
    closed once. -/
def Restores (held : Finset Nat) (outcome : Left × Descriptors) : Prop :=
  ∀ value, outcome.1 = .returned value →
    outcome.2.held = held ∧ outcome.2.opened.Perm outcome.2.closed

theorem restores_closed (held : Finset Nat) (left : Left) (fd : Nat) :
    Restores held (left, ⟨held, [fd], [fd]⟩) := fun _ _ => ⟨rfl, List.Perm.refl _⟩

/-- Something was opened and nothing closed. -/
theorem not_restores {held : Finset Nat} {value : Option Int} {d : Descriptors} {fd : Nat}
    {fds : List Nat} (hopened : d.opened = fd :: fds) (hclosed : d.closed = []) :
    ¬ Restores held (.returned value, d) := by
  intro h
  have hperm := (h value rfl).2
  have hlen := hperm.length_eq
  rw [hopened, hclosed] at hlen
  exact absurd hlen (by simp)

/-- From a finished handshake on, a call that returns has left its sockets open. -/
theorem accepted_restores_iff {o : Outcomes} {held : Finset Nat} {rest : List UInt8}
    (hs : o.remoteSocket = true) (hc : o.connected = true) (hfd : 1 < lowest held)
    (h : attemptRemoteSplit o.segmentation o.stream = .accepted rest) :
    Restores held (attemptRemoteSockets o (Descriptors.of held)) ↔
      o.Local ∧ forwarding o.results ≠ .returned := by
  have hgate : (lowest held : Int) > 1 := by omega
  obtain ⟨hclosed, fds, hopened⟩ := localConnect_log o ((Descriptors.of held).socket true).2
  have hopened' : (localConnect o ((Descriptors.of held).socket true).2).2.opened =
      lowest held :: fds := hopened
  simp only [attemptRemoteSockets, remoteConnect_connected hs hc, if_pos hgate, h]
  by_cases hlocal : o.Local
  · -- 0 is taken, so the second socket is no failure either
    have hzero : 0 ∈ insert (lowest held) held :=
      Finset.mem_insert_of_mem (zero_mem_of_lowest (by omega))
    have hne : lowest (insert (lowest held) held) ≠ 0 := fun h0 =>
      lowest_notMem _ (by rw [h0]; exact hzero)
    have hfd' : ¬ (localConnect o ((Descriptors.of held).socket true).2).1 < 1 := by
      rw [localConnect_connected hlocal]
      show ¬ ((lowest (insert (lowest held) held) : Nat) : Int) < 1
      omega
    rw [if_neg hfd']
    -- only `forward_loop` coming back makes the call return, and it closes nothing
    cases hforward : forwarding o.results with
    | returned => simpa using not_restores hopened' hclosed
    | exited => exact ⟨fun _ => ⟨hlocal, by simp⟩, fun _ value hvalue => by simp at hvalue⟩
    | running => exact ⟨fun _ => ⟨hlocal, by simp⟩, fun _ value hvalue => by simp at hvalue⟩
  · have hfailed : (localConnect o ((Descriptors.of held).socket true).2).1 < 1 := by
      rw [localConnect_failed hlocal]
      decide
    rw [if_pos hfailed]
    exact ⟨fun hr => absurd hr (not_restores hopened' hclosed), fun hr => absurd hr.1 hlocal⟩

/-- **The descriptors after `attempt_remote`**: as before it, with every socket closed once, exactly
    where none could be opened, the connection timed out, or the descriptor is above 1 and the
    handshake fails (or the call does not return from forwarding). -/
theorem attemptRemoteSockets_restores_iff (held : Finset Nat) (o : Outcomes) :
    Restores held (attemptRemoteSockets o (Descriptors.of held)) ↔
      o.remoteSocket = false ∨ o.connected = false ∨
        (1 < lowest held ∧
          ((∀ rest, attemptRemoteSplit o.segmentation o.stream ≠ .accepted rest) ∨
            (o.Local ∧ forwarding o.results ≠ .returned))) := by
  cases hs : o.remoteSocket with
  | false =>
    refine ⟨fun _ => Or.inl rfl, fun _ => ?_⟩
    simp only [attemptRemoteSockets, remoteConnect_noSocket hs]
    exact fun _ _ => ⟨rfl, List.Perm.refl _⟩
  | true =>
    cases hc : o.connected with
    | false =>
      refine ⟨fun _ => Or.inr (Or.inl rfl), fun _ => ?_⟩
      simp only [attemptRemoteSockets, remoteConnect_timeout hs hc]
      exact restores_closed held _ _
    | true =>
      by_cases hfd : 1 < lowest held
      · cases hhandshake : attemptRemoteSplit o.segmentation o.stream with
        | accepted rest =>
          rw [accepted_restores_iff hs hc hfd hhandshake]
          simp [hfd]
        | invalid =>
          have hgate : (lowest held : Int) > 1 := by omega
          simp only [attemptRemoteSockets, remoteConnect_connected hs hc, if_pos hgate, hhandshake,
            Int.toNat_natCast, close_socket]
          simpa [hfd] using restores_closed held _ _
        | died =>
          have hgate : (lowest held : Int) > 1 := by omega
          simp only [attemptRemoteSockets, remoteConnect_connected hs hc, if_pos hgate, hhandshake,
            Int.toNat_natCast, close_socket]
          simpa [hfd] using restores_closed held _ _
      · -- descriptor 0 or 1: taken for a failure, and never closed
        have hgate : ¬ (lowest held : Int) > 1 := by omega
        have hnot : ¬ Restores held (attemptRemoteSockets o (Descriptors.of held)) := by
          simp only [attemptRemoteSockets, remoteConnect_connected hs hc, if_neg hgate]
          exact not_restores rfl rfl
        simp [hnot, hfd]

/-! ### A session that ends -/

/-- Everything succeeds; the ssh daemon then closes the connection. -/
def sessionOutcomes : Outcomes where
  remoteSocket := true
  connected := true
  segmentation _ := 36
  stream := serverHelo
  localSocket := true
  inetPton := true
  localConnect := true
  results := [.ready true false, .readEnd]

/-- Both sockets stay open: 3 and 4, beside the standard descriptors. -/
theorem session_leaks :
    (attemptRemoteSockets sessionOutcomes (Descriptors.of {0, 1, 2})).1 = .returned (some 0) ∧
      (attemptRemoteSockets sessionOutcomes (Descriptors.of {0, 1, 2})).2.held =
        {0, 1, 2, 3, 4} ∧
      ¬ Restores {0, 1, 2} (attemptRemoteSockets sessionOutcomes (Descriptors.of {0, 1, 2})) := by
  have hhandshake : attemptRemoteSplit sessionOutcomes.segmentation sessionOutcomes.stream =
      .accepted [] := by
    rw [attemptRemoteSplit_eq]
    decide
  have hreturned : (attemptRemoteSockets sessionOutcomes (Descriptors.of {0, 1, 2})).1 =
      .returned (some 0) := by
    simp only [attemptRemoteSockets, hhandshake]
    decide +kernel
  have hheld : (attemptRemoteSockets sessionOutcomes (Descriptors.of {0, 1, 2})).2.held =
      {0, 1, 2, 3, 4} := by
    simp only [attemptRemoteSockets, hhandshake]
    decide +kernel
  refine ⟨hreturned, hheld, fun h => ?_⟩
  have hback := (h _ hreturned).1
  rw [hheld] at hback
  exact absurd hback (by decide)

end Safewrt.Lifeline
