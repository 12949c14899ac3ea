/-
  The handshake of the C client (packages/lifeline/lifeline.c, `attempt_remote`): from the bytes
  the server sends to the decision to connect ssh, and the bytes that are then left to forward.

  The stream is all the server sends before it closes; a `recv` that fails and one at the end of
  the stream look alike to the code, which only compares the count.  TCP decides how much one
  `recv` returns (`n` below); the header loop asks for one byte at a time and leaves it no choice.

  1. **Program** — `attemptRemote`: the first 32 bytes are compared with the status line, then bytes
     are skipped until four line ends came in a row (`skipHeaders`).

  2. **`attemptRemote_accepted_iff`** — when ssh is connected, and what is left of the stream then:
     a suffix, which the code never looked at (`skipHeaders_suffix`).

  3. `attemptRemote_append_iff` — of a stream, exactly what follows a whole handshake is left.
-/
import Mathlib.Data.List.Infix

namespace Safewrt.Lifeline

/-- The bytes of a string literal of the source. -/
def ascii (text : String) : List UInt8 := text.toList.map fun c => UInt8.ofNat c.toNat

/-- `recv(fd, buf, want, 0)` when `n` bytes have arrived (at least one, unless the stream is
    over): the bytes it returns and the stream after it. -/
def recv (want n : Nat) (stream : List UInt8) : List UInt8 × List UInt8 :=
  let count := min (max n 1) want
  (stream.take count, stream.drop count)

/-- `const char *expect` -/
def expect : List UInt8 := ascii "HTTP/1.1 101 Switching Protocols"

/-- The test of the loop: a line feed or a carriage return. -/
def isNewline (b : UInt8) : Bool := b == 0x0a || b == 0x0d

/-- The loop that ignores the headers: what is left of the stream when it breaks, `none` when a
    `recv` returns no byte. -/
def skipHeaders (countspace : Nat) : List UInt8 → Option (List UInt8)
  | [] => none
  | b :: stream =>
    if isNewline b then
      if countspace + 1 > 3 then some stream else skipHeaders (countspace + 1) stream
    else skipHeaders 0 stream

/-- How `attempt_remote` leaves the handshake. -/
inductive Handshake
  | accepted (rest : List UInt8)   -- "server helo completed"
  | invalid                        -- "invalid server helo 1"
  | died                           -- "socket died in server helo 1", or 2
  deriving Repr, DecidableEq

/-- `attempt_remote` between its `send` and `local_connect`; `n` bytes have arrived when it first
    calls `recv`. -/
def attemptRemote (n : Nat) (stream : List UInt8) : Handshake :=
  let (buf, rest) := recv expect.length n stream
  if buf.length ≠ expect.length then .died
  else if buf ≠ expect then .invalid
  else
    match skipHeaders 0 rest with
    | none => .died
    | some rest => .accepted rest

/-! ## What is forwarded is what is left -/

/-- The loop drops bytes off the front of the stream and does nothing else to it. -/
theorem skipHeaders_suffix {stream rest : List UInt8} :
    ∀ {countspace : Nat}, skipHeaders countspace stream = some rest → rest <:+ stream := by
  induction stream with
  | nil => intro countspace h; exact absurd h (by simp [skipHeaders])
  | cons b stream ih =>
    intro countspace h
    unfold skipHeaders at h
    split at h
    · split at h
      · rw [← Option.some.inj h]
        exact List.suffix_cons b stream
      · exact (ih h).trans (List.suffix_cons b stream)
    · exact (ih h).trans (List.suffix_cons b stream)

/-- The loop takes at least one byte. -/
theorem skipHeaders_shorter {stream rest : List UInt8} :
    ∀ {countspace : Nat}, skipHeaders countspace stream = some rest →
      rest.length < stream.length := by
  induction stream with
  | nil => intro countspace h; exact absurd h (by simp [skipHeaders])
  | cons b stream ih =>
    intro countspace h
    rw [List.length_cons]
    unfold skipHeaders at h
    split at h
    · split at h
      · rw [← Option.some.inj h]
        exact Nat.lt_succ_self _
      · exact Nat.lt_succ_of_lt (ih h)
    · exact Nat.lt_succ_of_lt (ih h)

/-- The loop breaks right before `rest` exactly when it breaks at the end of what stands there,
    whatever `rest` holds: it never looks ahead. -/
theorem skipHeaders_append_iff (headers rest : List UInt8) : ∀ countspace,
    skipHeaders countspace (headers ++ rest) = some rest ↔
      skipHeaders countspace headers = some [] := by
  induction headers with
  | nil =>
    intro countspace
    refine iff_of_false (fun h => ?_) (by simp [skipHeaders])
    exact absurd (skipHeaders_shorter h) (Nat.lt_irrefl _)
  | cons b headers ih =>
    intro countspace
    rw [List.cons_append, skipHeaders, skipHeaders]
    split
    · split
      · rw [Option.some.injEq, Option.some.injEq]
        exact List.append_left_eq_self
      · exact ih _
    · exact ih 0

/-- The client accepts where its first `recv` may take a whole status line, the stream begins with
    it, and the headers behind it end. -/
theorem attemptRemote_accepted_iff {n : Nat} {stream rest : List UInt8} :
    attemptRemote n stream = .accepted rest ↔
      expect.length ≤ n ∧ ∃ headers, stream = expect ++ headers ∧
        skipHeaders 0 headers = some rest := by
  have hpos : 1 ≤ expect.length := by decide
  constructor
  · intro h
    unfold attemptRemote recv at h
    dsimp only at h
    generalize hcount : min (max n 1) expect.length = count at h
    by_cases hlen : (stream.take count).length ≠ expect.length
    · rw [if_pos hlen] at h
      exact absurd h (by simp)
    rw [if_neg hlen] at h
    by_cases hbuf : stream.take count ≠ expect
    · rw [if_pos hbuf] at h
      exact absurd h (by simp)
    rw [if_neg hbuf] at h
    rw [not_not, List.length_take] at hlen
    have hn : expect.length ≤ max n 1 := by omega
    -- the first `recv` had to return the whole status line, and the loop goes on behind it
    refine ⟨?_, stream.drop count, ?_, ?_⟩
    · rcases Nat.le_total n 1 with hle | hge
      · have : expect.length = 32 := by decide
        omega
      · omega
    · rw [← not_not.mp hbuf, List.take_append_drop]
    · cases hskip : skipHeaders 0 (stream.drop count) with
      | none => rw [hskip] at h; exact absurd h (by simp)
      | some rest' => rw [hskip] at h; rw [Handshake.accepted.inj h]
  · rintro ⟨hn, headers, rfl, hskip⟩
    have hcount : min (max n 1) expect.length = expect.length := by omega
    unfold attemptRemote recv
    dsimp only
    rw [hcount, List.take_left, List.drop_left, hskip]
    simp

/-- **The split point of `attempt_remote`**: it leaves `rest` exactly when the bytes before are,
    for this client, one whole handshake and nothing more. -/
theorem attemptRemote_append_iff (n : Nat) (helo rest : List UInt8) :
    attemptRemote n (helo ++ rest) = .accepted rest ↔ attemptRemote n helo = .accepted [] := by
  rw [attemptRemote_accepted_iff, attemptRemote_accepted_iff]
  constructor
  · rintro ⟨hn, headers, hsplit, hskip⟩
    -- what the loop took ends where `rest` begins
    obtain ⟨taken, rfl⟩ := skipHeaders_suffix hskip
    rw [← List.append_assoc] at hsplit
    exact ⟨hn, taken, List.append_cancel_right hsplit,
      (skipHeaders_append_iff taken rest 0).mp hskip⟩
  · rintro ⟨hn, headers, rfl, hskip⟩
    exact ⟨hn, headers ++ rest, List.append_assoc ..,
      (skipHeaders_append_iff headers rest 0).mpr hskip⟩

end Safewrt.Lifeline
