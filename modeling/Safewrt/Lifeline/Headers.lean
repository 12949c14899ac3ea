/-
  Where the header loop of the C client stops (packages/lifeline/lifeline.c, `attempt_remote`).

  The loop reads one byte at a time and counts line ends in a row: any `\r` or `\n` adds one, any
  other byte starts again, and at four it stops.  It never looks at what a line says.

  1. **`headerBlock`**: what a server sends between the status line and the payload, by the grammar:
     the CRLF of the status line, header lines each closed by a CRLF, and the CRLF of the blank
     line.  `HeaderLine` is a line the grammar allows, not empty and without line ends in it.

  2. **The counter against the grammar** — in front of every header line `countspace` is 2, whatever
     lines came before (`skipHeaders_lines`); so the blank line is the first place where it can
     reach 4, and it does so at the last byte of the blank line.  A payload that begins with line
     ends is therefore not touched.

  3. `attemptRemote_headers`: the loop leaves exactly the payload, and a stream that ends
     before the blank line does is a dead socket.
-/
import Safewrt.Lifeline.Segments

namespace Safewrt.Lifeline

/-! ## The grammar -/

/-- The line end of the grammar.  The loop takes a carriage return or a line feed alone as well. -/
def crlf : List UInt8 := [0x0d, 0x0a]

/-- A header line, without the CRLF that closes it. -/
structure HeaderLine where
  bytes : List UInt8
  nonempty : bytes ≠ []
  /-- neither CR nor LF -/
  free : bytes.any isNewline = false

/-- All the header lines, each closed. -/
def headerLines (headers : List HeaderLine) : List UInt8 :=
  headers.flatMap fun line => line.bytes ++ crlf

/-- What follows the status line, up to and including the blank line. -/
def headerBlock (headers : List HeaderLine) : List UInt8 := crlf ++ headerLines headers ++ crlf

/-! ## The counter -/

/-- Bytes that end no line set the counter back. -/
theorem skipHeaders_free {bytes : List UInt8} (hne : bytes ≠ []) (hfree : bytes.any isNewline = false)
    (stream : List UInt8) : ∀ countspace,
    skipHeaders countspace (bytes ++ stream) = skipHeaders 0 stream := by
  induction bytes with
  | nil => exact absurd rfl hne
  | cons b bytes ih =>
    intro countspace
    rw [List.any_cons, Bool.or_eq_false_iff] at hfree
    have hb : ¬ isNewline b = true := by
      rw [hfree.1]
      decide
    rw [List.cons_append, skipHeaders, if_neg hb]
    cases bytes with
    | nil => rfl
    | cons c bytes => exact ih (List.cons_ne_nil c bytes) hfree.2 0

theorem skipHeaders_crlf (stream : List UInt8) :
    skipHeaders 0 (crlf ++ stream) = skipHeaders 2 stream := rfl

/-- The blank line closes the block: its second byte is the fourth line end in a row. -/
theorem skipHeaders_blank (stream : List UInt8) :
    skipHeaders 2 (crlf ++ stream) = some stream := rfl

/-- **In front of every header line the counter is 2.** -/
theorem skipHeaders_lines (headers : List HeaderLine) (stream : List UInt8) :
    skipHeaders 2 (headerLines headers ++ stream) = skipHeaders 2 stream := by
  induction headers with
  | nil => rfl
  | cons line headers ih =>
    have hcons : headerLines (line :: headers) ++ stream =
        line.bytes ++ (crlf ++ (headerLines headers ++ stream)) := by
      show line.bytes ++ crlf ++ headerLines headers ++ stream = _
      rw [List.append_assoc, List.append_assoc]
    calc skipHeaders 2 (headerLines (line :: headers) ++ stream)
        = skipHeaders 0 (crlf ++ (headerLines headers ++ stream)) := by
          rw [hcons, skipHeaders_free line.nonempty line.free]
      _ = skipHeaders 2 (headerLines headers ++ stream) := skipHeaders_crlf _
      _ = skipHeaders 2 stream := ih

/-- **The loop consumes the block and nothing behind it.** -/
theorem skipHeaders_block (headers : List HeaderLine) (payload : List UInt8) :
    skipHeaders 0 (headerBlock headers ++ payload) = some payload := by
  have hblock : headerBlock headers ++ payload =
      crlf ++ (headerLines headers ++ (crlf ++ payload)) := by
    rw [headerBlock, List.append_assoc, List.append_assoc]
  rw [hblock, skipHeaders_crlf, skipHeaders_lines, skipHeaders_blank]

/-! ## A stream that ends earlier -/

/-- What arrives later does not change where the loop stopped. -/
theorem skipHeaders_append {stream rest : List UInt8} (more : List UInt8) :
    ∀ {countspace : Nat}, skipHeaders countspace stream = some rest →
      skipHeaders countspace (stream ++ more) = some (rest ++ more) := by
  induction stream with
  | nil =>
    intro countspace h
    exact absurd h (by simp [skipHeaders])
  | cons b stream ih =>
    intro countspace h
    rw [skipHeaders] at h
    rw [List.cons_append, skipHeaders]
    by_cases hb : isNewline b
    · rw [if_pos hb] at h ⊢
      by_cases hfull : countspace + 1 > 3
      · rw [if_pos hfull] at h ⊢
        rw [Option.some.inj h]
      · rw [if_neg hfull] at h ⊢
        exact ih h
    · rw [if_neg hb] at h ⊢
      exact ih h

/-- A part of the block is not enough: had the loop stopped in it, the whole block would leave
    something. -/
theorem skipHeaders_cut (headers : List HeaderLine) {n : Nat}
    (h : n < (headerBlock headers).length) :
    skipHeaders 0 ((headerBlock headers).take n) = none := by
  cases hskip : skipHeaders 0 ((headerBlock headers).take n) with
  | none => rfl
  | some rest =>
    have hwhole := skipHeaders_append ((headerBlock headers).drop n) hskip
    have hblock := skipHeaders_block headers []
    rw [List.append_nil] at hblock
    rw [List.take_append_drop, hblock] at hwhole
    have hnil := (List.append_eq_nil_iff.mp (Option.some.inj hwhole).symm).2
    rw [List.drop_eq_nil_iff] at hnil
    omega

/-- A whole header block is skipped, and the payload is what is left to forward. -/
theorem attemptRemoteSplit_block {seg : Segmentation} (hwhole : seg.Whole)
    (headers : List HeaderLine) (payload : List UInt8) :
    attemptRemoteSplit seg (expect ++ (headerBlock headers ++ payload)) = .accepted payload := by
  have hlen : expect.length ≤ (expect ++ (headerBlock headers ++ payload)).length := by
    rw [List.length_append]
    omega
  rw [attemptRemoteSplit_whole hwhole hlen, List.take_left, List.drop_left, skipHeaders_block]
  exact if_neg fun hne => hne rfl

/-- Every proper part of it, cut at any byte, ends in a dead socket. -/
theorem attemptRemoteSplit_part (seg : Segmentation) (headers : List HeaderLine) {n : Nat}
    (h : n < (expect ++ headerBlock headers).length) :
    attemptRemoteSplit seg ((expect ++ headerBlock headers).take n) = .died := by
  by_cases hwhole : seg.Whole
  · refine (attemptRemoteSplit_died_iff hwhole _).mpr ?_
    by_cases hn : n < expect.length
    · -- within the status line
      refine .inl ?_
      rw [List.length_take]
      omega
    · obtain ⟨m, rfl⟩ : ∃ m, n = expect.length + m := ⟨n - expect.length, by omega⟩
      rw [List.length_append] at h
      rw [List.take_length_add_append]
      refine .inr ⟨List.prefix_append _ _, ?_⟩
      rw [List.drop_left]
      exact (skipHeaders_none_iff _).mp (skipHeaders_cut headers (by omega))
  · exact attemptRemoteSplit_cut hwhole _

/-- **The header loop ends with the blank line.**  Whatever header lines come before it and whatever
    follows, the payload is what is left on the socket; and where the stream ends earlier, the socket
    is taken for dead.  The handshake goes the same way, once its first `recv` has the status line. -/
theorem attemptRemote_headers (seg : Segmentation) (headers : List HeaderLine)
    (payload : List UInt8) :
    ((∀ k, ignoreHeaders seg k 0 (headerBlock headers ++ payload) = some payload) ∧
      ∀ k n, n < (headerBlock headers).length →
        ignoreHeaders seg k 0 ((headerBlock headers).take n) = none) ∧
    (seg.Whole →
      attemptRemoteSplit seg (expect ++ (headerBlock headers ++ payload)) = .accepted payload) ∧
    ∀ n, n < (expect ++ headerBlock headers).length →
      attemptRemoteSplit seg ((expect ++ headerBlock headers).take n) = .died := by
  refine ⟨⟨fun k => ?_, fun k n hn => ?_⟩, fun hwhole => ?_, fun n hn => ?_⟩
  · rw [ignoreHeaders_eq]
    exact skipHeaders_block headers payload
  · rw [ignoreHeaders_eq]
    exact skipHeaders_cut headers hn
  · exact attemptRemoteSplit_block hwhole headers payload
  · exact attemptRemoteSplit_part seg headers hn

/-! ### A payload that begins with line ends -/

/-- A header of the answer that the server gives. -/
def upgradeBytes : List UInt8 := ascii "Upgrade: SSH"

theorem upgrade_nonempty : upgradeBytes ≠ [] := by decide

theorem upgrade_free : upgradeBytes.any isNewline = false := by decide

def upgradeHeader : HeaderLine := ⟨upgradeBytes, upgrade_nonempty, upgrade_free⟩

/-- The four line ends at the head of the payload are left to ssh; the block without its last byte
    does not complete the handshake. -/
theorem attemptRemote_headers_upgrade :
    attemptRemoteSplit (fun _ => 32)
      (expect ++ (headerBlock [upgradeHeader] ++ ascii "\r\n\r\nSSH-2.0")) =
        .accepted (ascii "\r\n\r\nSSH-2.0") ∧
    ignoreHeaders (fun _ => 32) 1 0 ((headerBlock [upgradeHeader]).take 17) = none ∧
    attemptRemoteSplit (fun _ => 32) ((expect ++ headerBlock [upgradeHeader]).take 49) = .died := by
  have h := attemptRemote_headers (fun _ => 32) [upgradeHeader] (ascii "\r\n\r\nSSH-2.0")
  exact ⟨h.2.1 (by decide), h.1.2 1 17 (by decide), h.2.2 49 (by decide)⟩

end Safewrt.Lifeline
