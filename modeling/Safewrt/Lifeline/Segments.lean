/-
  The handshake of the C client over every segmentation of the stream (packages/lifeline/lifeline.c,
  `attempt_remote`).

  TCP is a stream of bytes, and how many of them one `recv` returns is up to the network.  A client
  that is to work must come to the same end however the stream is cut.

  1. **`attemptRemoteSplit`**: the handshake where the network chooses for each `recv` how much of
     the stream has arrived.  A `Segmentation` is a function of the number of the call, so one of
     them can be held against any stream.

  2. The header loop asks for single bytes, so only the first `recv` has a choice
     (`attemptRemoteSplit_eq`).  That one asks for the 32 bytes of the status line and is not
     repeated: where fewer have come, the handshake fails (`attemptRemoteSplit_cut`).

  3. **`attemptRemoteSplit_eq_iff`**: two segmentations agree if both give the first `recv` the
     whole status line, or both cut it, or the server never completes the handshake at all
     (`Hopeless`, a property of the stream alone).
-/
import Safewrt.Lifeline.AttemptRemote

namespace Safewrt.Lifeline

/-- How many bytes have arrived when `recv` is called for the `k`-th time. -/
abbrev Segmentation := Nat → Nat

/-! ## The handshake -/

/-- At the end of the stream `recv` returns 0, whatever has arrived. -/
theorem recv_one_nil (n : Nat) : recv 1 n [] = ([], []) := by
  unfold recv
  dsimp only
  rw [List.take_nil, List.drop_nil]

/-- Asked for one byte, `recv` returns this one byte: a segment boundary cannot show. -/
theorem recv_one_cons (n : Nat) (b : UInt8) (stream : List UInt8) :
    recv 1 n (b :: stream) = ([b], stream) := by
  have hcount : min (max n 1) 1 = 1 := by omega
  unfold recv
  rw [hcount]
  rfl

/-- `recv` of one byte leaves a shorter stream. -/
theorem recv_one_shorter {n : Nat} {stream rest : List UInt8} {b : UInt8}
    (h : recv 1 n stream = ([b], rest)) : rest.length < stream.length := by
  cases stream with
  | nil =>
    rw [recv_one_nil] at h
    exact absurd (Prod.mk.inj h).1 (by simp)
  | cons c stream =>
    rw [recv_one_cons] at h
    rw [← (Prod.mk.inj h).2]
    exact Nat.lt_succ_self _

/-- The loop that ignores the headers, from the `k`-th `recv` on. -/
def ignoreHeaders (seg : Segmentation) (k countspace : Nat) (stream : List UInt8) :
    Option (List UInt8) :=
  match _h : recv 1 (seg k) stream with
  | ([b], rest) =>
    if isNewline b then
      if countspace + 1 > 3 then some rest
      else ignoreHeaders seg (k + 1) (countspace + 1) rest
    else ignoreHeaders seg (k + 1) 0 rest
  | _ => none
termination_by stream.length
decreasing_by all_goals exact recv_one_shorter _h

/-- `attempt_remote` between its `send` and `local_connect`. -/
def attemptRemoteSplit (seg : Segmentation) (stream : List UInt8) : Handshake :=
  let (buf, rest) := recv expect.length (seg 0) stream
  if buf.length ≠ expect.length then .died
  else if buf ≠ expect then .invalid
  else
    match ignoreHeaders seg 1 0 rest with
    | none => .died
    | some rest => .accepted rest

/-! ## Only the first `recv` has a choice -/

/-- The header loop on segments is the loop over the bytes, by induction on the stream. -/
theorem ignoreHeaders_eq (seg : Segmentation) (stream : List UInt8) :
    ∀ k countspace, ignoreHeaders seg k countspace stream = skipHeaders countspace stream := by
  induction stream with
  | nil =>
    intro k countspace
    rw [ignoreHeaders, recv_one_nil]
    rfl
  | cons b stream ih =>
    intro k countspace
    rw [ignoreHeaders, recv_one_cons, skipHeaders]
    dsimp only
    rw [ih, ih]

/-- The handshake depends on the segmentation through its first `recv` alone. -/
theorem attemptRemoteSplit_eq (seg : Segmentation) (stream : List UInt8) :
    attemptRemoteSplit seg stream = attemptRemote (seg 0) stream := by
  have hskip : ignoreHeaders seg 1 0 = skipHeaders 0 :=
    funext fun rest => ignoreHeaders_eq seg rest 1 0
  rw [attemptRemoteSplit, hskip]
  rfl

/-- The split point of `attempt_remote`, in any segmentation. -/
theorem attemptRemoteSplit_append_iff (seg : Segmentation) (helo rest : List UInt8) :
    attemptRemoteSplit seg (helo ++ rest) = .accepted rest ↔
      attemptRemoteSplit seg helo = .accepted [] := by
  rw [attemptRemoteSplit_eq, attemptRemoteSplit_eq]
  exact attemptRemote_append_iff (seg 0) helo rest

/-- The first `recv` returns the whole status line. -/
def Segmentation.Whole (seg : Segmentation) : Prop := expect.length ≤ seg 0

instance (seg : Segmentation) : Decidable seg.Whole := inferInstanceAs (Decidable (_ ≤ _))

/-- The length that the first `recv` asks for, in bytes. -/
theorem expect_length : expect.length = 32 := by decide

/-- A stream that ends within the status line is a dead socket. -/
theorem attemptRemoteSplit_short (seg : Segmentation) {stream : List UInt8}
    (h : stream.length < expect.length) : attemptRemoteSplit seg stream = .died := by
  rw [attemptRemoteSplit_eq]
  unfold attemptRemote recv
  refine if_pos ?_
  rw [List.length_take]
  omega

/-- A status line that arrives in two segments is a dead socket too, since the code asks for it
    once. -/
theorem attemptRemoteSplit_cut {seg : Segmentation} (hcut : ¬ seg.Whole) (stream : List UInt8) :
    attemptRemoteSplit seg stream = .died := by
  have hexpect := expect_length
  unfold Segmentation.Whole at hcut
  rw [attemptRemoteSplit_eq]
  unfold attemptRemote recv
  refine if_pos ?_
  rw [List.length_take]
  omega

/-- A status line that arrives whole is compared, and then the headers are skipped: here the
    segmentation is out of the picture. -/
theorem attemptRemoteSplit_whole {seg : Segmentation} (hwhole : seg.Whole) {stream : List UInt8}
    (hlen : expect.length ≤ stream.length) : attemptRemoteSplit seg stream =
      if stream.take expect.length ≠ expect then .invalid
      else
        match skipHeaders 0 (stream.drop expect.length) with
        | none => .died
        | some rest => .accepted rest := by
  have hcount : min (max (seg 0) 1) expect.length = expect.length := by
    unfold Segmentation.Whole at hwhole
    omega
  rw [attemptRemoteSplit_eq]
  unfold attemptRemote recv
  dsimp only
  rw [hcount]
  exact if_neg (not_not.mpr (by rw [List.length_take]; omega))

/-! ## The end of the headers -/

/-- Four line ends in a row, of either kind. -/
def BlankLine (stream : List UInt8) : Prop :=
  List.replicate 4 true <:+: stream.map isNewline

instance (stream : List UInt8) : Decidable (BlankLine stream) :=
  inferInstanceAs (Decidable (_ <:+: _))

/-- A byte that is no line end separates. -/
theorem replicate_infix_cons_false {n c : Nat} (hc : c < n) (bs : List Bool) :
    List.replicate n true <:+: List.replicate c true ++ false :: bs ↔
      List.replicate n true <:+: bs := by
  refine ⟨?_, fun h => h.trans ((List.suffix_cons false bs).trans
    (List.suffix_append _ _)).isInfix⟩
  -- a row of line ends longer than those before the byte has to lie behind it
  induction c with
  | zero =>
    intro h
    rcases List.infix_cons_iff.mp h with hpre | htail
    · obtain ⟨m, rfl⟩ : ∃ m, n = m + 1 := ⟨n - 1, by omega⟩
      exact absurd (List.cons_prefix_cons.mp hpre).1 (by decide)
    · exact htail
  | succ c ih =>
    intro h
    rcases List.infix_cons_iff.mp h with hpre | htail
    · -- `n` line ends do not fit before the byte
      have hget := hpre.getElem (i := c + 1) (by rw [List.length_replicate]; exact hc)
      rw [List.getElem_replicate] at hget
      have hfalse : (List.replicate (c + 1) true ++ false :: bs)[c + 1]? = some false := by
        rw [List.getElem?_append_right (by rw [List.length_replicate])]
        simp
      have htrue := List.getElem?_eq_some_iff.mpr ⟨_, hget.symm⟩
      exact absurd (Option.some.inj (htrue.symm.trans hfalse)) (by decide)
    · exact ih (by omega) htail

/-- **The header loop ends at the first blank line**, the line ends before it included. -/
theorem skipHeaders_isSome_iff (stream : List UInt8) : ∀ countspace, countspace ≤ 3 →
    ((skipHeaders countspace stream).isSome ↔
      List.replicate 4 true <:+: List.replicate countspace true ++ stream.map isNewline) := by
  induction stream with
  | nil =>
    intro countspace hcount
    refine ⟨fun h => absurd h (by simp [skipHeaders]), fun h => ?_⟩
    have hlen := h.length_le
    simp only [List.length_replicate, List.length_append, List.length_map, List.length_nil] at hlen
    omega
  | cons b stream ih =>
    intro countspace hcount
    rw [skipHeaders, List.map_cons]
    by_cases hb : isNewline b
    · -- a line end is one more in the row that the counter stands for
      have hshift : List.replicate countspace true ++ true :: stream.map isNewline =
          List.replicate (countspace + 1) true ++ stream.map isNewline := by
        rw [List.replicate_succ', List.append_assoc]
        rfl
      rw [if_pos hb, hb, hshift]
      by_cases hfull : countspace + 1 > 3
      · obtain rfl : countspace = 3 := by omega
        rw [if_pos hfull]
        exact iff_of_true rfl (List.prefix_append _ _).isInfix
      · rw [if_neg hfull]
        exact ih (countspace + 1) (by omega)
    · -- any other byte ends the row, and the counter starts again
      rw [if_neg hb, Bool.not_eq_true _ |>.mp hb, replicate_infix_cons_false (by omega)]
      exact ih 0 (by omega)

/-- The header loop runs into the end of the stream where there is no blank line. -/
theorem skipHeaders_none_iff (stream : List UInt8) :
    skipHeaders 0 stream = none ↔ ¬ BlankLine stream := by
  have h := skipHeaders_isSome_iff stream 0 (by omega)
  rw [List.replicate_zero, List.nil_append] at h
  unfold BlankLine
  rw [← h]
  cases skipHeaders 0 stream <;> simp

/-! ## Two segmentations -/

/-- Whatever arrives when, the handshake does not complete: the stream ends within the status
    line, or after it and before a blank line. -/
def Hopeless (stream : List UInt8) : Prop :=
  stream.length < expect.length ∨
    expect <+: stream ∧ ¬ BlankLine (stream.drop expect.length)

instance (stream : List UInt8) : Decidable (Hopeless stream) :=
  inferInstanceAs (Decidable (_ ∨ _))

theorem take_expect_iff (stream : List UInt8) :
    stream.take expect.length = expect ↔ expect <+: stream :=
  eq_comm.trans List.prefix_iff_eq_take.symm

/-- With a whole status line the socket is dead only for a reason that lies in the stream. -/
theorem attemptRemoteSplit_died_iff {seg : Segmentation} (hwhole : seg.Whole)
    (stream : List UInt8) : attemptRemoteSplit seg stream = .died ↔ Hopeless stream := by
  unfold Hopeless
  by_cases hlen : stream.length < expect.length
  · exact iff_of_true (attemptRemoteSplit_short seg hlen) (.inl hlen)
  rw [attemptRemoteSplit_whole hwhole (by omega), ← take_expect_iff, ← skipHeaders_none_iff]
  by_cases hexpect : stream.take expect.length ≠ expect
  · rw [if_pos hexpect]
    simp [hexpect, hlen]
  · rw [if_neg hexpect]
    rw [not_not] at hexpect
    cases skipHeaders 0 (stream.drop expect.length) with
    | none => simp [hexpect]
    | some rest => simp [hlen]

/-- **Two segmentations of a stream lead to the same outcome, after the same bytes,** exactly where
    they agree whether the first `recv` gets the whole status line, or where nothing helps. -/
theorem attemptRemoteSplit_eq_iff (seg seg' : Segmentation) (stream : List UInt8) :
    attemptRemoteSplit seg stream = attemptRemoteSplit seg' stream ↔
      (seg.Whole ↔ seg'.Whole) ∨ Hopeless stream := by
  by_cases hwhole : seg.Whole
  · by_cases hwhole' : seg'.Whole
    · refine iff_of_true ?_ (.inl (iff_of_true hwhole hwhole'))
      by_cases hlen : stream.length < expect.length
      · rw [attemptRemoteSplit_short seg hlen, attemptRemoteSplit_short seg' hlen]
      · rw [attemptRemoteSplit_whole hwhole (by omega), attemptRemoteSplit_whole hwhole' (by omega)]
    · rw [attemptRemoteSplit_cut hwhole', attemptRemoteSplit_died_iff hwhole]
      simp [hwhole, hwhole']
  · by_cases hwhole' : seg'.Whole
    · rw [attemptRemoteSplit_cut hwhole, eq_comm, attemptRemoteSplit_died_iff hwhole']
      simp [hwhole, hwhole']
    · refine iff_of_true ?_ (.inl (iff_of_false hwhole hwhole'))
      rw [attemptRemoteSplit_cut hwhole, attemptRemoteSplit_cut hwhole']

/-! ### A server that sends its answer in two segments -/

/-- The status line and the blank line, as a server sends them that answers nothing else. -/
def serverHelo : List UInt8 := ascii "HTTP/1.1 101 Switching Protocols\r\n\r\n"

/-- **`HTTP/1.1` first, the rest later**: the client takes the connection for dead, where it accepts
    the same bytes in one segment. -/
theorem statusLine_cut :
    attemptRemoteSplit (fun _ => 36) serverHelo = .accepted [] ∧
    attemptRemoteSplit (fun k => if k = 0 then 8 else 36) serverHelo = .died := by
  constructor
  · rw [attemptRemoteSplit_eq]
    decide
  · rw [attemptRemoteSplit_eq]
    decide

end Safewrt.Lifeline
