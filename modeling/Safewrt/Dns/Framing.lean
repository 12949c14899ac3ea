/-
  How the answer section lies in the payload, and what one turn of `answerLoop` does with it.

  1. **The framing** — `Walks p c hs c'`: from cursor `c` the payload `p` holds records with the
     headers `hs` one after the other, up to cursor `c'`: owner name, fixed part, and the
     `rdlength` jump, all by the cursor rules of `dns_receive` but with every byte inside `p`.  It
     says nothing of what lies behind the payload, nor of a bound on the records.  `Questions` is
     the same for the section before it.

  2. **One turn** — `answerLoop_isA` and `answerLoop_other` are the two things a turn of the loop
     can do on a record that lies in the payload; `answerLoop_inside` inverts them: a turn that
     reads only inside the payload stood on such a record.

  Every other proof about the loop uses these three and never unfolds it.  They also say which
  offsets the turn reads (`headReads`, `dataReads`) and what it stores (`recordStores`), so that the
  results on bounds and those on values follow from the same case analysis.
-/
import Safewrt.Dns.Receive

namespace Safewrt.Dns

open Safewrt.Lib

/-! ## The framing -/

/-- The owner name at `c` ends before `e`, inside the payload. -/
def NameEnds (p : List UInt8) (c e : Nat) : Prop :=
  ∃ z b, StopsAt nameStop p c z b ∧ e = afterName (z, b)

/-- The fixed part `h` of a record stands at `e`, inside the payload. -/
def HeaderAt (p : List UInt8) (e : Nat) (h : Header) : Prop :=
  e + headerSize ≤ p.length ∧ h = Header.decode ((p.drop e).take headerSize)

/-- Records with the headers `hs` lie in the payload from `c` to `c'`.  The rdata of a record
    other than A is only jumped over; that of an A record is in the payload as well. -/
inductive Walks (p : List UInt8) : Nat → List Header → Nat → Prop
  | nil (c : Nat) : Walks p c [] c
  | cons {c e c' : Nat} {h : Header} {hs : List Header} :
      NameEnds p c e → HeaderAt p e h → (h.isA = true → e + headerSize + 4 ≤ p.length) →
      Walks p (e + headerSize + h.rdlength) hs c' → Walks p c (h :: hs) c'

/-- `n` questions lie in the payload from `c` to `c'`. -/
inductive Questions (p : List UInt8) : Nat → Nat → Nat → Prop
  | nil (c : Nat) : Questions p 0 c c
  | cons {n c z c' : Nat} {b : UInt8} :
      StopsAt (· == 0) p c z b → Questions p n (z + 5) c' → Questions p (n + 1) c c'

/-! ## The loops on what lies in the payload -/

/-- On a name that ends in the payload the name loop returns its end. -/
theorem skipName_value {p : List UInt8} {bh : Behind} {k c e : Nat} (h : NameEnds p c e) :
    (skipName (mem p bh k) c).1 = some e := by
  obtain ⟨z, b, hz, rfl⟩ := h
  rw [skipName, mem, scan_of_stopsAt hz]
  rfl

/-- The name loop reads only inside exactly where the name ends there. -/
theorem skipName_inside {p : List UInt8} {bh : Behind} {k c : Nat} :
    (∀ x ∈ (skipName (mem p bh k) c).2, x < p.length) ↔ ∃ e, NameEnds p c e := by
  show (∀ x ∈ (scan nameStop (p ++ bh.bytes k) c).2, x < p.length) ↔ _
  rw [scan_inside_iff]
  constructor
  · rintro ⟨z, b, h⟩
    exact ⟨_, z, b, h, rfl⟩
  · rintro ⟨e, z, b, h, -⟩
    exact ⟨z, b, h⟩

theorem loadHeader_value {p : List UInt8} {bh : Behind} {k e : Nat} {h : Header}
    (hh : HeaderAt p e h) : (loadHeader (mem p bh k) e).1 = some h := by
  rw [loadHeader, mem, load_append hh.1, hh.2]
  rfl

/-- The fixed part is read inside exactly where it lies there. -/
theorem loadHeader_inside {p : List UInt8} {bh : Behind} {k e : Nat} :
    (∀ x ∈ (loadHeader (mem p bh k) e).2, x < p.length) ↔ ∃ h, HeaderAt p e h := by
  show (∀ x ∈ (load (p ++ bh.bytes k) headerSize e).2, x < p.length) ↔ _
  rw [load_inside_iff]
  constructor
  · rintro (h0 | hle)
    · exact absurd h0 (by decide)
    · exact ⟨_, hle, rfl⟩
  · rintro ⟨h, hle, -⟩
    exact Or.inr hle

/-- The offsets a turn reads up to the fixed part. -/
def headReads (p : List UInt8) (bh : Behind) (k c e : Nat) : List Nat :=
  (skipName (mem p bh k) c).2 ++ (loadHeader (mem p bh k) e).2

/-- A name and a fixed part that lie in the payload are read inside it. -/
theorem headReads_inside {p : List UInt8} {bh : Behind} {k c e : Nat} {h : Header}
    (hn : NameEnds p c e) (hh : HeaderAt p e h) : ∀ x ∈ headReads p bh k c e, x < p.length := by
  intro x hx
  rcases List.mem_append.mp hx with hx | hx
  · exact skipName_inside.mpr ⟨e, hn⟩ x hx
  · exact loadHeader_inside.mpr ⟨h, hh⟩ x hx

/-- The offsets of the rdata load of an A record. -/
def dataReads (p : List UInt8) (bh : Behind) (k e : Nat) : List Nat :=
  (load (mem p bh k) 4 (e + headerSize)).2

/-- The two stores of an A record that stands at `e` with header `h`. -/
def recordStores (p : List UInt8) (recordCount e : Nat) (h : Header) : List Store :=
  [.ttl recordCount (UInt32.ofNat h.ttl),
    .address recordCount (UInt32.ofNat (be ((p.drop (e + headerSize)).take 4)))]

/-- A turn on an A record: store it, refuse if it was the sixteenth, else go on. -/
theorem answerLoop_isA {p : List UInt8} {bh : Behind} {n c e k : Nat} {h : Header}
    (hn : NameEnds p c e) (hh : HeaderAt p e h) (hA : h.isA = true)
    (hd : e + headerSize + 4 ≤ p.length) :
    answerLoop p bh (n + 1) c k =
      let rs := headReads p bh (2 * k) c e ++ dataReads p bh (2 * k + 1) e
      if k + 1 ≥ 16 then ⟨some dnsErrorAnswerTooLarge, rs, recordStores p k e h⟩
      else (answerLoop p bh n (e + headerSize + h.rdlength) (k + 1)).after rs
        (recordStores p k e h) := by
  have hdata : (load (mem p bh (2 * k + 1)) 4 (e + headerSize)).1 =
      some ((p.drop (e + headerSize)).take 4) := load_append hd
  rw [answerLoop]
  simp only [skipName_value hn, loadHeader_value hh, if_pos hA, hdata]
  rfl

/-- A turn on any other record: jump over it. -/
theorem answerLoop_other {p : List UInt8} {bh : Behind} {n c e k : Nat} {h : Header}
    (hn : NameEnds p c e) (hh : HeaderAt p e h) (hA : h.isA = false) :
    answerLoop p bh (n + 1) c k =
      (answerLoop p bh n (e + headerSize + h.rdlength) k).after
        (headReads p bh (2 * k) c e) [] := by
  rw [answerLoop]
  simp only [skipName_value hn, loadHeader_value hh, hA]
  rfl

/-- A turn that reads only inside the payload stood on a record that lies there. -/
theorem answerLoop_inside {p : List UInt8} {bh : Behind} {n c k : Nat}
    (h : ∀ x ∈ (answerLoop p bh (n + 1) c k).reads, x < p.length) :
    ∃ e hd, NameEnds p c e ∧ HeaderAt p e hd ∧
      (hd.isA = true → e + headerSize + 4 ≤ p.length) := by
  -- a turn reads the name first, however it ends; knowing its end, the fixed part, and so on
  have hname : ∀ x ∈ (skipName (mem p bh (2 * k)) c).2, x < p.length := by
    intro x hx
    apply h x
    simp only [answerLoop]
    split
    · exact hx
    · split
      · exact List.mem_append_left _ hx
      · split
        · split
          · exact List.mem_append_left _ (List.mem_append_left _ hx)
          · split <;> simp [hx]
        · simp [hx]
  obtain ⟨e, he⟩ := skipName_inside.mp hname
  have hhead : ∀ x ∈ (loadHeader (mem p bh (2 * k)) e).2, x < p.length := by
    intro x hx
    apply h x
    simp only [answerLoop, skipName_value he]
    split
    · exact List.mem_append_right _ hx
    · split
      · split
        · exact List.mem_append_left _ (List.mem_append_right _ hx)
        · split <;> simp [hx]
      · simp [hx]
  obtain ⟨hd, hhd⟩ := loadHeader_inside.mp hhead
  refine ⟨e, hd, he, hhd, fun hA => ?_⟩
  have hdata : ∀ x ∈ (load (p ++ bh.bytes (2 * k + 1)) 4 (e + headerSize)).2, x < p.length := by
    intro x hx
    apply h x
    simp only [answerLoop, skipName_value he, loadHeader_value hhd, if_pos hA]
    have hx' : x ∈ (load (mem p bh (2 * k + 1)) 4 (e + headerSize)).2 := hx
    split
    · exact List.mem_append_right _ hx'
    · split <;> simp [hx']
  rcases load_inside_iff.mp hdata with h0 | hle
  · exact absurd h0 (by decide)
  · exact hle

/-- Questions that lie in the payload are skipped, and read inside it. -/
theorem skipQuestions_value {p : List UInt8} {n c c' : Nat} (bh : Behind) (k : Nat)
    (h : Questions p n c c') :
    (skipQuestions (mem p bh k) n c).1 = some c' ∧
      ∀ x ∈ (skipQuestions (mem p bh k) n c).2, x < p.length := by
  induction h with
  | nil c => exact ⟨rfl, fun x hx => absurd hx (by simp [skipQuestions])⟩
  | @cons n c z c' b hz _ ih =>
    have hq : skipQuestion (mem p bh k) c = (some (z + 5), (scan (· == 0) (mem p bh k) c).2) := by
      rw [skipQuestion, mem, scan_of_stopsAt hz]
      rfl
    have hin : ∀ x ∈ (scan (· == 0) (mem p bh k) c).2, x < p.length :=
      scan_inside_iff.mpr ⟨z, b, hz⟩
    rw [skipQuestions, hq]
    refine ⟨ih.1, fun x hx => ?_⟩
    rcases List.mem_append.mp hx with hx | hx
    · exact hin x hx
    · exact ih.2 x hx

/-- Conversely, questions that are skipped without leaving the payload lie in it. -/
theorem skipQuestions_inside {p : List UInt8} {bh : Behind} {k n c : Nat}
    (h : ∀ x ∈ (skipQuestions (mem p bh k) n c).2, x < p.length) : ∃ c', Questions p n c c' := by
  induction n generalizing c with
  | zero => exact ⟨c, Questions.nil c⟩
  | succ n ih =>
    have hin : ∀ x ∈ (scan (· == 0) (p ++ bh.bytes k) c).2, x < p.length := by
      intro x hx
      apply h x
      rw [skipQuestions]
      have hx' : x ∈ (skipQuestion (mem p bh k) c).2 := hx
      split
      · next rs heq => rw [heq] at hx'; exact hx'
      · next d rs heq => rw [heq] at hx'; exact List.mem_append_left _ hx'
    obtain ⟨z, b, hz⟩ := scan_inside_iff.mp hin
    have hq : skipQuestion (mem p bh k) c = (some (z + 5), (scan (· == 0) (mem p bh k) c).2) := by
      rw [skipQuestion, mem, scan_of_stopsAt hz]
      rfl
    rw [skipQuestions, hq] at h
    obtain ⟨c', hc'⟩ := ih fun x hx => h x (List.mem_append_right _ hx)
    exact ⟨c', Questions.cons hz hc'⟩

/-- The whole call on a packet whose questions lie in the payload. -/
theorem dnsReceive_of_questions {dns : DnsT} {d : Datagram} {c : Nat} (bh : Behind)
    (hp : Passes dns d) (hn : 1 ≤ (DnsPacket.received d.bytes).answers)
    (hq : Questions (DnsPacket.received d.bytes).payload (DnsPacket.received d.bytes).queries 0 c) :
    ∃ rs, (∀ x ∈ rs, x < payloadBufferSize) ∧
      dnsReceive dns bh (some d) =
        (answerLoop (DnsPacket.received d.bytes).payload bh
          (DnsPacket.received d.bytes).answers c 0).after rs [] := by
  obtain ⟨hval, hin⟩ := skipQuestions_value bh 0 hq
  refine ⟨_, fun x hx => (DnsPacket.received d.bytes).size ▸ hin x hx, ?_⟩
  rw [dnsReceive_parses hp hn]
  simp only [hval]

end Safewrt.Dns
