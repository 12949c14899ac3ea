/-
  What `dns_receive` writes and reads out of bounds, and on which packets.

  1. **Stores** — the loop refuses at sixteen records, `records` holds eight.  `aRecords` counts
     the A records of the answer section by the cursor rules alone, with no bound and no store;
     `dnsReceive_stores_inside_iff`: every store is inside the array exactly on the packets that
     carry at most eight.

  2. **Reads** — no load is checked against the end of the payload, and no packet is refused for
     its form: a walk that ends inside is accepted whatever it walked over.
     `dnsReceive_reads_inside_iff`: the reads stay inside, and a packet that RFC 1035 does not
     allow is refused, exactly on the well-formed packets whose walk stays inside and on those
     that bring sixteen A records before anything else goes wrong.

  3. **The crux** — a run of the loop that reads only inside the payload either walks over all
     records that are announced (`WalkInside`) or stops at the sixteenth A record (`Overfull`), and
     `walks_of_inside` finds which, by induction on the turns that are left.  In the first case the
     return code is 0 (`accepted_of_walks`), so nothing is refused but in the second
     (`refused_iff_overfull`).  What is well formed is said by the grammar of `Dns.Grammar` alone
     and shares no definition with the cursor rules; a well-formed packet whose names can be
     skipped is walked over inside (`walkInside_of_isMessage`).

  The two failures are independent: nine A records are well formed and read inside the payload but
  stored outside of the array, and a record that jumps out of the payload need not be stored.
-/
import Safewrt.Dns.Grammar

namespace Safewrt.Dns

open Safewrt.Lib

/-! ## Stores into `records`

  The loop counts its records and compares with sixteen; the array has eight entries. -/

/-- The headers of the `n` records from cursor `datap` on.  `k` A records were passed before,
    so `2 * k` stores have been made; the section ends early where memory does. -/
def answerHeaders (p : List UInt8) (bh : Behind) : Nat → Nat → Nat → List Header
  | 0, _, _ => []
  | n + 1, datap, k =>
    match (skipName (mem p bh (2 * k)) datap).1 with
    | none => []
    | some c =>
      match (loadHeader (mem p bh (2 * k)) c).1 with
      | none => []
      | some h =>
        h :: answerHeaders p bh n (c + headerSize + h.rdlength) (if h.isA then k + 1 else k)

/-- The number of A records the response carries. -/
def aRecords (bh : Behind) (d : Datagram) : Nat :=
  let packet := DnsPacket.received d.bytes
  match (skipQuestions (mem packet.payload bh 0) packet.queries 0).1 with
  | none => 0
  | some datap => (answerHeaders packet.payload bh packet.answers datap 0).countP Header.isA

/-- Every store of the walk hits the array. -/
def StoresInside (w : Walk) : Prop := ∀ s ∈ w.stores, s.index < recordsLength

instance (w : Walk) : Decidable (StoresInside w) := by
  unfold StoresInside; infer_instance

theorem storesInside_nil {code : Option Nat} {rs : List Nat} : StoresInside ⟨code, rs, []⟩ :=
  fun _ hs => absurd hs List.not_mem_nil

/-- The stores come in program order, so each part can be looked at by itself. -/
theorem storesInside_after {w : Walk} {rs : List Nat} {ss : List Store} :
    StoresInside (w.after rs ss) ↔ (∀ s ∈ ss, s.index < recordsLength) ∧ StoresInside w := by
  simp only [StoresInside, Walk.after_stores, List.mem_append, or_imp, forall_and]

/-- Past the end of memory there is no further record. -/
theorem answerHeaders_unmapped {p : List UInt8} {bh : Behind} {n c k : Nat}
    (h : p.length + bh.size ≤ c) : answerHeaders p bh n c k = [] := by
  have hdrop : (mem p bh (2 * k)).drop c = [] := by
    apply List.drop_eq_nil_of_le
    rw [mem, List.length_append, bh.mapped]
    exact h
  cases n with
  | zero => rfl
  | succ n => simp [answerHeaders, skipName, scan, hdrop, scanFrom]

/-- A load that faults started within its width of the end of memory. -/
theorem unmapped_of_load_none {p : List UInt8} {bh : Behind} {k n o : Nat}
    (h : (load (mem p bh k) n o).1 = none) : p.length + bh.size < o + n := by
  by_contra hle
  have hlen : (mem p bh k).length = p.length + bh.size := by
    rw [mem, List.length_append, bh.mapped]
  rw [load_value (by omega)] at h
  exact absurd h (by simp)

/-- **The loop**: from `k` records stored, the stores stay inside the array exactly when the A
    records to come fit the room that is left. -/
theorem answerLoop_storesInside_iff (p : List UInt8) (bh : Behind) :
    ∀ n c k, k ≤ recordsLength →
      (StoresInside (answerLoop p bh n c k) ↔
        k + (answerHeaders p bh n c k).countP Header.isA ≤ recordsLength) := by
  intro n
  induction n with
  | zero =>
    intro c k hk
    exact ⟨fun _ => hk, fun _ => storesInside_nil⟩
  | succ n ih =>
    intro c k hk
    simp only [answerLoop, answerHeaders]
    cases hname : (skipName (mem p bh (2 * k)) c).1 with
    | none => exact ⟨fun _ => hk, fun _ => storesInside_nil⟩
    | some e =>
      simp only []
      cases hhead : (loadHeader (mem p bh (2 * k)) e).1 with
      | none => exact ⟨fun _ => hk, fun _ => storesInside_nil⟩
      | some h =>
        simp only []
        cases hA : h.isA with
        | false =>
          simp only [Bool.false_eq_true, if_false]
          rw [storesInside_after, List.countP_cons_of_neg (by simp [hA]), ← ih _ k hk]
          exact ⟨fun hs => hs.2, fun hs => ⟨fun s hs' => absurd hs' List.not_mem_nil, hs⟩⟩
        | true =>
          simp only [if_true]
          rw [List.countP_cons_of_pos hA]
          -- the store at index `k` itself
          have hk8 : ∀ w : Walk, (∃ v, Store.ttl k v ∈ w.stores) → StoresInside w →
              k < recordsLength := by
            rintro w ⟨v, hv⟩ hw
            exact hw _ hv
          cases hdata : (load (mem p bh (2 * k + 1)) 4 (e + headerSize)).1 with
          | none =>
            -- the rdata is not mapped: nothing follows
            simp only []
            have hend := unmapped_of_load_none hdata
            have h4 : h.rdlength = 4 := by
              simp only [Header.isA, Bool.and_eq_true, beq_iff_eq] at hA
              exact hA.2
            rw [answerHeaders_unmapped (by omega), List.countP_nil]
            constructor
            · intro hs
              have := hk8 _ ⟨_, List.mem_singleton_self _⟩ hs
              omega
            · intro hle s hs
              rw [List.mem_singleton.mp hs]
              show k < recordsLength
              omega
          | some bs =>
            simp only []
            rcases Nat.lt_or_ge k recordsLength with hlt | hge
            · have h16 : ¬ k + 1 ≥ 16 := by
                have : recordsLength = 8 := rfl
                omega
              rw [if_neg h16, storesInside_after, ih _ (k + 1) hlt]
              constructor
              · rintro ⟨-, hle⟩
                omega
              · intro hle
                refine ⟨fun s hs => ?_, by omega⟩
                rcases List.mem_cons.mp hs with rfl | hs
                · exact hlt
                · rw [List.mem_singleton.mp hs]
                  exact hlt
            · constructor
              · intro hs
                refine absurd (hk8 _ ?_ hs) (by omega)
                split <;> exact ⟨UInt32.ofNat h.ttl, by simp⟩
              · intro hle
                omega

/-- On a datagram that comes to the answer loop, the number of its A records decides. -/
theorem dnsReceive_storesInside_iff {dns : DnsT} {bh : Behind} {d : Datagram}
    (h : Passes dns d) :
    StoresInside (dnsReceive dns bh (some d)) ↔ aRecords bh d ≤ recordsLength := by
  rcases Nat.eq_zero_or_pos (DnsPacket.received d.bytes).answers with hz | hpos
  · rw [dnsReceive_noAnswers h hz]
    refine ⟨fun _ => ?_, fun _ => storesInside_nil⟩
    simp only [aRecords, hz]
    split <;> simp [answerHeaders]
  · rw [dnsReceive_parses h hpos]
    simp only [aRecords]
    cases hq : (skipQuestions (mem (DnsPacket.received d.bytes).payload bh 0)
        (DnsPacket.received d.bytes).queries 0).1 with
    | none => exact ⟨fun _ => Nat.zero_le _, fun _ => storesInside_nil⟩
    | some c =>
      simp only []
      rw [storesInside_after, answerLoop_storesInside_iff _ _ _ _ _ (Nat.zero_le _), Nat.zero_add]
      exact ⟨fun hs => hs.2, fun hs => ⟨fun s hs' => absurd hs' List.not_mem_nil, hs⟩⟩

/-- A resolver that asked `8.8.8.8`. -/
def sampleDns : DnsT := ⟨0x1337, 0x08080808, List.replicate recordsLength ⟨0, 0⟩, length_cleared⟩

/-- A response of `n` equal A records (`10.0.0.1`, owner: the root). -/
def sampleResponse (n : Nat) : Datagram :=
  ⟨[0x13, 0x37, 0x81, 0x80, 0, 0, 0, UInt8.ofNat n, 0, 0, 0, 0] ++
    (List.replicate n [0, 0, 1, 0, 1, 0, 0, 0, 60, 0, 4, 10, 0, 0, 1]).flatten, 0x08080808⟩

theorem sampleResponse_passes_two : Passes sampleDns (sampleResponse 2) :=
  ⟨by decide +kernel, by decide +kernel, by decide +kernel, by decide +kernel⟩

/-- Every dereference of the walk is inside the payload buffer. -/
def ReadsInside (w : Walk) : Prop := ∀ o ∈ w.reads, o < payloadBufferSize

/-- The call returned an error. -/
def Refused (w : Walk) : Prop := ∃ e, w.code = some e ∧ e ≠ 0

/-- By the cursor rules, the questions and answers the packet announces lie in the payload. -/
def WalkInside (packet : DnsPacket) : Prop :=
  ∃ c hs c', Questions packet.payload packet.queries 0 c ∧ Walks packet.payload c hs c' ∧
    hs.length = packet.answers

/-- The packet brings sixteen A records inside the payload, whatever comes after them. -/
def Overfull (packet : DnsPacket) : Prop :=
  ∃ c hs c', Questions packet.payload packet.queries 0 c ∧ Walks packet.payload c hs c' ∧
    hs.length ≤ packet.answers ∧ 16 ≤ hs.countP Header.isA

theorem dataReads_inside {p : List UInt8} {bh : Behind} {k e : Nat}
    (hd : e + headerSize + 4 ≤ p.length) : ∀ x ∈ dataReads p bh k e, x < p.length :=
  load_inside_iff.mpr (Or.inr hd)

/-- A section with fewer than sixteen A records is read to its end and accepted. -/
theorem answerLoop_of_walks {p : List UInt8} {c c' : Nat} {hs : List Header} (bh : Behind)
    (hw : Walks p c hs c') : ∀ k, k + hs.countP Header.isA < 16 →
      (answerLoop p bh hs.length c k).code = some 0 ∧
        ∀ x ∈ (answerLoop p bh hs.length c k).reads, x < p.length := by
  induction hw with
  | nil c => exact fun k _ => ⟨rfl, fun x hx => absurd hx List.not_mem_nil⟩
  | @cons c e c' h hs hn hh hd _ ih =>
    intro k hk
    cases hA : h.isA with
    -- an A record takes an entry, and the bound is on those that follow
    | true =>
      rw [List.countP_cons_of_pos hA] at hk
      obtain ⟨hcode, hreads⟩ := ih (k + 1) (by omega)
      rw [List.length_cons, answerLoop_isA hn hh hA (hd hA)]
      simp only [if_neg (show ¬ k + 1 ≥ 16 by omega)]
      refine ⟨hcode, fun x hx => ?_⟩
      rcases List.mem_append.mp hx with hx | hx
      · rcases List.mem_append.mp hx with hx | hx
        · exact headReads_inside hn hh x hx
        · exact dataReads_inside (hd hA) x hx
      · exact hreads x hx
    -- any other record is passed over
    | false =>
      rw [List.countP_cons_of_neg (by simp [hA])] at hk
      obtain ⟨hcode, hreads⟩ := ih k hk
      rw [List.length_cons, answerLoop_other hn hh hA]
      refine ⟨hcode, fun x hx => ?_⟩
      rcases List.mem_append.mp hx with hx | hx
      · exact headReads_inside hn hh x hx
      · exact hreads x hx

/-- A section that brings its sixteenth A record is refused there. -/
theorem answerLoop_of_overfull {p : List UInt8} {c c' : Nat} {hs : List Header} (bh : Behind)
    (hw : Walks p c hs c') : ∀ n k, hs.length ≤ n → k < 16 → 16 ≤ k + hs.countP Header.isA →
      (answerLoop p bh n c k).code = some dnsErrorAnswerTooLarge ∧
        ∀ x ∈ (answerLoop p bh n c k).reads, x < p.length := by
  induction hw with
  -- sixteen A records are not in an empty walk
  | nil c =>
    intro n k _ hk hge
    rw [List.countP_nil] at hge
    omega
  | @cons c e c' h hs hn hh hd _ ih =>
    intro n k hlen hk hge
    obtain ⟨m, rfl⟩ : ∃ m, n = m + 1 :=
      Nat.exists_eq_succ_of_ne_zero (by rw [List.length_cons] at hlen; omega)
    rw [List.length_cons] at hlen
    cases hA : h.isA with
    | true =>
      rw [List.countP_cons_of_pos hA] at hge
      have hhere : ∀ x ∈ headReads p bh (2 * k) c e ++ dataReads p bh (2 * k + 1) e,
          x < p.length := by
        intro x hx
        rcases List.mem_append.mp hx with hx | hx
        · exact headReads_inside hn hh x hx
        · exact dataReads_inside (hd hA) x hx
      rw [answerLoop_isA hn hh hA (hd hA)]
      -- the sixteenth record ends the loop; before it the loop goes on
      by_cases h16 : k + 1 ≥ 16
      · simp only [if_pos h16]
        exact ⟨trivial, hhere⟩
      · obtain ⟨hcode, hreads⟩ := ih m (k + 1) (by omega) (by omega) (by omega)
        simp only [if_neg h16]
        refine ⟨hcode, fun x hx => ?_⟩
        rcases List.mem_append.mp hx with hx | hx
        · exact hhere x hx
        · exact hreads x hx
    | false =>
      rw [List.countP_cons_of_neg (by simp [hA])] at hge
      obtain ⟨hcode, hreads⟩ := ih m k (by omega) hk hge
      rw [answerLoop_other hn hh hA]
      refine ⟨hcode, fun x hx => ?_⟩
      rcases List.mem_append.mp hx with hx | hx
      · exact headReads_inside hn hh x hx
      · exact hreads x hx

/-- Conversely, a loop that reads only inside the payload walked over records that lie there,
    to the end of the section or to the sixteenth A record. -/
theorem walks_of_inside {p : List UInt8} {bh : Behind} :
    ∀ n c k, k < 16 → (∀ x ∈ (answerLoop p bh n c k).reads, x < p.length) →
      (∃ hs c', Walks p c hs c' ∧ hs.length = n ∧ k + hs.countP Header.isA < 16) ∨
      (∃ hs c', Walks p c hs c' ∧ hs.length ≤ n ∧ 16 ≤ k + hs.countP Header.isA) := by
  intro n
  induction n with
  | zero =>
    intro c k hk _
    exact Or.inl ⟨[], c, Walks.nil c, rfl, hk⟩
  | succ n ih =>
    intro c k hk hin
    -- the turn stood on a record in the payload; the walk of the rest is put behind it
    obtain ⟨e, h, hn, hh, hd⟩ := answerLoop_inside hin
    cases hA : h.isA with
    | true =>
      rw [answerLoop_isA hn hh hA (hd hA)] at hin
      by_cases h16 : k + 1 ≥ 16
      · -- the loop stops here, so nothing is known of what follows
        refine Or.inr ⟨[h], _, Walks.cons hn hh hd (Walks.nil _), by simp, ?_⟩
        rw [List.countP_cons_of_pos hA, List.countP_nil]
        omega
      · simp only [if_neg h16] at hin
        rcases ih _ (k + 1) (by omega) (fun x hx => hin x (List.mem_append_right _ hx)) with
          ⟨hs, c', hw, hlen, hlt⟩ | ⟨hs, c', hw, hlen, hge⟩
        · refine Or.inl ⟨h :: hs, c', Walks.cons hn hh hd hw, by rw [List.length_cons, hlen], ?_⟩
          rw [List.countP_cons_of_pos hA]
          omega
        · refine Or.inr ⟨h :: hs, c', Walks.cons hn hh hd hw, by rw [List.length_cons]; omega, ?_⟩
          rw [List.countP_cons_of_pos hA]
          omega
    | false =>
      rw [answerLoop_other hn hh hA] at hin
      rcases ih _ k hk (fun x hx => hin x (List.mem_append_right _ hx)) with
        ⟨hs, c', hw, hlen, hlt⟩ | ⟨hs, c', hw, hlen, hge⟩
      · refine Or.inl ⟨h :: hs, c', Walks.cons hn hh hd hw, by rw [List.length_cons, hlen], ?_⟩
        rw [List.countP_cons_of_neg (by simp [hA])]
        exact hlt
      · refine Or.inr ⟨h :: hs, c', Walks.cons hn hh hd hw, by rw [List.length_cons]; omega, ?_⟩
        rw [List.countP_cons_of_neg (by simp [hA])]
        exact hge

/-- **Sixteen A records in walks that lie in the payload**: the call stops at the sixteenth. -/
theorem refused_of_overfull {dns : DnsT} {bh : Behind} {d : Datagram} {c c' : Nat}
    {hs : List Header} (hp : Passes dns d) (hn : 1 ≤ (DnsPacket.received d.bytes).answers)
    (hc : Questions (DnsPacket.received d.bytes).payload (DnsPacket.received d.bytes).queries 0 c)
    (hw : Walks (DnsPacket.received d.bytes).payload c hs c')
    (hlen : hs.length ≤ (DnsPacket.received d.bytes).answers)
    (hge : 16 ≤ hs.countP Header.isA) :
    ReadsInside (dnsReceive dns bh (some d)) ∧ Refused (dnsReceive dns bh (some d)) := by
  have hsize := (DnsPacket.received d.bytes).size
  obtain ⟨rs, hrs, heq⟩ := dnsReceive_of_questions bh hp hn hc
  obtain ⟨hcode, hreads⟩ := answerLoop_of_overfull bh hw _ 0 hlen (by omega) (by omega)
  refine ⟨fun x hx => ?_, dnsErrorAnswerTooLarge, by rw [heq]; exact hcode, by decide⟩
  rw [heq] at hx
  rcases List.mem_append.mp hx with hx | hx
  · exact hrs x hx
  · exact hsize ▸ hreads x hx

/-- Where the walk goes over all the answers and meets fewer, the call reads inside the payload
    and accepts the packet. -/
theorem accepted_of_walks {dns : DnsT} {bh : Behind} {d : Datagram} {c c' : Nat}
    {hs : List Header} (hp : Passes dns d) (hn : 1 ≤ (DnsPacket.received d.bytes).answers)
    (hc : Questions (DnsPacket.received d.bytes).payload (DnsPacket.received d.bytes).queries 0 c)
    (hw : Walks (DnsPacket.received d.bytes).payload c hs c')
    (hlen : hs.length = (DnsPacket.received d.bytes).answers)
    (hlt : hs.countP Header.isA < 16) :
    ReadsInside (dnsReceive dns bh (some d)) ∧ (dnsReceive dns bh (some d)).code = some 0 := by
  have hsize := (DnsPacket.received d.bytes).size
  obtain ⟨rs, hrs, heq⟩ := dnsReceive_of_questions bh hp hn hc
  obtain ⟨hcode, hreads⟩ := answerLoop_of_walks bh hw 0 (by omega)
  rw [hlen] at hcode hreads
  refine ⟨fun x hx => ?_, by rw [heq]; exact hcode⟩
  rw [heq] at hx
  rcases List.mem_append.mp hx with hx | hx
  · exact hrs x hx
  · exact hsize ▸ hreads x hx

/-- **Where the reads stay**: inside the payload exactly when the walk does, to the end of the
    answers or to the sixteenth A record. -/
theorem dnsReceive_readsInside_iff {dns : DnsT} {bh : Behind} {d : Datagram} (hp : Passes dns d)
    (hn : 1 ≤ (DnsPacket.received d.bytes).answers) :
    ReadsInside (dnsReceive dns bh (some d)) ↔
      WalkInside (DnsPacket.received d.bytes) ∨ Overfull (DnsPacket.received d.bytes) := by
  have hsize := (DnsPacket.received d.bytes).size
  constructor
  · intro hin
    -- the questions lie in the payload, since the reads stay there
    have hquest : ∀ x ∈ (skipQuestions (mem (DnsPacket.received d.bytes).payload bh 0)
        (DnsPacket.received d.bytes).queries 0).2,
        x < (DnsPacket.received d.bytes).payload.length := by
      intro x hx
      rw [hsize]
      apply hin x
      rw [dnsReceive_parses hp hn]
      simp only []
      split
      · exact hx
      · exact List.mem_append_left _ hx
    obtain ⟨c, hc⟩ := skipQuestions_inside hquest
    obtain ⟨rs, -, heq⟩ := dnsReceive_of_questions bh hp hn hc
    have hloop : ∀ x ∈ (answerLoop (DnsPacket.received d.bytes).payload bh
        (DnsPacket.received d.bytes).answers c 0).reads,
        x < (DnsPacket.received d.bytes).payload.length := by
      intro x hx
      rw [hsize]
      apply hin x
      rw [heq]
      exact List.mem_append_right _ hx
    rcases walks_of_inside _ c 0 (by omega) hloop with
      ⟨hs, c', hw, hlen, -⟩ | ⟨hs, c', hw, hlen, hge⟩
    · exact Or.inl ⟨c, hs, c', hc, hw, hlen⟩
    · exact Or.inr ⟨c, hs, c', hc, hw, hlen, by omega⟩
  · -- either way the walk over `hs` decides; sixteen A records are met first, or never
    rintro (⟨c, hs, c', hc, hw, hlen⟩ | ⟨c, hs, c', hc, hw, hlen, hge⟩)
    · rcases Nat.lt_or_ge (hs.countP Header.isA) 16 with hlt | hge
      · exact (accepted_of_walks hp hn hc hw hlen hlt).1
      · exact (refused_of_overfull hp hn hc hw (by omega) hge).1
    · exact (refused_of_overfull hp hn hc hw hlen hge).1

/-- **What is refused**: of the packets read inside the payload only those with sixteen A
    records, whatever their form. -/
theorem refused_iff_overfull {dns : DnsT} {bh : Behind} {d : Datagram} (hp : Passes dns d)
    (hn : 1 ≤ (DnsPacket.received d.bytes).answers)
    (hin : ReadsInside (dnsReceive dns bh (some d))) :
    Refused (dnsReceive dns bh (some d)) ↔ Overfull (DnsPacket.received d.bytes) := by
  constructor
  · rintro ⟨e, he, hne⟩
    rcases (dnsReceive_readsInside_iff hp hn).mp hin with ⟨c, hs, c', hc, hw, hlen⟩ | hover
    · rcases Nat.lt_or_ge (hs.countP Header.isA) 16 with hlt | hge
      · rw [(accepted_of_walks hp hn hc hw hlen hlt).2] at he
        exact absurd (Option.some.inj he).symm hne
      · exact ⟨c, hs, c', hc, hw, by omega, hge⟩
    · exact hover
  · rintro ⟨c, hs, c', hc, hw, hlen, hge⟩
    exact (refused_of_overfull hp hn hc hw hlen hge).2

/-- **Reads and malformed packets**: the call reads only inside the payload, and refuses a packet
    that is not well formed before `limit`, exactly when it is and the walk stays inside, or
    when the packet brings sixteen A records first. -/
theorem dnsReceive_reads_inside_iff {dns : DnsT} {bh : Behind} {d : Datagram} (limit : Nat)
    (hp : Passes dns d) (hn : 1 ≤ (DnsPacket.received d.bytes).answers) :
    (ReadsInside (dnsReceive dns bh (some d)) ∧
        (¬ WellFormed (DnsPacket.received d.bytes) limit →
          Refused (dnsReceive dns bh (some d)))) ↔
      (WalkInside (DnsPacket.received d.bytes) ∧
          WellFormed (DnsPacket.received d.bytes) limit) ∨
        Overfull (DnsPacket.received d.bytes) := by
  constructor
  · rintro ⟨hin, hmal⟩
    by_cases hover : Overfull (DnsPacket.received d.bytes)
    · exact Or.inr hover
    · -- accepted, so not malformed
      have hwalk := ((dnsReceive_readsInside_iff hp hn).mp hin).resolve_right hover
      refine Or.inl ⟨hwalk, ?_⟩
      by_contra hbad
      exact hover ((refused_iff_overfull hp hn hin).mp (hmal hbad))
  · rintro (⟨hwalk, hwell⟩ | hover)
    · exact ⟨(dnsReceive_readsInside_iff hp hn).mpr (Or.inl hwalk),
        fun hbad => absurd hwell hbad⟩
    · have hin := (@dnsReceive_readsInside_iff _ bh _ hp hn).mpr (Or.inr hover)
      exact ⟨hin, fun _ => (refused_iff_overfull hp hn hin).mpr hover⟩

/-- **Well-formed packets with skippable names** are walked over inside the payload: the walk can
    leave it only where a name of the packet misleads the name loop. -/
theorem walkInside_of_isMessage {packet : DnsPacket} {limit : Nat} {qs : List Question}
    {rrs : List Answer} (h : IsMessage packet limit qs rrs) (hq : ∀ q ∈ qs, ZeroFree q.labels)
    (hs : ∀ a ∈ rrs.take packet.answers, a.name.SkipSafe) : WalkInside packet := by
  obtain ⟨rest, hp⟩ := h.questions
  obtain ⟨e, hrecords, -⟩ := h.records
  obtain ⟨e', hanswers⟩ := hrecords.take packet.answers
  have hquest : Questions packet.payload qs.length 0 _ := questions_of_flatMap qs 0 rest hp hq
  rw [Nat.zero_add, h.queries] at hquest
  refine ⟨_, _, e', hquest, walks_of_recordsAt hanswers hs, ?_⟩
  rw [List.length_map, List.length_take, h.announced]
  omega

theorem sampleAddress_short : ([10, 0, 0, 1] : List UInt8).length < 65536 := by decide

/-- The record `sampleResponse` repeats: the root's address is `10.0.0.1`. -/
def sampleAnswer : Answer := ⟨⟨[], .root⟩, 1, 1, 60, [10, 0, 0, 1], sampleAddress_short⟩

/-- Two A records of 15 bytes each are a message in the 30 bytes they need. -/
theorem sampleResponse_isMessage :
    IsMessage (DnsPacket.received (sampleResponse 2).bytes) 30 [] [sampleAnswer, sampleAnswer] := by
  have hat : ∀ o, (o = 0 ∨ o = 15) →
      sampleAnswer.At (DnsPacket.received (sampleResponse 2).bytes).payload o := by
    intro o ho
    refine ⟨⟨(DnsPacket.received (sampleResponse 2).bytes).payload.drop (o + 15), ?_⟩,
      ⟨[], Expands.root o [], by show 1 ≤ 255; decide⟩, fun _ _ => rfl⟩
    rcases ho with rfl | rfl <;> decide +kernel
  refine ⟨⟨_, rfl⟩, fun q hq => absurd hq List.not_mem_nil, by decide +kernel,
    ⟨30, ?_, Nat.le_refl 30⟩, by decide +kernel⟩
  exact RecordsAt.cons (hat 0 (Or.inl rfl))
    (RecordsAt.cons (hat 15 (Or.inr rfl)) (RecordsAt.nil 30))

theorem dnsReceive_reads_inside_two :
    ReadsInside (dnsReceive sampleDns nothingBehind (some (sampleResponse 2))) := by
  have hsafe : ∀ a ∈ [sampleAnswer, sampleAnswer], a.name.SkipSafe := by
    intro a ha
    have hroot : a.name = ⟨[], .root⟩ := by
      rcases List.mem_pair.mp ha with rfl | rfl <;> rfl
    rw [hroot]
    exact ⟨fun b hb => absurd hb List.not_mem_nil, fun b hb => absurd hb (by simp [labelBytes])⟩
  have hwalk := walkInside_of_isMessage sampleResponse_isMessage
    (fun q hq => absurd hq List.not_mem_nil) fun a ha => hsafe a (List.mem_of_mem_take ha)
  exact ((dnsReceive_reads_inside_iff 30 sampleResponse_passes_two (by decide +kernel)).mpr
    (Or.inl ⟨hwalk, _, _, sampleResponse_isMessage⟩)).1

/-! ### A record that jumps out of the payload -/

/-- Two answers, the first a TXT record that claims 65535 bytes of rdata. -/
def jumpingResponse : Datagram :=
  ⟨[0x13, 0x37, 0x81, 0x80, 0, 0, 0, 2, 0, 0, 0, 0] ++
    [0, 0, 16, 0, 1, 0, 0, 0, 60, 0xff, 0xff], 0x08080808⟩

/-- The owner name of the second answer is looked for 65546 bytes into a 512-byte buffer. -/
theorem dnsReceive_reads_outside :
    Passes sampleDns jumpingResponse ∧
      1 ≤ (DnsPacket.received jumpingResponse.bytes).answers ∧
      65546 ∈ (dnsReceive sampleDns nothingBehind (some jumpingResponse)).reads ∧
      ¬ ReadsInside (dnsReceive sampleDns nothingBehind (some jumpingResponse)) := by
  have hmem : 65546 ∈ (dnsReceive sampleDns nothingBehind (some jumpingResponse)).reads := by
    decide +kernel
  refine ⟨⟨by decide +kernel, by decide +kernel, by decide +kernel, by decide +kernel⟩,
    by decide +kernel, hmem, fun h => ?_⟩
  exact absurd (h 65546 hmem) (by decide)

end Safewrt.Dns
