/-
  Trying a server by name — the body of the loop of `attempt_dns` (packages/lifeline/lifeline.c).

  1. **`attemptServer`**: a server that is no address is looked up, and `attempt_remote` is called
     on each record up to the first whose `ttl` is zero (`dialLoop`).  The loop walks memory: the
     eight entries of `records`, and then whatever follows `dns` on the stack.

  2. **`stores_of_accepted`**: what a call of `dns_receive` that returns 0 stored are whole records,
     in order, from the first entry on.

  3. **`attemptServer_dials_iff`**: nothing but that zero tells the loop how many records there are.
     `dns_receive` never writes it, and a record of the packet may bring its own: the loop dials
     exactly the stored addresses if there is an entry left for the zero and no record has one,
     or if the process is left before it gets to what is wrong (`Leaves`).

  What a `Dial` records are the addresses `attempt_remote` was called on, in order, and how the loop
  ended; `attempt_remote` itself is given by what it returns, as `Descriptors` shows that it may not
  come back.  The stack behind `dns` is a list: where it is used up, the read kills the process.
-/
import Safewrt.Dns.Request
import Safewrt.Dns.Bounds

namespace Safewrt.Lifeline

open Safewrt.Lib Safewrt.Dns

/-! ## The loop -/

/-- How the loop over the records ends. -/
inductive Ending
  | stopped
  | exited    -- a call of `attempt_remote` left the process
  | killed    -- a read behind all mapped memory
  deriving Repr, DecidableEq

/-- What happened to one server: the addresses `attempt_remote` was called on, the entries of
    `records` that were looked at. -/
structure Dial where
  calls : List UInt32
  looked : List Nat
  ending : Ending
  deriving DecidableEq

/-- `d`, with a record looked at and its address called before it. -/
def Dial.after (d : Dial) (i : Nat) (address : UInt32) : Dial :=
  { d with calls := address :: d.calls, looked := i :: d.looked }

/-- `for (r = dns.records; r->ttl != 0; r++)`, at entry `i`; `returns` tells which calls of
    `attempt_remote` return. -/
def dialLoop (returns : Nat → Bool) : Nat → List DnsRecord → Dial
  | i, [] => ⟨[], [i], .killed⟩
  | i, r :: memory =>
    if r.ttl = 0 then ⟨[], [i], .stopped⟩
    else if returns i then (dialLoop returns (i + 1) memory).after i r.address
    else ⟨[r.address], [i], .exited⟩

/-- What the system answers while one server is tried. -/
structure Answers where
  /-- `inet_addr(*e)` -/
  address : UInt32
  socket : Int
  sendto : List UInt8 → UInt32 → Int
  received : Option Datagram
  behind : Behind
  /-- What lies behind `records` when the loop gets there, read as records. -/
  beyond : List DnsRecord
  returns : Nat → Bool

/-- `INADDR_NONE` -/
def inaddrNone : UInt32 := 0xffffffff

/-- `dns`, once the request is sent. -/
def requested (dnsIp : UInt32) (name : CName) (a : Answers) : Request :=
  dnsRequest (dnsInit a.socket dnsIp).2 a.sendto name

/-- The call of `dns_receive`. -/
def receive (dnsIp : UInt32) (name : CName) (a : Answers) : Walk :=
  dnsReceive (requested dnsIp name a).dns a.behind a.received

/-- One turn of the loop of `attempt_dns` over the servers. -/
def attemptServer (dnsIp : UInt32) (name : CName) (a : Answers) : Dial :=
  if a.address ≠ inaddrNone then
    ⟨[a.address], [], if a.returns 0 then .stopped else .exited⟩
  else if (dnsInit a.socket dnsIp).1 ≠ 0 then ⟨[], [], .stopped⟩
  else if (requested dnsIp name a).code ≠ 0 then ⟨[], [], .stopped⟩
  else
    let w := receive dnsIp name a
    match w.code with
    | none => ⟨[], [], .killed⟩
    | some 0 => dialLoop a.returns 0 (w.records (requested dnsIp name a).dns ++ a.beyond)
    | some _ => ⟨[], [], .stopped⟩

/-! ## What an accepted response stored -/

/-- The records of a list of stores, ttl and address in turns. -/
def storedRecords : List Store → List DnsRecord
  | .ttl _ t :: .address _ a :: stores => ⟨t, a⟩ :: storedRecords stores
  | _ => []

/-- A turn of an accepted section: a record jumped over, or one stored. -/
theorem answerLoop_accepted {p : List UInt8} {bh : Behind} {n c k : Nat}
    (h : (answerLoop p bh (n + 1) c k).code = some 0) :
    ∃ c' rs, answerLoop p bh (n + 1) c k = (answerLoop p bh n c' k).after rs [] ∨
      ∃ t a, answerLoop p bh (n + 1) c k =
        (answerLoop p bh n c' (k + 1)).after rs [.ttl k t, .address k a] := by
  rw [answerLoop] at h ⊢
  simp only [] at h ⊢
  -- a read that fails kills the process, so every read of this turn has a value
  cases hname : (skipName (mem p bh (2 * k)) c).1 with
  | none =>
    simp only [hname] at h
    exact absurd h (by simp)
  | some e =>
    simp only [hname] at h ⊢
    cases hhead : (loadHeader (mem p bh (2 * k)) e).1 with
    | none =>
      simp only [hhead] at h
      exact absurd h (by simp)
    | some hd =>
      simp only [hhead] at h ⊢
      cases hA : hd.isA with
      | false => exact ⟨_, _, Or.inl rfl⟩
      | true =>
        simp only [hA, if_true] at h ⊢
        cases hdata : (load (mem p bh (2 * k + 1)) 4 (e + headerSize)).1 with
        | none =>
          simp only [hdata] at h
          exact absurd h (by simp)
        | some bs =>
          simp only [hdata] at h ⊢
          by_cases h16 : k + 1 ≥ 16
          · rw [if_pos h16] at h
            exact absurd h (by simp [dnsErrorAnswerTooLarge])
          · rw [if_neg h16]
            exact ⟨_, _, Or.inr ⟨_, _, rfl⟩⟩

/-- The stores of the loop, in order, are those of whole records from entry `k` on. -/
theorem answerLoop_stores {p : List UInt8} {bh : Behind} :
    ∀ n c k, (answerLoop p bh n c k).code = some 0 →
      (answerLoop p bh n c k).stores = storesOf k (storedRecords (answerLoop p bh n c k).stores) := by
  intro n
  induction n with
  | zero => intro c k _; rfl
  | succ n ih =>
    intro c k h
    obtain ⟨c', rs, heq | ⟨t, a, heq⟩⟩ := answerLoop_accepted h
    · rw [heq] at h ⊢
      exact ih c' k h
    · rw [heq] at h ⊢
      have htail := ih c' (k + 1) h
      show Store.ttl k t :: .address k a :: (answerLoop p bh n c' (k + 1)).stores =
        .ttl k t :: .address k a :: storesOf (k + 1)
          (storedRecords (answerLoop p bh n c' (k + 1)).stores)
      rw [← htail]

/-- A response that is accepted passed every check and has answers. -/
theorem passes_of_accepted {dns : DnsT} {bh : Behind} {received : Option Datagram}
    (h : (dnsReceive dns bh received).code = some 0) :
    ∃ d, received = some d ∧ Passes dns d ∧ 1 ≤ (DnsPacket.received d.bytes).answers := by
  cases received with
  | none => exact absurd h (by simp [dnsReceive, dnsErrorRecvfromFailed])
  | some d =>
    have hne : some dnsErrorRecvfromFailed ≠ some 0 ∧ some dnsErrorUdpInjected ≠ some 0 ∧
        some dnsErrorNxdomain ≠ some 0 := by decide
    -- the checks of the source, one after the other; each that fails returns an error
    simp only [dnsReceive] at h
    split at h
    · exact absurd h hne.1
    · next hempty =>
      split at h
      · exact absurd h hne.2.1
      · next hsource =>
        split at h
        · exact absurd h hne.2.1
        · next hid =>
          split at h
          · exact absurd h hne.2.1
          · next hqueries =>
            split at h
            · exact absurd h hne.2.2
            · next hanswers =>
              exact ⟨d, rfl, ⟨by omega, not_not.mp hsource, not_not.mp hid, by omega⟩, by omega⟩

/-- **An accepted response**: whole records, in order, from the first entry on. -/
theorem stores_of_accepted {dns : DnsT} {bh : Behind} {received : Option Datagram}
    (h : (dnsReceive dns bh received).code = some 0) :
    (dnsReceive dns bh received).stores =
      storesOf 0 (storedRecords (dnsReceive dns bh received).stores) := by
  obtain ⟨d, rfl, hp, hn⟩ := passes_of_accepted h
  rw [dnsReceive_parses hp hn] at h ⊢
  simp only [] at h ⊢
  cases hq : (skipQuestions (mem (DnsPacket.received d.bytes).payload bh 0)
      (DnsPacket.received d.bytes).queries 0).1 with
  | none =>
    simp only [hq] at h
    exact absurd h (by simp)
  | some c =>
    simp only [hq] at h ⊢
    exact answerLoop_stores _ c 0 h

/-! ## What the loop dials -/

/-- `attempt_remote` is called on the addresses in turn, on each once, and the loop then stops,
    having looked at nothing behind the array; only the end of the process can cut this short. -/
structure Dials (rs : List DnsRecord) (d : Dial) : Prop where
  inOrder : d.calls <+: rs.map DnsRecord.address
  complete : d.ending ≠ .exited → d.calls = rs.map DnsRecord.address
  alive : d.ending ≠ .killed
  inside : ∀ i ∈ d.looked, i < recordsLength

/-- The process is left in one of the calls, and no record up to there has a zero ttl. -/
def Leaves (returns : Nat → Bool) : Nat → List DnsRecord → Prop
  | _, [] => False
  | i, r :: rs => r.ttl ≠ 0 ∧ (returns i = false ∨ Leaves returns (i + 1) rs)

/-- A ttl of zero stops the loop, before the address is looked at. -/
theorem dialLoop_zero {returns : Nat → Bool} {i : Nat} {r : DnsRecord} {memory : List DnsRecord}
    (h : r.ttl = 0) : dialLoop returns i (r :: memory) = ⟨[], [i], .stopped⟩ := by
  rw [dialLoop, if_pos h]

theorem dialLoop_exited {returns : Nat → Bool} {i : Nat} {r : DnsRecord}
    {memory : List DnsRecord} (h : r.ttl ≠ 0) (hr : returns i = false) :
    dialLoop returns i (r :: memory) = ⟨[r.address], [i], .exited⟩ := by
  rw [dialLoop, if_neg h, hr, if_neg (by simp)]

theorem dialLoop_called {returns : Nat → Bool} {i : Nat} {r : DnsRecord}
    {memory : List DnsRecord} (h : r.ttl ≠ 0) (hr : returns i = true) :
    dialLoop returns i (r :: memory) = (dialLoop returns (i + 1) memory).after i r.address := by
  rw [dialLoop, if_neg h, hr, if_pos rfl]

/-- The loop looks at the entry it starts from. -/
theorem start_mem_looked (returns : Nat → Bool) (i : Nat) (memory : List DnsRecord) :
    i ∈ (dialLoop returns i memory).looked := by
  cases memory with
  | nil => exact List.mem_singleton_self i
  | cons r memory =>
    by_cases h : r.ttl = 0
    · rw [dialLoop_zero h]
      exact List.mem_singleton_self i
    · cases hr : returns i with
      | false =>
        rw [dialLoop_exited h hr]
        exact List.mem_singleton_self i
      | true =>
        rw [dialLoop_called h hr]
        exact List.mem_cons_self

/-- One record more in front, and one dial more: the property of the rest decides. -/
theorem dials_after_iff {rs : List DnsRecord} {r : DnsRecord} {d : Dial} {i : Nat}
    (hi : i < recordsLength) : Dials (r :: rs) (d.after i r.address) ↔ Dials rs d := by
  constructor
  · intro h
    refine ⟨?_, fun hne => ?_, h.alive, fun j hj => h.inside j (List.mem_cons_of_mem _ hj)⟩
    · have := h.inOrder
      rw [List.map_cons] at this
      exact (List.cons_prefix_cons.mp this).2
    · have := h.complete hne
      rw [List.map_cons] at this
      exact (List.cons.inj this).2
  · intro h
    refine ⟨?_, fun hne => ?_, h.alive, fun j hj => ?_⟩
    · rw [List.map_cons]
      exact List.cons_prefix_cons.mpr ⟨rfl, h.inOrder⟩
    · rw [List.map_cons, ← h.complete hne]
      rfl
    · rcases List.mem_cons.mp hj with rfl | hj
      · exact hi
      · exact h.inside j hj

/-- **The loop over stored records**, the entry behind them cleared if there is one. -/
theorem dialLoop_dials_iff {returns : Nat → Bool} {rest : List DnsRecord} (rs : List DnsRecord) :
    ∀ i, i + rs.length ≤ recordsLength →
      (i + rs.length < recordsLength → ∃ r memory, rest = r :: memory ∧ r.ttl = 0) →
      (Dials rs (dialLoop returns i (rs ++ rest)) ↔
        Leaves returns i rs ∨ (i + rs.length < recordsLength ∧ ∀ r ∈ rs, r.ttl ≠ 0)) := by
  induction rs with
  | nil =>
    intro i hle hrest
    rw [List.length_nil, Nat.add_zero] at hle hrest ⊢
    -- all records are dialed: the loop looks at one entry more
    constructor
    · intro h
      have hlooked := h.inside i (start_mem_looked returns i rest)
      exact Or.inr ⟨hlooked, fun r hr => absurd hr List.not_mem_nil⟩
    · rintro (h | ⟨hlt, -⟩)
      · exact h.elim
      · obtain ⟨r, memory, rfl, hr⟩ := hrest hlt
        rw [List.nil_append, dialLoop_zero hr]
        refine ⟨List.nil_prefix, fun _ => rfl, by simp, fun j hj => ?_⟩
        rw [List.mem_singleton.mp hj]
        exact hlt
  | cons r rs ih =>
    intro i hle hrest
    have hlen : i + (r :: rs).length = i + 1 + rs.length := by
      rw [List.length_cons]
      omega
    rw [hlen] at hle hrest ⊢
    have hi : i < recordsLength := by omega
    rw [List.cons_append, Leaves]
    by_cases h0 : r.ttl = 0
    · -- a zero among the records stops the loop at it
      rw [dialLoop_zero h0]
      constructor
      · intro h
        exact absurd (h.complete (by simp)) (by simp)
      · rintro (⟨hne, -⟩ | ⟨-, hall⟩)
        · exact absurd h0 hne
        · exact absurd h0 (hall r List.mem_cons_self)
    · cases hr : returns i with
      -- the call leaves the process: what is behind it does not matter
      | false =>
        rw [dialLoop_exited h0 hr]
        refine ⟨fun _ => Or.inl ⟨h0, Or.inl rfl⟩, fun _ => ⟨?_, fun h => absurd rfl h, by simp, ?_⟩⟩
        · rw [List.map_cons]
          exact List.cons_prefix_cons.mpr ⟨rfl, List.nil_prefix⟩
        · intro j hj
          rw [List.mem_singleton.mp hj]
          exact hi
      -- the call comes back, and the question is that of the rest
      | true =>
        rw [dialLoop_called h0 hr, dials_after_iff hi, ih (i + 1) hle hrest]
        simp [h0]

/-- The array is cleared when the response arrives. -/
theorem records_requested (dnsIp : UInt32) (name : CName) (a : Answers) :
    (requested dnsIp name a).dns.records = List.replicate recordsLength ⟨0, 0⟩ := by
  have hinit : (dnsInit a.socket dnsIp).2.records = List.replicate recordsLength ⟨0, 0⟩ := by
    simp only [dnsInit]
    split <;> rfl
  rw [← hinit, requested]
  simp only [dnsRequest]
  split
  · rfl
  · split <;> rfl

/-- **What `attempt_dns` dials**, for a response that was accepted and stored at most eight
    records: exactly their addresses, if and only if an entry is left for the closing zero and no
    record has a zero ttl, or the process is left before that matters. -/
theorem attemptServer_dials_iff {dnsIp : UInt32} {name : CName} {a : Answers}
    (hname : a.address = inaddrNone) (hinit : (dnsInit a.socket dnsIp).1 = 0)
    (hrequest : (requested dnsIp name a).code = 0)
    (hreceive : (receive dnsIp name a).code = some 0)
    (hroom : (storedRecords (receive dnsIp name a).stores).length ≤ recordsLength) :
    Dials (storedRecords (receive dnsIp name a).stores) (attemptServer dnsIp name a) ↔
      Leaves a.returns 0 (storedRecords (receive dnsIp name a).stores) ∨
      ((storedRecords (receive dnsIp name a).stores).length < recordsLength ∧
        ∀ r ∈ storedRecords (receive dnsIp name a).stores, r.ttl ≠ 0) := by
  have hstores : (receive dnsIp name a).stores =
      storesOf 0 (storedRecords (receive dnsIp name a).stores) := stores_of_accepted hreceive
  generalize storedRecords (receive dnsIp name a).stores = rs at hstores hroom ⊢
  have hfold := foldl_storesOf rs [] (List.replicate recordsLength ⟨0, 0⟩)
    (by rw [List.length_replicate]; exact hroom)
  have hmemory : (receive dnsIp name a).records (requested dnsIp name a).dns ++ a.beyond =
      rs ++ (List.replicate (recordsLength - rs.length) ⟨0, 0⟩ ++ a.beyond) := by
    rw [Walk.records, hstores, records_requested, ← List.append_assoc, ← List.drop_replicate]
    exact congrArg (· ++ a.beyond) hfold
  have hturn : attemptServer dnsIp name a =
      dialLoop a.returns 0 (rs ++ (List.replicate (recordsLength - rs.length) ⟨0, 0⟩ ++ a.beyond)) := by
    rw [attemptServer, if_neg (by simp [hname]), if_neg (by simp [hinit]),
      if_neg (by simp [hrequest])]
    simp only [hreceive, hmemory]
  rw [hturn, dialLoop_dials_iff rs 0 (by omega), Nat.zero_add]
  intro hlt
  -- the entry behind the last record is still cleared
  obtain ⟨n, hn⟩ : ∃ n, recordsLength - rs.length = n + 1 :=
    ⟨recordsLength - rs.length - 1, by omega⟩
  exact ⟨⟨0, 0⟩, List.replicate n ⟨0, 0⟩ ++ a.beyond, by rw [hn, List.replicate_succ]; rfl, rfl⟩

/-! ### Two records, and eight -/

/-- The server answers with `n` A records; behind the array lies a word that looks like one more. -/
def sampleAnswers (n : Nat) : Answers where
  address := inaddrNone
  socket := 3
  sendto bytes _ := bytes.length
  received := some (sampleResponse n)
  behind := nothingBehind
  beyond := [⟨1, 0xdeadbeef⟩, ⟨0, 0⟩]
  returns _ := true

theorem sampleServer_noZero : ∀ b ∈ ([97] : List UInt8), b ≠ 0 :=
  List.forall_mem_singleton.mpr (by decide)

/-- The name of a server, `a`. -/
def sampleServer : CName := ⟨[97], sampleServer_noZero⟩

/-- Two records in the answer, and two dials. -/
theorem attemptServer_dials_two :
    Dials (storedRecords (receive 0x08080808 sampleServer (sampleAnswers 2)).stores)
      (attemptServer 0x08080808 sampleServer (sampleAnswers 2)) :=
  (attemptServer_dials_iff rfl rfl (by decide +kernel) (by decide +kernel)
    (by decide +kernel)).mpr (Or.inr (by decide +kernel))

/-- Eight records fill the array: the loop goes on behind it and dials what it finds there. -/
theorem attemptServer_dials_beyond :
    (receive 0x08080808 sampleServer (sampleAnswers 8)).code = some 0 ∧
      (storedRecords (receive 0x08080808 sampleServer (sampleAnswers 8)).stores).length = 8 ∧
      (attemptServer 0x08080808 sampleServer (sampleAnswers 8)).looked.getLast? = some 9 ∧
      (attemptServer 0x08080808 sampleServer (sampleAnswers 8)).calls.getLast? =
        some 0xdeadbeef ∧
      ¬ Dials (storedRecords (receive 0x08080808 sampleServer (sampleAnswers 8)).stores)
        (attemptServer 0x08080808 sampleServer (sampleAnswers 8)) := by
  have hlooked : 9 ∈ (attemptServer 0x08080808 sampleServer (sampleAnswers 8)).looked := by
    decide +kernel
  refine ⟨by decide +kernel, by decide +kernel, by decide +kernel, by decide +kernel, fun h => ?_⟩
  exact absurd (h.inside 9 hlooked) (by decide)

end Safewrt.Lifeline
