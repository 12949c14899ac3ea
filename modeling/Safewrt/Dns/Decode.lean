/-
  `dns_receive` as a decoder of DNS responses.

  `dnsReceive_of_skippable` — a response whose names can be skipped is decoded: return code 0, and
  `records` holds the `(ttl, address)` pairs of its A records in packet order, whatever stands
  between them.

  1. **Specification** — `Decodes r`: for every resolver that waits for the id of `r`, whatever its
     records held before and whatever lies behind the payload, the records of the response come
     first and the rest of the array is as it was.

  2. **The cursor** — the invariant is "the bytes from the cursor on are the encodings of the
     answers still to come", so one answer is taken off the front at each turn
     (`answerLoop_of_answers`).

  3. **The stores** — a turn on an A record stores a ttl and an address at the next index, any other
     turn stores nothing; `foldl_storesOf` turns the log of all stores into the array they leave.

  The converse, that no other names are decoded, is in `Dns.Probe`.
-/
import Safewrt.Dns.Grammar

namespace Safewrt.Dns

open Safewrt.Lib

/-! ## The packet of an encoded response

  `recvfrom` puts the bytes into the packet, and the fields are read back from there. -/

theorem length_head (r : Response) : r.head.length = 12 := by
  simp [Response.head]

/-- Every answer has a byte at least, so a short packet has few of them. -/
theorem length_answers_le (as : List Answer) :
    as.length ≤ (as.flatMap Answer.encode).length := by
  induction as with
  | nil => exact Nat.le_refl 0
  | cons a as ih =>
    rw [List.flatMap_cons, List.length_append, List.length_cons]
    have ha : 1 ≤ a.encode.length := by
      simp only [Answer.encode, Answer.fixed, List.length_append, length_toBe]
      omega
    omega

/-- What `recvfrom` leaves of the encoding in the packet. -/
theorem received_encode {r : Response} (h : r.Fits) :
    (DnsPacket.received r.encode).id = r.id.toNat ∧
    (DnsPacket.received r.encode).queries = r.question.toList.length ∧
    (DnsPacket.received r.encode).answers = r.answers.length ∧
    ∃ rest, (DnsPacket.received r.encode).payload = r.sections ++ rest := by
  -- what is beyond the sections is cut off, or filled up with zeros
  have himage : (r.encode ++ List.replicate sizeofDnsPacket 0).take sizeofDnsPacket =
      r.head ++ (r.sections ++
        ((r.trailer ++ List.replicate sizeofDnsPacket 0).take
          (payloadBufferSize - r.sections.length))) := by
    have h512 : sizeofDnsPacket - 12 = payloadBufferSize := rfl
    have hle := h.fits
    rw [Response.encode, List.append_assoc, List.append_assoc, List.take_append, length_head, h512,
      List.take_append, List.take_of_length_le (by rw [length_head]; decide),
      List.take_of_length_le hle]
  have hquestion : r.question.toList.length < 256 ^ 2 := by
    cases r.question with
    | none => decide
    | some q => show 1 < 256 ^ 2; decide
  -- an answer has a byte at least, and all of them fit into the payload
  have hanswers : r.answers.length < 256 ^ 2 := by
    have h1 := length_answers_le r.answers
    have h2 := h.fits
    rw [Response.sections, List.length_append] at h2
    have h3 : payloadBufferSize = 512 := rfl
    omega
  have hid : be (toBe 2 r.id.toNat) = r.id.toNat := be_toBe_of_lt r.id.toNat_lt
  simp only [DnsPacket.received, himage]
  exact ⟨hid, be_toBe_of_lt hquestion, be_toBe_of_lt hanswers, _,
    List.drop_left' (length_head r)⟩

/-! ## What the loop stores

  The stores as a list, and the array that they leave. -/

/-- The stores that put `rs` into the array from index `k` on. -/
def storesOf : Nat → List DnsRecord → List Store
  | _, [] => []
  | k, r :: rs => .ttl k r.ttl :: .address k r.address :: storesOf (k + 1) rs

/-- The stores of records go to as many entries. -/
theorem mem_storesOf_lt {rs : List DnsRecord} :
    ∀ {k : Nat} {s : Store}, s ∈ storesOf k rs → s.index < k + rs.length := by
  induction rs with
  | nil =>
    intro k s hs
    exact absurd hs List.not_mem_nil
  | cons r rs ih =>
    intro k s hs
    rw [List.length_cons]
    rcases List.mem_cons.mp hs with rfl | hs
    · show k < _
      omega
    · rcases List.mem_cons.mp hs with rfl | hs
      · show k < _
        omega
      · have := ih hs
        omega

/-- A change at the length of a prefix hits the first entry behind it. -/
theorem modify_middle {α : Type} (pre post : List α) (x : α) (f : α → α) :
    (pre ++ x :: post).modify pre.length f = pre ++ f x :: post := by
  rw [List.modify_eq_take_cons_drop (by simp)]
  simp

/-- Storing a record overwrites exactly its entry. -/
theorem apply_record (pre post : List DnsRecord) (x r : DnsRecord) :
    Store.apply (Store.apply (pre ++ x :: post) (.ttl pre.length r.ttl))
      (.address pre.length r.address) = pre ++ r :: post := by
  simp only [Store.apply, modify_middle]

/-- Storing records one behind the other replaces a piece of the array by them. -/
theorem foldl_storesOf (rs : List DnsRecord) :
    ∀ pre post : List DnsRecord, rs.length ≤ post.length →
      (storesOf pre.length rs).foldl Store.apply (pre ++ post) =
        pre ++ (rs ++ post.drop rs.length) := by
  induction rs with
  | nil => intro pre post _; rfl
  | cons r rs ih =>
    intro pre post hlen
    cases post with
    | nil => exact absurd hlen (by simp)
    | cons x post =>
      have hlen' : rs.length ≤ post.length := by
        rw [List.length_cons, List.length_cons] at hlen
        omega
      have hnext := ih (pre ++ [r]) post hlen'
      rw [List.length_append, List.length_singleton, List.append_assoc, List.append_assoc] at hnext
      rw [storesOf, List.foldl_cons, List.foldl_cons, apply_record]
      exact hnext

/-- **The cursor invariant**: standing at the first of the answers `as`, the loop stores exactly
    their A records, and has then `n` turns left behind them. -/
theorem answerLoop_of_answers {p : List UInt8} (bh : Behind) (n : Nat) (as : List Answer) :
    ∀ c k rest, p.drop c = as.flatMap Answer.encode ++ rest → (∀ a ∈ as, a.name.SkipSafe) →
      k + (as.filter Answer.isA).length < 16 →
      ∃ rs, answerLoop p bh (as.length + n) c k =
        (answerLoop p bh n (c + (as.flatMap Answer.encode).length)
          (k + (as.filter Answer.isA).length)).after rs
            (storesOf k ((as.filter Answer.isA).map Answer.record)) := by
  induction as with
  | nil =>
    intro c k rest _ _ _
    refine ⟨[], ?_⟩
    show answerLoop p bh (0 + n) c k = _
    rw [Nat.zero_add]
    rfl
  | cons a as ih =>
    intro c k rest hdrop hsafe hk
    rw [List.flatMap_cons, List.append_assoc] at hdrop
    obtain ⟨hends, hhead, hdata, hcursor⟩ :=
      cursor_of_skipSafe hdrop (hsafe a List.mem_cons_self)
    -- the cursor is behind the encoding of `a`, in front of those of `as`
    have hnext := drop_add_of_append hdrop
    have hbehind : c + a.encode.length + (as.flatMap Answer.encode).length =
        c + ((a :: as).flatMap Answer.encode).length := by
      rw [List.flatMap_cons, List.length_append, Nat.add_assoc]
    have hturns : (a :: as).length + n = as.length + n + 1 := by
      rw [List.length_cons]
      omega
    have hsafe' : ∀ x ∈ as, x.name.SkipSafe := fun x hx => hsafe x (List.mem_cons_of_mem _ hx)
    cases hA : a.isA with
    -- the entry is filled from the bytes at the cursor, which are those of the record
    | true =>
      rw [List.filter_cons_of_pos hA, List.length_cons] at hk
      have haddr : (p.drop (c + a.name.encode.length + headerSize)).take 4 = a.rdata := by
        rw [hdata, ← isA_rdata hA, List.take_left]
      have hstores : recordStores p k (c + a.name.encode.length) a.header =
          [.ttl k a.record.ttl, .address k a.record.address] := by
        rw [recordStores, haddr, Answer.header, Answer.record, UInt32.ofNat_toNat]
      obtain ⟨rs, hloop⟩ := ih _ (k + 1) rest hnext hsafe' (by omega)
      rw [hturns, answerLoop_isA hends hhead hA (isA_inside hA hdata)]
      simp only [if_neg (show ¬ k + 1 ≥ 16 by omega)]
      rw [hcursor, hloop, Walk.after_after, hstores, hbehind, List.filter_cons_of_pos hA,
        List.length_cons, Nat.add_assoc k 1, Nat.add_comm 1]
      exact ⟨_, rfl⟩
    | false =>
      rw [List.filter_cons_of_neg (by simp [hA])] at hk ⊢
      obtain ⟨rs, hloop⟩ := ih _ k rest hnext hsafe' hk
      rw [hturns, answerLoop_other hends hhead hA, hcursor, hloop, Walk.after_after, hbehind]
      exact ⟨_, rfl⟩

/-! ## The decoder -/

/-- The response is decoded, by any resolver that waits for it. -/
def Decodes (r : Response) : Prop :=
  ∀ (dns : DnsT) (bh : Behind), dns.id = r.id.toNat →
    let w := dnsReceive dns bh (some ⟨r.encode, dns.dnsAddress⟩)
    w.code = some 0 ∧ w.records dns = r.records ++ dns.records.drop r.records.length

/-- A response with the right id, from the resolver that was asked, passes the checks. -/
theorem passes_encode {r : Response} (h : r.Fits) {dns : DnsT} (hid : dns.id = r.id.toNat) :
    Passes dns ⟨r.encode, dns.dnsAddress⟩ := by
  obtain ⟨hid', hq, -, -⟩ := received_encode h
  refine ⟨?_, rfl, by rw [hid', hid], ?_⟩
  · show 1 ≤ r.encode.length
    rw [Response.encode, List.length_append, length_head]
    omega
  · show (DnsPacket.received r.encode).queries ≤ 1
    rw [hq]
    cases r.question with
    | none => exact Nat.zero_le 1
    | some q => exact Nat.le_refl 1

theorem one_le_answers {r : Response} (h : r.Fits) : 1 ≤ r.answers.length := by
  have h1 := h.nonempty
  rw [Response.records, List.length_map] at h1
  exact Nat.le_trans h1 (List.length_filter_le _ _)

/-- The call on an encoded response, once the question is behind the cursor. -/
theorem dnsReceive_encode {r : Response} (h : r.Fits) {dns : DnsT} (bh : Behind)
    (hid : dns.id = r.id.toNat) {c : Nat}
    (hq : Questions (DnsPacket.received r.encode).payload r.question.toList.length 0 c) :
    ∃ rs, dnsReceive dns bh (some ⟨r.encode, dns.dnsAddress⟩) =
      (answerLoop (DnsPacket.received r.encode).payload bh r.answers.length c 0).after rs [] := by
  obtain ⟨-, hqs, has, -⟩ := received_encode h
  have hn : 1 ≤ (DnsPacket.received r.encode).answers := has ▸ one_le_answers h
  rw [← hqs] at hq
  obtain ⟨rs, -, heq⟩ :=
    dnsReceive_of_questions (d := ⟨r.encode, dns.dnsAddress⟩) bh (passes_encode h hid) hn hq
  exact ⟨rs, by rw [heq, has]⟩

/-- **Skippable names are enough.** -/
theorem dnsReceive_of_skippable {r : Response} (h : r.Fits) (hs : r.Skippable) : Decodes r := by
  intro dns bh hid
  obtain ⟨-, -, -, rest, hp⟩ := received_encode h
  rw [Response.sections, List.append_assoc] at hp
  have hq := questions_of_zeroFree hp hs.question
  obtain ⟨rs, heq⟩ := dnsReceive_encode h bh hid hq
  have hdrop : (DnsPacket.received r.encode).payload.drop (questionBytes r.question).length =
      r.answers.flatMap Answer.encode ++ rest := by
    rw [hp, List.drop_left]
  have hroom := h.room
  have h8 : recordsLength = 8 := rfl
  have hcount : (r.answers.filter Answer.isA).length = r.records.length := by
    rw [Response.records, List.length_map]
  obtain ⟨rs', hloop⟩ :=
    answerLoop_of_answers bh 0 r.answers _ 0 rest hdrop hs.answers (by omega)
  have hfold := foldl_storesOf r.records [] dns.records (by rw [dns.size]; exact hroom)
  rw [Nat.add_zero] at hloop
  rw [heq, hloop]
  refine ⟨rfl, ?_⟩
  show (storesOf 0 r.records ++ []).foldl Store.apply dns.records = _
  rw [List.append_nil]
  exact hfold

end Safewrt.Dns
