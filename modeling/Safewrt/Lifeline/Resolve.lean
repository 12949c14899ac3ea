/-
  A NAME RESOLVED, BETWEEN TWO PARTIES (packages/lifeline/lifeline.c, dns.c).

  The modules before this one take the packets as they come.  Here the other party is modelled too,
  from the RFC and not from the code, and the two exchange one message each way.

  1. `respond` — a resolver as RFC 1035 has it: it reads the question out of the message, looks the
     labels up in its zone and answers with the question and one A record for each address, their
     owner a pointer to the question's name.

  2. `dialLoop_all` — the loop over records that all have a ttl, and a cleared entry behind them.

  3. **`attemptServer_resolves`** — request, resolver, response and loop together: what is dialed is
     what the zone holds for the name, in its order, as long as the name can be encoded and seven
     records are enough.  An eighth would leave no cleared entry, and the loop would read on.

  The proof follows the message: what `dns_request` sends is read as the labels of the name
  (`dnsRequest_asks_iff`), the response fits and its names can be skipped (`fits_response`,
  `skippable_response`), so `dns_receive` decodes it (`dnsReceive_of_skippable`).
-/
import Safewrt.Dns.Offsets
import Safewrt.Lifeline.AttemptDns

namespace Safewrt.Lifeline

open Safewrt.Lib Safewrt.Dns

/-! ## The resolver -/

/-- What a resolver knows of a name: the ttl and the address of each record. -/
abbrev Zone := List (List UInt8) → List DnsRecord

/-- Owner of all records: the name in the question, which starts behind the header. -/
def questionName : OwnerName := ⟨[], .pointer ⟨12, by decide⟩⟩

theorem length_address (r : DnsRecord) : (toBe 4 r.address.toNat).length < 65536 := by
  rw [length_toBe]
  decide

/-- A record as an answer. -/
def aRecord (r : DnsRecord) : Answer where
  name := questionName
  recordType := 1
  recordClass := 1
  ttl := r.ttl
  rdata := toBe 4 r.address.toNat
  short := length_address r

/-- The response to a message, if its question can be read. -/
def respond (zone : Zone) (message : List UInt8) : Option Response :=
  (readName (questionOf message)).map fun (labels, _) => {
    id := UInt16.ofNat (be (message.take 2))
    flags := 0x8180
    question := some ⟨labels, 1, 1⟩
    answers := (zone (labels.map Label.bytes)).map aRecord
    authorities := 0
    additionals := 0
    trailer := [] }

/-- The resolver at `dnsIp` gets what is sent and its response arrives; the name is no address. -/
structure Served (zone : Zone) (dnsIp : UInt32) (name : CName) (a : Answers) : Prop where
  address : a.address = inaddrNone
  socket : 0 ≤ a.socket
  sendto : ∀ bytes, a.sendto bytes dnsIp = bytes.length
  received : a.received = ((requested dnsIp name a).sent.bind (respond zone)).map fun r =>
    ⟨r.encode, dnsIp⟩
  returns : ∀ i, a.returns i = true

/-! ## The loop -/

/-- Every record is called, and the entry behind them ends the loop. -/
theorem dialLoop_all {returns : Nat → Bool} (hreturns : ∀ i, returns i = true) {z : DnsRecord}
    (hz : z.ttl = 0) (rest : List DnsRecord) (rs : List DnsRecord) (hrs : ∀ r ∈ rs, r.ttl ≠ 0) :
    ∀ i, dialLoop returns i (rs ++ z :: rest) =
      ⟨rs.map DnsRecord.address, List.range' i (rs.length + 1), .stopped⟩ := by
  induction rs with
  | nil =>
    intro i
    exact dialLoop_zero hz
  | cons r rs ih =>
    intro i
    obtain ⟨hr, hrest⟩ := List.forall_mem_cons.mp hrs
    rw [List.cons_append, dialLoop_called hr (hreturns i), ih hrest (i + 1)]
    rfl

/-! ## The whole way -/

section Served

variable {zone : Zone} {dnsIp : UInt32} {name : CName} {a : Answers}

/-- The socket is there and the entries are cleared. -/
theorem Served.init (h : Served zone dnsIp name a) :
    dnsInit a.socket dnsIp = (0, ⟨0, dnsIp, List.replicate recordsLength ⟨0, 0⟩, length_cleared⟩) := by
  unfold dnsInit
  rw [if_neg (Int.not_lt.mpr h.socket)]

/-- A request that fits goes out as a whole. -/
theorem dnsRequest_sends (hlength : name.bytes.length ≤ payloadBufferSize - 20) (dns : DnsT)
    {sendto : List UInt8 → UInt32 → Int}
    (hsendto : ∀ bytes, sendto bytes dns.dnsAddress = bytes.length) :
    dnsRequest dns sendto name = ⟨0, { dns with id := 0x1337 },
      some (requestHead ++ (rawBytes name.parts ++ trailer))⟩ := by
  have hsent := dnsRequest_sent hlength dns sendto
  obtain ⟨room, hroom⟩ := exists_room hlength
  have hdatap := (encoder_of_name hroom).datap
  simp only [dnsRequest, if_neg (Nat.not_lt.mpr hlength), hsendto, hdatap] at hsent ⊢
  generalize List.take _ _ = bytes at hsent ⊢
  have hbytes : bytes = requestHead ++ (rawBytes name.parts ++ trailer) := by
    split at hsent
    · exact Option.some.inj hsent
    · exact Option.some.inj hsent
  -- `sendto` takes no more and no less than the client compares with
  have hwhole : ¬ (bytes.length : Int) <
      ↑(sizeofDnsPacket - payloadBufferSize + (rawBytes name.parts ++ trailer).length) := by
    have hhead : requestHead.length = 12 := rfl
    have hsize : sizeofDnsPacket - payloadBufferSize = 12 := rfl
    rw [hbytes, List.length_append, hhead, hsize]
    omega
  rw [if_neg hwhole, hbytes]

/-- The request that leaves: the head, the name in labels and the trailer. -/
theorem Served.requested_eq (h : Served zone dnsIp name a)
    (hlength : name.bytes.length ≤ payloadBufferSize - 20) :
    requested dnsIp name a =
      ⟨0, ⟨0x1337, dnsIp, List.replicate recordsLength ⟨0, 0⟩, length_cleared⟩,
        some (requestHead ++ (rawBytes name.parts ++ trailer))⟩ := by
  unfold requested
  rw [h.init, dnsRequest_sends hlength _ h.sendto]

/-- The response to the request for a name. -/
def response (zone : Zone) (name : CName) (labels : List Label) : Response where
  id := 0x1337
  flags := 0x8180
  question := some ⟨labels, 1, 1⟩
  answers := (zone name.parts).map aRecord
  authorities := 0
  additionals := 0
  trailer := []

/-- The resolver reads the labels back out of the request and looks them up. -/
theorem respond_request (zone : Zone) {labels : List Label}
    (hlabels : labels.map Label.bytes = name.parts) :
    respond zone (requestHead ++ (rawBytes name.parts ++ trailer)) =
      some (response zone name labels) := by
  have hquestion : questionOf (requestHead ++ (rawBytes name.parts ++ trailer)) =
      labelBytes labels ++ 0 :: [0, 1, 0, 1] := by
    show (requestHead ++ (rawBytes name.parts ++ trailer)).drop requestHead.length = _
    rw [List.drop_left, ← hlabels, rawBytes_map]
    rfl
  have hid : be ((requestHead ++ (rawBytes name.parts ++ trailer)).take 2) = 0x1337 := rfl
  rw [respond, hquestion, readName_encode, hid, response, ← hlabels]
  rfl

/-- A record of the resolver is an A record. -/
theorem isA_aRecord (r : DnsRecord) : (aRecord r).isA = true := by
  have hlength : (toBe 4 r.address.toNat).length = 4 := length_toBe 4 _
  show Header.isA ⟨1, 1, r.ttl.toNat, (toBe 4 r.address.toNat).length⟩ = true
  rw [hlength]
  rfl

theorem record_aRecord (r : DnsRecord) : (aRecord r).record = r := by
  have haddress := r.address.toNat_lt
  show (⟨r.ttl, UInt32.ofNat (be (toBe 4 r.address.toNat))⟩ : DnsRecord) = r
  rw [be_toBe_of_lt (by omega), UInt32.ofNat_toNat]

/-- The records of the response are those of the zone. -/
theorem records_response (zone : Zone) (name : CName) (labels : List Label) :
    (response zone name labels).records = zone name.parts := by
  have hall : ((zone name.parts).map aRecord).filter Answer.isA = (zone name.parts).map aRecord := by
    rw [List.filter_eq_self]
    intro answer hanswer
    obtain ⟨r, -, rfl⟩ := List.mem_map.mp hanswer
    exact isA_aRecord r
  have hback : Answer.record ∘ aRecord = id := funext record_aRecord
  show (((zone name.parts).map aRecord).filter Answer.isA).map Answer.record = _
  rw [hall, List.map_map, hback, List.map_id]

/-- An answer: pointer, type, class, ttl, length and address. -/
theorem length_answers (rs : List DnsRecord) :
    ((rs.map aRecord).flatMap Answer.encode).length = 16 * rs.length := by
  induction rs with
  | nil => rfl
  | cons r rs ih =>
    have hone : (aRecord r).encode.length = 16 := by
      rw [Answer.encode, List.length_append, List.length_append, length_fixed]
      show 2 + (10 + (toBe 4 r.address.toNat).length) = 16
      rw [length_toBe]
    rw [List.map_cons, List.flatMap_cons, List.length_append, ih, hone, List.length_cons]
    omega

/-- The response fits into the buffer of `dns_receive`, if the name is short and there are no more
    than seven addresses. -/
theorem fits_response {labels : List Label} (hlabels : labels.map Label.bytes = name.parts)
    (hlength : name.bytes.length ≤ 394) (hnonempty : 1 ≤ (zone name.parts).length)
    (hroom : (zone name.parts).length ≤ 7) : (response zone name labels).Fits := by
  have hrecords := records_response zone name labels
  have hbuffer : payloadBufferSize = 512 := rfl
  have hraw : (rawBytes name.parts).length = name.bytes.length + 1 :=
    length_rawBytes_parts (by omega)
  refine ⟨?_, ?_, ?_⟩
  · show ((labelBytes labels ++ [0] ++ toBe 2 1 ++ toBe 2 1) ++ ((zone name.parts).map aRecord).flatMap
      Answer.encode).length ≤ payloadBufferSize
    rw [← rawBytes_map, hlabels, List.length_append, List.length_append, List.length_append,
      List.length_append, length_toBe, length_answers, hraw, List.length_singleton]
    omega
  · rw [hrecords]
    exact hnonempty
  · rw [hrecords]
    exact Nat.le_trans hroom (by decide)

/-- Both names of it can be skipped: the question ends in a zero, the owners are pointers. -/
theorem skippable_response {labels : List Label} (hlabels : labels.map Label.bytes = name.parts) :
    (response zone name labels).Skippable := by
  constructor
  · intro q hq
    obtain rfl := Option.some.inj hq
    exact zeroFree_of_parts hlabels
  · intro answer hanswer
    obtain ⟨r, -, rfl⟩ := List.mem_map.mp hanswer
    have hlabels : labelBytes (aRecord r).name.labels = [] := rfl
    rw [OwnerName.SkipSafe, hlabels]
    exact ⟨fun b hb => absurd hb List.not_mem_nil, fun b hb => absurd hb (by simp)⟩

/-- **A name that is resolved**: what is dialed is what the zone has for the name. -/
theorem attemptServer_resolves (h : Served zone dnsIp name a) (hname : name.Encodable)
    (hlength : name.bytes.length ≤ 394) (hnonempty : 1 ≤ (zone name.parts).length)
    (hroom : (zone name.parts).length ≤ 7) (httl : ∀ r ∈ zone name.parts, r.ttl ≠ 0) :
    attemptServer dnsIp name a = ⟨(zone name.parts).map DnsRecord.address,
      List.range ((zone name.parts).length + 1), .stopped⟩ := by
  obtain ⟨labels, hlabels⟩ := exists_labels hname
  have hbuffer : payloadBufferSize = 512 := rfl
  have hrequested := h.requested_eq (by omega)
  have hreceived : a.received = some ⟨(response zone name labels).encode, dnsIp⟩ := by
    rw [h.received, hrequested]
    show Option.map _ (respond zone _) = _
    rw [respond_request zone hlabels]
    rfl
  obtain ⟨hcode, hrecords⟩ := dnsReceive_of_skippable
    (fits_response hlabels hlength hnonempty hroom) (skippable_response hlabels)
    ⟨0x1337, dnsIp, List.replicate recordsLength ⟨0, 0⟩, length_cleared⟩ a.behind rfl
  rw [records_response] at hrecords
  have hreceive : receive dnsIp name a = dnsReceive
      ⟨0x1337, dnsIp, List.replicate recordsLength ⟨0, 0⟩, length_cleared⟩ a.behind
        (some ⟨(response zone name labels).encode, dnsIp⟩) := by
    rw [receive, hrequested, hreceived]
  -- the entry behind the records was cleared, and ends the loop
  obtain ⟨n, hn⟩ : ∃ n, recordsLength - (zone name.parts).length = n + 1 :=
    ⟨7 - (zone name.parts).length, by rw [show recordsLength = 8 from rfl]; omega⟩
  have hinit : (dnsInit a.socket dnsIp).1 = 0 := by rw [h.init]
  have hrequest : (requested dnsIp name a).code = 0 := by rw [hrequested]
  rw [attemptServer, if_neg (not_not.mpr h.address), if_neg (not_not.mpr hinit),
    if_neg (not_not.mpr hrequest), hreceive]
  dsimp only
  rw [hcode, hrequested]
  dsimp only
  rw [hrecords, List.drop_replicate, hn, List.replicate_succ, List.append_assoc, List.cons_append,
    dialLoop_all h.returns rfl _ _ httl, List.range_eq_range']
  rfl

end Served

/-! ### Two addresses -/

/-- A system in which the resolver of a zone is there. -/
def servedAnswers (zone : Zone) (dnsIp : UInt32) (name : CName) : Answers where
  address := inaddrNone
  socket := 3
  sendto bytes _ := bytes.length
  received := ((dnsRequest (dnsInit 3 dnsIp).2 (fun bytes _ => bytes.length) name).sent.bind
    (respond zone)).map fun r => ⟨r.encode, dnsIp⟩
  behind := nothingBehind
  beyond := []
  returns _ := true

theorem servedAnswers_served (zone : Zone) (dnsIp : UInt32) (name : CName) :
    Served zone dnsIp name (servedAnswers zone dnsIp name) :=
  ⟨rfl, show (0 : Int) ≤ 3 by decide, fun _ => rfl, rfl, fun _ => rfl⟩

/-- Two addresses for every name. -/
def sampleZone : Zone := fun _ => [⟨60, 0x01020304⟩, ⟨60, 0x05060708⟩]

end Safewrt.Lifeline
