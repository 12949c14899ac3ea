/-
  lifeline's resolver, receiving side — `dns_receive` of `packages/lifeline/dns.c`.

  The function takes one datagram, checks that it is the answer to the question that was sent, and
  walks over its sections with one pointer: the questions are skipped byte by byte up to a zero,
  the name of a record up to a zero or to a byte that could begin a compression pointer, and of
  every A record the ttl and the address are kept.

  1. **Data** — `DnsPacket` is `dns_packet_t` after `memset` and `recvfrom`: whatever the datagram
     did not fill is zero.  `DnsT` is `dns_t` without the socket and the packet (every call
     clears and refills the packet).  Multi-byte fields are the numbers `ntohs`/`htonl` make of
     them; `ttl` and `address` are the 32 bits of the C `int`s, the address in network order.

  2. **Memory** — the cursor `datap` is an offset into `payload`, and nothing keeps it inside.
     Reads past the payload see whatever `dns_t` and the stack hold there (`Behind`); `records`
     itself lies there, so this may change with every store made so far.  Where even that ends,
     a read kills the process.  The two cursors of the loop are therefore natural numbers without
     a bound, and "inside the payload" is a property of a run, not of the type.

  3. **Program** — `dnsReceive` returns a `Walk`: the return code (or `none`, killed), every
     payload offset dereferenced, every store into `records`, each in program order.  Keeping the
     reads and the stores apart from the code is what lets the results say where the function
     reads and writes, and not only what it returns.

  The checks in front of the walk (`Passes`) are those of the source: length, source address, id and
  number of questions.  A packet that announces no answer is `DNS_ERROR_NXDOMAIN`; the flags, and
  what comes behind the answers, are never looked at.
-/
import Safewrt.Lib.Bytes

namespace Safewrt.Dns

open Safewrt.Lib

/-! ## Data -/

/-- `DNS_ERROR_RECVFROM_FAILED` and its like, from `dns.h`. -/
def dnsErrorRecvfromFailed : Nat := 4
def dnsErrorUdpInjected : Nat := 5
def dnsErrorAnswerTooLarge : Nat := 6
def dnsErrorNxdomain : Nat := 7

/-- `PAYLOAD_BUFFER_SIZE` -/
def payloadBufferSize : Nat := 512

/-- `sizeof(dns_packet_t)`: six 16-bit fields and the payload. -/
def sizeofDnsPacket : Nat := 12 + payloadBufferSize

/-- Length of `dns_t.records`. -/
def recordsLength : Nat := 8

/-- `dns_packet_t`; the two counts that `dns_receive` does not look at are not kept. -/
structure DnsPacket where
  id : Nat
  flags : Nat
  queries : Nat
  answers : Nat
  authorities : Nat
  additionals : Nat
  payload : List UInt8
  size : payload.length = payloadBufferSize

/-- The cleared packet after `recvfrom` has written `bytes` over it. -/
def DnsPacket.received (bytes : List UInt8) : DnsPacket :=
  let image := (bytes ++ List.replicate sizeofDnsPacket 0).take sizeofDnsPacket
  { id := be (image.take 2)
    flags := be ((image.drop 2).take 2)
    queries := be ((image.drop 4).take 2)
    answers := be ((image.drop 6).take 2)
    authorities := be ((image.drop 8).take 2)
    additionals := be ((image.drop 10).take 2)
    payload := image.drop 12
    size := by
      have himage : image.length = sizeofDnsPacket := by
        simp only [image, List.length_take, List.length_append, List.length_replicate]
        omega
      rw [List.length_drop, himage]
      rfl }

/-- An entry of `records`. -/
structure DnsRecord where
  ttl : UInt32
  address : UInt32
  deriving DecidableEq

/-- `dns_t`: what stays from one call to the next. -/
structure DnsT where
  id : Nat
  dnsAddress : UInt32
  records : List DnsRecord
  size : records.length = recordsLength

theorem length_cleared :
    (List.replicate recordsLength (⟨0, 0⟩ : DnsRecord)).length = recordsLength := rfl

/-- What `recvfrom` delivers: the bytes and the sender's address. -/
structure Datagram where
  bytes : List UInt8
  source : UInt32

/-! ## Memory and what a call does to it -/

/-- The mapped bytes after the payload, as they are after the first `k` stores into `records`. -/
structure Behind where
  size : Nat
  bytes : Nat → List UInt8
  mapped : ∀ k, (bytes k).length = size

/-- The payload is the last thing mapped. -/
def nothingBehind : Behind := ⟨0, fun _ => [], fun _ => rfl⟩

/-- Memory from the first payload byte on. -/
def mem (p : List UInt8) (bh : Behind) (k : Nat) : List UInt8 := p ++ bh.bytes k

/-- A store into a member of `records[index]`. -/
inductive Store where
  | ttl (index : Nat) (value : UInt32)
  | address (index : Nat) (value : UInt32)
  deriving DecidableEq

/-- The entry of `records` that is stored to; it may be none of them. -/
def Store.index : Store → Nat
  | .ttl i _ => i
  | .address i _ => i

/-- The effect of a store on the array; one past its end lands elsewhere. -/
def Store.apply (records : List DnsRecord) : Store → List DnsRecord
  | .ttl i v => records.modify i fun r => { r with ttl := v }
  | .address i v => records.modify i fun r => { r with address := v }

/-- What one call did.  `code = none`: killed by a read of unmapped memory. -/
structure Walk where
  code : Option Nat
  reads : List Nat
  stores : List Store
  deriving DecidableEq

/-- `w`, with the reads `rs` and the stores `ss` made before it. -/
def Walk.after (w : Walk) (rs : List Nat) (ss : List Store) : Walk :=
  { w with reads := rs ++ w.reads, stores := ss ++ w.stores }

@[simp] theorem Walk.after_code (w : Walk) (rs : List Nat) (ss : List Store) :
    (w.after rs ss).code = w.code := rfl

@[simp] theorem Walk.after_reads (w : Walk) (rs : List Nat) (ss : List Store) :
    (w.after rs ss).reads = rs ++ w.reads := rfl

@[simp] theorem Walk.after_stores (w : Walk) (rs : List Nat) (ss : List Store) :
    (w.after rs ss).stores = ss ++ w.stores := rfl

theorem Walk.after_after (w : Walk) (rs rs' : List Nat) (ss ss' : List Store) :
    (w.after rs ss).after rs' ss' = w.after (rs' ++ rs) (ss' ++ ss) := by
  unfold Walk.after
  simp only [List.append_assoc]

/-- `dns->records` once the call is over. -/
def Walk.records (w : Walk) (dns : DnsT) : List DnsRecord :=
  w.stores.foldl Store.apply dns.records

/-! ## The program -/

/-- `for (; *datap != 0; datap++) {}  datap += 5;` -/
def skipQuestion (m : List UInt8) (datap : Nat) : Option Nat × List Nat :=
  ((scan (· == 0) m datap).1.map fun s => s.1 + 5, (scan (· == 0) m datap).2)

/-- The loop over `queries` question sections. -/
def skipQuestions (m : List UInt8) : Nat → Nat → Option Nat × List Nat
  | 0, datap => (some datap, [])
  | n + 1, datap =>
    match skipQuestion m datap with
    | (none, rs) => (none, rs)
    | (some datap', rs) => ((skipQuestions m n datap').1, rs ++ (skipQuestions m n datap').2)

/-- The bytes the name loop breaks at: a zero, or the two top bits of a pointer. -/
def nameStop (b : UInt8) : Bool := b == 0 || b &&& 0xc0 != 0

/-- The cursor after the byte that ended the name loop (a pointer is one byte longer). -/
def afterName (s : Nat × UInt8) : Nat := if s.2 == 0 then s.1 + 1 else s.1 + 2

/-- Skip the owner name of an answer. -/
def skipName (m : List UInt8) (datap : Nat) : Option Nat × List Nat :=
  ((scan nameStop m datap).1.map afterName, (scan nameStop m datap).2)

/-- The fixed part of an answer after its owner name. -/
structure Header where
  recordType : Nat
  recordClass : Nat
  ttl : Nat
  rdlength : Nat
  deriving DecidableEq

/-- `sizeof(dns_answer_header_t)`, which is packed. -/
def headerSize : Nat := 10

/-- The four fields, in network order. -/
def Header.decode (bs : List UInt8) : Header where
  recordType := be (bs.take 2)
  recordClass := be ((bs.drop 2).take 2)
  ttl := be ((bs.drop 4).take 4)
  rdlength := be ((bs.drop 8).take 2)

/-- Four loads in a row: type, class, ttl, rdlength. -/
def loadHeader (m : List UInt8) (datap : Nat) : Option Header × List Nat :=
  ((load m headerSize datap).1.map Header.decode, (load m headerSize datap).2)

/-- `recordClass == 1 && recordType == 1 && rdlength == 4` -/
def Header.isA (h : Header) : Bool := h.recordClass == 1 && h.recordType == 1 && h.rdlength == 4

/-- The loop over the answer section: `n` answers left, `recordCount` records stored. -/
def answerLoop (p : List UInt8) (bh : Behind) : Nat → Nat → Nat → Walk
  | 0, _, _ => ⟨some 0, [], []⟩
  | n + 1, datap, recordCount =>
    let m := mem p bh (2 * recordCount)
    let name := skipName m datap
    match name.1 with
    | none => ⟨none, name.2, []⟩
    | some c =>
      let head := loadHeader m c
      match head.1 with
      | none => ⟨none, name.2 ++ head.2, []⟩
      | some h =>
        if h.isA then
          -- the ttl is stored before the address is loaded
          let storeTtl := Store.ttl recordCount (UInt32.ofNat h.ttl)
          let data := load (mem p bh (2 * recordCount + 1)) 4 (c + headerSize)
          match data.1 with
          | none => ⟨none, name.2 ++ head.2 ++ data.2, [storeTtl]⟩
          | some bs =>
            let storeAddress := Store.address recordCount (UInt32.ofNat (be bs))
            -- the array has `recordsLength` entries
            if recordCount + 1 ≥ 16 then
              ⟨some dnsErrorAnswerTooLarge, name.2 ++ head.2 ++ data.2, [storeTtl, storeAddress]⟩
            else
              (answerLoop p bh n (c + headerSize + h.rdlength) (recordCount + 1)).after
                (name.2 ++ head.2 ++ data.2) [storeTtl, storeAddress]
        else
          (answerLoop p bh n (c + headerSize + h.rdlength) recordCount).after
            (name.2 ++ head.2) []

/-- `dns_receive`, once `recvfrom` has returned `received` (`none`: an error or a timeout). -/
def dnsReceive (dns : DnsT) (bh : Behind) (received : Option Datagram) : Walk :=
  match received with
  | none => ⟨some dnsErrorRecvfromFailed, [], []⟩
  | some d =>
    let packet := DnsPacket.received d.bytes
    if d.bytes.length < 1 then ⟨some dnsErrorRecvfromFailed, [], []⟩
    else if d.source ≠ dns.dnsAddress then ⟨some dnsErrorUdpInjected, [], []⟩
    else if packet.id ≠ dns.id then ⟨some dnsErrorUdpInjected, [], []⟩
    else if packet.queries > 1 then ⟨some dnsErrorUdpInjected, [], []⟩
    else if packet.answers < 1 then ⟨some dnsErrorNxdomain, [], []⟩
    else
      let question := skipQuestions (mem packet.payload bh 0) packet.queries 0
      match question.1 with
      | none => ⟨none, question.2, []⟩
      | some datap => (answerLoop packet.payload bh packet.answers datap 0).after question.2 []

/-- The datagram gets past the source, id and query checks. -/
structure Passes (dns : DnsT) (d : Datagram) : Prop where
  nonempty : 1 ≤ d.bytes.length
  source : d.source = dns.dnsAddress
  id : (DnsPacket.received d.bytes).id = dns.id
  queries : (DnsPacket.received d.bytes).queries ≤ 1

/-- A datagram that passes and has no answers is answered with `DNS_ERROR_NXDOMAIN`. -/
theorem dnsReceive_noAnswers {dns : DnsT} {bh : Behind} {d : Datagram} (h : Passes dns d)
    (hn : (DnsPacket.received d.bytes).answers = 0) :
    dnsReceive dns bh (some d) = ⟨some dnsErrorNxdomain, [], []⟩ := by
  have hne := h.nonempty
  have hq := h.queries
  simp only [dnsReceive]
  rw [if_neg (by omega), if_neg (by simp [h.source]), if_neg (by simp [h.id]), if_neg (by omega),
    if_pos (by omega)]

/-- A datagram that passes and has answers is parsed. -/
theorem dnsReceive_parses {dns : DnsT} {bh : Behind} {d : Datagram} (h : Passes dns d)
    (hn : 1 ≤ (DnsPacket.received d.bytes).answers) :
    dnsReceive dns bh (some d) =
      let packet := DnsPacket.received d.bytes
      let question := skipQuestions (mem packet.payload bh 0) packet.queries 0
      match question.1 with
      | none => ⟨none, question.2, []⟩
      | some datap =>
        (answerLoop packet.payload bh packet.answers datap 0).after question.2 [] := by
  have hne := h.nonempty
  have hq := h.queries
  simp only [dnsReceive]
  rw [if_neg (by omega), if_neg (by simp [h.source]), if_neg (by simp [h.id]), if_neg (by omega),
    if_neg (by omega)]

end Safewrt.Dns
