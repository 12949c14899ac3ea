/-
  lifeline's resolver, asking side — `dns_request` of `packages/lifeline/dns.c`.

  1. **Program** — two pointers walk the cleared payload: `datap`, where the next byte goes, and
     `label_length`, the length byte of the current label, counted up in place.  `Encoder` holds
     both as offsets and every write made through them, in program order; nothing keeps either
     inside the buffer.  What is written one past a length byte is left to the earlier `memset`:
     a dot moves `label_length` to a byte that has never been stored to.

  2. **What goes out** — `encoder_of_name`: the payload is, for each part of the name between
     dots, one byte with the length of the part (modulo 256) and then its characters, whatever
     the length is.  The invariant `Holds` is "written so far: some bytes, the current part, and
     zeros behind it".

  3. **Specification** — `readName` reads a name as RFC 1035 does, and `Asks` says that a question
     is a valid one for the given labels which `dns_receive` can skip again.
     `dnsRequest_asks_iff`: what is sent is that, exactly when every part has 1 to 63 bytes.
-/
import Safewrt.Dns.Decode

namespace Safewrt.Dns

open Safewrt.Lib

/-! ## The program -/

/-- `DNS_ERROR_SOCKET_FAILED` and its like, from `dns.h`. -/
def dnsErrorSocketFailed : Nat := 1
def dnsErrorNameTooLong : Nat := 2
def dnsErrorSendtoFailed : Nat := 3

/-- `dns_init`, with the answers of `socket` and of `inet_addr`. -/
def dnsInit (socket : Int) (address : UInt32) : Nat × DnsT :=
  let dns : DnsT := ⟨0, 0, List.replicate recordsLength ⟨0, 0⟩, length_cleared⟩
  if socket < 0 then (dnsErrorSocketFailed, dns) else (0, { dns with dnsAddress := address })

/-- The argument `name`: a C string, the bytes before its closing zero. -/
structure CName where
  bytes : List UInt8
  noZero : ∀ b ∈ bytes, b ≠ 0

/-- `'.'` -/
def dot : UInt8 := 0x2e

/-- A write through one of the two pointers. -/
inductive Poke where
  | store (offset : Nat) (value : UInt8)
  | increment (offset : Nat)
  deriving DecidableEq

/-- The effect of a write on the payload; one past its end lands elsewhere. -/
def Poke.apply (payload : List UInt8) : Poke → List UInt8
  | .store o v => payload.set o v
  | .increment o => payload.modify o (· + 1)

/-- The two pointers, as offsets into the payload, and all that was written through them. -/
structure Encoder where
  datap : Nat
  labelLength : Nat
  pokes : List Poke
  deriving DecidableEq

/-- The payload, cleared before the first write. -/
def Encoder.payload (e : Encoder) : List UInt8 :=
  e.pokes.foldl Poke.apply (List.replicate payloadBufferSize 0)

/-- `datap = payload; label_length = datap++` -/
def Encoder.start : Encoder := ⟨1, 0, []⟩

/-- `*datap++ = b` -/
def Encoder.put (e : Encoder) (b : UInt8) : Encoder :=
  { e with datap := e.datap + 1, pokes := e.pokes ++ [.store e.datap b] }

/-- `*label_length += 1` -/
def Encoder.count (e : Encoder) : Encoder :=
  { e with pokes := e.pokes ++ [.increment e.labelLength] }

/-- One turn of the loop over the name. -/
def Encoder.step (e : Encoder) (c : UInt8) : Encoder :=
  if c = dot then { e with labelLength := e.datap, datap := e.datap + 1 } else e.count.put c

/-- The closing zero, the type A and the class IN. -/
def trailer : List UInt8 := [0, 0, 1, 0, 1]

/-- The encoder once the name and the trailer are written. -/
def encodeName (name : CName) : Encoder :=
  trailer.foldl Encoder.put (name.bytes.foldl Encoder.step Encoder.start)

/-- Writes do not change how long the payload is. -/
theorem length_foldl_apply (ps : List Poke) :
    ∀ payload : List UInt8, (ps.foldl Poke.apply payload).length = payload.length := by
  induction ps with
  | nil => exact fun _ => rfl
  | cons p ps ih =>
    intro payload
    rw [List.foldl_cons, ih]
    cases p with
    | store o v => exact List.length_set
    | increment o => exact List.length_modify _ _ _

theorem Encoder.length_payload (e : Encoder) : e.payload.length = payloadBufferSize := by
  show (e.pokes.foldl Poke.apply _).length = _
  rw [length_foldl_apply, List.length_replicate]

/-- The bytes of a packet in memory. -/
def DnsPacket.bytes (p : DnsPacket) : List UInt8 :=
  toBe 2 p.id ++ toBe 2 p.flags ++ toBe 2 p.queries ++ toBe 2 p.answers ++ toBe 2 p.authorities ++
    toBe 2 p.additionals ++ p.payload

/-- What one call did: the return code, `dns` afterwards, the bytes handed to `sendto`. -/
structure Request where
  code : Nat
  dns : DnsT
  sent : Option (List UInt8)

/-- `dns_request`; `sendto` is the answer of the system to the bytes and the address. -/
def dnsRequest (dns : DnsT) (sendto : List UInt8 → UInt32 → Int) (name : CName) : Request :=
  let dns' := { dns with id := 0x1337 }
  if name.bytes.length > payloadBufferSize - 20 then ⟨dnsErrorNameTooLong, dns', none⟩
  else
    let e := encodeName name
    -- recursion requested, one query
    let packet : DnsPacket := ⟨dns'.id, 0x100, 1, 0, 0, 0, e.payload, e.length_payload⟩
    let len := sizeofDnsPacket - payloadBufferSize + e.datap
    let bytes := packet.bytes.take len
    if sendto bytes dns'.dnsAddress < len then ⟨dnsErrorSendtoFailed, dns', some bytes⟩
    else ⟨0, dns', some bytes⟩

/-- The bytes of a message after its header. -/
def questionOf (message : List UInt8) : List UInt8 :=
  message.drop (sizeofDnsPacket - payloadBufferSize)

/-! ## What the encoder writes -/

/-- The parts of the name between its dots. -/
def CName.parts (name : CName) : List (List UInt8) := name.bytes.splitOn dot

/-- A part as it is written: its length, as far as one byte can count, and its characters. -/
def rawLabel (l : List UInt8) : List UInt8 := UInt8.ofNat l.length :: l

/-- The parts of a name, each behind its length. -/
def rawBytes (ls : List (List UInt8)) : List UInt8 := ls.flatMap rawLabel

/-- The payload is `written` and then `room` zeros, and `datap` stands between them. -/
structure Written (e : Encoder) (written : List UInt8) (room : Nat) : Prop where
  payload : e.payload = written ++ List.replicate room 0
  datap : e.datap = written.length

/-- The loop stands in the part `cur`, whose length byte follows the bytes `pre`. -/
structure Holds (e : Encoder) (pre cur : List UInt8) (room : Nat) : Prop
    extends Written e (pre ++ rawLabel cur) room where
  labelLength : e.labelLength = pre.length

theorem holds_start : Holds Encoder.start [] [] (payloadBufferSize - 1) := ⟨⟨rfl, rfl⟩, rfl⟩

/-- A store at the cursor appends, while there is room. -/
theorem written_put {e : Encoder} {w : List UInt8} {room : Nat} (h : Written e w (room + 1))
    (b : UInt8) : Written (e.put b) (w ++ [b]) room := by
  refine ⟨?_, ?_⟩
  · show (e.pokes ++ [Poke.store e.datap b]).foldl Poke.apply _ = _
    rw [List.foldl_append]
    show e.payload.set e.datap b = _
    rw [h.payload, h.datap, List.set_append_right _ _ (Nat.le_refl _), Nat.sub_self, List.replicate_succ,
      List.set_cons_zero, List.append_assoc, List.singleton_append]
  · show e.datap + 1 = _
    rw [h.datap, List.length_append, List.length_singleton]

/-- Bytes that are stored in a row are appended to what is written. -/
theorem written_putAll {bs : List UInt8} :
    ∀ {e : Encoder} {w : List UInt8} {room : Nat}, Written e w (bs.length + room) →
      Written (bs.foldl Encoder.put e) (w ++ bs) room := by
  induction bs with
  | nil =>
    intro e w room h
    rw [List.append_nil]
    rw [List.length_nil, Nat.zero_add] at h
    exact h
  | cons b bs ih =>
    intro e w room h
    have hroom : (b :: bs).length + room = bs.length + room + 1 := by
      rw [List.length_cons]
      omega
    rw [hroom] at h
    have hput := ih (written_put h b)
    rw [List.append_assoc, List.singleton_append] at hput
    exact hput

/-- Counting a character: the length byte of the current part goes up by one. -/
theorem payload_count {e : Encoder} {pre cur : List UInt8} {room : Nat}
    (h : Holds e pre cur room) :
    e.count.payload = pre ++ (UInt8.ofNat (cur.length + 1) :: cur) ++ List.replicate room 0 := by
  have hbyte : UInt8.ofNat cur.length + 1 = UInt8.ofNat (cur.length + 1) := by
    rw [UInt8.ofNat_add]
    rfl
  show (e.pokes ++ [Poke.increment e.labelLength]).foldl Poke.apply _ = _
  rw [List.foldl_append]
  show e.payload.modify e.labelLength (· + 1) = _
  rw [h.payload, h.labelLength, rawLabel, List.append_assoc, List.cons_append, modify_middle, hbyte,
    List.append_assoc, List.cons_append]

/-- **One turn of the loop**: a dot opens the next part, any other byte goes to the current. -/
theorem holds_step {e : Encoder} {pre cur : List UInt8} {room : Nat}
    (h : Holds e pre cur (room + 1)) (c : UInt8) :
    if c = dot then Holds (e.step c) (pre ++ rawLabel cur) [] room
    else Holds (e.step c) pre (cur ++ [c]) room := by
  by_cases hc : c = dot
  · -- the new length byte is a zero of the cleared payload
    rw [if_pos hc, Encoder.step, if_pos hc]
    refine ⟨⟨?_, ?_⟩, h.datap⟩
    · show e.payload = _
      rw [h.payload, List.replicate_succ, List.append_assoc (pre ++ rawLabel cur)]
      rfl
    · show e.datap + 1 = _
      have hnext : (pre ++ rawLabel cur ++ rawLabel []).length =
          (pre ++ rawLabel cur).length + 1 := List.length_append
      exact (congrArg (· + 1) h.datap).trans hnext.symm
  · rw [if_neg hc, Encoder.step, if_neg hc]
    -- first the length byte is counted up, then the character is stored
    have hcount : Written e.count (pre ++ (UInt8.ofNat (cur.length + 1) :: cur)) (room + 1) := by
      refine ⟨payload_count h, ?_⟩
      show e.datap = _
      rw [h.datap]
      simp [rawLabel]
    have hput := written_put hcount c
    have hraw : pre ++ (UInt8.ofNat (cur.length + 1) :: cur) ++ [c] =
        pre ++ rawLabel (cur ++ [c]) := by
      rw [rawLabel, List.length_append, List.length_singleton, List.append_assoc]
      rfl
    rw [hraw] at hput
    exact ⟨hput, h.labelLength⟩

theorem rawBytes_cons (l : List UInt8) (ls : List (List UInt8)) :
    rawBytes (l :: ls) = rawLabel l ++ rawBytes ls := rfl

/-- The whole loop: the parts of what is still to come are appended, the first of them to the
    current part. -/
theorem holds_run {cs : List UInt8} :
    ∀ {e : Encoder} {pre cur : List UInt8} {room : Nat}, Holds e pre cur (cs.length + room) →
      Written (cs.foldl Encoder.step e)
        (pre ++ rawBytes ((cs.splitOn dot).modifyHead (cur ++ ·))) room := by
  induction cs with
  | nil =>
    intro e pre cur room h
    rw [List.length_nil, Nat.zero_add] at h
    rw [List.splitOn_nil, List.modifyHead_cons, List.append_nil, rawBytes_cons]
    show Written e (pre ++ (rawLabel cur ++ [])) room
    rw [List.append_nil]
    exact h.toWritten
  | cons c cs ih =>
    intro e pre cur room h
    have hroom : (c :: cs).length + room = cs.length + room + 1 := by
      rw [List.length_cons]
      omega
    rw [hroom] at h
    have hstep := holds_step h c
    rw [List.foldl_cons, List.splitOn_cons_eq_if_modifyHead]
    by_cases hc : c = dot
    · -- a dot closes the part, and the next one begins empty
      rw [if_pos hc] at hstep
      have hrun := ih hstep
      have hid : (cs.splitOn dot).modifyHead (([] : List UInt8) ++ ·) = cs.splitOn dot := by
        cases cs.splitOn dot <;> rfl
      rw [hid, List.append_assoc] at hrun
      rw [if_pos (by simpa using hc), List.modifyHead_cons, List.append_nil, rawBytes_cons]
      exact hrun
    · -- any other character belongs to the part
      rw [if_neg hc] at hstep
      have hrun := ih hstep
      have hhead : ((cs.splitOn dot).modifyHead (c :: ·)).modifyHead (cur ++ ·) =
          (cs.splitOn dot).modifyHead ((cur ++ [c]) ++ ·) := by
        cases cs.splitOn dot with
        | nil => rfl
        | cons l ls => simp
      rw [if_neg (by simpa using hc), hhead]
      exact hrun

/-- **The encoder on a name**: the parts as written, and the trailer, whatever the parts are. -/
theorem encoder_of_name {name : CName} {room : Nat}
    (h : name.bytes.length + (trailer.length + room) = payloadBufferSize - 1) :
    Written (encodeName name) (rawBytes name.parts ++ trailer) room := by
  have hstart := holds_start
  rw [← h] at hstart
  have hrun := holds_run hstart
  have hid : (name.bytes.splitOn dot).modifyHead (([] : List UInt8) ++ ·) = name.parts := by
    show _ = name.bytes.splitOn dot
    cases name.bytes.splitOn dot <;> rfl
  rw [hid, List.nil_append] at hrun
  exact written_putAll hrun

/-- The header of every request: id, recursion, one query. -/
def requestHead : List UInt8 := [0x13, 0x37, 1, 0, 0, 1, 0, 0, 0, 0, 0, 0]

/-- The packet on the wire: the head and the payload. -/
theorem bytes_requestPacket {payload : List UInt8} (h : payload.length = payloadBufferSize) :
    DnsPacket.bytes ⟨0x1337, 0x100, 1, 0, 0, 0, payload, h⟩ = requestHead ++ payload := by
  have hhead : toBe 2 0x1337 ++ toBe 2 0x100 ++ toBe 2 1 ++ toBe 2 0 ++ toBe 2 0 ++ toBe 2 0 =
      requestHead := by decide
  rw [← hhead]
  rfl

/-- The payload has room for the name, the trailer and more. -/
theorem exists_room {name : CName} (h : name.bytes.length ≤ payloadBufferSize - 20) :
    ∃ room, name.bytes.length + (trailer.length + room) = payloadBufferSize - 1 := by
  have h20 : payloadBufferSize = 512 := rfl
  have h5 : trailer.length = 5 := rfl
  exact ⟨506 - name.bytes.length, by omega⟩

/-- A name that is not refused goes out as the header, its parts and the trailer. -/
theorem dnsRequest_sent {name : CName} (h : name.bytes.length ≤ payloadBufferSize - 20)
    (dns : DnsT) (sendto : List UInt8 → UInt32 → Int) :
    (dnsRequest dns sendto name).sent = some (requestHead ++ (rawBytes name.parts ++ trailer)) := by
  obtain ⟨room, hroom⟩ := exists_room h
  have hw := encoder_of_name hroom
  have htake : (requestHead ++ (rawBytes name.parts ++ trailer ++ List.replicate room 0)).take
      (12 + (rawBytes name.parts ++ trailer).length) =
        requestHead ++ (rawBytes name.parts ++ trailer) := by
    rw [← List.append_assoc requestHead, List.take_left' (by rw [List.length_append]; rfl)]
  have hbytes : (DnsPacket.bytes ⟨0x1337, 0x100, 1, 0, 0, 0, (encodeName name).payload,
      (encodeName name).length_payload⟩).take
        (sizeofDnsPacket - payloadBufferSize + (encodeName name).datap) =
      requestHead ++ (rawBytes name.parts ++ trailer) := by
    rw [bytes_requestPacket, hw.datap, hw.payload]
    exact htake
  simp only [dnsRequest, if_neg (Nat.not_lt.mpr h), hbytes]
  split <;> rfl

/-- A name is refused for its length and nothing else. -/
theorem dnsRequest_refused_iff (dns : DnsT) (sendto : List UInt8 → UInt32 → Int) (name : CName) :
    (dnsRequest dns sendto name).code = dnsErrorNameTooLong ↔
      payloadBufferSize - 20 < name.bytes.length := by
  by_cases h : payloadBufferSize - 20 < name.bytes.length
  · refine ⟨fun _ => h, fun _ => ?_⟩
    simp only [dnsRequest, if_pos h]
  · refine ⟨fun hcode => ?_, fun hlt => absurd hlt h⟩
    have hne : dnsErrorSendtoFailed ≠ dnsErrorNameTooLong ∧ 0 ≠ dnsErrorNameTooLong := by decide
    simp only [dnsRequest, if_neg h] at hcode
    split at hcode
    · exact absurd hcode hne.1
    · exact absurd hcode hne.2

/-! ## Names on the wire -/

/-- One label: a length from 1 to 63 and that many bytes. -/
def readLabel : List UInt8 → Option (Label × List UInt8)
  | [] => none
  | b :: rest =>
    if h : 1 ≤ b.toNat ∧ b.toNat ≤ 63 ∧ b.toNat ≤ rest.length then
      some (⟨rest.take b.toNat, by rw [List.length_take_of_le h.2.2]; exact h.1,
        by rw [List.length_take_of_le h.2.2]; exact h.2.1⟩, rest.drop b.toNat)
    else none

/-- A length byte and as many bytes are a label. -/
theorem readLabel_of_length {b : UInt8} {l : Label} {rest : List UInt8}
    (hb : b.toNat = l.bytes.length) : readLabel (b :: (l.bytes ++ rest)) = some (l, rest) := by
  have hcond : 1 ≤ b.toNat ∧ b.toNat ≤ 63 ∧ b.toNat ≤ (l.bytes ++ rest).length := by
    rw [hb, List.length_append]
    exact ⟨l.nonempty, l.short, Nat.le_add_right _ _⟩
  rw [readLabel, dif_pos hcond]
  simp only [hb, List.take_left, List.drop_left]

/-- Labels up to the first zero length, `fuel` bounding their number. -/
def readLabels : Nat → List UInt8 → Option (List Label × List UInt8)
  | 0, _ => none
  | fuel + 1, q =>
    if q.head? = some 0 then some ([], q.tail)
    else
      (readLabel q).bind fun l => (readLabels fuel l.2).map fun ls => (l.1 :: ls.1, ls.2)

/-- A name as RFC 1035 reads it, without pointers, and what follows it. -/
def readName (q : List UInt8) : Option (List Label × List UInt8) := readLabels q.length q

/-- A label that is written is read. -/
theorem readLabel_encode (l : Label) (rest : List UInt8) :
    readLabel (l.encode ++ rest) = some (l, rest) := by
  have hshort := l.short
  have hb : (UInt8.ofNat l.bytes.length).toNat = l.bytes.length := by
    rw [UInt8.toNat_ofNat']
    omega
  exact readLabel_of_length hb

/-- **Round trip**: labels that were encoded are read back, whatever follows the root. -/
theorem readLabels_encode (ls : List Label) (rest : List UInt8) :
    ∀ fuel, ls.length < fuel → readLabels fuel (labelBytes ls ++ 0 :: rest) = some (ls, rest) := by
  induction ls with
  | nil =>
    intro fuel h
    obtain ⟨n, rfl⟩ : ∃ n, fuel = n + 1 := ⟨fuel - 1, by omega⟩
    rfl
  | cons l ls ih =>
    intro fuel h
    rw [List.length_cons] at h
    obtain ⟨n, rfl⟩ : ∃ n, fuel = n + 1 := ⟨fuel - 1, by omega⟩
    have hbytes : labelBytes (l :: ls) ++ 0 :: rest = l.encode ++ (labelBytes ls ++ 0 :: rest) := by
      rw [labelBytes, List.flatMap_cons, List.append_assoc]
      rfl
    -- a length byte is not zero, so it does not end the name
    have hhead : ¬ (l.encode ++ (labelBytes ls ++ 0 :: rest)).head? = some 0 := by
      have hne := l.nonempty
      have hshort := l.short
      show ¬ some (UInt8.ofNat l.bytes.length) = some 0
      intro h0
      have h1 := congrArg UInt8.toNat (Option.some.inj h0)
      rw [UInt8.toNat_ofNat'] at h1
      have h2 : (0 : UInt8).toNat = 0 := rfl
      omega
    rw [hbytes, readLabels, if_neg hhead, readLabel_encode]
    show (readLabels n (labelBytes ls ++ 0 :: rest)).map _ = _
    rw [ih n (by omega)]
    rfl

/-- A name has no more labels than bytes, which is fuel enough to read it. -/
theorem length_labelBytes_le (ls : List Label) : ls.length ≤ (labelBytes ls).length := by
  induction ls with
  | nil => exact Nat.le_refl 0
  | cons l ls ih =>
    rw [labelBytes, List.flatMap_cons, List.length_append, List.length_cons]
    have hl : 1 ≤ l.encode.length := by
      show 1 ≤ l.bytes.length + 1
      omega
    have htail : (ls.flatMap Label.encode).length = (labelBytes ls).length := rfl
    omega

/-- A name that is written is read, and what is behind it is left. -/
theorem readName_encode (ls : List Label) (rest : List UInt8) :
    readName (labelBytes ls ++ 0 :: rest) = some (ls, rest) := by
  have hle := length_labelBytes_le ls
  refine readLabels_encode ls rest _ ?_
  rw [List.length_append, List.length_cons]
  omega

/-! ## What is sent is a question for the name -/

/-- `q` is one valid question for the labels `parts`, of type A and class IN, closed by its first
    zero byte; and the question loop of `dns_receive` stands behind it, whatever follows. -/
structure Asks (q : List UInt8) (parts : List (List UInt8)) : Prop where
  decodes : ∃ ls, readName q = some (ls, toBe 2 1 ++ toBe 2 1) ∧ ls.map Label.bytes = parts
  closed : StopsAt (· == 0) q 0 (q.length - 5) 0
  skipped : ∀ rest, (skipQuestions (q ++ rest) 1 0).1 = some q.length

/-- Every part of the name fits a label. -/
def CName.Encodable (name : CName) : Prop := ∀ l ∈ name.parts, 1 ≤ l.length ∧ l.length ≤ 63

instance (name : CName) : Decidable name.Encodable :=
  inferInstanceAs (Decidable (∀ l ∈ name.parts, 1 ≤ l.length ∧ l.length ≤ 63))

/-- Parts that fit labels are labels. -/
theorem exists_labels {parts : List (List UInt8)}
    (h : ∀ l ∈ parts, 1 ≤ l.length ∧ l.length ≤ 63) : ∃ ls : List Label, ls.map Label.bytes = parts := by
  induction parts with
  | nil => exact ⟨[], rfl⟩
  | cons l parts ih =>
    obtain ⟨ls, hls⟩ := ih fun l' hl' => h l' (List.mem_cons_of_mem _ hl')
    have hl := h l List.mem_cons_self
    exact ⟨⟨l, hl.1, hl.2⟩ :: ls, by rw [List.map_cons, hls]⟩

/-- Parts that are labels are written as labels: their length fits into the byte. -/
theorem rawBytes_map (ls : List Label) : rawBytes (ls.map Label.bytes) = labelBytes ls := by
  rw [rawBytes, labelBytes, List.flatMap_map]
  rfl

/-- No part of a name holds a byte that the name does not. -/
theorem mem_splitOn {b c : UInt8} {l cs : List UInt8} (hl : l ∈ cs.splitOn c) (hb : b ∈ l) :
    b ∈ cs := by
  have hcs : [c].intercalate (cs.splitOn c) = cs := List.intercalate_splitOn c
  rw [← hcs, List.intercalate]
  obtain ⟨i, hi⟩ := List.getElem?_of_mem hl
  have hmem : l ∈ (cs.splitOn c).intersperse [c] :=
    List.mem_of_getElem? (List.getElem?_intersperse_two_mul.trans hi)
  exact List.mem_flatten.mpr ⟨l, hmem, hb⟩

/-- The labels of a name hold no zero byte. -/
theorem zeroFree_of_parts {name : CName} {ls : List Label}
    (h : ls.map Label.bytes = name.parts) : ZeroFree ls := by
  intro b hb
  obtain ⟨l, hl, hb⟩ := List.mem_flatMap.mp hb
  rcases List.mem_cons.mp hb with rfl | hb
  · -- a length byte
    have hne := l.nonempty
    have hshort := l.short
    intro h0
    have h1 := congrArg UInt8.toNat h0
    rw [UInt8.toNat_ofNat'] at h1
    have h2 : (0 : UInt8).toNat = 0 := rfl
    omega
  · have hmem : l.bytes ∈ name.parts := h ▸ List.mem_map_of_mem hl
    exact name.noZero b (mem_splitOn hmem hb)

/-- An encodable name is sent as the question for its parts. -/
theorem asks_of_encodable {name : CName} (h : name.Encodable) :
    Asks (rawBytes name.parts ++ trailer) name.parts := by
  obtain ⟨ls, hls⟩ := exists_labels h
  have hq : rawBytes name.parts ++ trailer = questionBytes (some ⟨ls, 1, 1⟩) := by
    rw [← hls, rawBytes_map]
    show _ = labelBytes ls ++ [0] ++ toBe 2 1 ++ toBe 2 1
    rw [List.append_assoc, List.append_assoc]
    rfl
  have hzero := zeroFree_of_parts hls
  refine ⟨⟨ls, ?_, hls⟩, ?_, fun rest => ?_⟩
  · rw [← hls, rawBytes_map]
    exact readName_encode ls _
  · refine ⟨rawBytes name.parts, [0, 1, 0, 1], rfl, ?_, rfl, ?_⟩
    · intro b hb
      rw [← hls, rawBytes_map] at hb
      simpa using hzero b hb
    · rw [List.length_append, Nat.zero_add]
      rfl
  · have hquestions := questions_of_zeroFree (congrArg (fun s => s ++ rest) hq)
      fun q' hq' => by rw [← Option.some.inj hq']; exact hzero
    have hval := (skipQuestions_value nothingBehind 0 hquestions).1
    rw [mem, nothingBehind, List.append_nil, ← hq] at hval
    exact hval

/-- **What `dns_request` sends**: every name it accepts goes out as the question for its parts,
    exactly when it is too long to be accepted or every part has 1 to 63 bytes. -/
theorem dnsRequest_asks_iff (dns : DnsT) (sendto : List UInt8 → UInt32 → Int) (name : CName) :
    ((dnsRequest dns sendto name).code ≠ dnsErrorNameTooLong →
        ∃ message, (dnsRequest dns sendto name).sent = some message ∧
          Asks (questionOf message) name.parts) ↔
      payloadBufferSize - 20 < name.bytes.length ∨ name.Encodable := by
  have hquestion : questionOf (requestHead ++ (rawBytes name.parts ++ trailer)) =
      rawBytes name.parts ++ trailer := List.drop_left' rfl
  constructor
  · intro h
    by_cases hlong : payloadBufferSize - 20 < name.bytes.length
    · exact Or.inl hlong
    · -- the labels read back are labels, and they are the parts
      obtain ⟨message, -, hasks⟩ := h fun hcode => hlong ((dnsRequest_refused_iff _ _ _).mp hcode)
      obtain ⟨ls, -, hls⟩ := hasks.decodes
      refine Or.inr fun l hl => ?_
      rw [← hls] at hl
      obtain ⟨label, -, rfl⟩ := List.mem_map.mp hl
      exact ⟨label.nonempty, label.short⟩
  · rintro (hlong | h) hcode
    · exact absurd ((dnsRequest_refused_iff _ _ _).mpr hlong) hcode
    · have hle : name.bytes.length ≤ payloadBufferSize - 20 :=
        Nat.not_lt.mp fun hlong => hcode ((dnsRequest_refused_iff _ _ _).mpr hlong)
      refine ⟨_, dnsRequest_sent hle dns sendto, ?_⟩
      rw [hquestion]
      exact asks_of_encodable h

/-! ### A name with a trailing dot -/

theorem sample_noZero : ∀ b ∈ ([97, 46] : List UInt8), b ≠ 0 :=
  List.forall_mem_cons.mpr ⟨by decide, List.forall_mem_singleton.mpr (by decide)⟩

/-- The name `a.`: its second part is empty. -/
def dottedName : CName := ⟨[97, 46], sample_noZero⟩

/-- The empty part is sent as a second zero length: the name ends one byte early, and the type
    read behind it is 0. -/
theorem dnsRequest_asks_dotted :
    (dnsRequest (dnsInit 3 0x08080808).2 (fun bytes _ => bytes.length) dottedName).code = 0 ∧
      (dnsRequest (dnsInit 3 0x08080808).2 (fun bytes _ => bytes.length) dottedName).sent =
        some (requestHead ++ [1, 97, 0, 0, 0, 1, 0, 1]) ∧
      ¬ Asks (questionOf (requestHead ++ [1, 97, 0, 0, 0, 1, 0, 1])) dottedName.parts ∧
      (skipQuestions [1, 97, 0, 0, 0, 1, 0, 1] 1 0).1 = some 7 := by
  refine ⟨by decide +kernel, by decide +kernel, fun h => ?_, by decide⟩
  exact absurd (h.skipped []) (by decide)

end Safewrt.Dns
