/-
  Where `dns_request` writes (packages/lifeline/dns.c): every write through its two pointers.

  `Dns.Request` tells what the payload holds in the end.  That alone would not show that a length
  byte was counted up in the right place, or that a write outside did not cancel out; so here the
  log of the writes is compared, offset by offset, with what the name asks for.

  1. **`CName.placed`**: each part of the name with the offset of its length byte, one part behind
     the other.

  2. **`pokes_encodeName`**: the writes in program order.  For each character of a part, the
     length byte of that part goes up by one and the character is stored behind those before it;
     after the last part comes the trailer.  The induction is on the name, and carries the part
     the loop stands in (`partPokes`).

  3. **`dnsRequest_confined`**: for a name that is not refused all of it stays in the payload, no
     length byte is stored over, and what is sent ends where the writes end.  That a length byte is
     never stored over is a count: the stores fill exactly the offsets between the length bytes
     (`covers_encodeName`).
-/
import Safewrt.Dns.Request

namespace Safewrt.Dns

/-! ## The writes, part by part -/

/-- Where a write goes. -/
def Poke.offset : Poke → Nat
  | .store o _ => o
  | .increment o => o

/-- The writes store a byte at the offset. -/
def Stored (ps : List Poke) (offset : Nat) : Prop := ∃ value, Poke.store offset value ∈ ps

/-- The parts with the offsets of their length bytes, the first of them at `offset`. -/
def placeFrom : Nat → List (List UInt8) → List (Nat × List UInt8)
  | _, [] => []
  | offset, l :: ls => (offset, l) :: placeFrom (offset + 1 + l.length) ls

/-- The parts of the name with the offsets of their length bytes. -/
def CName.placed (name : CName) : List (Nat × List UInt8) := placeFrom 0 name.parts

/-- Characters that are counted at `lengthByte` and stored from `offset` on. -/
def charPokes (lengthByte : Nat) : Nat → List UInt8 → List Poke
  | _, [] => []
  | offset, c :: l =>
    .increment lengthByte :: .store offset c :: charPokes lengthByte (offset + 1) l

/-- A part: its characters follow its length byte. -/
def labelPokes (p : Nat × List UInt8) : List Poke := charPokes p.1 (p.1 + 1) p.2

/-- Bytes that are stored from `offset` on. -/
def storePokes : Nat → List UInt8 → List Poke
  | _, [] => []
  | offset, b :: bs => .store offset b :: storePokes (offset + 1) bs

/-! ## The encoder makes these writes -/

/-- What the loop still writes where it stands in a part, its length byte at `lengthByte` and its
    next character at `offset`. -/
def partPokes (lengthByte offset : Nat) : List (List UInt8) → List Poke
  | [] => []
  | l :: ls => charPokes lengthByte offset l ++ (placeFrom (offset + l.length) ls).flatMap labelPokes

/-- A dot ends the part: the byte at the cursor is the next length byte. -/
theorem partPokes_dot (lengthByte offset : Nat) (ls : List (List UInt8)) (h : ls ≠ []) :
    partPokes lengthByte offset ([] :: ls) = partPokes offset (offset + 1) ls := by
  cases ls with
  | nil => exact absurd rfl h
  | cons l ls => rfl

/-- One character more in the part the loop stands in: two writes, then the rest one byte further
    on. -/
theorem partPokes_char (lengthByte offset : Nat) (c : UInt8) (ls : List (List UInt8)) (h : ls ≠ []) :
    partPokes lengthByte offset (ls.modifyHead (c :: ·)) =
      .increment lengthByte :: .store offset c :: partPokes lengthByte (offset + 1) ls := by
  cases ls with
  | nil => exact absurd rfl h
  | cons l ls =>
    have hnext : offset + (c :: l).length = offset + 1 + l.length := by
      rw [List.length_cons]
      omega
    show charPokes lengthByte offset (c :: l) ++
      (placeFrom (offset + (c :: l).length) ls).flatMap labelPokes = _
    rw [hnext]
    rfl

/-- Every character of the name moves `datap` by one, a dot too. -/
theorem datap_step (e : Encoder) (c : UInt8) : (e.step c).datap = e.datap + 1 := by
  unfold Encoder.step
  split <;> rfl

/-- A whole name moves it by its length. -/
theorem datap_run (cs : List UInt8) :
    ∀ e : Encoder, (cs.foldl Encoder.step e).datap = e.datap + cs.length := by
  induction cs with
  | nil => exact fun _ => rfl
  | cons c cs ih =>
    intro e
    rw [List.foldl_cons, ih, datap_step, List.length_cons]
    omega

/-- **The loop over the name**, from any state it can be in. -/
theorem pokes_run (cs : List UInt8) : ∀ e : Encoder, (cs.foldl Encoder.step e).pokes =
    e.pokes ++ partPokes e.labelLength e.datap (cs.splitOn dot) := by
  induction cs with
  | nil =>
    intro e
    rw [List.splitOn_nil]
    exact (List.append_nil _).symm
  | cons c cs ih =>
    intro e
    have hne : cs.splitOn dot ≠ [] := List.splitOn_ne_nil dot cs
    rw [List.foldl_cons, ih, List.splitOn_cons_eq_if_modifyHead]
    by_cases hc : c = dot
    · rw [if_pos (by simpa using hc), partPokes_dot _ _ _ hne, Encoder.step, if_pos hc]
    · rw [if_neg (by simpa using hc), partPokes_char _ _ _ _ hne, Encoder.step, if_neg hc]
      show e.pokes ++ [.increment e.labelLength] ++ [.store e.datap c] ++ _ = _
      rw [List.append_assoc, List.append_assoc]
      rfl

/-- The trailer is stored byte by byte. -/
theorem putAll_eq (bs : List UInt8) : ∀ e : Encoder,
    (bs.foldl Encoder.put e).pokes = e.pokes ++ storePokes e.datap bs ∧
      (bs.foldl Encoder.put e).datap = e.datap + bs.length := by
  induction bs with
  | nil => exact fun e => ⟨(List.append_nil _).symm, rfl⟩
  | cons b bs ih =>
    intro e
    obtain ⟨hpokes, hdatap⟩ := ih (e.put b)
    constructor
    · rw [List.foldl_cons, hpokes]
      show e.pokes ++ [.store e.datap b] ++ storePokes (e.datap + 1) bs = _
      rw [List.append_assoc]
      rfl
    · rw [List.foldl_cons, hdatap, List.length_cons]
      show e.datap + 1 + bs.length = _
      omega

/-- From the start, the writes are those of the parts as they are placed. -/
theorem partPokes_start (ls : List (List UInt8)) :
    partPokes 0 1 ls = (placeFrom 0 ls).flatMap labelPokes := by
  cases ls with
  | nil => rfl
  | cons l ls =>
    show _ = charPokes 0 1 l ++ (placeFrom (0 + 1 + l.length) ls).flatMap labelPokes
    rfl

/-- Where `datap` is when the name and the trailer are written. -/
theorem datap_encodeName (name : CName) :
    (encodeName name).datap = name.bytes.length + 1 + trailer.length := by
  show (trailer.foldl Encoder.put _).datap = _
  rw [(putAll_eq trailer _).2, datap_run]
  show 1 + name.bytes.length + _ = _
  omega

/-- **Every write, in program order.** -/
theorem pokes_encodeName (name : CName) : (encodeName name).pokes =
    name.placed.flatMap labelPokes ++ storePokes (name.bytes.length + 1) trailer := by
  have hpokes : (name.bytes.foldl Encoder.step Encoder.start).pokes =
      name.placed.flatMap labelPokes := by
    rw [pokes_run]
    exact partPokes_start name.parts
  have hdatap : (name.bytes.foldl Encoder.step Encoder.start).datap = name.bytes.length + 1 := by
    rw [datap_run]
    exact Nat.add_comm 1 _
  show (trailer.foldl Encoder.put _).pokes = _
  rw [(putAll_eq trailer _).1, hpokes, hdatap]

/-! ## Length bytes and stored bytes -/

/-- A byte that two pieces of the program store is stored by one of them. -/
theorem stored_append {ps qs : List Poke} {x : Nat} :
    Stored (ps ++ qs) x ↔ Stored ps x ∨ Stored qs x := by
  unfold Stored
  simp only [List.mem_append]
  exact exists_or

theorem stored_cons {p : Poke} {ps : List Poke} {x : Nat} :
    Stored (p :: ps) x ↔ (∃ value, p = .store x value) ∨ Stored ps x := by
  unfold Stored
  simp only [List.mem_cons, exists_or, eq_comm]

/-- Bytes in a row cover just their places. -/
theorem stored_storePokes (bs : List UInt8) : ∀ offset x,
    Stored (storePokes offset bs) x ↔ offset ≤ x ∧ x < offset + bs.length := by
  induction bs with
  | nil => intro offset x; simp [storePokes, Stored]
  | cons b bs ih =>
    intro offset x
    rw [storePokes, stored_cons, ih, List.length_cons]
    simp only [Poke.store.injEq, exists_and_left, exists_eq', and_true]
    omega

/-- The characters of a part cover just theirs; the increments store nothing. -/
theorem stored_charPokes (lengthByte : Nat) (l : List UInt8) : ∀ offset x,
    Stored (charPokes lengthByte offset l) x ↔ offset ≤ x ∧ x < offset + l.length := by
  induction l with
  | nil => intro offset x; simp [charPokes, Stored]
  | cons c l ih =>
    intro offset x
    rw [charPokes, stored_cons, stored_cons, ih, List.length_cons]
    simp only [reduceCtorEq, exists_false, false_or, Poke.store.injEq, exists_and_left, exists_eq',
      and_true]
    omega

/-- A part counts at its own length byte and nowhere else. -/
theorem increment_charPokes {lengthByte x : Nat} (l : List UInt8) :
    ∀ offset, Poke.increment x ∈ charPokes lengthByte offset l → x = lengthByte := by
  induction l with
  | nil => intro offset h; exact absurd h List.not_mem_nil
  | cons c l ih =>
    intro offset h
    rcases List.mem_cons.mp h with h | h
    · exact Poke.increment.inj h
    · rcases List.mem_cons.mp h with h | h
      · exact absurd h (by simp)
      · exact ih _ h

/-- Storing bytes counts no length byte up. -/
theorem increment_storePokes {x : Nat} (bs : List UInt8) :
    ∀ offset, Poke.increment x ∉ storePokes offset bs := by
  induction bs with
  | nil => exact fun _ => List.not_mem_nil
  | cons b bs ih =>
    intro offset h
    rcases List.mem_cons.mp h with h | h
    · exact absurd h (by simp)
    · exact ih _ h

/-- One more part takes its length byte and its characters. -/
theorem length_rawBytes_cons (l : List UInt8) (ls : List (List UInt8)) :
    (rawBytes (l :: ls)).length = 1 + l.length + (rawBytes ls).length := by
  rw [rawBytes_cons, List.length_append]
  show l.length + 1 + _ = _
  omega

/-- The first part stores its characters behind its length byte. -/
theorem stored_parts_cons {offset x : Nat} {l : List UInt8} {ls : List (List UInt8)} :
    Stored ((placeFrom offset (l :: ls)).flatMap labelPokes) x ↔
      (offset + 1 ≤ x ∧ x < offset + 1 + l.length) ∨
        Stored ((placeFrom (offset + 1 + l.length) ls).flatMap labelPokes) x :=
  stored_append.trans (or_congr_left (stored_charPokes offset l (offset + 1) x))

/-- The first part is placed here, the others behind it. -/
theorem placed_cons {offset x : Nat} {l : List UInt8} {ls : List (List UInt8)} :
    (∃ l', (x, l') ∈ placeFrom offset (l :: ls)) ↔
      x = offset ∨ ∃ l', (x, l') ∈ placeFrom (offset + 1 + l.length) ls := by
  constructor
  · rintro ⟨l', hl'⟩
    rcases List.mem_cons.mp hl' with h | h
    · exact .inl (Prod.mk.inj h).1
    · exact .inr ⟨l', h⟩
  · rintro (rfl | ⟨l', hl'⟩)
    · exact ⟨l, List.mem_cons_self⟩
    · exact ⟨l', List.mem_cons_of_mem _ hl'⟩

/-- **Parts placed from `offset` on fill the bytes they encode to**: each of these is a length byte
    or is stored, and none is both. -/
theorem placed_fill (ls : List (List UInt8)) : ∀ offset x,
    ((offset ≤ x ∧ x < offset + (rawBytes ls).length) ↔
      Stored ((placeFrom offset ls).flatMap labelPokes) x ∨ ∃ l, (x, l) ∈ placeFrom offset ls) ∧
    ¬ (Stored ((placeFrom offset ls).flatMap labelPokes) x ∧ ∃ l, (x, l) ∈ placeFrom offset ls) := by
  induction ls with
  | nil =>
    intro offset x
    have hnil : (rawBytes []).length = 0 := rfl
    refine ⟨⟨fun h => by omega, ?_⟩, fun h => ?_⟩
    · rintro (⟨v, hv⟩ | ⟨l, hl⟩)
      · exact absurd hv List.not_mem_nil
      · exact absurd hl List.not_mem_nil
    · obtain ⟨v, hv⟩ := h.1
      exact absurd hv List.not_mem_nil
  | cons l ls ih =>
    intro offset x
    obtain ⟨hfill, hboth⟩ := ih (offset + 1 + l.length) x
    have hlen := length_rawBytes_cons l ls
    rw [stored_parts_cons, placed_cons]
    -- the part itself takes the bytes before those of the parts behind it
    by_cases hx : x < offset + 1 + l.length
    · have hbehind := hfill.not.mp fun h => by omega
      rw [not_or] at hbehind
      refine ⟨⟨fun h => ?_, fun h => ?_⟩, fun h => ?_⟩
      · by_cases heq : x = offset
        · exact .inr (.inl heq)
        · exact .inl (.inl (by omega))
      · rcases h with (h | h) | (h | h)
        · omega
        · exact absurd h hbehind.1
        · omega
        · exact absurd h hbehind.2
      · rcases h with ⟨h | h, h' | h'⟩
        · omega
        · exact hbehind.2 h'
        · exact hbehind.1 h
        · exact hbehind.1 h
    · refine ⟨⟨fun h => ?_, fun h => ?_⟩, fun h => ?_⟩
      · rcases hfill.mp (by omega) with h' | h'
        · exact .inl (.inr h')
        · exact .inr (.inr h')
      · have htail : Stored ((placeFrom (offset + 1 + l.length) ls).flatMap labelPokes) x ∨
            ∃ l', (x, l') ∈ placeFrom (offset + 1 + l.length) ls := by
          rcases h with (h | h) | (h | h)
          · omega
          · exact .inl h
          · omega
          · exact .inr h
        have hrange := hfill.mpr htail
        omega
      · rcases h with ⟨h | h, h' | h'⟩
        · omega
        · omega
        · omega
        · exact hboth ⟨h, h'⟩

/-! ## A name that is not refused -/

/-- What `dns_request` writes for a name, and what it sends. -/
structure Confined (name : CName) (message : List UInt8) : Prop where
  /-- each character is counted at the length byte of its own part and stored behind it -/
  writes : (encodeName name).pokes =
    name.placed.flatMap labelPokes ++ storePokes (name.bytes.length + 1) trailer
  /-- every write is inside the payload -/
  inside : ∀ p ∈ (encodeName name).pokes, p.offset < payloadBufferSize
  /-- what is counted up is a length byte, and nothing is ever stored in one -/
  counts : ∀ o, Poke.increment o ∈ (encodeName name).pokes →
    (∃ l, (o, l) ∈ name.placed) ∧ ¬ Stored (encodeName name).pokes o
  /-- the cursor ends behind the length bytes and the stored bytes, with no gap before it -/
  covers : ∀ x, x < (encodeName name).datap ↔
    Stored (encodeName name).pokes x ∨ ∃ l, (x, l) ∈ name.placed
  /-- `len` -/
  length : sizeofDnsPacket - payloadBufferSize + (encodeName name).datap = name.bytes.length + 18
  /-- `len` bytes are sent: the header, and the payload as far as the cursor -/
  message : message = requestHead ++ (encodeName name).payload.take (encodeName name).datap ∧
    message.length = name.bytes.length + 18

/-- The parts of a name that is not refused fill the bytes in front of the trailer. -/
theorem length_rawBytes_parts {name : CName} (h : name.bytes.length ≤ payloadBufferSize - 20) :
    (rawBytes name.parts).length = name.bytes.length + 1 := by
  obtain ⟨room, hroom⟩ := exists_room h
  have hdatap := (encoder_of_name hroom).datap
  rw [datap_encodeName, List.length_append] at hdatap
  omega

/-- Up to `datap` every byte is either stored or the length byte of a part. -/
theorem covers_encodeName {name : CName} (h : name.bytes.length ≤ payloadBufferSize - 20) (x : Nat) :
    x < (encodeName name).datap ↔
      Stored (encodeName name).pokes x ∨ ∃ l, (x, l) ∈ name.placed := by
  have hparts := length_rawBytes_parts h
  have hfill := (placed_fill name.parts 0 x).1
  rw [datap_encodeName, pokes_encodeName, stored_append, stored_storePokes]
  constructor
  · intro hx
    by_cases hlt : x < name.bytes.length + 1
    · rcases hfill.mp ⟨Nat.zero_le x, by omega⟩ with h' | h'
      · exact .inl (.inl h')
      · exact .inr h'
    · exact .inl (.inr ⟨by omega, hx⟩)
  · rintro ((h' | h') | h')
    · have hrange := hfill.mpr (.inl h')
      omega
    · exact h'.2
    · have hrange := hfill.mpr (.inr h')
      omega

/-- Only length bytes are counted up, and no length byte is stored over. -/
theorem counts_encodeName {name : CName} (h : name.bytes.length ≤ payloadBufferSize - 20) {o : Nat}
    (ho : Poke.increment o ∈ (encodeName name).pokes) :
    (∃ l, (o, l) ∈ name.placed) ∧ ¬ Stored (encodeName name).pokes o := by
  have hparts := length_rawBytes_parts h
  obtain ⟨hfill, hboth⟩ := placed_fill name.parts 0 o
  rw [pokes_encodeName] at ho ⊢
  rcases List.mem_append.mp ho with ho | ho
  · obtain ⟨q, hq, hmem⟩ := List.mem_flatMap.mp ho
    obtain rfl : o = q.1 := increment_charPokes q.2 _ hmem
    have hlen : ∃ l, (q.1, l) ∈ name.placed := ⟨q.2, hq⟩
    refine ⟨hlen, fun hstored => ?_⟩
    rcases stored_append.mp hstored with hs | hs
    · exact hboth ⟨hs, hlen⟩
    · -- the trailer comes behind all the parts
      have hrange := hfill.mpr (.inr hlen)
      have htrailer := (stored_storePokes _ _ _).mp hs
      omega
  · exact absurd ho (increment_storePokes _ _)

/-- The bound on the name is what keeps all writes in the payload. -/
theorem inside_encodeName {name : CName} (h : name.bytes.length ≤ payloadBufferSize - 20)
    {p : Poke} (hp : p ∈ (encodeName name).pokes) : p.offset < payloadBufferSize := by
  have hcursor : p.offset < (encodeName name).datap := by
    refine (covers_encodeName h _).mpr ?_
    cases p with
    | store o v => exact .inl ⟨v, hp⟩
    | increment o => exact .inr (counts_encodeName h hp).1
  have h20 : payloadBufferSize = 512 := rfl
  have h5 : trailer.length = 5 := rfl
  rw [datap_encodeName] at hcursor
  omega

/-- **The writes of `dns_request` are confined.**  For every name it does not refuse, each write is
    inside the payload and counts only at the length byte of the current part; and `sendto` gets
    `strlen(name) + 18` bytes, which end where the writes end. -/
theorem dnsRequest_confined (dns : DnsT) (sendto : List UInt8 → UInt32 → Int) (name : CName)
    (h : (dnsRequest dns sendto name).code ≠ dnsErrorNameTooLong) :
    ∃ message, (dnsRequest dns sendto name).sent = some message ∧ Confined name message := by
  have hle : name.bytes.length ≤ payloadBufferSize - 20 :=
    Nat.not_lt.mp fun hlong => h ((dnsRequest_refused_iff _ _ _).mpr hlong)
  have h5 : trailer.length = 5 := rfl
  have hparts := length_rawBytes_parts hle
  obtain ⟨room, hroom⟩ := exists_room hle
  have hw := encoder_of_name hroom
  refine ⟨_, dnsRequest_sent hle dns sendto, pokes_encodeName name,
    fun p hp => inside_encodeName hle hp, fun o ho => counts_encodeName hle ho,
    covers_encodeName hle, ?_, ?_, ?_⟩
  · have h12 : sizeofDnsPacket - payloadBufferSize = 12 := rfl
    rw [h12, datap_encodeName]
    omega
  · rw [hw.datap, hw.payload, List.take_left]
  · have h12 : requestHead.length = 12 := rfl
    rw [List.length_append, List.length_append, hparts]
    omega

/-! ### A name that begins with a dot -/

theorem dotA_noZero : ∀ b ∈ ([46, 97] : List UInt8), b ≠ 0 :=
  List.forall_mem_cons.mpr ⟨by decide, List.forall_mem_singleton.mpr (by decide)⟩

/-- The name `.a`: its first part is empty, so its length byte is never counted up. -/
def dotAName : CName := ⟨[46, 97], dotA_noZero⟩

/-- A part without characters comes first: its length byte is never counted up. -/
theorem dnsRequest_confined_dotA :
    ∃ message, (dnsRequest (dnsInit 3 0x08080808).2 (fun bytes _ => bytes.length) dotAName).sent =
      some message ∧ Confined dotAName message ∧
      (encodeName dotAName).pokes = [.increment 1, .store 2 97, .store 3 0, .store 4 0, .store 5 1,
        .store 6 0, .store 7 1] := by
  obtain ⟨message, hsent, hconfined⟩ :=
    dnsRequest_confined (dnsInit 3 0x08080808).2 (fun bytes _ => bytes.length) dotAName
      (by decide +kernel)
  exact ⟨message, hsent, hconfined, by decide +kernel⟩

end Safewrt.Dns
