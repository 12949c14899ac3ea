/-
  DNS responses as RFC 1035 writes them, and which of their names the resolver can skip.

  This is the specification side of `dns_receive`: a `Response` is the message as a value, and
  `Response.encode` its bytes.  Owner names come in the three encodings the RFC allows (labels
  and a zero byte, a pointer, labels and a pointer); a label holds any bytes.  The sizes of the RFC
  are fields of the types, so that a label of no or of 64 bytes cannot be written down.

  1. **Well-formed packets** — `WellFormed packet limit`: the sections a received packet announces
     are those of a message of the grammar and end by `limit`.  A pointer has to lead back to an
     earlier name (`Expands`, a derivation, so that no chain of pointers goes round), no name is
     longer than 255 bytes with the labels its pointers stand for, and an A record of the internet
     class has four bytes of data.  Nothing of `dns_receive` goes into this definition.

  2. **Names and the name loop** — `dns_receive` does not read labels.  Its name loop looks at
     EVERY byte, length or character, for a zero or for the two top bits.  `SkipSafe` is what a
     name must satisfy for that to end in the right place, and `skipName_ends_iff` shows it is
     exactly that.  The last byte of the labels is a case of its own: a character with the two top
     bits is jumped over together with the byte behind it, which does no harm where that byte is the
     closing zero.

  3. **The cursor on what is encoded** — where the names can be skipped, the cursor rules go over
     encoded questions and answers one by one (`questions_of_zeroFree`, `walks_of_recordsAt`).
-/
import Safewrt.Dns.Framing

namespace Safewrt.Dns

open Safewrt.Lib

/-! ## Messages -/

/-- A label of a name, of 1 to 63 bytes of any kind. -/
structure Label where
  bytes : List UInt8
  nonempty : 1 ≤ bytes.length
  short : bytes.length ≤ 63

/-- The length byte, whose two top bits are therefore clear, and the label. -/
def Label.encode (l : Label) : List UInt8 := UInt8.ofNat l.bytes.length :: l.bytes

/-- How a name ends: with the root label, or with a pointer to an earlier name. -/
inductive NameEnd where
  | root
  | pointer (offset : Fin 16384)

/-- A zero, or two bytes with the two top bits set and the offset in the others. -/
def NameEnd.encode : NameEnd → List UInt8
  | .root => [0]
  | .pointer o => toBe 2 (0xc000 + o)

/-- A name as it is written: labels, then the root or a pointer. -/
structure OwnerName where
  labels : List Label
  ending : NameEnd

/-- The wire bytes of labels, lengths and characters. -/
def labelBytes (ls : List Label) : List UInt8 := ls.flatMap Label.encode

/-- The labels and the ending, without anything between them. -/
def OwnerName.encode (n : OwnerName) : List UInt8 := labelBytes n.labels ++ n.ending.encode

/-- A question; its name is written in full. -/
structure Question where
  labels : List Label
  qtype : UInt16
  qclass : UInt16

/-- The name, the type and the class. -/
def Question.encode (q : Question) : List UInt8 :=
  labelBytes q.labels ++ [0] ++ toBe 2 q.qtype.toNat ++ toBe 2 q.qclass.toNat

/-- A resource record; all that the grammar asks of its data is that its length can be written. -/
structure Answer where
  name : OwnerName
  recordType : UInt16
  recordClass : UInt16
  ttl : UInt32
  rdata : List UInt8
  short : rdata.length < 65536

/-- Type, class, ttl and rdlength of an answer. -/
def Answer.fixed (a : Answer) : List UInt8 :=
  toBe 2 a.recordType.toNat ++ toBe 2 a.recordClass.toNat ++ toBe 4 a.ttl.toNat ++
    toBe 2 a.rdata.length

/-- The owner, the fixed part of ten bytes, the data. -/
def Answer.encode (a : Answer) : List UInt8 := a.name.encode ++ (a.fixed ++ a.rdata)

/-- The header `dns_receive` has to read for this answer. -/
def Answer.header (a : Answer) : Header :=
  ⟨a.recordType.toNat, a.recordClass.toNat, a.ttl.toNat, a.rdata.length⟩

/-- The test of the code, on the fixed part. -/
def Answer.isA (a : Answer) : Bool := a.header.isA

/-- The entry of `records` an A record stands for. -/
def Answer.record (a : Answer) : DnsRecord := ⟨a.ttl, UInt32.ofNat (be a.rdata)⟩

/-- `trailer` is whatever follows the answers: the authority and additional sections. -/
structure Response where
  id : UInt16
  flags : UInt16
  question : Option Question
  answers : List Answer
  authorities : UInt16
  additionals : UInt16
  trailer : List UInt8

/-- One question or none: the section that the sample responses have. -/
def questionBytes (q : Option Question) : List UInt8 := q.elim [] Question.encode

/-- The questions and answers, as they follow the header. -/
def Response.sections (r : Response) : List UInt8 :=
  questionBytes r.question ++ r.answers.flatMap Answer.encode

/-- The six numbers of the header.  The counts are those of the sections. -/
def Response.head (r : Response) : List UInt8 :=
  toBe 2 r.id.toNat ++ toBe 2 r.flags.toNat ++ toBe 2 r.question.toList.length ++
    toBe 2 r.answers.length ++ toBe 2 r.authorities.toNat ++ toBe 2 r.additionals.toNat

/-- What is sent.  The trailer is whatever follows the answers, the other two sections included. -/
def Response.encode (r : Response) : List UInt8 := r.head ++ (r.sections ++ r.trailer)

/-- The `(ttl, address)` pairs of the A records, in packet order. -/
def Response.records (r : Response) : List DnsRecord :=
  (r.answers.filter Answer.isA).map Answer.record

/-- The sections fit the payload, and between one and eight answers are A records. -/
structure Response.Fits (r : Response) : Prop where
  fits : r.sections.length ≤ payloadBufferSize
  nonempty : 1 ≤ r.records.length
  room : r.records.length ≤ recordsLength

/-! ## Well-formed packets -/

/-- The bytes before the payload; pointers count them. -/
def messageHeaderSize : Nat := 12

/-- RFC 1035's bound on a name on the wire, length bytes and root label included. -/
def nameSizeLimit : Nat := 255

/-- The name `n`, standing at offset `o` of the payload, stands for the labels `ls`: its own, and
    behind a pointer those of the name it leads back to.  That one starts earlier, so no chain
    of pointers is endless. -/
inductive Expands (p : List UInt8) : Nat → OwnerName → List Label → Prop
  | root (o : Nat) (ls : List Label) : Expands p o ⟨ls, .root⟩ ls
  | pointer {o o' : Nat} {ls ls' : List Label} {t : Fin 16384} {n : OwnerName}
      {rest : List UInt8} :
      t.val = messageHeaderSize + o' → o' < o → p.drop o' = n.encode ++ rest →
      Expands p o' n ls' → Expands p o ⟨ls, .pointer t⟩ (ls ++ ls')

/-- The labels and the root fit the RFC's bound. -/
def SizedName (ls : List Label) : Prop := (labelBytes ls).length + 1 ≤ nameSizeLimit

/-- The record `a` stands at offset `o` of the payload as the RFC has it.  The rdata of an
    Internet address record is one address; that of any other record is any bytes. -/
structure Answer.At (p : List UInt8) (o : Nat) (a : Answer) : Prop where
  bytes : ∃ rest, p.drop o = a.encode ++ rest
  name : ∃ ls, Expands p o a.name ls ∧ SizedName ls
  address : a.recordType = 1 → a.recordClass = 1 → a.rdata.length = 4

/-- The records `rrs` stand one after the other from offset `o` to `e`. -/
inductive RecordsAt (p : List UInt8) : Nat → List Answer → Nat → Prop
  | nil (o : Nat) : RecordsAt p o [] o
  | cons {o e : Nat} {a : Answer} {rrs : List Answer} :
      a.At p o → RecordsAt p (o + a.encode.length) rrs e → RecordsAt p o (a :: rrs) e

/-- The packet is the message with the questions `qs` and, in its three record sections, the
    records `rrs`, as many of each as it announces, and the last one ends by `limit`. -/
structure IsMessage (packet : DnsPacket) (limit : Nat) (qs : List Question)
    (rrs : List Answer) : Prop where
  questions : ∃ rest, packet.payload = qs.flatMap Question.encode ++ rest
  names : ∀ q ∈ qs, SizedName q.labels
  queries : qs.length = packet.queries
  records : ∃ e, RecordsAt packet.payload (qs.flatMap Question.encode).length rrs e ∧ e ≤ limit
  announced : rrs.length = packet.answers + packet.authorities + packet.additionals

/-- The packet is well formed by the grammar, and whole before `limit` (the received length, or
    the end of the buffer). -/
def WellFormed (packet : DnsPacket) (limit : Nat) : Prop :=
  ∃ qs rrs, IsMessage packet limit qs rrs

/-! ## Which names can be skipped -/

/-- No byte before the last stops the name loop; the last one may, if it is not zero and the
    name ends with the root label (the loop then jumps over that label unseen). -/
def OwnerName.SkipSafe (n : OwnerName) : Prop :=
  (∀ b ∈ (labelBytes n.labels).dropLast, nameStop b = false) ∧
    ∀ b, (labelBytes n.labels).getLast? = some b →
      nameStop b = false ∨ (n.ending = .root ∧ b ≠ 0)

/-- The question loop stops at the first zero, wherever it stands. -/
def ZeroFree (ls : List Label) : Prop := ∀ b ∈ labelBytes ls, b ≠ 0

/-- A response whose question and owner names `dns_receive` can skip. -/
structure Response.Skippable (r : Response) : Prop where
  question : ∀ q, r.question = some q → ZeroFree q.labels
  answers : ∀ a ∈ r.answers, a.name.SkipSafe

/-- A pointer is two bytes, and the name loop stops at the first of them. -/
theorem nameStop_pointer (o : Fin 16384) : ∃ hi lo, NameEnd.encode (.pointer o) = [hi, lo] ∧
    nameStop hi = true ∧ hi ≠ 0 := by
  have hdiv : (0xc000 + o.val) / 256 = 192 + o.val / 256 := by omega
  have hsmall : o.val / 256 < 64 := by omega
  -- the high byte is one of 192 .. 255
  have hbyte : ∀ i : Fin 64, nameStop (UInt8.ofNat (192 + i)) = true ∧
      UInt8.ofNat (192 + i) ≠ 0 := by decide
  refine ⟨UInt8.ofNat (192 + o.val / 256), UInt8.ofNat (0xc000 + o.val), ?_, hbyte ⟨_, hsmall⟩⟩
  show toBe 2 (0xc000 + o.val) = _
  simp only [toBe, pow_one, pow_zero, Nat.div_one, hdiv]

/-- No name is written with no byte. -/
theorem one_le_ending (e : NameEnd) : 1 ≤ e.encode.length := by
  cases e with
  | root => exact Nat.le_refl 1
  | pointer o =>
    rw [NameEnd.encode, length_toBe]
    omega

/-- The first byte of a name's ending stops the name loop, and the cursor then stands behind
    the ending. -/
theorem stopsAt_ending {pre rest : List UInt8} {e : NameEnd} {m : List UInt8} {c : Nat}
    (hm : m.drop c = pre ++ (e.encode ++ rest)) (hpre : ∀ x ∈ pre, nameStop x = false) :
    NameEnds m c (c + pre.length + e.encode.length) := by
  cases e with
  | root => exact ⟨c + pre.length, 0, ⟨pre, rest, hm, hpre, rfl, rfl⟩, rfl⟩
  | pointer o =>
    obtain ⟨hi, lo, henc, hstop, hne⟩ := nameStop_pointer o
    rw [henc] at hm ⊢
    refine ⟨c + pre.length, hi, ⟨pre, lo :: rest, hm, hpre, hstop, rfl⟩, ?_⟩
    rw [afterName, if_neg (by simpa using hne)]
    rfl

/-- Only one byte is the first to stop a scan. -/
theorem StopsAt.unique {stop : UInt8 → Bool} {p : List UInt8} {o z z' : Nat} {b b' : UInt8}
    (h : StopsAt stop p o z b) (h' : StopsAt stop p o z' b') : z = z' ∧ b = b' := by
  have heq := (scan_of_stopsAt (b := []) h).symm.trans (scan_of_stopsAt h')
  simp only [Prod.mk.injEq, Option.some.injEq] at heq
  exact ⟨heq.1.1, heq.1.2⟩

/-- **The name loop on a name of the wire**: it ends behind the name exactly when the name is
    `SkipSafe`. -/
theorem skipName_ends_iff {n : OwnerName} {m rest : List UInt8} {c : Nat}
    (hm : m.drop c = n.encode ++ rest) :
    NameEnds m c (c + n.encode.length) ↔ n.SkipSafe := by
  have hlen : n.encode.length = (labelBytes n.labels).length + n.ending.encode.length := by
    rw [OwnerName.encode, List.length_append]
  have hend := one_le_ending n.ending
  rw [OwnerName.encode, List.append_assoc] at hm
  rcases exists_stop_or_not nameStop (labelBytes n.labels) with ⟨pre, b, post, hw, hpre, hb⟩ | hall
  · -- the loop stops at `b`, inside the labels
    have hstop : StopsAt nameStop m c (c + pre.length) b :=
      ⟨pre, post ++ (n.ending.encode ++ rest), by rw [hm, hw]; simp, hpre, hb, rfl⟩
    have hwlen : (labelBytes n.labels).length = pre.length + (post.length + 1) := by
      rw [hw, List.length_append, List.length_cons]
    constructor
    · rintro ⟨z, b', hz, he⟩
      obtain ⟨rfl, rfl⟩ := StopsAt.unique hz hstop
      -- to come out behind the name, `b` and the byte behind it have to be its last two
      have hroot : b' ≠ 0 ∧ post = [] ∧ n.ending.encode.length = 1 := by
        by_cases h0 : b' = 0
        · subst h0
          have he' : c + n.encode.length = c + pre.length + 1 := he
          omega
        · rw [afterName, if_neg (by simpa using h0)] at he
          exact ⟨h0, List.length_eq_zero_iff.mp (by omega), by omega⟩
      obtain ⟨hne, rfl, hone⟩ := hroot
      have hending : n.ending = .root := by
        cases hcase : n.ending with
        | root => rfl
        | pointer o => rw [hcase, NameEnd.encode, length_toBe] at hone; omega
      refine ⟨?_, fun x hx => Or.inr ⟨hending, ?_⟩⟩
      · rw [hw, List.dropLast_concat]; exact hpre
      · rw [hw, List.getLast?_concat, Option.some.injEq] at hx
        rw [← hx]; exact hne
    · rintro ⟨hinit, hlast⟩
      -- only the last byte of the labels may stop the loop
      have hpost : post = [] := by
        by_contra hne
        have hmem : b ∈ (labelBytes n.labels).dropLast := by
          rw [hw, List.dropLast_append_of_ne_nil (by simp), List.dropLast_cons_of_ne_nil hne]
          simp
        rw [hinit b hmem] at hb
        exact absurd hb (by simp)
      subst hpost
      have hb' := hlast b (by rw [hw, List.getLast?_concat])
      rw [hb] at hb'
      obtain ⟨hending, hne⟩ := hb'.resolve_left (by simp)
      refine ⟨c + pre.length, b, hstop, ?_⟩
      have hone : n.ending.encode.length = 1 := by rw [hending]; rfl
      rw [List.length_nil] at hwlen
      rw [afterName, if_neg (by simpa using hne)]
      omega
  · -- nothing in the labels stops it
    have hends := stopsAt_ending hm hall
    rw [Nat.add_assoc, ← hlen] at hends
    refine ⟨fun _ => ⟨fun b hb => hall b (List.dropLast_subset _ hb), fun b hb => Or.inl ?_⟩,
      fun _ => hends⟩
    exact hall b (List.mem_of_getLast? hb)

/-! ## The cursor on what is encoded -/

/-- What `dns_receive` reads in the fixed part is what was written there. -/
theorem decode_fixed (a : Answer) : Header.decode a.fixed = a.header := by
  have htype : be (toBe 2 a.recordType.toNat) = a.recordType.toNat :=
    be_toBe_of_lt a.recordType.toNat_lt
  have hclass : be (toBe 2 a.recordClass.toNat) = a.recordClass.toNat :=
    be_toBe_of_lt a.recordClass.toNat_lt
  have httl : be (toBe 4 a.ttl.toNat) = a.ttl.toNat := be_toBe_of_lt a.ttl.toNat_lt
  have hlen : be (toBe 2 a.rdata.length) = a.rdata.length := be_toBe_of_lt a.short
  show (⟨be (toBe 2 a.recordType.toNat), be (toBe 2 a.recordClass.toNat), be (toBe 4 a.ttl.toNat),
    be (toBe 2 a.rdata.length)⟩ : Header) = a.header
  rw [htype, hclass, httl, hlen]
  rfl

theorem length_fixed (a : Answer) : a.fixed.length = headerSize := by
  simp only [Answer.fixed, List.length_append, length_toBe]
  rfl

/-- Dropping up to the end of a known part. -/
theorem drop_add_of_append {m x y : List UInt8} {c : Nat} (h : m.drop c = x ++ y) :
    m.drop (c + x.length) = y := by
  rw [← List.drop_drop, h, List.drop_left]

/-- A piece that is found at an offset lies in the memory. -/
theorem le_length_of_drop {m x y : List UInt8} {c : Nat} (h : m.drop c = x ++ y)
    (hx : 1 ≤ x.length) : c + x.length ≤ m.length := by
  have := congrArg List.length h
  rw [List.length_drop, List.length_append] at this
  omega

/-- The header of a record that is written at an offset is read there. -/
theorem headerAt_of_drop {p rest : List UInt8} {e : Nat} {a : Answer}
    (h : p.drop e = a.fixed ++ rest) : HeaderAt p e a.header := by
  refine ⟨length_fixed a ▸ le_length_of_drop h (by rw [length_fixed]; decide), ?_⟩
  rw [h, ← length_fixed a, List.take_left, decode_fixed]

/-- **An answer whose name can be skipped**: the cursor rules read its parts and stop behind it. -/
theorem cursor_of_skipSafe {p rest : List UInt8} {c : Nat} {a : Answer}
    (h : p.drop c = a.encode ++ rest) (hsafe : a.name.SkipSafe) :
    NameEnds p c (c + a.name.encode.length) ∧ HeaderAt p (c + a.name.encode.length) a.header ∧
      p.drop (c + a.name.encode.length + headerSize) = a.rdata ++ rest ∧
      c + a.name.encode.length + headerSize + a.header.rdlength = c + a.encode.length := by
  have hname : p.drop c = a.name.encode ++ (a.fixed ++ (a.rdata ++ rest)) := by
    rw [h, Answer.encode]
    simp only [List.append_assoc]
  have hfixed := drop_add_of_append hname
  have hdata := drop_add_of_append hfixed
  rw [length_fixed] at hdata
  refine ⟨(skipName_ends_iff hname).mpr hsafe, headerAt_of_drop hfixed, hdata, ?_⟩
  rw [Answer.encode, List.length_append, List.length_append, length_fixed]
  show c + a.name.encode.length + headerSize + a.rdata.length = _
  omega

/-- The rdata of an A record is four bytes, and they are in the payload. -/
theorem isA_rdata {a : Answer} (hA : a.isA = true) : a.rdata.length = 4 := by
  simp only [Answer.isA, Header.isA, Bool.and_eq_true, beq_iff_eq] at hA
  exact hA.2

/-- An A record has its four bytes of address in the packet. -/
theorem isA_inside {p rest : List UInt8} {o : Nat} {a : Answer} (hA : a.isA = true)
    (h : p.drop o = a.rdata ++ rest) : o + 4 ≤ p.length := by
  have h4 := isA_rdata hA
  exact h4 ▸ le_length_of_drop h (by omega)

/-- Records whose names can be skipped are walked over one by one. -/
theorem walks_of_recordsAt {p : List UInt8} {c e : Nat} {rrs : List Answer}
    (h : RecordsAt p c rrs e) (hsafe : ∀ a ∈ rrs, a.name.SkipSafe) :
    Walks p c (rrs.map Answer.header) e := by
  induction h with
  | nil c => exact Walks.nil c
  | @cons c e a rrs hat _ ih =>
    obtain ⟨rest, hdrop⟩ := hat.bytes
    obtain ⟨hends, hhead, hdata, hcursor⟩ :=
      cursor_of_skipSafe hdrop (hsafe a List.mem_cons_self)
    have hnext := ih fun x hx => hsafe x (List.mem_cons_of_mem _ hx)
    rw [← hcursor] at hnext
    exact Walks.cons hends hhead (fun hA => isA_inside hA hdata) hnext

/-- The first records of a section form a section. -/
theorem RecordsAt.take {p : List UInt8} {c e : Nat} {rrs : List Answer}
    (h : RecordsAt p c rrs e) : ∀ n, ∃ e', RecordsAt p c (rrs.take n) e' := by
  induction h with
  | nil c => exact fun n => ⟨c, by rw [List.take_nil]; exact RecordsAt.nil c⟩
  | @cons c e a rrs hat _ ih =>
    intro n
    cases n with
    | zero => exact ⟨c, RecordsAt.nil c⟩
    | succ n =>
      obtain ⟨e', he'⟩ := ih n
      exact ⟨e', RecordsAt.cons hat he'⟩

/-- Questions whose labels hold no zero are passed one by one. -/
theorem questions_of_flatMap {p : List UInt8} (qs : List Question) :
    ∀ c rest, p.drop c = qs.flatMap Question.encode ++ rest → (∀ q ∈ qs, ZeroFree q.labels) →
      Questions p qs.length c (c + (qs.flatMap Question.encode).length) := by
  induction qs with
  | nil => exact fun c _ _ _ => Questions.nil c
  | cons q qs ih =>
    intro c rest hdrop hz
    rw [List.flatMap_cons, List.append_assoc] at hdrop
    have hlen : q.encode.length = (labelBytes q.labels).length + 5 := by
      simp only [Question.encode, List.length_append, length_toBe, List.length_singleton]
    have hstop : StopsAt (· == 0) p c (c + (labelBytes q.labels).length) 0 := by
      refine ⟨labelBytes q.labels, toBe 2 q.qtype.toNat ++ toBe 2 q.qclass.toNat ++
        (qs.flatMap Question.encode ++ rest), ?_, ?_, rfl, rfl⟩
      · rw [hdrop, Question.encode]
        simp only [List.append_assoc, List.cons_append, List.nil_append]
      · intro b hb
        simpa using hz q List.mem_cons_self b hb
    have hnext := ih (c + q.encode.length) rest (drop_add_of_append hdrop)
      fun x hx => hz x (List.mem_cons_of_mem _ hx)
    rw [List.flatMap_cons, List.length_append, ← Nat.add_assoc]
    rw [hlen, ← Nat.add_assoc] at hnext ⊢
    exact Questions.cons hstop hnext

/-- The question loop stands behind the question when its labels hold no zero. -/
theorem questions_of_zeroFree {q : Option Question} {p rest : List UInt8}
    (hp : p = questionBytes q ++ rest) (hz : ∀ q', q = some q' → ZeroFree q'.labels) :
    Questions p q.toList.length 0 (questionBytes q).length := by
  have hlist : questionBytes q = q.toList.flatMap Question.encode := by
    cases q with
    | none => rfl
    | some q => exact (List.flatMap_singleton _ _).symm
  have hdrop : p.drop 0 = q.toList.flatMap Question.encode ++ rest := by
    rw [List.drop_zero, hp, hlist]
  have hq := questions_of_flatMap q.toList 0 rest hdrop
    fun q' hq' => hz q' (Option.mem_toList.mp hq')
  rw [Nat.zero_add, ← hlist] at hq
  exact hq

end Safewrt.Dns
