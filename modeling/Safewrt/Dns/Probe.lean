/-
  `dns_receive` decodes no other names than those it can skip.

  To show that a name is misread one needs a response on which the misreading shows.  Whatever the
  other records are, the bytes in them may by chance stand in for those that were jumped over; so
  the answers are replaced by probes, A records whose ttl and address are all one byte.

  1. A response of A records alone leaves the loop no turn to spare: `n` turns store into `n`
     entries, so the turn on every name has to store that name's record.  Later turns leave it
     alone (`answerLoop_index`).

  2. A name that is not `SkipSafe` leaves the cursor before the fixed part of its record, and the
     four bytes then taken for the ttl cannot be the ttl of two probes that differ only there
     (`no_misread`).  The same for a question with a zero in a label.

  3. The names in front of the first bad one are walked over as usual, so the loop stands at it with
     as many turns as names are left (`AtName`, `atName_of_skipSafe`); the induction is on the names
     in front.

  4. `dnsReceive_decodes`: which responses are decoded, by their names.  A response whose names can
     be skipped is; and of one with a name that cannot, where the payload has room for a probe under
     each name, some response with the same names is not.
-/
import Safewrt.Dns.Decode

namespace Safewrt.Dns

open Safewrt.Lib

/-! ## Stores stay where they are put

  Later turns store at later indices, so what a turn has stored is there in the end. -/

/-- `n` turns from `k` on store into `n` entries from `k` on. -/
theorem answerLoop_index (p : List UInt8) (bh : Behind) (n : Nat) :
    ∀ c k, ∀ s ∈ (answerLoop p bh n c k).stores, k ≤ s.index ∧ s.index < k + n := by
  induction n with
  | zero =>
    intro c k s hs
    exact absurd hs List.not_mem_nil
  | succ n ih =>
    intro c k s hs
    have hhere : ∀ t v a, t ∈ [Store.ttl k v, Store.address k a] → t.index = k := by
      intro t v a ht
      rcases List.mem_cons.mp ht with rfl | ht
      · rfl
      · rw [List.mem_singleton.mp ht]
        rfl
    -- each way out of the turn: its own stores go to `k`, those of later turns behind it
    simp only [answerLoop] at hs
    split at hs
    · exact absurd hs List.not_mem_nil
    · split at hs
      · exact absurd hs List.not_mem_nil
      · split at hs
        · split at hs
          · rw [List.mem_singleton.mp hs]
            exact ⟨Nat.le_refl k, by show k < _; omega⟩
          · split at hs
            · rw [hhere s _ _ hs]
              omega
            · rw [Walk.after_stores] at hs
              rcases List.mem_append.mp hs with hs | hs
              · rw [hhere s _ _ hs]
                omega
              · have := ih _ _ s hs
                omega
        · rw [Walk.after_stores] at hs
          have := ih _ _ s hs
          omega

/-- Stores elsewhere leave an entry as it is. -/
theorem foldl_apply_of_ne {i : Nat} (ss : List Store) (hss : ∀ s ∈ ss, s.index ≠ i) :
    ∀ records : List DnsRecord, (ss.foldl Store.apply records)[i]? = records[i]? := by
  induction ss with
  | nil =>
    intro records
    rfl
  | cons s ss ih =>
    intro records
    have hs : s.index ≠ i := hss s List.mem_cons_self
    rw [List.foldl_cons, ih fun t ht => hss t (List.mem_cons_of_mem _ ht)]
    cases s with
    | ttl j v => exact List.getElem?_modify_ne _ _ hs
    | address j v => exact List.getElem?_modify_ne _ _ hs

/-- What a record's two stores leave in its entry, when the others are elsewhere. -/
theorem foldl_apply_record {i : Nat} {x y : UInt32} {ss ss' : List Store}
    {records : List DnsRecord} (hss : ∀ s ∈ ss, s.index ≠ i) (hss' : ∀ s ∈ ss', s.index ≠ i)
    (hi : i < records.length) :
    ((ss ++ ([Store.ttl i x, Store.address i y] ++ ss')).foldl Store.apply records)[i]? =
      some ⟨x, y⟩ := by
  have hget : (ss.foldl Store.apply records)[i]? = some records[i] := by
    rw [foldl_apply_of_ne ss hss]
    exact List.getElem?_eq_getElem hi
  rw [List.foldl_append, List.foldl_append, foldl_apply_of_ne ss' hss']
  show (((ss.foldl Store.apply records).modify i _).modify i _)[i]? = _
  rw [List.getElem?_modify_eq, List.getElem?_modify_eq, hget]
  rfl

/-! ## Names that cannot be skipped

  Two probes that differ in nothing but their ttl and address bytes.  A cursor that stops too early
  or too late sees bytes of the name, or of the fixed part, where these should be. -/

/-- The A record of `n` whose ttl and address are the byte `v`, four times. -/
def probe (n : OwnerName) (v : UInt8) : Answer :=
  ⟨n, 1, 1, UInt32.ofNat (be [v, v, v, v]), [v, v, v, v], by show 4 < 65536; decide⟩

/-- The response to `q` with an A record for each name; that of `n` is a probe, the others hold
    ones. -/
def probeResponse (q : Option Question) (pre : List OwnerName) (n : OwnerName)
    (post : List OwnerName) (v : UInt8) : Response :=
  ⟨0x1337, 0x8180, q, pre.map (probe · 1) ++ probe n v :: post.map (probe · 1), 0, 0, []⟩

/-- An A record for each of at most eight names fits the payload. -/
structure Room (q : Option Question) (names : List OwnerName) : Prop where
  count : names.length ≤ recordsLength
  fits : (questionBytes q).length + (names.map fun n => n.encode.length + 14).sum ≤
    payloadBufferSize

/-- What a probe puts into `records`. -/
def probeRecord (v : UInt8) : DnsRecord :=
  ⟨UInt32.ofNat (be [v, v, v, v]), UInt32.ofNat (be [v, v, v, v])⟩

/-- Four equal bytes as a ttl, which no truncation changes. -/
theorem probe_ttl (v : UInt8) : (UInt32.ofNat (be [v, v, v, v])).toNat = be [v, v, v, v] :=
  UInt32.toNat_ofNat_of_lt' (Nat.lt_of_lt_of_le (be_lt [v, v, v, v]) (Nat.le_refl (256 ^ 4)))

/-- A probe on the wire: only its ttl and its address hold `v`. -/
theorem probe_encode (n : OwnerName) (v : UInt8) : (probe n v).encode =
    n.encode ++ ([0, 1, 0, 1, v, v, v, v, 0, 4] ++ [v, v, v, v]) := by
  have httl : toBe 4 (UInt32.ofNat (be [v, v, v, v])).toNat = [v, v, v, v] := by
    rw [probe_ttl]
    exact toBe_be [v, v, v, v]
  show n.encode ++ (toBe 2 1 ++ toBe 2 1 ++ toBe 4 (UInt32.ofNat (be [v, v, v, v])).toNat ++
    toBe 2 4 ++ [v, v, v, v]) = _
  rw [httl]
  rfl

/-- How long the probes of some names are. -/
theorem length_probes (names : List OwnerName) (v : UInt8) :
    ((names.map (probe · v)).flatMap Answer.encode).length =
      (names.map fun n => n.encode.length + 14).sum := by
  induction names with
  | nil => rfl
  | cons n names ih =>
    rw [List.map_cons, List.flatMap_cons, List.length_append, ih, probe_encode, List.length_append,
      List.map_cons, List.sum_cons]
    rfl

/-- Probes are A records, all of them. -/
theorem filter_probes (names : List OwnerName) (v : UInt8) :
    (names.map (probe · v)).filter Answer.isA = names.map (probe · v) := by
  rw [List.filter_eq_self]
  intro a ha
  obtain ⟨n, -, rfl⟩ := List.mem_map.mp ha
  rfl

/-- Each of them is to be decoded to the same entry. -/
theorem map_record_probes (names : List OwnerName) (v : UInt8) :
    (names.map (probe · v)).map Answer.record = List.replicate names.length (probeRecord v) := by
  rw [List.map_map, ← List.map_const']
  rfl

/-- What a decoder has to find in the response. -/
theorem probe_records (q : Option Question) (pre post : List OwnerName) (n : OwnerName)
    (v : UInt8) : (probeResponse q pre n post v).records =
      List.replicate pre.length (probeRecord 1) ++
        probeRecord v :: List.replicate post.length (probeRecord 1) := by
  have hA : (probe n v).isA = true := rfl
  rw [Response.records]
  show ((pre.map (probe · 1) ++ probe n v :: post.map (probe · 1)).filter Answer.isA).map
    Answer.record = _
  rw [List.filter_append, List.filter_cons_of_pos hA, filter_probes, filter_probes,
    List.map_append, List.map_cons, map_record_probes, map_record_probes]
  rfl

/-- The bytes of the sections, cut at the name that is probed. -/
theorem probe_sections (q : Option Question) (pre post : List OwnerName) (n : OwnerName)
    (v : UInt8) : (probeResponse q pre n post v).sections =
      questionBytes q ++ ((pre.map (probe · 1)).flatMap Answer.encode ++ (n.encode ++
        ([0, 1, 0, 1, v, v, v, v, 0, 4] ++ ([v, v, v, v] ++
          (post.map (probe · 1)).flatMap Answer.encode)))) := by
  rw [Response.sections]
  show questionBytes q ++
    (pre.map (probe · 1) ++ probe n v :: post.map (probe · 1)).flatMap Answer.encode = _
  rw [List.flatMap_append, List.flatMap_cons, probe_encode]
  simp only [List.append_assoc]

/-- With room for all names the response fits, whatever `v` is. -/
theorem probe_fits {q : Option Question} {pre post : List OwnerName} {n : OwnerName}
    (h : Room q (pre ++ n :: post)) (v : UInt8) : (probeResponse q pre n post v).Fits := by
  have hcount := h.count
  have hfits := h.fits
  rw [List.length_append, List.length_cons] at hcount
  rw [List.map_append, List.sum_append, List.map_cons, List.sum_cons] at hfits
  have hrecords : (probeResponse q pre n post v).records.length =
      pre.length + (post.length + 1) := by
    rw [probe_records, List.length_append, List.length_cons, List.length_replicate,
      List.length_replicate]
  refine ⟨?_, by omega, by omega⟩
  rw [probe_sections]
  simp only [List.length_append, List.length_cons, List.length_nil, length_probes]
  omega

/-- The bytes a misplaced header takes for the ttl. -/
theorem ttl_bytes {p : List UInt8} {e : Nat} {v : UInt8} (hin : e + headerSize ≤ p.length)
    (h : (Header.decode ((p.drop e).take headerSize)).ttl = be [v, v, v, v]) :
    ∀ j, j < 4 → p[e + 4 + j]? = some v := by
  have hten : headerSize = 10 := rfl
  have htake : (((p.drop e).take headerSize).drop 4).take 4 = (p.drop (e + 4)).take 4 := by
    rw [hten, List.drop_take, List.take_take, List.drop_drop]
    rfl
  have hlen : ((p.drop (e + 4)).take 4).length = [v, v, v, v].length := by
    rw [List.length_take, List.length_drop]
    show min 4 _ = 4
    omega
  -- equal numbers of four bytes are equal bytes
  have hbytes : (p.drop (e + 4)).take 4 = [v, v, v, v] := by
    apply be_inj hlen
    rw [← h, ← htake]
    rfl
  intro j hj
  have hget : ((p.drop (e + 4)).take 4)[j]? = some v := by
    rw [hbytes]
    match j, hj with
    | 0, _ => rfl
    | 1, _ => rfl
    | 2, _ => rfl
    | 3, _ => rfl
  rw [List.getElem?_take_of_lt hj, List.getElem?_drop] at hget
  exact hget

/-- **No misread**: a header read before the fixed part of a probe cannot yield the ttl of both
    probes.  Up to seven bytes early, one of its ttl bytes is a constant of the true header;
    further away all four belong to the name, which the probes share. -/
theorem no_misread {B : List UInt8} {t : UInt8 → List UInt8} {e : Nat} (he : e < B.length)
    (h : ∀ v, v = 0xff ∨ v = 0xfe →
      ∀ j, j < 4 → (B ++ ([0, 1, 0, 1, v, v, v, v, 0, 4] ++ t v))[e + 4 + j]? = some v) :
    False := by
  have hafter : ∀ v i, (B ++ ([0, 1, 0, 1, v, v, v, v, 0, 4] ++ t v))[B.length + i]? =
      ([0, 1, 0, 1, v, v, v, v, 0, 4] ++ t v)[i]? := by
    intro v i
    rw [List.getElem?_append_right (by omega), Nat.add_sub_cancel_left]
  -- the four bytes are taken too early, so one of them is no byte of the ttl
  rcases Nat.lt_or_ge (B.length - e) 5 with h5 | h5
  · -- the low byte of the class
    have hv := h 0xff (Or.inl rfl) (B.length - e - 1) (by omega)
    rw [show e + 4 + (B.length - e - 1) = B.length + 3 by omega, hafter] at hv
    exact absurd hv (by simp)
  · rcases Nat.lt_or_ge (B.length - e) 8 with h8 | h8
    · -- the high byte of the type
      have hv := h 0xff (Or.inl rfl) (B.length - e - 4) (by omega)
      rw [show e + 4 + (B.length - e - 4) = B.length + 0 by omega, hafter] at hv
      exact absurd hv (by simp)
    · -- a byte of the name
      have h1 := h 0xff (Or.inl rfl) 0 (by omega)
      have h2 := h 0xfe (Or.inr rfl) 0 (by omega)
      rw [List.getElem?_append_left (by omega)] at h1 h2
      rw [h1] at h2
      exact absurd h2 (by decide)

/-- A resolver after `dns_init`, waiting for `id`. -/
def freshDns (id : Nat) : DnsT := ⟨id, 0, List.replicate recordsLength ⟨0, 0⟩, length_cleared⟩

/-- The payload in which a probe response arrives. -/
def probePayload (q : Option Question) (pre : List OwnerName) (n : OwnerName)
    (post : List OwnerName) (v : UInt8) : List UInt8 :=
  (DnsPacket.received (probeResponse q pre n post v).encode).payload

/-- The call has come to `n`: its cursor is at `c`, and it has stored the records before. -/
def AtName (q : Option Question) (pre : List OwnerName) (n : OwnerName) (post : List OwnerName)
    (v : UInt8) (c : Nat) : Prop :=
  ∃ rs ss, (∀ s ∈ ss, Store.index s < pre.length) ∧
    dnsReceive (freshDns 0x1337) nothingBehind (some ⟨(probeResponse q pre n post v).encode,
      (freshDns 0x1337).dnsAddress⟩) =
      (answerLoop (probePayload q pre n post v) nothingBehind (post.length + 1) c
        pre.length).after rs ss

/-- Every record of a probe response has a ttl that a fresh entry has not. -/
theorem probe_record_ne {q : Option Question} {pre post : List OwnerName} {n : OwnerName}
    {v : UInt8} (hv : be [v, v, v, v] ≠ 0) :
    ∀ x ∈ (probeResponse q pre n post v).records, x ≠ ⟨0, 0⟩ := by
  have hne : ∀ u : UInt8, be [u, u, u, u] ≠ 0 → probeRecord u ≠ ⟨0, 0⟩ := by
    intro u hu h0
    apply hu
    rw [← probe_ttl]
    exact congrArg (fun r => r.ttl.toNat) h0
  intro x hx
  rw [probe_records] at hx
  rcases List.mem_append.mp hx with hx | hx
  · rw [List.eq_of_mem_replicate hx]
    exact hne 1 (by decide)
  · rcases List.mem_cons.mp hx with rfl | hx
    · exact hne v hv
    · rw [List.eq_of_mem_replicate hx]
      exact hne 1 (by decide)

/-- What the caller finds in an entry after a call that has decoded the response. -/
theorem entry_of_decodes {q : Option Question} {pre post : List OwnerName} {n : OwnerName}
    {v : UInt8} (hd : Decodes (probeResponse q pre n post v)) (i : Nat)
    (hi : i < pre.length + (post.length + 1)) :
    ((dnsReceive (freshDns 0x1337) nothingBehind
      (some ⟨(probeResponse q pre n post v).encode, (freshDns 0x1337).dnsAddress⟩)).records
        (freshDns 0x1337))[i]? = (probeResponse q pre n post v).records[i]? := by
  have hid : (freshDns 0x1337).id = (probeResponse q pre n post v).id.toNat := rfl
  obtain ⟨-, hrecords⟩ := hd (freshDns 0x1337) nothingBehind hid
  rw [hrecords, List.getElem?_append_left]
  rw [probe_records, List.length_append, List.length_cons, List.length_replicate,
    List.length_replicate]
  exact hi

/-- **One turn cannot be made good**: if a probe response is decoded although the header for `n`
    was read at `e`, then `e` holds the ttl of the probe. -/
theorem ttl_of_decodes {q : Option Question} {pre post : List OwnerName} {n : OwnerName}
    {v : UInt8} {c e : Nat} (hv : be [v, v, v, v] ≠ 0) (hroom : Room q (pre ++ n :: post))
    (hd : Decodes (probeResponse q pre n post v)) (hat : AtName q pre n post v c)
    (hn : NameEnds (probePayload q pre n post v) c e)
    (he : e + headerSize + 4 ≤ payloadBufferSize) :
    (Header.decode (((probePayload q pre n post v).drop e).take headerSize)).ttl =
      be [v, v, v, v] := by
  obtain ⟨rs, ss, hss, heq⟩ := hat
  have hsize : (probePayload q pre n post v).length = payloadBufferSize :=
    (DnsPacket.received (probeResponse q pre n post v).encode).size
  have hh : HeaderAt (probePayload q pre n post v) e _ := ⟨by omega, rfl⟩
  have hcount := hroom.count
  rw [List.length_append, List.length_cons] at hcount
  have h8 : recordsLength = 8 := rfl
  have hfresh : (freshDns 0x1337).records.length = 8 := rfl
  have hentry := @entry_of_decodes _ _ _ _ _ hd
  rw [heq] at hentry
  generalize hhead : Header.decode (((probePayload q pre n post v).drop e).take headerSize) =
    hd at hh ⊢
  cases hA : hd.isA with
  | false =>
    -- too few turns are left: the last entry is as it was
    have hlast := hentry (pre.length + post.length) (by omega)
    rw [answerLoop_other hn hh hA, Walk.after_after, Walk.records, Walk.after_stores,
      foldl_apply_of_ne] at hlast
    · have hzero : (freshDns 0x1337).records[pre.length + post.length]? = some ⟨0, 0⟩ :=
        List.getElem?_replicate_of_lt (by omega)
      rw [hzero] at hlast
      exact absurd rfl (probe_record_ne hv _ (List.mem_of_getElem? hlast.symm))
    · intro s hs
      rw [List.append_nil] at hs
      rcases List.mem_append.mp hs with hs | hs
      · have := hss s hs
        omega
      · have := answerLoop_index _ _ _ _ _ s hs
        omega
  | true =>
    have hhere := hentry pre.length (by omega)
    rw [answerLoop_isA hn hh hA (by omega)] at hhere
    simp only [if_neg (show ¬ pre.length + 1 ≥ 16 by omega)] at hhere
    rw [Walk.after_after, Walk.records, Walk.after_stores, List.append_assoc, recordStores,
      foldl_apply_record, probe_records, List.getElem?_append_right (by simp)] at hhere
    · simp only [List.length_replicate, Nat.sub_self, List.getElem?_cons_zero] at hhere
      have httl : UInt32.ofNat hd.ttl = UInt32.ofNat (be [v, v, v, v]) :=
        congrArg DnsRecord.ttl (Option.some.inj hhere)
      have hlt : hd.ttl < 256 ^ 4 := by
        rw [← hhead]
        refine Nat.lt_of_lt_of_le (be_lt _) (Nat.pow_le_pow_right (by decide) ?_)
        rw [List.length_take]
        omega
      have hnat := congrArg UInt32.toNat httl
      rw [probe_ttl, UInt32.toNat_ofNat_of_lt' hlt] at hnat
      exact hnat
    · intro s hs
      have := hss s hs
      omega
    · intro s hs
      have := answerLoop_index _ _ _ _ _ s hs
      omega
    · omega

/-- Everything up to the fixed part of the probe. -/
def beforeProbe (q : Option Question) (pre : List OwnerName) (n : OwnerName) : List UInt8 :=
  questionBytes q ++ ((pre.map (probe · 1)).flatMap Answer.encode ++ n.encode)

/-- The payload up to the end of the probed name does not depend on `v`. -/
theorem probePayload_eq {q : Option Question} {pre post : List OwnerName} {n : OwnerName}
    (hroom : Room q (pre ++ n :: post)) (v : UInt8) :
    ∃ rest, probePayload q pre n post v =
      beforeProbe q pre n ++ ([0, 1, 0, 1, v, v, v, v, 0, 4] ++ ([v, v, v, v] ++ rest)) := by
  obtain ⟨-, -, -, rest, hp⟩ := received_encode (probe_fits hroom v)
  refine ⟨(post.map (probe · 1)).flatMap Answer.encode ++ rest, ?_⟩
  rw [probePayload, hp, probe_sections, beforeProbe]
  simp only [List.append_assoc]

/-- **A cursor that leaves the name early spoils one of the two probes.** -/
theorem not_decodes_of_early {q : Option Question} {pre post : List OwnerName} {n : OwnerName}
    {c e : Nat} (hroom : Room q (pre ++ n :: post)) (hat : ∀ v, AtName q pre n post v c)
    (hn : ∀ rest, NameEnds (beforeProbe q pre n ++ rest) c e)
    (he : e < (beforeProbe q pre n).length) :
    ¬ ∀ v, Decodes (probeResponse q pre n post v) := by
  intro hdec
  choose rest hrest using fun v => probePayload_eq hroom v
  apply @no_misread (beforeProbe q pre n) (fun v => [v, v, v, v] ++ rest v) e he
  intro v hv
  have hne : be [v, v, v, v] ≠ 0 := by
    rcases hv with rfl | rfl <;> decide
  have hsize : (probePayload q pre n post v).length = payloadBufferSize :=
    (DnsPacket.received (probeResponse q pre n post v).encode).size
  have hlen := congrArg List.length (hrest v)
  simp only [List.length_append, List.length_cons, List.length_nil] at hlen
  have hten : headerSize = 10 := rfl
  have hbytes := @ttl_bytes (probePayload q pre n post v) e v (by omega)
    (ttl_of_decodes hne hroom (hdec v) (hat v) (by rw [hrest v]; exact hn _) (by omega))
  rw [hrest v] at hbytes
  exact hbytes

/-- The call on a probe response whose question and first names can be skipped. -/
theorem atName_of_skipSafe {q : Option Question} {pre post : List OwnerName} {n : OwnerName}
    (hroom : Room q (pre ++ n :: post)) (hq : ∀ q', q = some q' → ZeroFree q'.labels)
    (hpre : ∀ m ∈ pre, m.SkipSafe) (v : UInt8) :
    AtName q pre n post v
      ((questionBytes q).length + ((pre.map (probe · 1)).flatMap Answer.encode).length) := by
  have hfits := probe_fits hroom v
  obtain ⟨-, -, -, rest, hp⟩ := received_encode hfits
  rw [probe_sections, List.append_assoc, List.append_assoc] at hp
  obtain ⟨rs, heq⟩ := @dnsReceive_encode _ hfits (freshDns 0x1337) nothingBehind rfl _
    (questions_of_zeroFree hp hq)
  have hsafe : ∀ a ∈ pre.map (probe · 1), a.name.SkipSafe := by
    intro a ha
    obtain ⟨m, hm, rfl⟩ := List.mem_map.mp ha
    exact hpre m hm
  have hcount := hroom.count
  rw [List.length_append, List.length_cons] at hcount
  have h8 : recordsLength = 8 := rfl
  have hlen : (pre.map (probe · 1)).length = pre.length := List.length_map _
  have hdrop := congrArg (List.drop (questionBytes q).length) hp
  rw [List.drop_left] at hdrop
  -- the names before it can be skipped, so their turns are those of the decoder
  obtain ⟨rs', hloop⟩ := answerLoop_of_answers nothingBehind (post.length + 1) (pre.map (probe · 1))
    (questionBytes q).length 0 _ hdrop hsafe (by rw [filter_probes, hlen]; omega)
  have hturns : (probeResponse q pre n post v).answers.length =
      (pre.map (probe · 1)).length + (post.length + 1) := by
    show (pre.map (probe · 1) ++ probe n v :: post.map (probe · 1)).length = _
    rw [List.length_append, List.length_cons, List.length_map, List.length_map]
  have hquestion : (probeResponse q pre n post v).question = q := rfl
  rw [hturns, hquestion, hloop, Walk.after_after, filter_probes, map_record_probes, hlen,
    Nat.zero_add] at heq
  refine ⟨_, _, ?_, heq⟩
  intro s hs
  rw [List.nil_append] at hs
  have hlt := mem_storesOf_lt hs
  rw [List.length_replicate] at hlt
  omega

/-- A name the loop leaves at the wrong place spoils a response with that owner name. -/
theorem skipSafe_of_decodes {q : Option Question} {pre post : List OwnerName} {n : OwnerName}
    (hroom : Room q (pre ++ n :: post)) (hq : ∀ q', q = some q' → ZeroFree q'.labels)
    (hpre : ∀ m ∈ pre, m.SkipSafe) (h : ∀ v, Decodes (probeResponse q pre n post v)) :
    n.SkipSafe := by
  by_contra hbad
  have hat := fun v => atName_of_skipSafe hroom hq hpre v
  generalize hc : (questionBytes q).length +
    ((pre.map (probe · 1)).flatMap Answer.encode).length = c at hat
  have hdrop : ∀ rest, (beforeProbe q pre n ++ rest).drop c = n.encode ++ rest := by
    intro rest
    rw [← hc, beforeProbe, ← List.length_append, ← List.append_assoc, List.append_assoc,
      List.drop_left]
  have hlength : (beforeProbe q pre n).length = c + n.encode.length := by
    rw [← hc, beforeProbe, List.length_append, List.length_append]
    omega
  rcases exists_stop_or_not nameStop (labelBytes n.labels) with
    ⟨pre', b, post', hw, hpre', hb⟩ | hall
  · have hends : ∀ rest, NameEnds (beforeProbe q pre n ++ rest) c
        (afterName (c + pre'.length, b)) := by
      intro rest
      refine ⟨c + pre'.length, b, ⟨pre', post' ++ (n.ending.encode ++ rest), ?_, hpre', hb, rfl⟩,
        rfl⟩
      rw [hdrop, OwnerName.encode, hw]
      simp
    -- not behind the name, since the name is not safe; so before its end
    have hne : afterName (c + pre'.length, b) ≠ c + n.encode.length := by
      intro heq
      apply hbad
      refine (skipName_ends_iff (hdrop [])).mp ?_
      rw [← heq]
      exact hends []
    have hlen : n.encode.length = pre'.length + (post'.length + 1) + n.ending.encode.length := by
      rw [OwnerName.encode, List.length_append, hw, List.length_append, List.length_cons]
    have hend := one_le_ending n.ending
    have hle : afterName (c + pre'.length, b) ≤ c + pre'.length + 2 := by
      unfold afterName
      split <;> simp
    exact not_decodes_of_early hroom hat hends (by omega) h
  · exact hbad ⟨fun b hb => hall b (List.dropLast_subset _ hb),
      fun b hb => Or.inl (hall b (List.mem_of_getLast? hb))⟩

/-- The question for the labels, with type and class 0. -/
theorem zeroQuestion_bytes (ls : List Label) :
    questionBytes (some ⟨ls, 0, 0⟩) = labelBytes ls ++ [0, 0, 0, 0, 0] := by
  have h0 : toBe 2 (0 : Nat) = [0, 0] := by decide
  simp [questionBytes, Question.encode, h0]

/-- With the probed name first, only the question stands before it. -/
theorem beforeProbe_nil (q : Option Question) (n : OwnerName) (rest : List UInt8) :
    beforeProbe q [] n ++ rest = questionBytes q ++ (n.encode ++ rest) :=
  List.append_assoc _ _ _

/-- With a zero in its labels the question ends four bytes behind that zero. -/
theorem questions_of_zero {ls : List Label} {pre post : List UInt8} {b : UInt8}
    (hw : labelBytes ls = pre ++ b :: post) (hpre : ∀ x ∈ pre, (x == 0) = false)
    (hb : (b == 0) = true) (rest : List UInt8) :
    Questions (questionBytes (some ⟨ls, 0, 0⟩) ++ rest) 1 0 (pre.length + 5) := by
  refine Questions.cons (b := b) ⟨pre, post ++ [0, 0, 0, 0, 0] ++ rest, ?_, hpre, hb, by omega⟩
    (Questions.nil _)
  rw [zeroQuestion_bytes, hw]
  simp

/-- A zero in a label of the question ends the name loop there, five bytes too early or more: this
    is where the first owner name is then looked for. -/
theorem atName_of_zero {ls : List Label} {n : OwnerName} {names : List OwnerName}
    {pre post : List UInt8} {b : UInt8} (hroom : Room (some ⟨ls, 0, 0⟩) (n :: names))
    (hw : labelBytes ls = pre ++ b :: post) (hpre : ∀ x ∈ pre, (x == 0) = false)
    (hb : (b == 0) = true) (v : UInt8) :
    AtName (some ⟨ls, 0, 0⟩) [] n names v (pre.length + 5) := by
  have hfits := @probe_fits _ [] _ _ hroom v
  obtain ⟨rest, hp⟩ := @probePayload_eq _ [] _ _ hroom v
  rw [beforeProbe_nil] at hp
  obtain ⟨rs, heq⟩ := @dnsReceive_encode _ hfits (freshDns 0x1337) nothingBehind rfl _
    (hp ▸ questions_of_zero hw hpre hb _)
  have hturns : (probeResponse (some ⟨ls, 0, 0⟩) [] n names v).answers.length =
      names.length + 1 := by
    show (probe n v :: names.map (probe · 1)).length = _
    rw [List.length_cons, List.length_map]
  rw [hturns] at heq
  exact ⟨rs, [], fun s hs => absurd hs List.not_mem_nil, heq⟩

/-- A name loop that begins in the five zeros behind the labels, or before them, ends there: the
    last byte is a zero, which is not skipped as a pair. -/
theorem nameEnds_in_question {ls : List Label} {c : Nat} (hc : c < (labelBytes ls).length + 5) :
    ∃ e, e ≤ (labelBytes ls).length + 5 ∧
      ∀ rest, NameEnds (questionBytes (some ⟨ls, 0, 0⟩) ++ rest) c e := by
  have hqlen : (questionBytes (some ⟨ls, 0, 0⟩)).length = (labelBytes ls).length + 5 := by
    rw [zeroQuestion_bytes, List.length_append]
    rfl
  -- the last byte of the question is a zero, so the name loop stops at it or before
  have hlast : ((questionBytes (some ⟨ls, 0, 0⟩)).drop c).getLast? = some 0 := by
    rw [List.getLast?_drop, if_neg (by omega), zeroQuestion_bytes, List.getLast?_append]
    rfl
  rcases exists_stop_or_not nameStop ((questionBytes (some ⟨ls, 0, 0⟩)).drop c) with
    ⟨pre, b, post, hw, hpre, hb⟩ | hall
  · have hlen := congrArg List.length hw
    rw [List.length_drop, List.length_append, List.length_cons] at hlen
    refine ⟨afterName (c + pre.length, b), ?_, fun rest => ?_⟩
    · unfold afterName
      split
      · show c + pre.length + 1 ≤ _
        omega
      · rename_i hb0
        have hne : post ≠ [] := by
          rintro rfl
          rw [hw, List.getLast?_concat] at hlast
          rw [Option.some.inj hlast] at hb0
          exact absurd rfl hb0
        have hpos := List.length_pos_iff.mpr hne
        show c + pre.length + 2 ≤ _
        omega
    · refine ⟨_, b, ⟨pre, post ++ rest, ?_, hpre, hb, rfl⟩, rfl⟩
      rw [List.drop_append_of_le_length (by omega), hw]
      simp
  · exact absurd (hall 0 (List.mem_of_getLast? hlast)) (by decide)

/-- A zero inside a question label leaves the cursor before the answers. -/
theorem zeroFree_of_decodes {ls : List Label} {n : OwnerName} {post : List OwnerName}
    (hroom : Room (some ⟨ls, 0, 0⟩) (n :: post))
    (h : ∀ v, Decodes (probeResponse (some ⟨ls, 0, 0⟩) [] n post v)) : ZeroFree ls := by
  by_contra hbad
  rcases exists_stop_or_not (· == 0) (labelBytes ls) with ⟨pre, b, post', hw, hpre, hb⟩ | hall
  · have hwlen : (labelBytes ls).length = pre.length + (post'.length + 1) := by
      rw [hw, List.length_append, List.length_cons]
    -- the question ends in a zero, so the name loop ends inside it as well
    obtain ⟨e, he, hends⟩ := @nameEnds_in_question ls (pre.length + 5) (by omega)
    have hname : 1 ≤ n.encode.length := by
      have hend := one_le_ending n.ending
      rw [OwnerName.encode, List.length_append]
      omega
    have hlength : (beforeProbe (some ⟨ls, 0, 0⟩) [] n).length =
        (labelBytes ls).length + 5 + n.encode.length := by
      rw [beforeProbe, List.length_append, zeroQuestion_bytes, List.length_append]
      rfl
    refine @not_decodes_of_early _ [] _ _ _ e hroom (atName_of_zero hroom hw hpre hb) ?_ (by omega) h
    intro rest
    rw [beforeProbe_nil]
    exact hends _
  · exact hbad fun b hb => by simpa using hall b hb

theorem skipSafe_of_noLabels {n : OwnerName} (h : n.labels = []) : n.SkipSafe := by
  rw [OwnerName.SkipSafe, h]
  exact ⟨fun b hb => absurd hb (by simp [labelBytes]), fun b hb => absurd hb (by simp [labelBytes])⟩

/-! ## Which names are decoded

  The two directions put together, for all names of a response at once. -/

/-- The same question and the same owner names, whatever the records. -/
structure Response.SameNames (r r' : Response) : Prop where
  question : r'.question.map Question.labels = r.question.map Question.labels
  answers : r'.answers.map Answer.name = r.answers.map Answer.name

/-- Whether the names can be skipped is a matter of the names. -/
theorem skippable_of_sameNames {r r' : Response} (h : r.SameNames r') (hs : r.Skippable) :
    r'.Skippable := by
  refine ⟨fun q' hq' => ?_, fun a' ha' => ?_⟩
  · have hlabels := h.question
    rw [hq', Option.map_some] at hlabels
    obtain ⟨q, hq, heq⟩ := Option.map_eq_some_iff.mp hlabels.symm
    rw [← heq]
    exact hs.question q hq
  · have hname : a'.name ∈ r.answers.map Answer.name := h.answers ▸ List.mem_map_of_mem ha'
    obtain ⟨a, ha, heq⟩ := List.mem_map.mp hname
    rw [← heq]
    exact hs.answers a ha

/-- The names of the response are those that were to be probed. -/
theorem probe_names (q : Option Question) (pre post : List OwnerName) (n : OwnerName)
    (v : UInt8) : (probeResponse q pre n post v).answers.map Answer.name = pre ++ n :: post := by
  show (pre.map (probe · 1) ++ probe n v :: post.map (probe · 1)).map Answer.name = _
  have hnames : ∀ names : List OwnerName, (names.map (probe · 1)).map Answer.name = names := by
    intro names
    rw [List.map_map]
    exact List.map_id names
  rw [List.map_append, List.map_cons, hnames, hnames]
  rfl

/-- Names of which every response is decoded can be skipped. -/
theorem skippable_of_decodes {r : Response} (hr : r.Fits)
    (hroom : Room r.question (r.answers.map Answer.name))
    (h : ∀ r' : Response, r'.Fits → r.SameNames r' → Decodes r') : r.Skippable := by
  have hquestion : ∀ q, r.question = some q → ZeroFree q.labels := by
    intro q hq
    cases hanswers : r.answers with
    | nil =>
      have h1 := one_le_answers hr
      rw [hanswers] at h1
      exact absurd h1 (by decide)
    | cons a as =>
      rw [hq, hanswers, List.map_cons] at hroom
      have hroom' : Room (some ⟨q.labels, 0, 0⟩) (a.name :: as.map Answer.name) := by
        refine ⟨hroom.count, ?_⟩
        have hfits := hroom.fits
        have hlen : (questionBytes (some ⟨q.labels, 0, 0⟩)).length =
            (questionBytes (some q)).length := by
          simp only [questionBytes, Option.elim_some, Question.encode, List.length_append,
            length_toBe]
        rw [hlen]
        exact hfits
      refine zeroFree_of_decodes hroom' fun v => h _ (@probe_fits _ [] _ _ hroom' v) ⟨?_, ?_⟩
      · rw [hq]
        rfl
      · rw [probe_names, hanswers]
        rfl
  refine ⟨hquestion, ?_⟩
  have hnames : ∀ m ∈ r.answers.map Answer.name, m.SkipSafe := by
    classical
    cases hfind : (r.answers.map Answer.name).find? fun m => !decide m.SkipSafe with
    | none =>
      intro m hm
      simpa using List.find?_eq_none.mp hfind m hm
    | some n =>
      -- the first name that cannot be skipped
      obtain ⟨hbad, pre, post, hsplit, hpre⟩ := List.find?_eq_some_iff_append.mp hfind
      rw [hsplit] at hroom
      have hsafe := skipSafe_of_decodes hroom hquestion (fun m hm => by simpa using hpre m hm)
        fun v => h _ (probe_fits hroom v) ⟨rfl, by rw [probe_names, hsplit]⟩
      rw [decide_eq_true hsafe] at hbad
      exact absurd hbad (by decide)
  intro a ha
  exact hnames a.name (List.mem_map_of_mem ha)

/-- **Which responses are decoded.**  One whose names can be skipped is; and where the payload has
    room for an A record under each of at most eight names, all responses with these names are
    decoded exactly if the names can be skipped. -/
theorem dnsReceive_decodes (r : Response) (hr : r.Fits) :
    (r.Skippable → Decodes r) ∧
    (Room r.question (r.answers.map Answer.name) →
      ((∀ r' : Response, r'.Fits → r.SameNames r' → Decodes r') ↔ r.Skippable)) := by
  refine ⟨dnsReceive_of_skippable hr, fun hroom => ⟨skippable_of_decodes hr hroom, ?_⟩⟩
  intro hs r' hr' hsame
  exact dnsReceive_of_skippable hr' (skippable_of_sameNames hsame hs)

/-! ### A usual response, and one with plain labels -/

/-- `www.` as labels and a root label. -/
def plainName : OwnerName := ⟨[⟨[0x77, 0x77, 0x77], by decide, by decide⟩], .root⟩

/-- The name of the question, as its answers usually write it. -/
def pointerName : OwnerName := ⟨[], .pointer 12⟩

/-- An A record under any name. -/
def sampleA (n : OwnerName) : Answer := ⟨n, 1, 1, 60, [10, 0, 0, 1], by decide⟩

/-- A question, a CNAME and an A record, the answers named by pointers. -/
def usualResponse : Response :=
  ⟨0x1337, 0x8180, some ⟨plainName.labels, 1, 1⟩,
    [⟨pointerName, 5, 1, 60, [1, 0x61, 0xc0, 12], by decide⟩, sampleA pointerName], 0, 0, []⟩

/-- The usual response is decoded. -/
theorem usualResponse_decodes : Decodes usualResponse := by
  refine (dnsReceive_decodes usualResponse
    ⟨by decide +kernel, by decide +kernel, by decide +kernel⟩).1 ⟨fun q hq => ?_, fun a ha =>
      skipSafe_of_noLabels ?_⟩
  · rw [← Option.some.inj hq]
    have hall : [(3 : UInt8), 0x77, 0x77, 0x77].all (· != 0) = true := by decide
    intro b hb
    exact bne_iff_ne.mp (List.all_eq_true.mp hall b hb)
  · rcases List.mem_cons.mp ha with rfl | ha
    · rfl
    · rw [List.mem_singleton.mp ha]
      rfl

/-- One A record owned by `www.` in plain labels. -/
def plainResponse : Response :=
  ⟨0x1337, 0x8180, none, [sampleA plainName], 0, 0, []⟩

/-- The loop takes the first `w` for a pointer; the record is lost. -/
theorem plainResponse_not_decoded : plainResponse.Fits ∧ ¬ Decodes plainResponse := by
  refine ⟨⟨by decide +kernel, by decide +kernel, by decide +kernel⟩, fun h => ?_⟩
  have hrecords := (h (freshDns 0x1337) nothingBehind rfl).2
  revert hrecords
  decide +kernel

end Safewrt.Dns
