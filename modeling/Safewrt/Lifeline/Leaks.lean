/-
  THE SOCKETS A RUN LEAVES OPEN (packages/lifeline/lifeline.c, from `main` down to
  `attempt_remote`).

  The last line of `main` says that sockets are leaking somewhere.  This is where.

  `Lifeline.Main` is the run without descriptors: which servers are tried and which addresses are
  dialed.  Here the same run holds a set of descriptors and changes it at each call, and the result
  is that the set grows by what each session leaves and by nothing else.

  1. `leaks` — what one call of `attempt_remote` leaves open: both sockets once the handshake is
     over, or the first if there is no second; `comesBack` — whether it returns.

  2. `attemptServerSockets`, `mainSockets` — the run of `main`, each step on the descriptors it
     opens and closes: the socket of `dns_init`, the file of `parse_resolvconf`, the sockets of the
     calls.

  3. `Simulates` — a step does to the turns what it does without descriptors, and to the
     descriptors no more than its calls leak; kept by loops (`Simulates.foldl`) and by what is
     closed again (`Keeps.bracket`).  A bracket needs that what it opened is still there to be
     closed, which is why the invariant says that descriptors are only added.

  4. **`mainSockets_leaks`** — so the whole run.  It starts with input and output open: a process
     without them gets 0 or 1 for a socket, which the code takes for a failure.
-/
import Safewrt.Lifeline.Descriptors
import Safewrt.Lifeline.Main

namespace Safewrt.Lifeline

open Safewrt.Lib Safewrt.Dns

/-! ## One call -/

/-- Standard input and output are open, so no socket has their numbers. -/
structure Descriptors.Std (d : Descriptors) : Prop where
  input : 0 ∈ d.held
  output : 1 ∈ d.held

/-- All of `d` is open still, and `n` more. -/
structure Descriptors.Grown (n : Nat) (d d' : Descriptors) : Prop where
  held : d.held ⊆ d'.held
  card : d'.held.card = d.held.card + n

theorem Descriptors.Grown.refl (d : Descriptors) : d.Grown 0 d := ⟨Finset.Subset.refl _, rfl⟩

theorem Descriptors.Grown.trans {m n : Nat} {d d' d'' : Descriptors} (h : d.Grown m d')
    (h' : d'.Grown n d'') : d.Grown (m + n) d'' :=
  ⟨h.held.trans h'.held, by rw [h'.card, h.card, Nat.add_assoc]⟩

theorem Descriptors.Grown.std {n : Nat} {d d' : Descriptors} (h : d.Grown n d') (hd : d.Std) :
    d'.Std := ⟨h.held hd.input, h.held hd.output⟩

/-- Opened, and not closed. -/
theorem grown_socket (d : Descriptors) : d.Grown 1 (d.socket true).2 :=
  ⟨Finset.subset_insert _ _, Finset.card_insert_of_notMem (lowest_notMem d.held)⟩

/-- Closed in the end, and nothing that was open before. -/
theorem close_opened {d d' : Descriptors} (h : (d.socket true).2.held ⊆ d'.held) :
    d.held ⊆ (d'.close (lowest d.held)).held ∧
      (d'.close (lowest d.held)).held.card + 1 = d'.held.card := by
  constructor
  · intro fd hfd
    have hne : fd ≠ lowest d.held := fun heq => lowest_notMem d.held (heq ▸ hfd)
    exact Finset.mem_erase.mpr ⟨hne, h (Finset.mem_insert_of_mem hfd)⟩
  · exact Finset.card_erase_add_one (h (Finset.mem_insert_self ..))

/-- A descriptor that is opened before a step and closed behind it does not count. -/
theorem Descriptors.Grown.close {n : Nat} {d d' : Descriptors} (h : (d.socket true).2.Grown n d') :
    d.Grown n (d'.close (lowest d.held)) := by
  obtain ⟨hheld, hcard⟩ := close_opened h.held
  have hopened := h.card
  rw [(grown_socket d).card] at hopened
  exact ⟨hheld, by omega⟩

/-- With standard input and output open, no socket gets their numbers; this is what the callers'
    tests `<= 0` and `< 1` rely on. -/
theorem Descriptors.Std.lowest {d : Descriptors} (h : d.Std) : 1 < lowest d.held := by
  have hfree := lowest_notMem d.held
  have hzero : Lifeline.lowest d.held ≠ 0 := fun h0 => hfree (h0 ▸ h.input)
  have hone : Lifeline.lowest d.held ≠ 1 := fun h1 => hfree (h1 ▸ h.output)
  omega

/-- The handshake is gone through. -/
def Outcomes.accepted (o : Outcomes) : Bool :=
  o.remoteSocket && o.connected && match attemptRemoteSplit o.segmentation o.stream with
    | .accepted _ => true
    | _ => false

/-- The sockets a call leaves open. -/
def leaks (o : Outcomes) : Nat :=
  if o.accepted then if o.localSocket then 2 else 1 else 0

/-- The call came back to its caller. -/
def Left.isReturned : Left → Bool
  | .returned _ => true
  | _ => false

/-- Does the call return? -/
def Outcomes.comesBack (o : Outcomes) : Bool :=
  !(o.accepted && o.localSocket && o.inetPton && o.localConnect && forwarding o.results ≠ .returned)

/-- `local_connect` leaves its socket open in both cases. -/
theorem localConnect_grown (o : Outcomes) (d : Descriptors) :
    d.Grown (if o.localSocket then 1 else 0) (localConnect o d).2 := by
  rw [localConnect]
  cases o.localSocket with
  | false => exact Descriptors.Grown.refl d
  | true =>
    cases o.inetPton with
    | false => exact grown_socket d
    | true =>
      cases o.localConnect with
      | false => exact grown_socket d
      | true => exact grown_socket d

/-- From the handshake on. -/
theorem attemptRemoteSockets_accepted {o : Outcomes} {d : Descriptors} (hd : d.Std)
    (hs : o.remoteSocket = true) (hc : o.connected = true) {rest : List UInt8}
    (h : attemptRemoteSplit o.segmentation o.stream = .accepted rest) :
    (attemptRemoteSockets o d).1.isReturned = o.comesBack ∧
      (attemptRemoteSockets o d).2 = (localConnect o (d.socket true).2).2 := by
  have hgate : (lowest d.held : Int) > 1 := by
    have := hd.lowest
    omega
  have haccepted : o.accepted = true := by rw [Outcomes.accepted, hs, hc, h]; rfl
  have hremote : remoteConnect o d = ((lowest d.held : Int), (d.socket true).2) := by
    rw [remoteConnect, hs, hc]
    rfl
  have hstd : (d.socket true).2.Std := (grown_socket d).std hd
  rw [attemptRemoteSockets, hremote]
  dsimp only
  rw [if_pos hgate, h]
  dsimp only
  -- a local side that fails gives a value below one, and the call returns at once
  by_cases hlocal : o.Local
  · have hfd : ¬ (localConnect o (d.socket true).2).1 < 1 := by
      have := hstd.lowest
      rw [localConnect_connected hlocal]
      show ¬ ((lowest (d.socket true).2.held : Nat) : Int) < 1
      omega
    rw [if_neg hfd, Outcomes.comesBack, haccepted, hlocal.1, hlocal.2.1, hlocal.2.2]
    cases forwarding o.results with
    | returned => exact ⟨rfl, rfl⟩
    | exited => exact ⟨rfl, rfl⟩
    | running => exact ⟨rfl, rfl⟩
  · have hfd : (localConnect o (d.socket true).2).1 < 1 := by
      rw [localConnect_failed hlocal]
      decide
    have hback : o.comesBack = true := by
      rw [Outcomes.comesBack]
      cases hs : o.localSocket with
      | false => simp
      | true =>
        cases hp : o.inetPton with
        | false => simp
        | true =>
          cases hc : o.localConnect with
          | false => simp
          | true => exact absurd ⟨hs, hp, hc⟩ hlocal
    rw [if_pos hfd, hback]
    exact ⟨rfl, rfl⟩

/-- A handshake that fails closes the socket. -/
theorem attemptRemoteSockets_refused {o : Outcomes} {d : Descriptors} (hd : d.Std)
    (hs : o.remoteSocket = true) (hc : o.connected = true)
    (h : ∀ rest, attemptRemoteSplit o.segmentation o.stream ≠ .accepted rest) :
    o.accepted = false ∧ ∃ value, attemptRemoteSockets o d =
      (.returned (some value), (d.socket true).2.close (lowest d.held)) := by
  have hgate : (lowest d.held : Int) > 1 := by
    have := hd.lowest
    omega
  have hremote : remoteConnect o d = ((lowest d.held : Int), (d.socket true).2) := by
    rw [remoteConnect, hs, hc]
    rfl
  rw [Outcomes.accepted, hs, hc, attemptRemoteSockets, hremote]
  dsimp only
  rw [if_pos hgate, Int.toNat_natCast]
  cases hsplit : attemptRemoteSplit o.segmentation o.stream with
  | accepted rest => exact absurd hsplit (h rest)
  | invalid => exact ⟨rfl, 2, rfl⟩
  | died => exact ⟨rfl, 1, rfl⟩

/-- **A call of `attempt_remote`** returns where `comesBack` says so, and leaves `leaks` open. -/
theorem attemptRemoteSockets_leaks (o : Outcomes) {d : Descriptors} (hd : d.Std) :
    (attemptRemoteSockets o d).1.isReturned = o.comesBack ∧
      d.Grown (leaks o) (attemptRemoteSockets o d).2 := by
  have hclosed : d.Grown 0 ((d.socket true).2.close (lowest d.held)) :=
    (Descriptors.Grown.refl _).close
  -- how far the call gets: no socket, no connection, no handshake, or all three
  cases hs : o.remoteSocket with
  | false =>
    have hno : o.accepted = false := by rw [Outcomes.accepted, hs]; rfl
    rw [attemptRemoteSockets, remoteConnect_noSocket hs, Outcomes.comesBack, leaks, hno]
    exact ⟨rfl, Descriptors.Grown.refl d⟩
  | true =>
    cases hc : o.connected with
    | false =>
      have hno : o.accepted = false := by rw [Outcomes.accepted, hs, hc]; rfl
      have hremote : remoteConnect o d = (-3, (d.socket true).2.close (lowest d.held)) := by
        rw [remoteConnect, hs, hc]
        rfl
      rw [attemptRemoteSockets, hremote, Outcomes.comesBack, leaks, hno]
      exact ⟨rfl, hclosed⟩
    | true =>
      by_cases h : ∃ rest, attemptRemoteSplit o.segmentation o.stream = .accepted rest
      · obtain ⟨rest, h⟩ := h
        obtain ⟨hback, hleft⟩ := attemptRemoteSockets_accepted hd hs hc h
        have haccepted : o.accepted = true := by rw [Outcomes.accepted, hs, hc, h]; rfl
        have hgrown := (grown_socket d).trans (localConnect_grown o (d.socket true).2)
        refine ⟨hback, ?_⟩
        rw [hleft, leaks, haccepted]
        cases hl : o.localSocket with
        | false => simpa [hl] using hgrown
        | true => simpa [hl] using hgrown
      · obtain ⟨hno, value, heq⟩ :=
          attemptRemoteSockets_refused hd hs hc fun rest hrest => h ⟨rest, hrest⟩
        rw [heq, Outcomes.comesBack, leaks, hno]
        exact ⟨rfl, hclosed⟩

/-! ## One server -/

/-- What `calls` calls leave open, the first of them number `first`. -/
def leaked (outcomes : Nat → Outcomes) (first calls : Nat) : Nat :=
  ((List.range' first calls).map fun i => leaks (outcomes i)).sum

/-- The loop over the records. -/
def dialLoopSockets (outcomes : Nat → Outcomes) :
    Nat → List DnsRecord → Descriptors → Dial × Descriptors
  | i, [], d => (⟨[], [i], .killed⟩, d)
  | i, r :: memory, d =>
    if r.ttl = 0 then (⟨[], [i], .stopped⟩, d)
    else
      let (left, d) := attemptRemoteSockets (outcomes i) d
      if left.isReturned then
        let (dial, d) := dialLoopSockets outcomes (i + 1) memory d
        (dial.after i r.address, d)
      else (⟨[r.address], [i], .exited⟩, d)

/-- One turn of the loop of `attempt_dns`: the socket of `dns_init` is closed on every way out. -/
def attemptServerSockets (dnsIp : UInt32) (name : CName) (a : Answers) (outcomes : Nat → Outcomes)
    (d : Descriptors) : Dial × Descriptors :=
  if a.address ≠ inaddrNone then
    let (left, d) := attemptRemoteSockets (outcomes 0) d
    (⟨[a.address], [], if left.isReturned then .stopped else .exited⟩, d)
  else
    match d.socket (0 ≤ a.socket) with
    | (none, d) => (⟨[], [], .stopped⟩, d)
    | (some socket, d) =>
      let a := { a with socket := socket }
      if (requested dnsIp name a).code ≠ 0 then (⟨[], [], .stopped⟩, d.close socket)
      else
        let w := receive dnsIp name a
        match w.code with
        | none => (⟨[], [], .killed⟩, d)
        | some 0 =>
          let (dial, d) := dialLoopSockets outcomes 0
            (w.records (requested dnsIp name a).dns ++ a.beyond) d
          (dial, if dial.ending = .stopped then d.close socket else d)
        | some _ => (⟨[], [], .stopped⟩, d.close socket)

section

variable {returns : Nat → Bool} {outcomes : Nat → Outcomes}

/-- The loop with its sockets: the same calls, and what they leave open. -/
theorem dialLoopSockets_leaks (hreturns : ∀ i, returns i = (outcomes i).comesBack)
    (memory : List DnsRecord) : ∀ (i : Nat) (d : Descriptors), d.Std →
      (dialLoopSockets outcomes i memory d).1 = dialLoop returns i memory ∧
        d.Grown (leaked outcomes i (dialLoop returns i memory).calls.length)
          (dialLoopSockets outcomes i memory d).2 := by
  induction memory with
  | nil =>
    intro i d _
    exact ⟨rfl, Descriptors.Grown.refl d⟩
  | cons r memory ih =>
    intro i d hd
    obtain ⟨hback, hgrown⟩ := attemptRemoteSockets_leaks (outcomes i) hd
    rw [dialLoopSockets, dialLoop]
    by_cases hr : r.ttl = 0
    · rw [if_pos hr, if_pos hr]
      exact ⟨rfl, Descriptors.Grown.refl d⟩
    rw [if_neg hr, if_neg hr]
    dsimp only
    rw [hback, hreturns i]
    -- only a call that comes back is followed by another one
    cases hcome : (outcomes i).comesBack with
    | true =>
      obtain ⟨hdial, hrest⟩ := ih (i + 1) _ (hgrown.std hd)
      rw [if_pos rfl, if_pos rfl]
      exact ⟨congrArg (Dial.after · i r.address) hdial, hgrown.trans hrest⟩
    | false =>
      rw [if_neg Bool.false_ne_true, if_neg Bool.false_ne_true]
      exact ⟨rfl, hgrown⟩

variable {a : Answers}

/-- Any descriptor of the socket does. -/
theorem dnsInit_socket {dnsIp : UInt32} (h : 0 ≤ a.socket) (fd : Nat) :
    dnsInit a.socket dnsIp = dnsInit fd dnsIp := by
  rw [dnsInit, dnsInit, if_neg (Int.not_lt.mpr h), if_neg (Int.not_lt.mpr (Int.natCast_nonneg fd))]

/-- The number of the socket does not show in the request. -/
theorem requested_socket {dnsIp : UInt32} {name : CName} (h : 0 ≤ a.socket) (fd : Nat) :
    requested dnsIp name { a with socket := fd } = requested dnsIp name a := by
  rw [requested, requested, dnsInit_socket h fd]

/-- The number of the socket does not show in what is received. -/
theorem receive_socket {dnsIp : UInt32} {name : CName} (h : 0 ≤ a.socket) (fd : Nat) :
    receive dnsIp name { a with socket := fd } = receive dnsIp name a := by
  rw [receive, receive, requested_socket h fd]

/-- **A turn**: the same calls as without descriptors; where the next turn is reached, nothing is
    left open but what the calls leak. -/
theorem attemptServerSockets_leaks (hreturns : ∀ i, a.returns i = (outcomes i).comesBack)
    (dnsIp : UInt32) (name : CName) {d : Descriptors} (hd : d.Std) :
    (attemptServerSockets dnsIp name a outcomes d).1 = attemptServer dnsIp name a ∧
      ((attemptServer dnsIp name a).ending = .stopped →
        d.Grown (leaked outcomes 0 (attemptServer dnsIp name a).calls.length)
          (attemptServerSockets dnsIp name a outcomes d).2) := by
  rw [attemptServerSockets, attemptServer]
  -- an address is tried once, without a resolver
  by_cases haddress : a.address ≠ inaddrNone
  · obtain ⟨hback, hgrown⟩ := attemptRemoteSockets_leaks (outcomes 0) hd
    rw [if_pos haddress, if_pos haddress]
    dsimp only
    rw [hback, hreturns 0]
    exact ⟨rfl, fun _ => hgrown⟩
  rw [if_neg haddress, if_neg haddress]
  -- the socket of the resolver is open while the records are tried, and closed behind the loop
  by_cases hsocket : 0 ≤ a.socket
  · have hinit : ¬ (dnsInit a.socket dnsIp).1 ≠ 0 := by
      rw [dnsInit, if_neg (Int.not_lt.mpr hsocket)]
      exact not_not.mpr rfl
    have hopen : d.socket (decide (0 ≤ a.socket)) = (some (lowest d.held), (d.socket true).2) := by
      rw [decide_eq_true hsocket]
      rfl
    have hclosed : d.Grown 0 ((d.socket true).2.close (lowest d.held)) :=
      (Descriptors.Grown.refl _).close
    rw [if_neg hinit, hopen]
    dsimp only
    rw [requested_socket hsocket, receive_socket hsocket]
    by_cases hcode : (requested dnsIp name a).code ≠ 0
    · rw [if_pos hcode, if_pos hcode]
      exact ⟨rfl, fun _ => hclosed⟩
    rw [if_neg hcode, if_neg hcode]
    generalize receive dnsIp name a = w
    cases hw : w.code with
    -- killed in `dns_receive`: no ending that goes on
    | none => exact ⟨rfl, fun hending => absurd hending (by simp)⟩
    | some code =>
      cases code with
      | zero =>
        generalize w.records (requested dnsIp name a).dns ++ a.beyond = memory
        obtain ⟨hdial, hgrown⟩ :=
          dialLoopSockets_leaks hreturns memory 0 _ ((grown_socket d).std hd)
        refine ⟨hdial, fun hending => ?_⟩
        have hstopped : (dialLoop a.returns 0 memory).ending = .stopped := hending
        show d.Grown (leaked outcomes 0 (dialLoop a.returns 0 memory).calls.length) (if _ then _ else _)
        rw [hdial, if_pos hstopped]
        exact hgrown.close
      | succ code => exact ⟨rfl, fun _ => hclosed⟩
  · have hinit : (dnsInit a.socket dnsIp).1 ≠ 0 := by
      rw [dnsInit, if_pos (Int.not_le.mp hsocket)]
      exact Nat.one_ne_zero
    rw [if_pos hinit, decide_eq_false hsocket]
    exact ⟨rfl, fun _ => Descriptors.Grown.refl d⟩

end

/-! ## The run -/

/-- A world, and what becomes of the calls of `attempt_remote`: by the turn, and in it by number. -/
structure Network extends World where
  outcomes : Nat → Nat → Outcomes
  /-- A call returns where its system calls let it. -/
  returns : ∀ n i, (answers n).returns i = (outcomes n i).comesBack

/-- Where a run has got to. -/
structure Run where
  dials : List Dial
  descriptors : Descriptors

/-- Every turn came back. -/
def Run.goesOn (r : Run) : Bool := r.dials.all fun d => d.ending = .stopped

/-- What is done while a file is open; `fopen` takes the lowest number, too. -/
def withFile (f : Run → Run) (r : Run) : Run :=
  if r.goesOn then
    let r' := f { r with descriptors := (r.descriptors.socket true).2 }
    if r'.goesOn then { r' with descriptors := r'.descriptors.close (lowest r.descriptors.held) }
    else r'
  else r

section

variable (net : Network)

/-- One turn of the loop over the servers, on descriptors. -/
def tryServerSockets (dnsIp : Bytes) (r : Run) (e : CName) : Run :=
  if r.goesOn then
    let n := r.dials.length
    let (dial, d) := attemptServerSockets (net.inetAddr dnsIp) e (net.turn n e) (net.outcomes n)
      r.descriptors
    ⟨r.dials ++ [dial], d⟩
  else r

/-- `attempt_dns` -/
def attemptDnsSockets (r : Run) (dnsIp : Bytes) : Run :=
  lifelineServers.foldl (tryServerSockets net dnsIp) r

/-- `parse_resolvconf`: the file is open while its resolvers are tried. -/
def parseResolvconfSockets (filename : Bytes) (r : Run) : Run :=
  match net.files filename with
  | none => r
  | some file => withFile (fun r => (nameservers file).foldl (attemptDnsSockets net) r) r

/-- `main` -/
def mainSockets (held : Finset Nat) : Run :=
  dnsResolvers.foldl (fun r re =>
    if re.head? = some 0x2f then parseResolvconfSockets net re r else attemptDnsSockets net r re)
    ⟨[], Descriptors.of held⟩

/-- What the calls of all turns leave open. -/
def leakedTurns (dials : List Dial) : Nat :=
  (dials.zipIdx.map fun (dial, n) => leaked (net.outcomes n) 0 dial.calls.length).sum

/-- One turn more, and what its calls leak. -/
theorem leakedTurns_append (dials : List Dial) (dial : Dial) :
    leakedTurns net (dials ++ [dial]) =
      leakedTurns net dials + leaked (net.outcomes dials.length) 0 dial.calls.length := by
  rw [leakedTurns, leakedTurns, List.zipIdx_append, List.map_append, List.sum_append, Nat.zero_add]
  rfl

/-! ## What a step may do -/

/-- From `r` to `r'` only what the calls in between leak stayed open. -/
def Keeps (r r' : Run) : Prop :=
  r'.goesOn = true → r.goesOn = true ∧ r.descriptors.held ⊆ r'.descriptors.held ∧
    r'.descriptors.held.card + leakedTurns net r.dials =
      r.descriptors.held.card + leakedTurns net r'.dials

/-- What is needed of a run that goes on. -/
def Run.Std (r : Run) : Prop := r.goesOn = true → r.descriptors.Std

variable {net}

theorem Keeps.refl (r : Run) : Keeps net r r := fun h => ⟨h, Finset.Subset.refl _, rfl⟩

/-- Two steps, one after the other. -/
theorem Keeps.trans {r r' r'' : Run} (h : Keeps net r r') (h' : Keeps net r' r'') :
    Keeps net r r'' := by
  intro hgoes
  obtain ⟨hgoes', hheld', hcard'⟩ := h' hgoes
  obtain ⟨hgoes, hheld, hcard⟩ := h hgoes'
  exact ⟨hgoes, hheld.trans hheld', by omega⟩

theorem Keeps.std {r r' : Run} (h : Keeps net r r') (hr : r.Std) : r'.Std := by
  intro hgoes
  obtain ⟨hgoes, hheld, -⟩ := h hgoes
  exact ⟨hheld (hr hgoes).input, hheld (hr hgoes).output⟩

variable (net)

/-- `f` does to the turns what `g` does, and keeps the descriptors. -/
def Simulates (f : Run → Run) (g : List Dial → List Dial) : Prop :=
  ∀ r : Run, r.Std → (f r).dials = g r.dials ∧ Keeps net r (f r)

variable {net}

/-- Step after step. -/
theorem Simulates.foldl {α : Type} {f : Run → α → Run} {g : List Dial → α → List Dial}
    (h : ∀ x, Simulates net (f · x) (g · x)) (xs : List α) :
    Simulates net (xs.foldl f) (xs.foldl g) := by
  induction xs with
  | nil => exact fun r _ => ⟨rfl, Keeps.refl r⟩
  | cons x xs ih =>
    intro r hr
    obtain ⟨hdials, hkeeps⟩ := h x r hr
    obtain ⟨hrest, hkeeps'⟩ := ih (f r x) (hkeeps.std hr)
    exact ⟨hrest.trans (congrArg (xs.foldl g) hdials), hkeeps.trans hkeeps'⟩

/-- What is opened before a step and closed behind it does not count. -/
theorem Simulates.withFile {f : Run → Run} {g : List Dial → List Dial} (h : Simulates net f g)
    (hhalted : ∀ r : Run, r.goesOn = false → g r.dials = r.dials) :
    Simulates net (withFile f) g := by
  intro r hr
  rw [Lifeline.withFile]
  cases hgoes : r.goesOn with
  | false => exact ⟨(hhalted r hgoes).symm, Keeps.refl r⟩
  | true =>
    have hopened : Run.Std { r with descriptors := (r.descriptors.socket true).2 } :=
      fun _ => (grown_socket r.descriptors).std (hr hgoes)
    obtain ⟨hdials, hkeeps⟩ := h _ hopened
    rw [if_pos rfl]
    dsimp only
    generalize f { r with descriptors := (r.descriptors.socket true).2 } = r' at hdials hkeeps ⊢
    cases hgoes' : r'.goesOn with
    | false => exact ⟨hdials, fun hno => absurd (hgoes'.symm.trans hno) Bool.false_ne_true⟩
    | true =>
      -- `f` keeps what it finds open, so the file can be closed behind it
      obtain ⟨-, hheld, hcard⟩ := hkeeps hgoes'
      obtain ⟨hbefore, hclosed⟩ := close_opened hheld
      have hone := (grown_socket r.descriptors).card
      rw [if_pos rfl]
      refine ⟨hdials, fun _ => ⟨hgoes, hbefore, ?_⟩⟩
      dsimp only at hcard ⊢
      omega

/-! ## The steps of a run -/

/-- One server. -/
theorem tryServerSockets_simulates (dnsIp : Bytes) (e : CName) :
    Simulates net (tryServerSockets net dnsIp · e) (tryServer net.toWorld dnsIp · e) := by
  intro r hr
  show (tryServerSockets net dnsIp r e).dials = tryServer net.toWorld dnsIp r.dials e ∧
    Keeps net r (tryServerSockets net dnsIp r e)
  rw [tryServerSockets, tryServer]
  cases hgoes : r.goesOn with
  | false =>
    -- after a turn that did not come back, nothing is done any more
    have hnot : ¬ (r.dials.all fun d => d.ending = .stopped) = true := by
      rw [show (r.dials.all fun d => d.ending = .stopped) = false from hgoes]
      exact Bool.false_ne_true
    rw [if_neg Bool.false_ne_true, if_neg hnot]
    exact ⟨rfl, Keeps.refl r⟩
  | true =>
    have hturn : ∀ i, (net.turn r.dials.length e).returns i =
        (net.outcomes r.dials.length i).comesBack := net.returns _
    obtain ⟨hdial, hgrown⟩ := attemptServerSockets_leaks hturn (net.inetAddr dnsIp) e (hr hgoes)
    rw [if_pos rfl, if_pos (show (r.dials.all fun d => d.ending = .stopped) = true from hgoes)]
    dsimp only
    rw [hdial]
    refine ⟨rfl, fun hnext => ?_⟩
    rw [Run.goesOn, List.all_append, Bool.and_eq_true] at hnext
    have hstopped : (attemptServer (net.inetAddr dnsIp) e
        (net.turn r.dials.length e)).ending = .stopped := by
      simpa using hnext.2
    obtain ⟨hheld, hcard⟩ := hgrown hstopped
    refine ⟨hgoes, hheld, ?_⟩
    rw [leakedTurns_append]
    dsimp only
    omega

/-- All servers of one resolver: a loop of the former. -/
theorem attemptDnsSockets_simulates (dnsIp : Bytes) :
    Simulates net (attemptDnsSockets net · dnsIp) (attemptDns net.toWorld · dnsIp) :=
  Simulates.foldl (tryServerSockets_simulates dnsIp) lifelineServers

/-- A turn that does not come back is the last. -/
theorem attemptDns_halted {w : World} {done : List Dial}
    (h : (done.all fun d => d.ending = .stopped) = false) (dnsIp : Bytes) :
    attemptDns w done dnsIp = done := by
  have hone : ∀ e, tryServer w dnsIp done e = done := by
    intro e
    rw [tryServer, h, if_neg Bool.false_ne_true]
  rw [attemptDns]
  induction lifelineServers with
  | nil => rfl
  | cons e servers ih => rw [List.foldl_cons, hone, ih]

/-- The file is opened and closed around the loop over its lines. -/
theorem parseResolvconfSockets_simulates (filename : Bytes) :
    Simulates net (parseResolvconfSockets net filename)
      (parseResolvconf net.toWorld filename) := by
  intro r hr
  rw [parseResolvconfSockets, parseResolvconf]
  cases net.files filename with
  | none => exact ⟨rfl, Keeps.refl r⟩
  | some file =>
    have hresolvers : Simulates net (fun r => (nameservers file).foldl (attemptDnsSockets net) r)
        (fun done => (nameservers file).foldl (attemptDns net.toWorld) done) :=
      Simulates.foldl attemptDnsSockets_simulates (nameservers file)
    refine hresolvers.withFile ?_ r hr
    intro r hgoes
    show (nameservers file).foldl (attemptDns net.toWorld) r.dials = r.dials
    induction nameservers file with
    | nil => rfl
    | cons ip ips ih => rw [List.foldl_cons, attemptDns_halted hgoes, ih]

/-! ## The whole run -/

/-- **What a run of `lifeline` leaves open.**  It goes the way `main` goes; and where it gets to the
    end of `main`, what was open before it is open still, and in addition what the calls of
    `attempt_remote` leaked: no socket of a lookup, and not the file. -/
theorem mainSockets_leaks (net : Network) {held : Finset Nat} (hinput : 0 ∈ held)
    (houtput : 1 ∈ held) :
    (mainSockets net held).dials = main net.toWorld ∧
      ((mainSockets net held).goesOn = true →
        held ⊆ (mainSockets net held).descriptors.held ∧
          (mainSockets net held).descriptors.held.card =
            held.card + leakedTurns net (main net.toWorld)) := by
  have hstep : ∀ re, Simulates net
      (fun r => if re.head? = some 0x2f then parseResolvconfSockets net re r
        else attemptDnsSockets net r re)
      (fun done => if re.head? = some 0x2f then parseResolvconf net.toWorld re done
        else attemptDns net.toWorld done re) := by
    intro re
    by_cases hpath : re.head? = some 0x2f
    · simpa only [if_pos hpath] using parseResolvconfSockets_simulates re
    · simpa only [if_neg hpath] using attemptDnsSockets_simulates re
  obtain ⟨hdials, hkeeps⟩ := Simulates.foldl hstep dnsResolvers ⟨[], Descriptors.of held⟩
    fun _ => ⟨hinput, houtput⟩
  have hrun : (mainSockets net held).dials = main net.toWorld := hdials
  refine ⟨hrun, fun hgoes => ?_⟩
  obtain ⟨-, hheld, hcard⟩ := hkeeps hgoes
  rw [← hrun]
  exact ⟨hheld, hcard⟩

/-! ### Sessions that end -/

theorem leaked_const (o : Outcomes) (first calls : Nat) :
    leaked (fun _ => o) first calls = calls * leaks o := by
  rw [leaked, List.map_const', List.length_range', List.sum_replicate_nat]

/-- Turns whose calls all end alike leak the same for every dial. -/
theorem leakedTurns_const {o : Outcomes} (h : ∀ n, net.outcomes n = fun _ => o) (dials : List Dial) :
    leakedTurns net dials = (dials.map fun dial => dial.calls.length).sum * leaks o := by
  induction dials using List.reverseRecOn with
  | nil => exact (Nat.zero_mul _).symm
  | append_singleton dials dial ih =>
    rw [leakedTurns_append, ih, h, leaked_const, List.map_append, List.sum_append, Nat.add_mul,
      List.map_singleton, List.sum_singleton]

theorem session_accepted : sessionOutcomes.accepted = true := by
  rw [Outcomes.accepted, attemptRemoteSplit_eq]
  decide

theorem session_comesBack : sessionOutcomes.comesBack = true := by
  rw [Outcomes.comesBack, session_accepted]
  decide

/-- Every call of `attempt_remote` comes back there. -/
theorem servedWorld_returns (zone : Zone) (files : Bytes → Option Bytes) (inetAddr : Bytes → UInt32)
    (n i : Nat) : ((servedWorld zone files inetAddr).answers n).returns i = true := by
  unfold servedWorld
  dsimp only
  split
  · rfl
  · rfl

/-- Every server has two addresses, and each call comes to a session that the ssh daemon ends. -/
def lanNetwork : Network where
  toWorld := servedWorld sampleZone sampleFiles sampleInetAddr
  outcomes _ _ := sessionOutcomes
  returns n i := by rw [servedWorld_returns, session_comesBack]

/-- Twenty turns, two calls each. -/
theorem mainSockets_leaks_lan :
    (mainSockets lanNetwork {0, 1, 2}).descriptors.held.card = 3 + 20 * 2 * 2 := by
  have hmain : main lanNetwork.toWorld = (turns sampleFiles).map fun t => dialed sampleZone t.2 :=
    main_served sampleZone_usable
      (servedWorld_served sampleZone sampleFiles sampleInetAddr_names)
  have hleaks : leaks sessionOutcomes = 2 := by
    rw [leaks, session_accepted]
    rfl
  obtain ⟨hrun, hleft⟩ :=
    mainSockets_leaks lanNetwork (show 0 ∈ ({0, 1, 2} : Finset Nat) by decide) (by decide)
  have hgoes : (mainSockets lanNetwork {0, 1, 2}).goesOn = true := by
    rw [Run.goesOn, hrun, hmain]
    decide +kernel
  have houtcomes : ∀ n, lanNetwork.outcomes n = fun _ => sessionOutcomes := fun _ => rfl
  rw [(hleft hgoes).2, leakedTurns_const houtcomes, hmain, hleaks]
  decide +kernel

end

end Safewrt.Lifeline
