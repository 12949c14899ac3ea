/-
  Who gets access: runs of the service (hatch/src/services/sentry/src/sentry/service.rs) over the
  iptables chain.

  1. **The router** — the chain, and a log with an entry for every rule the service appends: the
     request it was handling, the MAC and the rule.  Requests arrive one after the other, expired
     rules are swept away between them, and a panic ends the run.

  2. **What a run grants** — `call_log`, for one request; `run_accounted`, for all of them: the log
     has an entry for every admitted request and no others, and every rule of the chain was there
     at the start or is in the log.

  3. **The secret** — `secret_rule_iff`: the service lets in those who present the secret, and only
     those, in the runs where `tos_accepted=true` never comes without it.

  A request carries the `Env` it meets, so the neighbour table and the clock may change between any
  two of them.  `Admitted` is written from what the request and its `Env` hold, not from what `call`
  returns; that it is exactly when `call` appends a rule is `call_grants_iff`.
-/
import Safewrt.Lib.Run
import Safewrt.Sentry.Service

namespace Safewrt.Sentry

open Safewrt.Lib

variable (I : Iptables) (H : Hyper)

/-! ## The router -/

/-- A request, with what the router answers while it is handled. -/
structure Arrival where
  req : Request H
  env : Env

/-- A rule the service appended, and the arrival it was handling. -/
structure Grant where
  arrival : Arrival H
  mac : Text
  rule : I.Rule

/-- What the service has changed so far, and whether it still runs. -/
structure Router where
  chain : List I.Rule
  grants : List (Grant I H)
  crashed : Bool

/-- What happens to the router. -/
inductive Event
  | request (a : Arrival H)
  | sweep (validTime : Option Int) (config : Option Text) (now : Int)

variable {I H}

/-- What `call` added to the chain, as entries of the log. -/
def Arrival.log (a : Arrival H) (chain : List I.Rule) :
    Option (Accept × List I.Rule) → List (Grant I H)
  | none => []
  | some (accept, chain') => (chain'.drop chain.length).map fun rule => ⟨a, accept.mac, rule⟩

/-- One request handled, or one sweep; after a panic no request is handled any more. -/
def Router.step (s : Service) (d : DigitClass) (r : Router I H) :
    Event H → Option (Router I H)
  | .request a =>
    -- `panic = 'abort'` in the release profile
    if r.crashed then none
    else
      let (granted, reply) := s.call I a.req a.env r.chain
      some
        { chain := (granted.map Prod.snd).getD r.chain
          grants := r.grants ++ a.log r.chain granted
          crashed := match reply with
            | .ok _ => false
            | .error _ => true }
  | .sweep validTime config now =>
    match checkForExpired I d validTime config now r.chain with
    | some (_, chain) => some { r with chain := chain }
    | none => some r

/-! ## What a run grants -/

/-- The client is known by the MAC the neighbour table has for its address. -/
def Arrival.client (a : Arrival H) : Option Text :=
  a.req.remoteAddr.bind (ipToMac a.env.neighbours)

/-- The query of the URI contains `word`. -/
def Arrival.Presents (a : Arrival H) (word : Text) : Prop :=
  ∃ query, H.uriQuery a.req.uri = some query ∧ word <:+: query

/-- The request of a known client, with the mark of the portal's button in its query, while
    iptables takes the rule for it. -/
structure Arrival.Admitted (I : Iptables) (a : Arrival H) (mac : Text) (rule : I.Rule) : Prop where
  presents : a.Presents "tos_accepted=true".toList
  client : a.client = some mac
  iptables : a.env.iptables = .ok true
  denotes : I.denote (authorizeSpec mac a.env.now) = some rule

/-- `authorize_client` gets to the end with one rule appended. -/
theorem authorizeClient_eq_iff {ip : Text} {env : Env} {chain chain' : List I.Rule}
    {accept : Accept} :
    authorizeClient I ip env chain = .ok (some (accept, chain')) ↔
      ∃ mac rule, ipToMac env.neighbours ip = some mac ∧ env.iptables = .ok true ∧
        I.denote (authorizeSpec mac env.now) = some rule ∧
        accept = ⟨ip, mac, decimal env.nowMessage⟩ ∧ chain' = chain ++ [rule] := by
  unfold authorizeClient authorizeClientInIptables Iptables.append
  constructor
  · intro h
    split at h
    · exact absurd h (by simp)
    · rename_i mac hmac
      split at h
      · exact absurd h (by simp)
      · exact absurd h (by simp)
      · rename_i hworks
        obtain ⟨chain'', hchain, hpair⟩ := Option.map_eq_some_iff.mp (Except.ok.inj h)
        obtain ⟨rule, hrule, rfl⟩ := Option.map_eq_some_iff.mp hchain
        obtain ⟨rfl, rfl⟩ := Prod.mk.inj hpair
        exact ⟨mac, rule, hmac, hworks, hrule, rfl, rfl⟩
  · rintro ⟨mac, rule, hmac, hworks, hrule, rfl, rfl⟩
    rw [hmac]
    simp only [hworks, hrule, Option.map_some]

/-- `handle_authorized` does so where the query has the mark and the address is known. -/
theorem handleAuthorized_eq_iff {req : Request H} {env : Env} {chain : List I.Rule}
    {x : Accept × List I.Rule} :
    handleAuthorized I req env chain = .ok (some x) ↔
      ∃ query address, H.uriQuery req.uri = some query ∧ containsSecret query = true ∧
        req.remoteAddr = some address ∧ authorizeClient I address env chain = .ok (some x) := by
  unfold handleAuthorized
  constructor
  · intro h
    split at h
    · exact absurd h (by simp)
    · rename_i query hquery
      split at h
      · rename_i hsecret
        split at h
        · exact absurd h (by simp)
        · rename_i address haddress
          exact ⟨query, address, hquery, hsecret, haddress, h⟩
      · exact absurd h (by simp)
  · rintro ⟨query, address, hquery, hsecret, haddress, h⟩
    rw [hquery]
    simp only [hsecret, if_true, haddress, h]

/-- Whom a call authorizes is decided in `handle_authorized`, before anything is fetched. -/
theorem call_fst_eq_iff {s : Service} {req : Request H} {env : Env} {chain : List I.Rule}
    {x : Accept × List I.Rule} :
    (s.call I req env chain).1 = some x ↔ handleAuthorized I req env chain = .ok (some x) := by
  unfold Service.call
  cases handleAuthorized I req env chain with
  | error e => simp
  | ok granted => simp

/-- The client of an address that is known. -/
theorem client_eq {a : Arrival H} {address : Text} (h : a.req.remoteAddr = some address) :
    a.client = ipToMac a.env.neighbours address := by
  unfold Arrival.client
  rw [h, Option.bind_some]

/-- **Whom one request lets in**: the admitted, with the rule for its client. -/
theorem call_grants_iff (s : Service) (a : Arrival H) (chain chain' : List I.Rule) (mac : Text) :
    (∃ accept, (s.call I a.req a.env chain).1 = some (accept, chain') ∧ accept.mac = mac) ↔
      ∃ rule, a.Admitted I mac rule ∧ chain' = chain ++ [rule] := by
  constructor
  · rintro ⟨accept, hcall, rfl⟩
    obtain ⟨query, address, hquery, hsecret, haddress, hauthorize⟩ :=
      handleAuthorized_eq_iff.mp (call_fst_eq_iff.mp hcall)
    obtain ⟨mac, rule, hmac, hworks, hrule, rfl, rfl⟩ := authorizeClient_eq_iff.mp hauthorize
    refine ⟨rule, ⟨⟨query, hquery, of_decide_eq_true hsecret⟩, ?_, hworks, hrule⟩, rfl⟩
    rw [client_eq haddress, hmac]
  · rintro ⟨rule, ⟨⟨query, hquery, hword⟩, hclient, hworks, hrule⟩, rfl⟩
    cases haddress : a.req.remoteAddr with
    | none =>
      rw [Arrival.client, haddress] at hclient
      exact absurd hclient (by simp)
    | some address =>
      rw [client_eq haddress] at hclient
      have hauthorize := authorizeClient_eq_iff.mpr
        ⟨mac, rule, hclient, hworks, hrule, rfl, (rfl : chain ++ [rule] = chain ++ [rule])⟩
      exact ⟨_, call_fst_eq_iff.mpr (handleAuthorized_eq_iff.mpr
        ⟨query, address, hquery, decide_eq_true hword, haddress, hauthorize⟩), rfl⟩

/-- One rule appended is one entry of the log. -/
@[simp] theorem log_append (a : Arrival H) (chain : List I.Rule) (accept : Accept)
    (rule : I.Rule) : a.log chain (some (accept, chain ++ [rule])) = [⟨a, accept.mac, rule⟩] := by
  show ((chain ++ [rule]).drop chain.length).map (Grant.mk a accept.mac) = _
  rw [List.drop_left]
  rfl

/-- One request has an entry in the log exactly if it was admitted. -/
theorem call_log (s : Service) (a : Arrival H) (chain : List I.Rule) (g : Grant I H) :
    g ∈ a.log chain (s.call I a.req a.env chain).1 ↔
      g.arrival = a ∧ a.Admitted I g.mac g.rule := by
  constructor
  · intro hg
    cases hcall : (s.call I a.req a.env chain).1 with
    | none =>
      rw [hcall] at hg
      exact absurd hg List.not_mem_nil
    | some x =>
      obtain ⟨rule, hadmitted, hchain⟩ :=
        (call_grants_iff s a chain x.2 x.1.mac).mp ⟨x.1, hcall, rfl⟩
      rw [hcall, show x = (x.1, chain ++ [rule]) by rw [← hchain], log_append,
        List.mem_singleton] at hg
      subst hg
      exact ⟨rfl, hadmitted⟩
  · rintro ⟨rfl, hadmitted⟩
    obtain ⟨accept, hcall, hmac⟩ :=
      (call_grants_iff s g.arrival chain _ g.mac).mpr ⟨g.rule, hadmitted, rfl⟩
    rw [hcall, log_append, hmac]
    exact List.mem_singleton.mpr rfl

/-- The chain after one request: what was there, and what is logged. -/
theorem call_chain (s : Service) (a : Arrival H) (chain : List I.Rule) :
    (((s.call I a.req a.env chain).1).map Prod.snd).getD chain =
      chain ++ (a.log chain (s.call I a.req a.env chain).1).map Grant.rule := by
  cases hcall : (s.call I a.req a.env chain).1 with
  | none => exact (List.append_nil _).symm
  | some x =>
    obtain ⟨rule, -, hchain⟩ := (call_grants_iff s a chain x.2 x.1.mac).mp ⟨x.1, hcall, rfl⟩
    rw [show x = (x.1, chain ++ [rule]) by rw [← hchain], log_append]
    rfl

/-- A sweep only takes rules away, however it ends. -/
theorem sweepLines_sublist (d : DigitClass) (validTime now : Int) (listed : List Text) :
    ∀ chain : List I.Rule, (sweepLines I d validTime now listed chain).2.Sublist chain := by
  induction listed with
  | nil =>
    intro chain
    exact List.Sublist.refl _
  | cons line listed ih =>
    intro chain
    unfold sweepLines
    split
    · exact ih chain
    · rename_i rule _
      split
      · cases hdelete : I.delete chain rule.toText with
        | none => exact List.Sublist.refl _
        | some chain' =>
          obtain ⟨stored, -, hstored⟩ := Option.bind_eq_some_iff.mp hdelete
          split at hstored
          · rw [← Option.some.inj hstored]
            exact (ih _).trans List.erase_sublist
          · exact absurd hstored (by simp)
      · exact ih chain

/-- The log has the admitted requests, and the chain nothing that is not in the log. -/
structure Accounted (start : List I.Rule) (es : List (Event H)) (r : Router I H) : Prop where
  logged : ∀ g, g ∈ r.grants ↔ Event.request g.arrival ∈ es ∧ g.arrival.Admitted I g.mac g.rule
  chain : ∀ rule ∈ r.chain, rule ∈ start ∨ ∃ g ∈ r.grants, g.rule = rule

/-- A request adds its own entry; a sweep takes rules away, which leaves the log right. -/
theorem step_accounted {s : Service} {d : DigitClass} {start : List I.Rule}
    {es : List (Event H)} {r r' : Router I H} {e : Event H} (hr : Accounted start es r)
    (hstep : Router.step s d r e = some r') : Accounted start (es ++ [e]) r' := by
  cases e with
  | request a =>
    simp only [Router.step] at hstep
    split at hstep
    · exact absurd hstep (by simp)
    · rw [← Option.some.inj hstep]
      refine ⟨fun g => ?_, fun rule hrule => ?_⟩
      · show g ∈ r.grants ++ a.log r.chain (s.call I a.req a.env r.chain).1 ↔ _
        rw [List.mem_append, hr.logged, call_log, List.mem_append, List.mem_singleton,
          Event.request.injEq]
        constructor
        · rintro (⟨hmem, hadmitted⟩ | ⟨rfl, hadmitted⟩)
          · exact ⟨Or.inl hmem, hadmitted⟩
          · exact ⟨Or.inr rfl, hadmitted⟩
        · rintro ⟨hmem | heq, hadmitted⟩
          · exact Or.inl ⟨hmem, hadmitted⟩
          · exact Or.inr ⟨heq, heq ▸ hadmitted⟩
      · -- a rule is an old one, or what the call has appended
        have hchain : rule ∈ r.chain ++
            (a.log r.chain (s.call I a.req a.env r.chain).1).map Grant.rule := by
          rw [← call_chain]
          exact hrule
        rcases List.mem_append.mp hchain with h | h
        · rcases hr.chain rule h with h | ⟨g, hg, hgrule⟩
          · exact Or.inl h
          · exact Or.inr ⟨g, List.mem_append_left _ hg, hgrule⟩
        · obtain ⟨g, hg, hgrule⟩ := List.mem_map.mp h
          exact Or.inr ⟨g, List.mem_append_right _ hg, hgrule⟩
  | sweep validTime config now =>
    -- a sweep grants nothing, and takes rules away at most
    have hkept : r'.grants = r.grants ∧ ∀ rule ∈ r'.chain, rule ∈ r.chain := by
      simp only [Router.step] at hstep
      split at hstep
      · rename_i outcome chain hcheck
        obtain ⟨V, -, hV⟩ := Option.map_eq_some_iff.mp hcheck
        have hsub := sweepLines_sublist (I := I) d V now (I.list r.chain) r.chain
        rw [hV] at hsub
        rw [← Option.some.inj hstep]
        exact ⟨rfl, fun rule hrule => hsub.subset hrule⟩
      · rw [← Option.some.inj hstep]
        exact ⟨rfl, fun rule hrule => hrule⟩
    refine ⟨fun g => ?_, fun rule hrule => ?_⟩
    · rw [hkept.1, hr.logged, List.mem_append, List.mem_singleton]
      simp only [reduceCtorEq, or_false]
    · rw [hkept.1]
      exact hr.chain rule (hkept.2 rule hrule)

/-- **What a run grants**, from any chain. -/
theorem run_accounted {s : Service} {d : DigitClass} {start : List I.Rule}
    {es : List (Event H)} {r : Router I H}
    (hrun : run (Router.step s d) ⟨start, [], false⟩ es = some r) : Accounted start es r := by
  refine run_induction (Accounted start) ⟨fun g => ?_, fun rule hrule => Or.inl hrule⟩
    (fun es r e r' _ hr hstep => step_accounted hr hstep) es r hrun
  constructor
  · intro hg
    exact absurd hg List.not_mem_nil
  · rintro ⟨hmem, -⟩
    exact absurd hmem List.not_mem_nil

/-! ## The secret -/

/-- What the README promises: a rule is appended for the client of the request being handled, which
    presents the secret; and no rule for a client that never does. -/
structure SecretRule (s : Service) (es : List (Event H)) (r : Router I H) : Prop where
  presented : ∀ g ∈ r.grants,
    g.arrival.client = some g.mac ∧ g.arrival.Presents s.sentry.secret.text
  never : ∀ mac, (∀ a, Event.request a ∈ es → a.client = some mac →
    ¬ a.Presents s.sentry.secret.text) → ∀ g ∈ r.grants, g.mac ≠ mac

/-- **Who is let in.**  In every run every rule was there at the start or was appended for the
    client of some request; and the promise is kept in exactly the runs in which every admitted
    request presents the secret as well. -/
theorem secret_rule_iff (I : Iptables) (H : Hyper) (s : Service) (d : DigitClass)
    (start : List I.Rule) (es : List (Event H)) (r : Router I H)
    (hrun : run (Router.step s d) ⟨start, [], false⟩ es = some r) :
    (∀ rule ∈ r.chain, rule ∈ start ∨ ∃ g ∈ r.grants,
      g.rule = rule ∧ I.denote (authorizeSpec g.mac g.arrival.env.now) = some rule) ∧
    (SecretRule s es r ↔ ∀ a, Event.request a ∈ es → ∀ mac rule, a.Admitted I mac rule →
      a.Presents s.sentry.secret.text) := by
  have hr := run_accounted hrun
  refine ⟨fun rule hrule => ?_, ?_⟩
  · rcases hr.chain rule hrule with h | ⟨g, hg, rfl⟩
    · exact Or.inl h
    · exact Or.inr ⟨g, hg, rfl, ((hr.logged g).mp hg).2.denotes⟩
  · constructor
    · intro hsecret a ha mac rule hadmitted
      have hg : (⟨a, mac, rule⟩ : Grant I H) ∈ r.grants :=
        (hr.logged ⟨a, mac, rule⟩).mpr ⟨ha, hadmitted⟩
      exact (hsecret.presented _ hg).2
    · intro hpresents
      -- the log has nothing but admitted requests
      have hall : ∀ g ∈ r.grants, Event.request g.arrival ∈ es ∧
          g.arrival.client = some g.mac ∧ g.arrival.Presents s.sentry.secret.text := by
        intro g hg
        obtain ⟨hmem, hadmitted⟩ := (hr.logged g).mp hg
        exact ⟨hmem, hadmitted.client, hpresents _ hmem _ _ hadmitted⟩
      refine ⟨fun g hg => (hall g hg).2, ?_⟩
      rintro mac hnever g hg rfl
      obtain ⟨hmem, hclient, hsecret⟩ := hall g hg
      exact hnever g.arrival hmem hclient hsecret

/-! ### With and without the secret -/

/-- The client comes back from the portal's button, and is swept away a day later. -/
def buttonEvents (uri : Text) : List (Event plainHyper) :=
  [.request ⟨sampleRequest uri [], sampleEnv⟩, .sweep none none 1510086401]

/-- What the button of the portal leads to. -/
def secretUri : Text := "/?tos_accepted=true&secret=kX2v9QpL0aZr7TmB".toList

theorem secretUri_runs : (run (Router.step (I := plainIptables) sampleService asciiDigits)
    ⟨[], [], false⟩ (buttonEvents secretUri)).isSome = true := by decide +kernel

/-- With the secret in every marked request the rule holds. -/
theorem secret_rule_iff_button : SecretRule sampleService (buttonEvents secretUri)
    ((run (Router.step (I := plainIptables) sampleService asciiDigits) ⟨[], [], false⟩
      (buttonEvents secretUri)).get secretUri_runs) := by
  refine (secret_rule_iff plainIptables plainHyper sampleService asciiDigits [] _ _
    (Option.some_get secretUri_runs).symm).2.mpr ?_
  intro a ha mac rule _
  have hquery : plainHyper.uriQuery secretUri =
      some "tos_accepted=true&secret=kX2v9QpL0aZr7TmB".toList := by decide
  simp only [buttonEvents, List.mem_cons, Event.request.injEq, reduceCtorEq, List.not_mem_nil,
    or_false] at ha
  rw [ha]
  exact ⟨_, hquery, by decide⟩

/-- The same without the secret. -/
def markArrival : Arrival plainHyper := ⟨sampleRequest "/?tos_accepted=true".toList [], sampleEnv⟩

/-- The rule it gets. -/
def markGrant : Grant plainIptables plainHyper :=
  ⟨markArrival, "DE:AD:BE:DE:AD:DE".toList,
    PlainRule.accept "DE:AD:BE:DE:AD:DE".toList "timestamp=1510000000".toList⟩

theorem markArrival_runs : run (Router.step sampleService asciiDigits) ⟨[], [], false⟩
    [.request markArrival] = some ⟨[markGrant.rule], [markGrant], false⟩ := rfl

/-- **The mark alone lets a client in** that never saw the secret. -/
theorem mark_grants_access :
    run (Router.step sampleService asciiDigits) ⟨[], [], false⟩ [.request markArrival] =
      some ⟨[markGrant.rule], [markGrant], false⟩ ∧
    ¬ SecretRule sampleService [.request markArrival] ⟨[markGrant.rule], [markGrant], false⟩ := by
  refine ⟨markArrival_runs, ?_⟩
  intro hsecret
  have hquery : plainHyper.uriQuery markArrival.req.uri = some "tos_accepted=true".toList := by
    decide
  obtain ⟨-, query, hquery', hinfix⟩ := hsecret.presented markGrant (List.mem_singleton.mpr rfl)
  rw [show markGrant.arrival = markArrival from rfl, hquery] at hquery'
  rw [← Option.some.inj hquery'] at hinfix
  exact absurd hinfix (by decide)

end Safewrt.Sentry
