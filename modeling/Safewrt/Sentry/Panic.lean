/-
  Which requests stop the sentry (hatch/src/services/sentry/src/sentry/service.rs).

  The release profile aborts on a panic, so one call that does not answer ends the process.

  1. What each handler expects of the request and of the router: a client that asks for the portal
     is in the neighbour table, host and target of what is fetched for a client make a URI, and
     iptables runs where a client is authorized.

  2. **`call_answers_iff`**: the requests that get a reply are those for which all of it holds.

  3. `serve_up_iff`: the process survives a run of requests if every one of them is such.

  The expectations are written in the order of `call`: a request is first tested for an
  authorization, and only then answered, so one that authorizes its client and cannot be answered
  leaves a rule behind (`call_fst_eq_iff` of `Sentry.Authorization` is about the first half).
-/
import Safewrt.Lib.Run
import Safewrt.Sentry.Service

set_option linter.dupNamespace false

namespace Safewrt.Sentry

open Safewrt.Lib

variable {H : Hyper} {I : Iptables}

/-! ## What the handlers expect -/

/-- The request is for `host`, and that is the portal. -/
def Service.ForPortal (s : Service) (req : Request H) (host : Host) : Prop :=
  H.host req.headers = some host ∧ host.hostname = s.redirectHost

/-- The request is for `host`, and a page of the portal refers to it. -/
def Service.Referred (s : Service) (req : Request H) (host : Host) : Prop :=
  H.host req.headers = some host ∧
    ∃ referer refUri, H.referer req.headers = some referer ∧ H.parseUri referer = some refUri ∧
      H.uriHost refUri = some s.redirectHost

/-- The request asks for the client at `address` to be authorized. -/
def Request.Authorizes (req : Request H) (address : Text) : Prop :=
  req.remoteAddr = some address ∧ ∃ query, H.uriQuery req.uri = some query ∧ containsSecret query

/-- What `call` expects of a request and of the router. -/
structure Service.Answerable (s : Service) (req : Request H) (env : Env) : Prop where
  /-- iptables starts, where a client that the neighbour table knows is authorized -/
  iptables : ∀ address mac, req.Authorizes address → ipToMac env.neighbours address = some mac →
    ∃ works, env.iptables = .ok works
  /-- the neighbour table knows the client that asks for the portal -/
  neighbour : ∀ host, s.ForPortal req host →
    ∃ address mac, req.remoteAddr = some address ∧ ipToMac env.neighboursPortal address = some mac
  /-- `http://`, the host and the target of what is fetched make a URI -/
  target : ∀ host, s.ForPortal req host ∨ s.Referred req host →
    ∃ uri, H.parseUri (req.target host) = some uri

/-! ## The handlers -/

/-- iptables is only started for a client that is in the neighbour table. -/
theorem authorizeClient_ok_iff (ip : Text) (env : Env) (chain : List I.Rule) :
    (∃ granted, authorizeClient I ip env chain = .ok granted) ↔
      ∀ mac, ipToMac env.neighbours ip = some mac → ∃ works, env.iptables = .ok works := by
  unfold authorizeClient
  cases ipToMac env.neighbours ip with
  | none => exact ⟨fun _ mac h => absurd h (by simp), fun _ => ⟨none, rfl⟩⟩
  | some mac =>
    cases hipt : env.iptables with
    | error e =>
      constructor
      · rintro ⟨granted, h⟩
        exact absurd h (by simp)
      · intro h
        obtain ⟨works, hworks⟩ := h mac rfl
        exact absurd hworks (by simp)
    | ok works =>
      refine ⟨fun _ _ _ => ⟨works, rfl⟩, fun _ => ?_⟩
      cases works <;> exact ⟨_, rfl⟩

/-- It is only started for requests that carry the mark. -/
theorem handleAuthorized_ok_iff (req : Request H) (env : Env) (chain : List I.Rule) :
    (∃ granted, handleAuthorized I req env chain = .ok granted) ↔
      ∀ address mac, req.Authorizes address → ipToMac env.neighbours address = some mac →
        ∃ works, env.iptables = .ok works := by
  unfold handleAuthorized Request.Authorizes
  cases H.uriQuery req.uri with
  | none =>
    refine ⟨fun _ address mac h => ?_, fun _ => ⟨none, rfl⟩⟩
    obtain ⟨-, query, hquery, -⟩ := h
    exact absurd hquery (by simp)
  | some query =>
    -- without the mark in the query nobody is authorized, and nothing can panic
    by_cases hsecret : containsSecret query
    · simp only [hsecret, if_true]
      cases req.remoteAddr with
      | none => exact ⟨fun _ address mac h => absurd h.1 (by simp), fun _ => ⟨none, rfl⟩⟩
      | some ip =>
        refine (authorizeClient_ok_iff ip env chain).trans ⟨?_, ?_⟩
        · rintro h address mac ⟨haddress, -⟩ hmac
          exact h mac (by rw [Option.some.inj haddress]; exact hmac)
        · intro h mac hmac
          exact h ip mac ⟨rfl, query, rfl, hsecret⟩ hmac
    · simp only [hsecret, if_false, Bool.false_eq_true]
      refine ⟨fun _ address mac h => ?_, fun _ => ⟨none, rfl⟩⟩
      obtain ⟨-, query', hquery, hsecret'⟩ := h
      rw [Option.some.inj hquery] at hsecret
      exact absurd hsecret' hsecret

/-- A request for another host, or for none, is left to the next handler. -/
theorem handlePortal_other {s : Service} {req : Request H} {env : Env}
    (h : ∀ host, ¬ s.ForPortal req host) : s.handlePortal req env = .ok none := by
  unfold Service.handlePortal
  cases hhost : H.host req.headers with
  | none => rfl
  | some host => exact if_neg fun hname => h host ⟨hhost, hname⟩

/-- A request for the portal gets it or panics: no other handler sees it. -/
theorem handlePortal_portal_iff {s : Service} {req : Request H} {env : Env} {host : Host}
    (h : s.ForPortal req host) : (∃ out, s.handlePortal req env = .ok out) ↔
      (∃ address mac, req.remoteAddr = some address ∧
        ipToMac env.neighboursPortal address = some mac) ∧
      ∃ uri, H.parseUri (req.target host) = some uri := by
  unfold Service.handlePortal Sentry.fetchPortal
  rw [h.1]
  simp only [h.2, if_true]
  cases req.remoteAddr with
  | none => simp
  | some address =>
    cases H.parseUri (req.target host) with
    | none => simp
    | some uri =>
      cases hmac : ipToMac env.neighboursPortal address with
      | none => simp [Except.map, hmac]
      | some mac => simp [Except.map, hmac]

/-- A request for the portal that is answered is answered by the portal. -/
theorem handlePortal_portal_some {s : Service} {req : Request H} {env : Env} {host : Host}
    {out : Option (OutRequest H)} (h : s.ForPortal req host)
    (hout : s.handlePortal req env = .ok out) : ∃ o, out = some o := by
  obtain ⟨⟨address, mac, haddress, hmac⟩, uri, huri⟩ := (handlePortal_portal_iff h).mp ⟨out, hout⟩
  unfold Service.handlePortal Sentry.fetchPortal at hout
  rw [h.1] at hout
  simp only [h.2, if_true, haddress, huri, hmac, Except.map] at hout
  exact ⟨_, (Except.ok.inj hout).symm⟩

/-- A proxied request needs a host and a target that make a URI. -/
theorem handleReferer_ok_iff (s : Service) (req : Request H) :
    (∃ out, s.handleReferer req = .ok out) ↔
      ∀ host, s.Referred req host → ∃ uri, H.parseUri (req.target host) = some uri := by
  unfold Service.handleReferer Service.Referred
  cases H.host req.headers with
  | none => exact ⟨fun _ host h => absurd h.1 (by simp), fun _ => ⟨none, rfl⟩⟩
  | some host =>
    cases H.referer req.headers with
    | none =>
      refine ⟨fun _ host h => ?_, fun _ => ⟨none, rfl⟩⟩
      obtain ⟨-, referer, refUri, hreferer, -⟩ := h
      exact absurd hreferer (by simp)
    | some referer =>
      cases hparse : H.parseUri referer with
      | none => simp [hparse]
      | some refUri =>
        by_cases hhost : H.uriHost refUri = some s.redirectHost
        · cases htarget : H.parseUri (req.target host) <;> simp [hparse, hhost, htarget]
        · simp [hparse, hhost]

/-! ## `call` -/

/-- The three handlers behind one another: a redirect needs nothing. -/
theorem reply_ok_iff (s : Service) (req : Request H) (env : Env) :
    (∃ reply, s.reply req env = .ok reply) ↔
      (∀ host, s.ForPortal req host → ∃ address mac, req.remoteAddr = some address ∧
        ipToMac env.neighboursPortal address = some mac) ∧
      ∀ host, s.ForPortal req host ∨ s.Referred req host →
        ∃ uri, H.parseUri (req.target host) = some uri := by
  by_cases hportal : ∃ host, s.ForPortal req host
  · -- the request is for the portal, whatever refers to it
    obtain ⟨host, hhost⟩ := hportal
    have honly : ∀ host', s.ForPortal req host' ∨ s.Referred req host' → host' = host := by
      rintro host' (h | h) <;> exact Option.some.inj (h.1.symm.trans hhost.1)
    have hreply : (∃ reply, s.reply req env = .ok reply) ↔
        ∃ out, s.handlePortal req env = .ok out := by
      unfold Service.reply
      cases hout : s.handlePortal req env with
      | error e => simp
      | ok out =>
        obtain ⟨o, rfl⟩ := handlePortal_portal_some hhost hout
        simp
    rw [hreply, handlePortal_portal_iff hhost]
    constructor
    · rintro ⟨hneighbour, htarget⟩
      exact ⟨fun _ _ => hneighbour, fun host' h => by rw [honly host' h]; exact htarget⟩
    · rintro ⟨hneighbour, htarget⟩
      exact ⟨hneighbour host hhost, htarget host (.inl hhost)⟩
  · have hother : ∀ host, ¬ s.ForPortal req host := fun host h => hportal ⟨host, h⟩
    have hreply : (∃ reply, s.reply req env = .ok reply) ↔
        ∃ out, s.handleReferer req = .ok out := by
      unfold Service.reply
      rw [handlePortal_other hother]
      cases s.handleReferer req with
      | error e => simp
      | ok out => cases out <;> simp
    rw [hreply, handleReferer_ok_iff]
    constructor
    · intro h
      exact ⟨fun host hhost => absurd hhost (hother host),
        fun host hhost => h host (hhost.resolve_left (hother host))⟩
    · rintro ⟨-, h⟩ host hhost
      exact h host (.inr hhost)

/-- A reply is given once both halves of `call` come to their end. -/
theorem call_ok_iff (I : Iptables) (s : Service) (req : Request H) (env : Env)
    (chain : List I.Rule) : (∃ reply, (s.call I req env chain).2 = .ok reply) ↔
      (∃ granted, handleAuthorized I req env chain = .ok granted) ∧
        ∃ reply, s.reply req env = .ok reply := by
  unfold Service.call
  cases handleAuthorized I req env chain <;> simp

/-- What `Answerable` asks for is what the two halves need. -/
theorem halves_ok_iff (I : Iptables) (s : Service) (req : Request H) (env : Env)
    (chain : List I.Rule) : ((∃ granted, handleAuthorized I req env chain = .ok granted) ∧
      ∃ reply, s.reply req env = .ok reply) ↔ s.Answerable req env := by
  rw [handleAuthorized_ok_iff, reply_ok_iff]
  constructor
  · rintro ⟨hiptables, hneighbour, htarget⟩
    exact ⟨hiptables, hneighbour, htarget⟩
  · rintro ⟨hiptables, hneighbour, htarget⟩
    exact ⟨hiptables, hneighbour, htarget⟩

/-- **The requests that get a reply.** -/
theorem call_answers_iff (I : Iptables) (H : Hyper) (s : Service) (req : Request H) (env : Env)
    (chain : List I.Rule) :
    (∃ reply, (s.call I req env chain).2 = .ok reply) ↔ s.Answerable req env :=
  (call_ok_iff I s req env chain).trans (halves_ok_iff I s req env chain)

/-! ### A client that the neighbour table does not know -/

/-- The table of a router whose other client answered, and this one not yet. -/
def unresolvedNeighbours : Text :=
  ("192.168.44.231 dev br-public lladdr DE:AD:BE:EF:00:11 REACHABLE\n" ++
    "192.168.44.230 dev br-public  INCOMPLETE\n").toList

/-- A router that has no entry for the client. -/
def unresolvedEnv : Env :=
  { sampleEnv with neighbours := some unresolvedNeighbours,
                   neighboursPortal := some unresolvedNeighbours }

/-- **`GET /` to the portal ends the process** while the client's entry is not complete. -/
theorem portal_panics_unresolved :
    (sampleRequest "/".toList []).remoteAddr = some "192.168.44.230".toList ∧
    (sampleService.call plainIptables (sampleRequest "/".toList []) unresolvedEnv []).2 = .error
      ("Could not get mac address for the following ip address: ".toList ++
        "192.168.44.230".toList) := ⟨rfl, rfl⟩

/-! ## The process -/

/-- One request of a process that runs with `chain`: the chain it leaves, `none` where the process
    aborted. -/
def Service.serve (s : Service) (I : Iptables) (chain : List I.Rule) (turn : Request H × Env) :
    Option (List I.Rule) :=
  match s.call I turn.1 turn.2 chain with
  | (_, .error _) => none
  | (none, .ok _) => some chain
  | (some (_, chain), .ok _) => some chain

/-- The process is up after a request that both halves can serve. -/
theorem serve_up_iff_halves (s : Service) (chain : List I.Rule) (turn : Request H × Env) :
    (∃ chain', s.serve I chain turn = some chain') ↔
      (∃ granted, handleAuthorized I turn.1 turn.2 chain = .ok granted) ∧
        ∃ reply, s.reply turn.1 turn.2 = .ok reply := by
  rw [← call_ok_iff]
  unfold Service.serve
  rcases s.call I turn.1 turn.2 chain with ⟨_ | _, _ | _⟩ <;> simp

/-- **The process survives a run of requests** exactly where it can answer every one of them. -/
theorem serve_up_iff (s : Service) (turns : List (Request H × Env)) : ∀ chain : List I.Rule,
    (∃ chain', run (s.serve I) chain turns = some chain') ↔
      ∀ turn ∈ turns, s.Answerable turn.1 turn.2 := by
  induction turns with
  | nil => intro chain; simp
  | cons turn turns ih =>
    intro chain
    rw [List.forall_mem_cons, ← halves_ok_iff I s turn.1 turn.2 chain, ← serve_up_iff_halves, run_cons]
    cases s.serve I chain turn with
    | none => simp
    | some chain' =>
      simp only [Option.bind_some]
      exact (ih chain').trans ⟨fun h => ⟨⟨chain', rfl⟩, h⟩, And.right⟩

end Safewrt.Sentry
