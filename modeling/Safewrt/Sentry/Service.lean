/-
  The HTTP service (hatch/src/services/sentry/src/sentry/service.rs and sentry.rs).

  1. **`Service.call`** in its four parts: a client may be authorized; then the portal is fetched,
     or the request is proxied, or redirected.  Where the code unwraps or expects, `call` is an
     error with the text of the panic.  What the router answers meanwhile (the neighbour table, the
     leases, the clock, whether iptables works) is the `Env` of the request.

  2. `call_portal_iff`: which requests reach the portal with the router's headers and no others of
     those names.
-/
import Safewrt.Sentry.AccessControl
import Safewrt.Sentry.Ip
import Safewrt.Sentry.Portal

set_option linter.dupNamespace false

namespace Safewrt.Sentry

open Safewrt.Lib

/-! ## The service and its requests -/

/-- `SECRET_LENGTH` -/
def secretLength : Nat := 16

/-- What `create_secret` makes. -/
structure Secret where
  text : Text
  length : text.length = secretLength
  ascii : ∀ c ∈ text, c.isAlphanum = true

/-- `Sentry`: the secret of this router and its name. -/
structure Sentry where
  secret : Secret
  pylonName : Text

/-- `Service`: the URL to redirect to, its host, and the sentry. -/
structure Service where
  redirectUrl : Text
  redirectHost : Text
  sentry : Sentry

variable (H : Hyper)

/-- `hyper::server::Request`; the address is as `remote_addr_to_ip` prints it. -/
structure Request where
  remoteAddr : Option Text
  method : Text
  uri : H.Uri
  headers : H.Headers

/-- What the router answers while a request is handled. -/
structure Env where
  /-- `ip n` in `authorize_client` -/
  neighbours : Option Text
  /-- `Local::now().timestamp()`, for the rule and again for the message -/
  now : Int
  nowMessage : Int
  /-- `iptables::new(false)`, with the text of the panic where it fails; then whether the command
      works -/
  iptables : Except Text Bool
  /-- `ip n` in `fetch_portal` -/
  neighboursPortal : Option Text
  /-- the pairs of address and host name in what `ubus call dhcp` prints -/
  leases : Text → Option (List (Text × Text))

/-- What is answered: through the portal, through another host, or by a redirect to `location`. -/
inductive Reply
  | portal (out : OutRequest H)
  | proxied (out : OutRequest H)
  | redirect (location : Text)

variable {H}
variable (I : Iptables)

/-! ## `Sentry` -/

/-- `ubus::get_hostname_for_ip` -/
def getHostnameForIp (leases : Text → Option (List (Text × Text))) (ip : Text) : Option Text :=
  ["ipv4leases".toList, "ipv6leases".toList].findSome? fun kind =>
    (leases kind).bind fun pairs => (pairs.find? fun x => x.1 == ip).map Prod.snd

/-- The message on `/sentry/accept`. -/
structure Accept where
  ip : Text
  mac : Text
  timestamp : Text
  deriving Repr, DecidableEq

/-- `Sentry::authorize_client`: the message it sends and the chain with the new rule, where it gets
    that far. -/
def authorizeClient (ip : Text) (env : Env) (chain : List I.Rule) :
    Except Text (Option (Accept × List I.Rule)) :=
  match ipToMac env.neighbours ip with
  | none => .ok none
  | some mac =>
    match env.iptables with
    | .error e => .error e
    | .ok false => .ok none
    | .ok true =>
      .ok ((authorizeClientInIptables I mac env.now chain).map fun chain =>
        (⟨ip, mac, decimal env.nowMessage⟩, chain))

/-- `Sentry::contains_secret` -/
def containsSecret (query : Text) : Bool := decide ("tos_accepted=true".toList <:+: query)

/-- `Sentry::fetch_portal` -/
def Sentry.fetchPortal (s : Sentry) (ipAddress : Text) (incUri : H.Uri) (incMethod : Text)
    (incHeaders : H.Headers) (env : Env) : Except Text (OutRequest H) :=
  match ipToMac env.neighboursPortal ipAddress with
  | none =>
    .error ("Could not get mac address for the following ip address: ".toList ++ ipAddress)
  | some mac =>
    .ok (fetch H incUri incMethod incHeaders
      ⟨s.secret.text, s.pylonName, ipAddress, mac, getHostnameForIp env.leases ipAddress⟩)

/-- `Sentry::proxy_request` -/
def proxyRequest (incUri : H.Uri) (incMethod : Text) (incHeaders : H.Headers) : OutRequest H :=
  request H incUri incMethod incHeaders ["Referer".toList]

/-! ## `Service` -/

/-- `format!("http://{}{}", host, req.uri().as_ref())` -/
def Request.target (req : Request H) (host : Host) : Text :=
  "http://".toList ++ host.text ++ H.uriText req.uri

/-- `handle_authorized` -/
def handleAuthorized (req : Request H) (env : Env) (chain : List I.Rule) :
    Except Text (Option (Accept × List I.Rule)) :=
  match H.uriQuery req.uri with
  | none => .ok none
  | some query =>
    if containsSecret query then
      match req.remoteAddr with
      | none => .ok none
      | some address => authorizeClient I address env chain
    else .ok none

/-- `handle_portal` -/
def Service.handlePortal (s : Service) (req : Request H) (env : Env) :
    Except Text (Option (OutRequest H)) :=
  match H.host req.headers with
  | none => .ok none
  | some host =>
    if host.hostname = s.redirectHost then
      match req.remoteAddr with
      | none => .error "Could not extract the remote address".toList
      | some address =>
        match H.parseUri (req.target host) with
        | none => .error "Error at building the portal url!".toList
        | some uri => (s.sentry.fetchPortal address uri req.method req.headers env).map some
    else .ok none

/-- `handle_referer` -/
def Service.handleReferer (s : Service) (req : Request H) : Except Text (Option (OutRequest H)) :=
  match H.host req.headers, H.referer req.headers with
  | some host, some referer =>
    match H.parseUri referer with
    | none => .ok none
    | some refUri =>
      if H.uriHost refUri = some s.redirectHost then
        match H.parseUri (req.target host) with
        | none => .error "Error at building the referer url!".toList
        | some uri => .ok (some (proxyRequest uri req.method req.headers))
      else .ok none
  | _, _ => .ok none

/-- `handle_redirect`: the `Location` of the response. -/
def Service.handleRedirect (s : Service) (req : Request H) : Text :=
  let host := ((H.host req.headers).map Host.hostname).getD []
  s.redirectUrl ++ "http://".toList ++ host ++ H.uriText req.uri

/-- The reply of `call`, once `handle_authorized` is done. -/
def Service.reply (s : Service) (req : Request H) (env : Env) : Except Text (Reply H) :=
  match s.handlePortal req env with
  | .error e => .error e
  | .ok (some out) => .ok (.portal out)
  | .ok none =>
    match s.handleReferer req with
    | .error e => .error e
    | .ok (some out) => .ok (.proxied out)
    | .ok none => .ok (.redirect (s.handleRedirect req))

/-- `call`: whom it authorized, and the reply or the panic. -/
def Service.call (s : Service) (req : Request H) (env : Env) (chain : List I.Rule) :
    Option (Accept × List I.Rule) × Except Text (Reply H) :=
  match handleAuthorized I req env chain with
  | .error e => (none, .error e)
  | .ok granted => (granted, s.reply req env)

/-! ## The headers of the portal -/

/-- `f` is what the router determines for this request. -/
def Determined (s : Service) (req : Request H) (env : Env) (f : Facts) : Prop :=
  f.secret = s.sentry.secret.text ∧ f.pylonName = s.sentry.pylonName ∧
    req.remoteAddr = some f.address ∧
    ipToMac env.neighboursPortal f.address = some f.macAddress ∧
    f.hostname = getHostnameForIp env.leases f.address

variable {I}

/-- The request that goes out was made by `fetch`, with the router's facts. -/
theorem handlePortal_eq {s : Service} {req : Request H} {env : Env} {out : OutRequest H}
    (h : s.handlePortal req env = .ok (some out)) :
    ∃ f uri, Determined s req env f ∧ out = fetch H uri req.method req.headers f := by
  unfold Service.handlePortal at h
  split at h
  · exact absurd h (by simp)
  · split at h
    · split at h
      · exact absurd h (by simp)
      · rename_i address haddress
        split at h
        · exact absurd h (by simp)
        · rename_i uri huri
          unfold Sentry.fetchPortal at h
          cases hmac : ipToMac env.neighboursPortal address with
          | none =>
            rw [hmac] at h
            exact absurd h (by simp [Except.map])
          | some mac =>
            rw [hmac] at h
            have hout := Option.some.inj (Except.ok.inj h)
            exact ⟨_, uri, ⟨rfl, rfl, haddress, hmac, rfl⟩, hout.symm⟩
    · exact absurd h (by simp)

/-- The reply of a call is the reply of its second part. -/
theorem call_reply {s : Service} {req : Request H} {env : Env} {chain : List I.Rule}
    {reply : Reply H} (h : (s.call I req env chain).2 = .ok reply) :
    s.reply req env = .ok reply := by
  unfold Service.call at h
  cases hgrant : handleAuthorized I req env chain with
  | error e =>
    rw [hgrant] at h
    exact absurd h (by simp)
  | ok granted =>
    rw [hgrant] at h
    exact h

/-- Only `handle_portal` fetches from the portal. -/
theorem reply_portal {s : Service} {req : Request H} {env : Env} {out : OutRequest H}
    (h : s.reply req env = .ok (.portal out)) : s.handlePortal req env = .ok (some out) := by
  unfold Service.reply at h
  split at h
  · exact absurd h (by simp)
  · rename_i out' hout
    rw [hout, Reply.portal.inj (Except.ok.inj h)]
  · split at h
    · exact absurd h (by simp)
    · exact absurd h (by simp)
    · exact absurd h (by simp)

/-- **The headers of a request forwarded to the portal** are the router's alone exactly where the
    client sent none of those names, in any spelling. -/
theorem call_portal_iff (I : Iptables) (H : Hyper) (s : Service) (req : Request H) (env : Env)
    (chain : List I.Rule) (out : OutRequest H)
    (h : (s.call I req env chain).2 = .ok (.portal out)) :
    ∃ f, Determined s req env f ∧
      (Truthful out f ↔ ∀ name ∈ portalHeaders, H.values req.headers name = []) := by
  obtain ⟨f, uri, hf, rfl⟩ := handlePortal_eq (reply_portal (call_reply h))
  exact ⟨f, hf, truthful_fetch_iff uri req.method req.headers f⟩

/-! ### A portal and one client -/

/-- Sixteen letters and digits, as `generate_secret` makes them. -/
def sampleSecret : Secret :=
  ⟨"kX2v9QpL0aZr7TmB".toList, by decide, List.all_eq_true.mp (by decide)⟩

/-- The default portal. -/
def sampleService : Service where
  redirectUrl := "http://portal.captif.io/?origin=".toList
  redirectHost := "portal.captif.io".toList
  sentry := ⟨sampleSecret, "pylon".toList⟩

/-- One client. -/
def sampleNeighbours : Text :=
  "192.168.44.230 dev br-public lladdr DE:AD:BE:DE:AD:DE REACHABLE\n".toList

/-- A router where everything works. -/
def sampleEnv : Env where
  neighbours := some sampleNeighbours
  now := 1510000000
  nowMessage := 1510000000
  iptables := .ok true
  neighboursPortal := some sampleNeighbours
  leases _ := none

/-- `GET uri` from the portal's host, with further headers. -/
def sampleRequest (uri : Text) (headers : List (Text × List Text)) : Request plainHyper where
  remoteAddr := some "192.168.44.230".toList
  method := "GET".toList
  uri := uri
  headers := ("Host".toList, ["portal.captif.io".toList]) :: headers

/-- A browser sends none of the five names. -/
theorem call_portal_iff_plain : ∃ out f,
    (sampleService.call plainIptables (sampleRequest "/".toList []) sampleEnv []).2 =
      .ok (.portal out) ∧
    Determined sampleService (sampleRequest "/".toList []) sampleEnv f ∧ Truthful out f := by
  have hcall : ∃ out,
      (sampleService.call plainIptables (sampleRequest "/".toList []) sampleEnv []).2 =
        .ok (.portal out) := ⟨_, rfl⟩
  obtain ⟨out, hout⟩ := hcall
  obtain ⟨f, hf, htruthful⟩ := call_portal_iff plainIptables plainHyper sampleService
    (sampleRequest "/".toList []) sampleEnv [] out hout
  have hnone : ∀ name ∈ portalHeaders,
      namedLines [("Host".toList, ["portal.captif.io".toList])] name = [] := by decide
  exact ⟨out, f, hout, hf, htruthful.mpr hnone⟩

/-- A request that names a MAC address of its own choice. -/
def forgedRequest : Request plainHyper :=
  sampleRequest "/".toList [("x-sc-sentry-connected-mac".toList, ["00:00:00:00:00:00".toList])]

/-- What the router determines for it. -/
def sampleFacts : Facts :=
  ⟨sampleSecret.text, "pylon".toList, "192.168.44.230".toList, "DE:AD:BE:DE:AD:DE".toList, none⟩

/-- What the portal gets from a client that sends a MAC of its own. -/
def forgedOut : OutRequest plainHyper :=
  fetch plainHyper "http://portal.captif.io/".toList "GET".toList forgedRequest.headers sampleFacts

/-- The forged one comes first. -/
theorem forged_values : plainHyper.values forgedOut.headers headerConnectedMac =
    ["00:00:00:00:00:00".toList, "DE:AD:BE:DE:AD:DE".toList] := by
  show namedLines _ _ = _
  decide

/-- **The portal gets both addresses**, the client's first. -/
theorem forgedMac_forwarded :
    (sampleService.call plainIptables forgedRequest sampleEnv []).2 = .ok (.portal forgedOut) ∧
    plainHyper.values forgedOut.headers headerConnectedMac =
      ["00:00:00:00:00:00".toList, "DE:AD:BE:DE:AD:DE".toList] ∧
    ∀ f, Determined sampleService forgedRequest sampleEnv f → ¬ Truthful forgedOut f := by
  refine ⟨rfl, forged_values, ?_⟩
  rintro f - ⟨-, hmac, -⟩
  rw [forged_values] at hmac
  exact absurd (congrArg List.length hmac) (by simp)

end Safewrt.Sentry
