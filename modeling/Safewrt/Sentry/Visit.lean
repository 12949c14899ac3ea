/-
  A VISIT (hatch/src/services/sentry/src/sentry/mod.rs and service.rs).

  The documentation of `Service` says how a client gets access: its first request is redirected, it
  asks for the portal and is served, it presses the button and is authorized.

  1. `sentryMain` — where the service has its portal from: the file at /etc/sentry.url, or a
     default.

  2. `browse` — where a browser goes for a `Location`, and what it asks for there.

  3. **`follows_portal_iff`** — whoever follows the redirect comes to the portal if the URL has a
     path behind its host, and only then: the location is put behind the URL as it is.  Without a
     path the two run together, and the host the browser asks for is another one.

  4. **`visit_granted`** — the three requests, on a router in any state: the portal is served and
     the client's rule is in the chain.  What the requests meet is assumed in `Visit`: the client
     is in the neighbour table, iptables starts and takes the rule.

  The portal's URL is one of the form `http://host` or `http://host/..` (`PortalUrl`), and the
  parser of hyper is asked to accept such a text and to find its host (`ParsesHttp`).
-/
import Safewrt.Sentry.Authorization
import Safewrt.Sentry.Panic

namespace Safewrt.Sentry

open Safewrt.Lib

/-! ## Starting -/

/-- `DEFAULT_REDIRECT_URL` -/
def defaultRedirectUrl : Text := "http://portal.captif.io/?origin=".toList

/-- `get_redirect_url`; `file` is what is read at the path. -/
def getRedirectUrl (H : Hyper) (file : Option (List UInt8)) : Text :=
  match file.bind fromBytes with
  | some url => if (H.parseUri url).isSome then url else defaultRedirectUrl
  | none => defaultRedirectUrl

/-- `get_redirect_host` -/
def getRedirectHost (H : Hyper) (redirectUrl : Text) : Option Text :=
  (H.parseUri redirectUrl).bind H.uriHost

/-- `sentry_main`, up to the service that every connection gets; `none` where it returns an error
    before it listens. -/
def sentryMain (H : Hyper) (file : Option (List UInt8)) (sentry : Sentry) : Option Service :=
  let redirectUrl := getRedirectUrl H file
  (getRedirectHost H redirectUrl).map fun redirectHost => ⟨redirectUrl, redirectHost, sentry⟩

/-! ## URLs -/

/-- Letters, digits, the dash and the dot. -/
def isHostChar (c : Char) : Bool := c.isAlphanum || c == '-' || c == '.'

/-- The characters of a path and a query. -/
def isUriChar (c : Char) : Bool :=
  '!' ≤ c && c ≤ '~' && c != '"' && c != '<' && c != '>' && c != '\\' && c != '^' &&
    c.toNat != 0x60 && c != '\x7b' && c != '|' && c != '\x7d'

/-- A host without port, user or brackets. -/
structure HostName (host : Text) : Prop where
  nonempty : host ≠ []
  chars : ∀ c ∈ host, isHostChar c = true

/-- Nothing, or a path. -/
structure PathName (path : Text) : Prop where
  slash : path = [] ∨ path.head? = some '/'
  chars : ∀ c ∈ path, isUriChar c = true

/-- `http://host/path` is a URI, and `host` its host. -/
def Hyper.ParsesHttp (H : Hyper) : Prop :=
  ∀ host path, HostName host → PathName path →
    ∃ uri, H.parseUri ("http://".toList ++ (host ++ path)) = some uri ∧ H.uriHost uri = some host

/-- A URL of a portal, without a port. -/
structure PortalUrl where
  host : Text
  path : Text
  hostName : HostName host
  pathName : PathName path

/-- The URL as it stands in the file. -/
def PortalUrl.text (u : PortalUrl) : Text := "http://".toList ++ (u.host ++ u.path)

/-- **A URL in the file is the service's.** -/
theorem sentryMain_url {H : Hyper} (hH : H.ParsesHttp) (u : PortalUrl) (sentry : Sentry) :
    sentryMain H (some (asBytes u.text)) sentry = some ⟨u.text, u.host, sentry⟩ := by
  obtain ⟨uri, hparse, hhost⟩ := hH u.host u.path u.hostName u.pathName
  have hurl : getRedirectUrl H (some (asBytes u.text)) = u.text := by
    rw [getRedirectUrl, Option.bind_some, fromBytes_asBytes]
    exact if_pos (Option.isSome_iff_exists.mpr ⟨uri, hparse⟩)
  have hredirect : getRedirectHost H u.text = some u.host := by
    unfold getRedirectHost PortalUrl.text
    rw [hparse, Option.bind_some, hhost]
  rw [sentryMain, hurl, hredirect]
  rfl

/-! ## The browser -/

/-- What ends the authority of a URL. -/
def isDelimiter (c : Char) : Bool := c == '/' || c == '?' || c == '#'

/-- The authority a browser connects to for a location, and the target it asks for there. -/
def browse (location : Text) : Option (Text × Text) :=
  (strip "http://".toList location).map fun rest =>
    let target := (rest.dropWhile fun c => !isDelimiter c).takeWhile fun c => c != '#'
    (rest.takeWhile fun c => !isDelimiter c,
      if target.head? = some '/' then target else '/' :: target)

/-- The header `Host` for an authority. -/
def hostOf (authority : Text) : Host := ⟨authority.takeWhile fun c => c != ':', authority⟩

/-- The request that a browser sends for a location. -/
def Follows {H : Hyper} (location : Text) (req : Request H) : Prop :=
  ∃ authority target, browse location = some (authority, target) ∧
    H.host req.headers = some (hostOf authority) ∧ H.uriText req.uri = target

/-- Nothing in a host name ends the authority of a URL. -/
theorem not_delimiter {host : Text} (h : HostName host) : ∀ c ∈ host, (!isDelimiter c) = true := by
  intro c hc
  have hchar := h.chars c hc
  rw [Bool.not_eq_true', isDelimiter]
  by_contra hdelimiter
  simp only [Bool.not_eq_false, Bool.or_eq_true, beq_iff_eq] at hdelimiter
  rcases hdelimiter with (rfl | rfl) | rfl
  · exact absurd hchar (by decide)
  · exact absurd hchar (by decide)
  · exact absurd hchar (by decide)

/-- A host name has no port. -/
theorem not_colon {host : Text} (h : HostName host) : ∀ c ∈ host, (c != ':') = true := by
  intro c hc
  have hchar := h.chars c hc
  rw [bne_iff_ne]
  rintro rfl
  exact absurd hchar (by decide)

/-- The host of a URL that has nothing else before its path is that host. -/
theorem hostOf_name {host : Text} (h : HostName host) : hostOf host = ⟨host, host⟩ := by
  rw [hostOf, List.takeWhile_eq_self_iff.mpr (not_colon h)]

/-- With a path the host is the authority, and everything from the path on is asked for. -/
theorem browse_path {host : Text} (h : HostName host) (rest : Text) :
    browse ("http://".toList ++ (host ++ '/' :: rest)) =
      some (host, '/' :: rest.takeWhile fun c => c != '#') := by
  rw [browse, strip_append, Option.map_some]
  dsimp only
  rw [List.takeWhile_append_of_pos (not_delimiter h), List.dropWhile_append_of_pos (not_delimiter h)]
  show some (host ++ [], _) = _
  rw [List.append_nil]
  rfl

/-- The target is the rest of the location, up to a fragment. -/
theorem browsed_location {host : Text} (h : HostName host) (rest : Text) :
    ("http://".toList ++ (host ++ '/' :: rest)).takeWhile (fun c => c != '#') =
      "http://".toList ++ (host ++ '/' :: rest.takeWhile fun c => c != '#') := by
  have hhttp : ∀ c ∈ "http://".toList, (c != '#') = true := List.all_eq_true.mp (by decide)
  have hhost : ∀ c ∈ host, (c != '#') = true := by
    intro c hc
    rw [bne_iff_ne]
    rintro rfl
    exact absurd (h.chars _ hc) (by decide)
  rw [List.takeWhile_append_of_pos hhttp, List.takeWhile_append_of_pos hhost]
  rfl

/-- Without one, what is put behind the host becomes part of it. -/
theorem browse_bare {host : Text} (h : HostName host) (rest : Text) :
    ∃ target, browse ("http://".toList ++ (host ++ ("http://".toList ++ rest))) =
      some (host ++ "http:".toList, target) := by
  rw [browse, strip_append, Option.map_some]
  dsimp only
  rw [List.takeWhile_append_of_pos (not_delimiter h)]
  exact ⟨_, rfl⟩

/-- A location that follows at once belongs to the host: what is looked up is the host name with
    "http" behind it, and what follows the colon is taken for a port. -/
theorem hostOf_bare {host : Text} (h : HostName host) :
    (hostOf (host ++ "http:".toList)).hostname = host ++ "http".toList := by
  show (host ++ "http:".toList).takeWhile _ = _
  rw [List.takeWhile_append_of_pos (not_colon h)]
  rfl

section

variable {H : Hyper} {u : PortalUrl} {s : Service}

/-- The location that a request is redirected to. -/
theorem handleRedirect_eq (hs : s.redirectUrl = u.text) (req : Request H) :
    ∃ origin, s.handleRedirect req =
      "http://".toList ++ (u.host ++ (u.path ++ ("http://".toList ++ origin))) := by
  refine ⟨((H.host req.headers).map Host.hostname).getD [] ++ H.uriText req.uri, ?_⟩
  unfold Service.handleRedirect
  rw [hs]
  unfold PortalUrl.text
  simp only [List.append_assoc]

/-! ## The three requests -/

/-- What a visit needs of the router at a request: iptables starts. -/
def Env.Starts (env : Env) : Prop := ∃ works, env.iptables = .ok works

/-- The client at `address` is in the neighbour table, with `mac`. -/
structure Arrival.From (a : Arrival H) (address mac : Text) : Prop where
  remoteAddr : a.req.remoteAddr = some address
  neighbours : ipToMac a.env.neighbours address = some mac
  neighboursPortal : ipToMac a.env.neighboursPortal address = some mac

/-- A client's requests: one for something else, the one that follows the redirect, and the one that
    the portal's button makes. -/
structure Visit (I : Iptables) (s : Service) (u : PortalUrl) (first second third : Arrival H)
    (mac : Text) (rule : I.Rule) : Prop where
  starts : first.env.Starts ∧ second.env.Starts
  /-- the first request is neither for the portal nor from one of its pages -/
  other : ∀ host, ¬ s.ForPortal first.req host ∧ ¬ s.Referred first.req host
  /-- what it is redirected to can stand in a request -/
  location : ∀ c ∈ s.handleRedirect first.req, isUriChar c = true
  follows : Follows (s.handleRedirect first.req) second.req
  clients : ∃ address, second.From address mac ∧ third.From address mac
  /-- the third is for a page of the portal, with the mark in its query -/
  button : H.host third.req.headers = some (hostOf u.host)
  page : PathName (H.uriText third.req.uri)
  mark : third.Presents "tos_accepted=true".toList
  iptables : third.env.iptables = .ok true
  denotes : I.denote (authorizeSpec mac third.env.now) = some rule

variable {I : Iptables}

/-- A request that can be answered adds to the chain what the log says, and stops nothing. -/
theorem step_answerable (d : DigitClass) {r : Router I H} (hup : r.crashed = false) {a : Arrival H}
    (h : s.Answerable a.req a.env) :
    ∃ r', Router.step s d r (.request a) = some r' ∧ r'.crashed = false ∧
      r'.chain = r.chain ++ (a.log r.chain (s.call I a.req a.env r.chain).1).map Grant.rule := by
  obtain ⟨reply, hreply⟩ := (call_ok_iff I s a.req a.env r.chain).mpr
    ((halves_ok_iff I s a.req a.env r.chain).mpr h)
  refine ⟨⟨((s.call I a.req a.env r.chain).1.map Prod.snd).getD r.chain,
    r.grants ++ a.log r.chain (s.call I a.req a.env r.chain).1, false⟩, ?_, rfl,
    call_chain s a r.chain⟩
  have hup' : ¬ r.crashed = true := by
    rw [hup]
    exact Bool.false_ne_true
  rw [Router.step, if_neg hup']
  rcases hcall : s.call I a.req a.env r.chain with ⟨granted, out⟩
  rw [hcall] at hreply
  obtain rfl : out = .ok reply := hreply
  rfl

/-- A request for something else is answered if iptables starts. -/
theorem answerable_other {a : Arrival H} (hstarts : a.env.Starts)
    (h : ∀ host, ¬ s.ForPortal a.req host ∧ ¬ s.Referred a.req host) :
    s.Answerable a.req a.env where
  iptables := fun _ _ _ _ => hstarts
  neighbour := fun host hhost => absurd hhost (h host).1
  target := fun host hhost => hhost.elim (fun hp => absurd hp (h host).1)
    fun hr => absurd hr (h host).2

/-- A known client's request for a page of the portal is answered with the page. -/
theorem portal_served (hH : H.ParsesHttp) (hs : s.redirectHost = u.host) {a : Arrival H}
    {address mac : Text} (hstarts : a.env.Starts) (hfrom : a.From address mac)
    (hhost : H.host a.req.headers = some (hostOf u.host)) (hpage : PathName (H.uriText a.req.uri)) :
    s.Answerable a.req a.env ∧ ∃ out, s.reply a.req a.env = .ok (.portal out) ∧
      H.parseUri ("http://".toList ++ (u.host ++ H.uriText a.req.uri)) = some out.uri := by
  obtain ⟨uri, hparse, -⟩ := hH u.host _ u.hostName hpage
  have htarget : H.parseUri (a.req.target (hostOf u.host)) = some uri := by
    have htext : (hostOf u.host).text = u.host := rfl
    unfold Request.target
    rw [htext, List.append_assoc, hparse]
  have hname : (hostOf u.host).hostname = s.redirectHost := by
    rw [hostOf_name u.hostName, hs]
  -- the portal is the only host the request can be for
  have honly : ∀ host, H.host a.req.headers = some host → host = hostOf u.host := fun host h =>
    Option.some.inj (h.symm.trans hhost)
  constructor
  · refine ⟨fun _ _ _ _ => hstarts, fun _ _ => ⟨address, mac, hfrom.remoteAddr,
      hfrom.neighboursPortal⟩, fun host h => ?_⟩
    have hsent : H.host a.req.headers = some host := h.elim (·.1) (·.1)
    rw [honly host hsent]
    exact ⟨uri, htarget⟩
  · rw [hparse]
    unfold Service.reply Service.handlePortal Sentry.fetchPortal
    simp only [hhost, hname, if_true, hfrom.remoteAddr, htarget, hfrom.neighboursPortal, Except.map]
    exact ⟨_, rfl, rfl⟩

end

/-! ## Following the redirect -/

section

variable {H : Hyper} {u : PortalUrl} {s : Service}

/-- **Whoever follows the redirect comes to the portal** if its URL has a path, and only then. -/
theorem follows_portal_iff (hH : H.ParsesHttp) {sentry : Sentry}
    (hs : sentryMain H (some (asBytes u.text)) sentry = some s) {req req' : Request H}
    (h : Follows (s.handleRedirect req) req') :
    (∃ host, s.ForPortal req' host) ↔ u.path ≠ [] := by
  rw [sentryMain_url hH] at hs
  obtain rfl := Option.some.inj hs
  obtain ⟨origin, hlocation⟩ := @handleRedirect_eq H u ⟨u.text, u.host, sentry⟩ rfl req
  obtain ⟨authority, target, hbrowse, hhost, -⟩ := h
  rw [hlocation] at hbrowse
  -- the request has one host, the authority of the location
  have hportal : (∃ host, Service.ForPortal ⟨u.text, u.host, sentry⟩ req' host) ↔
      (hostOf authority).hostname = u.host := by
    constructor
    · rintro ⟨host, hsent, hname⟩
      rw [Option.some.inj (hhost.symm.trans hsent)]
      exact hname
    · exact fun hname => ⟨_, hhost, hname⟩
  rw [hportal]
  rcases u.pathName.slash with hpath | hpath
  · obtain ⟨target', hbare⟩ := browse_bare u.hostName origin
    rw [hpath, List.nil_append, hbare] at hbrowse
    obtain ⟨rfl, -⟩ := Prod.mk.inj (Option.some.inj hbrowse)
    rw [hostOf_bare u.hostName, List.append_right_eq_self]
    exact iff_of_false (by decide) (not_not.mpr hpath)
  · obtain ⟨rest, hrest⟩ := List.head?_eq_some_iff.mp hpath
    rw [hrest, List.cons_append, browse_path u.hostName] at hbrowse
    obtain ⟨rfl, -⟩ := Prod.mk.inj (Option.some.inj hbrowse)
    rw [hostOf_name u.hostName]
    exact iff_of_true rfl (by rw [hrest]; exact List.cons_ne_nil _ _)

/-! ## A visit -/

variable {I : Iptables}

/-- **A visit.**  On a running router in any state, the portal is served to whoever follows the
    redirect, with the location of the redirect as its URI; and once the button is pressed, the
    client's rule is in the chain. -/
theorem visit_granted (hH : H.ParsesHttp) {sentry : Sentry}
    (hs : sentryMain H (some (asBytes u.text)) sentry = some s) (hpath : u.path ≠ [])
    {first second third : Arrival H} {mac : Text} {rule : I.Rule}
    (v : Visit I s u first second third mac rule) (d : DigitClass) {r : Router I H}
    (hup : r.crashed = false) :
    (∃ out, s.reply second.req second.env = .ok (.portal out) ∧
      H.parseUri ((s.handleRedirect first.req).takeWhile fun c => c != '#') = some out.uri) ∧
    ∃ r', run (Router.step s d) r [.request first, .request second, .request third] = some r' ∧
      r'.crashed = false ∧ rule ∈ r'.chain := by
  rw [sentryMain_url hH] at hs
  obtain rfl := Option.some.inj hs
  obtain ⟨address, hsecond, hthird⟩ := v.clients
  obtain ⟨origin, hlocation⟩ := @handleRedirect_eq H u ⟨u.text, u.host, sentry⟩ rfl first.req
  -- where the browser goes
  obtain ⟨path, hslash⟩ := List.head?_eq_some_iff.mp (u.pathName.slash.resolve_left hpath)
  have hlegal := v.location
  obtain ⟨authority, target, hbrowse, hhost, htarget⟩ := v.follows
  rw [hlocation, hslash, List.cons_append] at hbrowse hlegal ⊢
  generalize path ++ ("http://".toList ++ origin) = rest at hbrowse hlegal ⊢
  rw [browse_path u.hostName] at hbrowse
  obtain ⟨rfl, rfl⟩ := Prod.mk.inj (Option.some.inj hbrowse)
  rw [browsed_location u.hostName, ← htarget]
  have hpage : PathName (H.uriText second.req.uri) := by
    rw [htarget]
    refine ⟨Or.inr rfl, fun c hc => hlegal c ?_⟩
    refine List.mem_append_right _ (List.mem_append_right _ ?_)
    rcases List.mem_cons.mp hc with rfl | hc
    · exact List.mem_cons_self
    · exact List.mem_cons_of_mem _ ((List.takeWhile_prefix _).subset hc)
  have hportal : (⟨u.text, u.host, sentry⟩ : Service).redirectHost = u.host := rfl
  obtain ⟨hsecondOk, hserved⟩ := portal_served hH hportal v.starts.2 hsecond hhost hpage
  obtain ⟨hthirdOk, -⟩ := portal_served hH hportal ⟨true, v.iptables⟩ hthird v.button v.page
  -- the three steps
  obtain ⟨r₁, hstep₁, hup₁, -⟩ := step_answerable d hup (answerable_other v.starts.1 v.other)
  obtain ⟨r₂, hstep₂, hup₂, -⟩ := step_answerable d hup₁ hsecondOk
  obtain ⟨r₃, hstep₃, hup₃, hchain⟩ := step_answerable d hup₂ hthirdOk
  refine ⟨hserved, r₃, ?_, hup₃, ?_⟩
  · rw [run_cons, hstep₁, Option.bind_some, run_cons, hstep₂, Option.bind_some, run_cons, hstep₃,
      Option.bind_some, run_nil]
  · have hclient : third.client = some mac := (client_eq hthird.remoteAddr).trans hthird.neighbours
    have hgrant : (⟨third, mac, rule⟩ : Grant I H) ∈
        third.log r₂.chain (Service.call I ⟨u.text, u.host, sentry⟩ third.req third.env r₂.chain).1 :=
      (call_log _ third r₂.chain ⟨third, mac, rule⟩).mpr
        ⟨rfl, v.mark, hclient, v.iptables, v.denotes⟩
    rw [hchain]
    exact List.mem_append_right _ (List.mem_map_of_mem hgrant)

end

/-! ### A visit to a plain portal -/

/-- A visible ASCII character is no white space. -/
theorem not_whitespace {c : Char} (h : 0x21 ≤ c.toNat ∧ c.toNat ≤ 0x7e) : isWhitespace c = false := by
  unfold isWhitespace
  simp only [Bool.or_eq_false_iff, Bool.and_eq_false_iff, decide_eq_false_iff_not, beq_eq_false_iff_ne]
  omega

/-- A host name is visible ASCII. -/
theorem hostChar_graph {c : Char} (h : isHostChar c = true) : 0x21 ≤ c.toNat ∧ c.toNat ≤ 0x7e := by
  simp only [isHostChar, Bool.or_eq_true, beq_iff_eq] at h
  rcases h with (h | rfl) | rfl
  · have hval : ((decide (65 ≤ c.val ∧ c.val ≤ 90) || (97 ≤ c.val && c.val ≤ 122)) ||
        (48 ≤ c.val && c.val ≤ 57)) = true := h
    simp only [Bool.or_eq_true, Bool.and_eq_true, decide_eq_true_eq, UInt32.le_iff_toNat_le] at hval
    simp at hval
    omega
  · decide
  · decide

theorem uriChar_graph {c : Char} (h : isUriChar c = true) : 0x21 ≤ c.toNat ∧ c.toNat ≤ 0x7e := by
  simp only [isUriChar, Bool.and_eq_true, decide_eq_true_eq] at h
  obtain ⟨⟨⟨⟨⟨⟨⟨⟨⟨⟨hlow, hhigh⟩, -⟩, -⟩, -⟩, -⟩, -⟩, -⟩, -⟩, -⟩, -⟩ := h
  exact ⟨hlow, hhigh⟩

/-- The plain hyper takes these URIs. -/
theorem plainHyper_parsesHttp : plainHyper.ParsesHttp := by
  intro host path hhost hpath
  have hfree : ¬ ("http://".toList ++ (host ++ path)).any isWhitespace = true := by
    rw [List.any_append, List.any_append, Bool.not_eq_true, Bool.or_eq_false_iff,
      Bool.or_eq_false_iff, List.any_eq_false, List.any_eq_false, List.any_eq_false]
    refine ⟨List.any_eq_false.mp (by decide), fun c hc => ?_, fun c hc => ?_⟩
    · rw [not_whitespace (hostChar_graph (hhost.chars c hc))]
      exact Bool.false_ne_true
    · rw [not_whitespace (uriChar_graph (hpath.chars c hc))]
      exact Bool.false_ne_true
  refine ⟨"http://".toList ++ (host ++ path), if_neg hfree, ?_⟩
  have hname : ∀ c ∈ host, (c != '/' && c != ':') = true := by
    intro c hc
    have hslash : c ≠ '/' := by
      rintro rfl
      exact absurd (not_delimiter hhost _ hc) (by decide)
    rw [Bool.and_eq_true, bne_iff_ne]
    exact ⟨hslash, not_colon hhost c hc⟩
  show (strip "http://".toList ("http://".toList ++ (host ++ path))).map _ = some host
  rw [strip_append, Option.map_some, List.takeWhile_append_of_pos hname]
  rcases hpath.slash with rfl | hslash
  · rw [List.takeWhile_nil, List.append_nil]
  · obtain ⟨rest, rfl⟩ := List.head?_eq_some_iff.mp hslash
    show some (host ++ []) = _
    rw [List.append_nil]

theorem sampleHost_name : HostName "portal.captif.io".toList where
  nonempty := by decide
  chars := List.all_eq_true.mp (by decide)

/-- The default portal, with its path. -/
def samplePortal : PortalUrl where
  host := "portal.captif.io".toList
  path := "/?origin=".toList
  hostName := sampleHost_name
  pathName := ⟨by decide, List.all_eq_true.mp (by decide)⟩

/-- A request of the sample client to `host`. -/
def plainArrival (host uri : String) : Arrival plainHyper where
  req := { sampleRequest uri.toList [] with headers := [("Host".toList, [host.toList])] }
  env := sampleEnv

/-- The client asks for some page. -/
def sampleFirst : Arrival plainHyper := plainArrival "example.org" "/index.html"

/-- The client follows the redirect. -/
def sampleSecond : Arrival plainHyper :=
  plainArrival "portal.captif.io" "/?origin=http://example.org/index.html"

/-- The client presses the button. -/
def sampleThird : Arrival plainHyper := plainArrival "portal.captif.io" "/?tos_accepted=true"

/-- The three requests are a visit. -/
theorem sample_visit : Visit plainIptables sampleService samplePortal sampleFirst sampleSecond
    sampleThird "DE:AD:BE:DE:AD:DE".toList markGrant.rule where
  starts := ⟨⟨true, rfl⟩, true, rfl⟩
  other := by
    have hhost : plainHyper.host sampleFirst.req.headers = some (hostOf "example.org".toList) := rfl
    have hreferer : plainHyper.referer sampleFirst.req.headers = none := rfl
    intro host
    constructor
    · rintro ⟨hsent, hname⟩
      rw [← Option.some.inj (hhost.symm.trans hsent)] at hname
      exact absurd hname (by decide)
    · rintro ⟨-, referer, -, hsent, -⟩
      rw [hreferer] at hsent
      exact absurd hsent (by simp)
  location := List.all_eq_true.mp (by decide)
  follows := ⟨"portal.captif.io".toList, "/?origin=http://example.org/index.html".toList, rfl, rfl, rfl⟩
  clients := ⟨"192.168.44.230".toList, ⟨rfl, rfl, rfl⟩, ⟨rfl, rfl, rfl⟩⟩
  button := rfl
  page := ⟨by decide, List.all_eq_true.mp (by decide)⟩
  mark := ⟨"tos_accepted=true".toList, by decide, List.infix_refl _⟩
  iptables := rfl
  denotes := rfl

theorem sampleService_started :
    sentryMain plainHyper (some (asBytes samplePortal.text)) sampleService.sentry =
      some sampleService :=
  sentryMain_url plainHyper_parsesHttp samplePortal sampleService.sentry

/-- At the end of the visit the client is let in. -/
theorem visit_granted_plain : ∃ r' : Router plainIptables plainHyper,
    run (Router.step sampleService asciiDigits) ⟨[], [], false⟩
      [.request sampleFirst, .request sampleSecond, .request sampleThird] = some r' ∧
    r'.crashed = false ∧ markGrant.rule ∈ r'.chain :=
  (visit_granted plainHyper_parsesHttp sampleService_started (by decide) sample_visit asciiDigits
    rfl).2

end Safewrt.Sentry
