/-
  Requests to the portal (hatch/src/services/sentry/src/sentry/portal.rs and proxy.rs).

  1. **Program** — `add_extra_headers` appends what the router knows of the client to a copy of the
     client's headers, and `proxy::request` copies the result header by header.

  2. `values_fetch`: what the portal gets under a name: what the client sent, then what the router
     appended.  Nothing of the client's is removed, whatever its name.

  3. **`truthful_fetch_iff`** — so the portal can rely on the router's headers exactly where the
     client sent none of their names, in any case of their letters.
-/
import Safewrt.Sentry.Hyper

namespace Safewrt.Sentry

open Safewrt.Lib

variable (H : Hyper)

/-! ## `proxy::request` -/

/-- `client::Request` -/
structure OutRequest where
  method : Text
  uri : H.Uri
  headers : H.Headers

/-- `proxy::request`, up to the request it sends.  `ignore_headers` compares names as they are. -/
def request (incUri : H.Uri) (incMethod : Text) (headers : H.Headers) (ignoreHeaders : List Text) :
    OutRequest H :=
  ⟨incMethod, incUri, (H.iter headers).foldl (fun out header =>
    if header.1 ∈ ignoreHeaders then out else H.appendRaw out header.1 header.2) H.empty⟩

/-! ## `portal::fetch` -/

/-- The five names of `portal.rs`. -/
def headerConnectedIp : Text := "X-SC-Sentry-Connected-Ip".toList
def headerConnectedMac : Text := "X-SC-Sentry-Connected-Mac".toList
def headerConnectedHostname : Text := "X-SC-Sentry-Connected-Hostname".toList
def headerSecret : Text := "X-SC-Sentry-Secret".toList
def headerPylon : Text := "X-SC-Sentry-Pylon".toList

/-- What the router says about a client. -/
structure Facts where
  secret : Text
  pylonName : Text
  address : Text
  macAddress : Text
  hostname : Option Text
  deriving Repr, DecidableEq

/-- `add_extra_headers` -/
def addExtraHeaders (headers : H.Headers) (f : Facts) : H.Headers :=
  let headers := H.appendRaw headers headerConnectedIp [f.address]
  let headers := H.appendRaw headers headerConnectedMac [f.macAddress]
  let headers :=
    match f.hostname with
    | some hostname => H.appendRaw headers headerConnectedHostname [hostname]
    | none => headers
  let headers := H.appendRaw headers headerSecret [f.secret]
  H.appendRaw headers headerPylon [f.pylonName]

/-- `portal::fetch` -/
def fetch (incUri : H.Uri) (incMethod : Text) (incHeaders : H.Headers) (f : Facts) : OutRequest H :=
  request H incUri incMethod (addExtraHeaders H incHeaders f) []

/-! ## What the portal gets -/

variable {H}

/-- Appending headers one after the other appends their lines. -/
theorem values_foldl_appendRaw (xs : List (Text × List Text)) (name : Text) :
    ∀ h : H.Headers, H.values (xs.foldl (fun out x => H.appendRaw out x.1 x.2) h) name =
      H.values h name ++ namedLines xs name := by
  induction xs with
  | nil =>
    intro h
    exact (List.append_nil _).symm
  | cons x xs ih =>
    intro h
    rw [List.foldl_cons, ih, H.values_appendRaw, namedLines_cons]
    split
    · rw [List.append_assoc]
    · rfl

/-- A copy without exceptions has the same lines. -/
theorem values_request (incUri : H.Uri) (incMethod : Text) (headers : H.Headers) (name : Text) :
    H.values (request H incUri incMethod headers []).headers name = H.values headers name := by
  have hcopy : (request H incUri incMethod headers []).headers =
      (H.iter headers).foldl (fun out x => H.appendRaw out x.1 x.2) H.empty := by
    unfold request
    simp only [List.not_mem_nil, if_false]
  rw [hcopy, values_foldl_appendRaw, H.values_empty, List.nil_append, ← H.values_iter]

/-- What `add_extra_headers` appends. -/
def Facts.headers (f : Facts) : List (Text × List Text) :=
  [(headerConnectedIp, [f.address]), (headerConnectedMac, [f.macAddress])] ++
    (f.hostname.toList.map fun hostname => (headerConnectedHostname, [hostname])) ++
    [(headerSecret, [f.secret]), (headerPylon, [f.pylonName])]

/-- The five appends of the source, as one loop over the facts. -/
theorem addExtraHeaders_eq (headers : H.Headers) (f : Facts) :
    addExtraHeaders H headers f =
      f.headers.foldl (fun out x => H.appendRaw out x.1 x.2) headers := by
  obtain ⟨secret, pylonName, address, macAddress, hostname⟩ := f
  cases hostname <;> rfl

/-- **Under every name the portal gets the client's lines, then the router's.** -/
theorem values_fetch (incUri : H.Uri) (incMethod : Text) (incHeaders : H.Headers) (f : Facts)
    (name : Text) : H.values (fetch H incUri incMethod incHeaders f).headers name =
      H.values incHeaders name ++ namedLines f.headers name := by
  rw [fetch, values_request, addExtraHeaders_eq, values_foldl_appendRaw]

/-- The five headers of the portal. -/
def portalHeaders : List Text :=
  [headerConnectedIp, headerConnectedMac, headerConnectedHostname, headerSecret, headerPylon]

/-- The names differ by more than case, so each has the one line of the router. -/
theorem namedLines_facts (f : Facts) :
    namedLines f.headers headerConnectedIp = [f.address] ∧
    namedLines f.headers headerConnectedMac = [f.macAddress] ∧
    namedLines f.headers headerConnectedHostname = f.hostname.toList ∧
    namedLines f.headers headerSecret = [f.secret] ∧
    namedLines f.headers headerPylon = [f.pylonName] := by
  obtain ⟨secret, pylonName, address, macAddress, hostname⟩ := f
  cases hostname <;> exact ⟨rfl, rfl, rfl, rfl, rfl⟩

/-- The portal gets what the router determined, and nothing else, under the five names. -/
def Truthful (out : OutRequest H) (f : Facts) : Prop :=
  H.values out.headers headerConnectedIp = [f.address] ∧
  H.values out.headers headerConnectedMac = [f.macAddress] ∧
  H.values out.headers headerConnectedHostname = f.hostname.toList ∧
  H.values out.headers headerSecret = [f.secret] ∧
  H.values out.headers headerPylon = [f.pylonName]

/-- **Which requests reach the portal with the router's values alone.** -/
theorem truthful_fetch_iff (incUri : H.Uri) (incMethod : Text) (incHeaders : H.Headers)
    (f : Facts) : Truthful (fetch H incUri incMethod incHeaders f) f ↔
      ∀ name ∈ portalHeaders, H.values incHeaders name = [] := by
  have hself : ∀ own extra : List Text, own ++ extra = extra ↔ own = [] :=
    fun _ _ => List.append_left_eq_self
  obtain ⟨h1, h2, h3, h4, h5⟩ := namedLines_facts f
  unfold Truthful portalHeaders
  simp only [values_fetch, h1, h2, h3, h4, h5, hself, List.forall_mem_cons, List.not_mem_nil,
    IsEmpty.forall_iff, implies_true, and_true]

end Safewrt.Sentry
