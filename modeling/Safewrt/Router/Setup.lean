/-
  A ROUTER AS GENESIS LEAVES IT, AND THE SENTRY ON IT.

  genesis writes /etc/sentry.url and /etc/config/wireless; the sentry starts from the one, and its
  time control goes by the other.  Each program has its own model; what stands here is about the
  files between them, and every result starts from a run of genesis's `main`.

  1. `sentry_configured` — the service the sentry starts, for any URL in the configuration.

  2. **`portal_reached_iff`** — a client that follows the redirect comes to the configured portal if
     the URL has a path, and only then.

  3. `loaded` — the wireless configuration as uci has it: a section without a name is shown under
     its type and number.

  4. **`hours_never_apply`** — no section that genesis renders is called `wpublica` or `wpublicg`,
     so no run of checks changes anything, whatever the hours.
-/
import Safewrt.Genesis.Main
import Safewrt.Genesis.Wireless
import Safewrt.Sentry.TimeControl
import Safewrt.Sentry.Visit

namespace Safewrt.Router

open Safewrt.Lib Safewrt.Sentry

/-! ## What genesis has written -/

section

variable {w : Genesis.World} {fs after : Genesis.Fs} {c : Genesis.Config}

/-- A file that is emptied first and written once holds what it is written. -/
theorem written_text (hconfig : Genesis.readConfig w fs = some c)
    (hmain : Genesis.main w fs = some after) {path : Text} {text : Genesis.Bytes}
    (hblock : ⟨path, .create, [text]⟩ ∈ Genesis.blocks c w.identity) : after path = some text := by
  rw [Genesis.main_eq hconfig] at hmain
  have hnodup : ((Genesis.blocks c w.identity).map Genesis.Block.path).Nodup := by
    rw [Genesis.blocks_paths]
    exact Genesis.paths_nodup
  rw [Genesis.writeFiles_get _ hmain hnodup _ hblock, Genesis.Block.result_create rfl]
  exact congrArg some (List.append_nil _)

/-- The file of the sentry holds the URL of the configuration and nothing else. -/
theorem written_sentryUrl (hconfig : Genesis.readConfig w fs = some c)
    (hmain : Genesis.main w fs = some after) :
    after "/etc/sentry.url".toList = some (asBytes c.captif.url) :=
  written_text hconfig hmain (by simp [Genesis.blocks])

/-! ## The portal -/

/-- **The service of a configuration**: what is no URI falls back to the default portal, and a URI
    without a host stops the sentry. -/
theorem sentry_configured (hconfig : Genesis.readConfig w fs = some c)
    (hmain : Genesis.main w fs = some after) (H : Hyper) (sentry : Sentry) :
    sentryMain H (after "/etc/sentry.url".toList) sentry =
      let redirectUrl := if (H.parseUri c.captif.url).isSome then c.captif.url else defaultRedirectUrl
      (getRedirectHost H redirectUrl).map fun redirectHost =>
        ⟨redirectUrl, redirectHost, sentry⟩ := by
  have hurl : getRedirectUrl H (some (asBytes c.captif.url)) =
      if (H.parseUri c.captif.url).isSome then c.captif.url else defaultRedirectUrl := by
    rw [getRedirectUrl, Option.bind_some, fromBytes_asBytes]
  rw [written_sentryUrl hconfig hmain, sentryMain, hurl]

/-- **A client that follows the redirect reaches the configured portal** if the URL has a path
    behind its host, and only then. -/
theorem portal_reached_iff (hconfig : Genesis.readConfig w fs = some c)
    (hmain : Genesis.main w fs = some after) {H : Hyper} (hH : H.ParsesHttp) {u : PortalUrl}
    (hurl : c.captif.url = u.text) (sentry : Sentry) :
    ∃ s, sentryMain H (after "/etc/sentry.url".toList) sentry = some s ∧
      ∀ req req' : Request H, Follows (s.handleRedirect req) req' →
        ((∃ host, s.ForPortal req' host) ↔ u.path ≠ []) := by
  have hstarted := sentryMain_url hH u sentry
  rw [written_sentryUrl hconfig hmain, hurl]
  exact ⟨_, hstarted, fun req req' h => follows_portal_iff hH hstarted h⟩

end

/-- A portal without a path. -/
def barePortal : PortalUrl where
  host := "portal.captif.io".toList
  path := []
  hostName := sampleHost_name
  pathName := ⟨Or.inl rfl, List.forall_mem_nil _⟩

/-- The portal of the sample configuration is reached by nobody. -/
theorem portal_reached_bare : ∃ after s,
    Genesis.main Genesis.sampleWorld (Genesis.sampleFs none) = some after ∧
    sentryMain plainHyper (after "/etc/sentry.url".toList) sampleService.sentry = some s ∧
    ∀ req req' : Request plainHyper, Follows (s.handleRedirect req) req' →
      ¬ ∃ host, s.ForPortal req' host := by
  have hmain : ∃ after, Genesis.main Genesis.sampleWorld (Genesis.sampleFs none) = some after := ⟨_, rfl⟩
  obtain ⟨after, hmain⟩ := hmain
  have hconfig : Genesis.readConfig Genesis.sampleWorld (Genesis.sampleFs none) =
      some Genesis.sampleConfig := rfl
  have hurl : Genesis.sampleConfig.captif.url = barePortal.text := by decide
  obtain ⟨s, hs, hreached⟩ :=
    portal_reached_iff hconfig hmain plainHyper_parsesHttp hurl sampleService.sentry
  exact ⟨after, s, hmain, hs, fun req req' h hportal => (hreached req req' h).mp hportal rfl⟩

/-! ## The wireless configuration -/

/-- The name `uci show` has for a section behind others. -/
def shownName (before : List Genesis.Section) (s : Genesis.Section) : List UInt8 :=
  match s.name with
  | some name => asBytes name
  | none =>
    let number := before.countP fun t => t.type == s.type
    asBytes ('@' :: s.type ++ "[".toList ++ Nat.toDigits 10 number ++ "]".toList)

/-- `option` sets a value. -/
def loadOption (s : Section) (x : Text × Text) : Section := s.put (asBytes x.1) (.one (asBytes x.2))

/-- `list` adds one to those that are there. -/
def loadList (s : Section) (x : Text × Text) : Section :=
  let values := match s.get (asBytes x.1) with
    | some (.one v) => [v]
    | some (.many vs) => vs
    | none => []
  s.put (asBytes x.1) (.many (values ++ [asBytes x.2]))

/-- A section as uci has it. -/
def load (before : List Genesis.Section) (s : Genesis.Section) : Section :=
  s.lists.foldl loadList (s.options.foldl loadOption ⟨shownName before s, asBytes s.type, []⟩)

/-- The sections in order; each is named with a view to those before it. -/
def loadedAfter (before : List Genesis.Section) : List Genesis.Section → Wireless
  | [] => []
  | s :: ss => load before s :: loadedAfter (before ++ [s]) ss

/-- The configuration as uci has it. -/
def loaded (ss : List Genesis.Section) : Wireless := loadedAfter [] ss

/-- Every section that is loaded was read from the file. -/
theorem mem_loadedAfter {s : Section} {ss : List Genesis.Section} : ∀ {before : List Genesis.Section},
    s ∈ loadedAfter before ss → ∃ before' t, t ∈ ss ∧ s = load before' t := by
  induction ss with
  | nil =>
    intro before h
    exact absurd h List.not_mem_nil
  | cons t ss ih =>
    intro before h
    rcases List.mem_cons.mp h with rfl | h
    · exact ⟨before, t, List.mem_cons_self, rfl⟩
    · obtain ⟨before', t', ht', hs⟩ := ih h
      exact ⟨before', t', List.mem_cons_of_mem _ ht', hs⟩

/-- A section is shown under its name, or its type and number. -/
theorem load_name (before : List Genesis.Section) (s : Genesis.Section) :
    (load before s).name = shownName before s := by
  have hoptions : ∀ (xs : List (Text × Text)) (t : Section), (xs.foldl loadOption t).name = t.name := by
    intro xs
    induction xs with
    | nil => exact fun t => rfl
    | cons x xs ih => exact fun t => (ih (loadOption t x)).trans (put_name ..)
  have hlists : ∀ (xs : List (Text × Text)) (t : Section), (xs.foldl loadList t).name = t.name := by
    intro xs
    induction xs with
    | nil => exact fun t => rfl
    | cons x xs ih => exact fun t => (ih (loadList t x)).trans (put_name ..)
  rw [load, hlists, hoptions]

/-- A section has only the options it is given. -/
theorem get_put_other {s : Section} {option other : List UInt8} (h : option ≠ other) (v : Value) :
    (s.put option v).get other = s.get other := by
  have hfind : ∀ options : List (List UInt8 × Value),
      (options.map fun x => if x.1 = option then (option, v) else x).find?
        (fun x => x.1 == other) = options.find? fun x => x.1 == other := by
    intro options
    induction options with
    | nil => rfl
    | cons x options ih =>
      rw [List.map_cons, List.find?_cons, List.find?_cons, ih]
      by_cases hx : x.1 = option
      · rw [if_pos hx, beq_false_of_ne h, beq_false_of_ne (by rw [hx]; exact h)]
      · rw [if_neg hx]
  unfold Section.put Section.get
  split
  · rw [hfind]
  · rw [List.find?_append, List.find?_cons_of_neg (by simpa using h), List.find?_nil, Option.or_none]

/-- An option that no line sets is not there. -/
theorem load_get {before : List Genesis.Section} {s : Genesis.Section} {option : List UInt8}
    (hoptions : ∀ x ∈ s.options, asBytes x.1 ≠ option)
    (hlists : ∀ x ∈ s.lists, asBytes x.1 ≠ option) : (load before s).get option = none := by
  have hfold : ∀ (f : Section → Text × Text → Section) (xs : List (Text × Text)),
      (∀ t, ∀ x ∈ xs, (f t x).get option = t.get option) →
        ∀ t, (xs.foldl f t).get option = t.get option := by
    intro f xs
    induction xs with
    | nil => exact fun _ t => rfl
    | cons x xs ih =>
      intro h t
      rw [List.foldl_cons, ih (fun t x' hx' => h t x' (List.mem_cons_of_mem _ hx')),
        h t x List.mem_cons_self]
  rw [load, hfold loadList _ fun t x hx => get_put_other (hlists x hx) _,
    hfold loadOption _ fun t x hx => get_put_other (hoptions x hx) _]
  rfl

/-! ## The hours -/

/-- Checks one after the other: the configuration, and how often `wifi` is run. -/
def checks (U : Uci) (c : Wireless) (requests : List (Option Bool)) : Wireless × Nat :=
  requests.foldl (fun state requested =>
    let (c, activated) := checkPublicWifi U requested state.1
    (c, if activated then state.2 + 1 else state.2)) (c, 0)

/-- Without a section of the public wifi a check changes nothing. -/
theorem checkPublicWifi_none {U : Uci} {c : Wireless} (h : ∀ s ∈ c, ¬ s.Public)
    (requested : Option Bool) :
    checkPublicWifi U requested c = (c, decide (wifiStatus U c ≠ requested.getD true)) := by
  have hset : c.map (setRadios (requested.getD true)) = c := by
    refine (List.map_congr_left fun s hs => ?_).trans (List.map_id c)
    exact if_neg fun hmem => h s hs ((public_iff s).mpr hmem)
  unfold checkPublicWifi
  dsimp only
  rw [changeWifiStatus_both, hset]
  by_cases hne : wifiStatus U c ≠ requested.getD true
  · rw [if_pos hne, decide_eq_true hne]
  · rw [if_neg hne, decide_eq_false hne]

/-- Without a public section, checking changes nothing; it only runs uci again and again. -/
theorem checks_none {U : Uci} {c : Wireless} (h : ∀ s ∈ c, ¬ s.Public)
    (requests : List (Option Bool)) :
    checks U c requests =
      (c, requests.countP fun requested => wifiStatus U c ≠ requested.getD true) := by
  induction requests using List.reverseRecOn with
  | nil => rfl
  | append_singleton requests requested ih =>
    -- the last check finds the configuration as it was at the start
    rw [checks, List.foldl_append, ← checks, ih, List.foldl_cons, List.foldl_nil,
      checkPublicWifi_none h, List.countP_append, List.countP_singleton]
    by_cases hne : wifiStatus U c ≠ requested.getD true
    · simp [hne]
    · simp [hne]

/-- What the sections that genesis renders have in common. -/
structure Rendered (s : Genesis.Section) : Prop where
  name : s.name = none ∨ s.name = some "radioa".toList ∨ s.name = some "radiog".toList
  lists : s.lists = []
  options : ∀ x ∈ s.options, asBytes x.1 ≠ disabled

/-- No access point is rendered with `disabled`. -/
theorem apOptions_names (ap : Genesis.ConfigWifiAp) :
    ∀ x ∈ Genesis.apOptions ap, asBytes x.1 ≠ disabled := by
  unfold Genesis.apOptions
  cases ap.auth with
  | none =>
    simp only [List.forall_mem_cons]
    exact ⟨by decide, by decide, List.forall_mem_nil _⟩
  | some auth =>
    simp only [List.forall_mem_cons]
    exact ⟨by decide, by decide, by decide, List.forall_mem_nil _⟩

/-- The sections of the first radio are of the rendered kind. -/
theorem radioa_rendered (c : Genesis.Config) : ∀ s ∈ Genesis.radioa c, Rendered s := by
  simp only [Genesis.radioa, List.forall_mem_cons]
  refine ⟨⟨Or.inr (Or.inl rfl), rfl, ?_⟩, ⟨Or.inl rfl, rfl, ?_⟩, List.forall_mem_nil _⟩
  · simp only [List.forall_mem_cons]
    exact ⟨by decide, by decide, by decide, by decide, by decide, List.forall_mem_nil _⟩
  · rw [List.forall_mem_append]
    exact ⟨by decide, apOptions_names _⟩

/-- The sections of the second radio are of the rendered kind. -/
theorem radiog_rendered (c : Genesis.Config) : ∀ s ∈ Genesis.radiog c, Rendered s := by
  simp only [Genesis.radiog, List.forall_mem_cons]
  refine ⟨⟨Or.inr (Or.inr rfl), rfl, ?_⟩, ⟨Or.inl rfl, rfl, ?_⟩, List.forall_mem_nil _⟩
  · simp only [List.forall_mem_cons]
    exact ⟨by decide, by decide, by decide, by decide, by decide, List.forall_mem_nil _⟩
  · rw [List.forall_mem_append]
    exact ⟨by decide, apOptions_names _⟩

/-- All sections that genesis renders are. -/
theorem configured_rendered (c : Genesis.Config) : ∀ s ∈ Genesis.configured c, Rendered s := by
  unfold Genesis.configured
  rw [List.forall_mem_append]
  constructor
  · split
    · exact radioa_rendered c
    · exact List.forall_mem_nil _
  · split
    · exact radiog_rendered c
    · exact List.forall_mem_nil _

/-- Such a section is none of the public wifi, and is on. -/
theorem Rendered.load {s : Genesis.Section} (h : Rendered s) (before : List Genesis.Section) :
    ¬ (load before s).Public ∧ (load before s).Enabled := by
  constructor
  · rw [public_iff, load_name, shownName]
    rcases h.name with hname | hname | hname
    · rw [hname]
      -- the name begins with an @
      intro hmem
      have hfirst : ∀ name ∈ publicWifiRadios.map radioSection, name.head? ≠ some 0x40 := by decide
      exact hfirst _ hmem rfl
    · rw [hname]
      show asBytes "radioa".toList ∉ publicWifiRadios.map radioSection
      decide
    · rw [hname]
      show asBytes "radiog".toList ∉ publicWifiRadios.map radioSection
      decide
  · have hlists : ∀ x ∈ s.lists, asBytes x.1 ≠ disabled := by
      rw [h.lists]
      exact List.forall_mem_nil _
    rw [Section.Enabled, load_get h.options hlists]
    exact (Option.some_ne_none _).symm

/-- **The hours never apply.**  On a router that genesis has set up, where no string of the access
    point holds a quote, no run of checks changes the wireless configuration: every interface stays
    on, whatever the hours are, and `wifi` is run at each check that finds it otherwise. -/
theorem hours_never_apply {w : Genesis.World} {fs after : Genesis.Fs} {c : Genesis.Config}
    (hconfig : Genesis.readConfig w fs = some c) (hmain : Genesis.main w fs = some after)
    (hquoteless : c.wifi.ap.public.Quoteless) :
    ∃ text ss, after "/etc/config/wireless".toList = some (asBytes text) ∧
      Genesis.uciRead text = some ss ∧ (∀ s ∈ loaded ss, s.Enabled) ∧
      ∀ (U : Uci) (requests : List (Option Bool)), checks U (loaded ss) requests =
        (loaded ss, requests.countP fun requested =>
          wifiStatus U (loaded ss) ≠ requested.getD true) := by
  refine ⟨_, _, written_text hconfig hmain List.mem_cons_self, Genesis.wireless_read hquoteless,
    ?_, ?_⟩
  · intro s hs
    obtain ⟨before, t, ht, rfl⟩ := mem_loadedAfter hs
    exact ((configured_rendered _ t ht).load before).2
  · intro U requests
    refine checks_none (fun s hs => ?_) requests
    obtain ⟨before, t, ht, rfl⟩ := mem_loadedAfter hs
    exact ((configured_rendered _ t ht).load before).1

/-- Both radios of the sample configuration stay on. -/
theorem hours_never_apply_sample : ∃ after text ss,
    Genesis.main Genesis.sampleWorld (Genesis.sampleFs none) = some after ∧
    after "/etc/config/wireless".toList = some (asBytes text) ∧ Genesis.uciRead text = some ss ∧
    ∀ requests, (checks plainUci (loaded ss) requests).1 = loaded ss := by
  have hmain : ∃ after, Genesis.main Genesis.sampleWorld (Genesis.sampleFs none) = some after := ⟨_, rfl⟩
  obtain ⟨after, hmain⟩ := hmain
  have hconfig : Genesis.readConfig Genesis.sampleWorld (Genesis.sampleFs none) =
      some Genesis.sampleConfig := rfl
  have hquoteless : Genesis.sampleConfig.wifi.ap.public.Quoteless :=
    ⟨by decide, fun auth hauth => absurd hauth (by simp [Genesis.sampleConfig])⟩
  obtain ⟨text, ss, hfile, hread, -, hchecks⟩ := hours_never_apply hconfig hmain hquoteless
  exact ⟨after, text, ss, hmain, hfile, hread, fun requests => by rw [hchecks plainUci requests]⟩

end Safewrt.Router
