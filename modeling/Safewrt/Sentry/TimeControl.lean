/-
  The hours of the public wifi (hatch/src/services/sentry/src/time_control.rs).

  1. `Uci`: the wireless configuration, as sections of options, and what `uci show` prints of it.
     uci itself is a parameter that prints a line for every option.

  2. **`checkPublicWifi`**: one boolean is read from what `uci show` prints, and the radios are set
     if it is not the one that is requested.

  3. **`settled_iff`**: the radios are as requested afterwards if they should be on, or read as
     being on, or are all off already.  One radio that is off makes the whole read as off, so a
     second one that is on stays on (`mixed_radios_stay`).

  Setting a radio changes one option of one section.  `Section.others` is what a section has beside
  it, and `Settled` asks that this, the sections and their order stay as they were.
-/
import Safewrt.Lib.Text

namespace Safewrt.Sentry

open Safewrt.Lib

/-! ## The configuration -/

/-- The value of an option or of a list. -/
inductive Value
  | one (v : List UInt8)
  | many (vs : List (List UInt8))
  deriving Repr, DecidableEq

/-- A section, under the name `uci show` prints for it. -/
structure Section where
  name : List UInt8
  type : List UInt8
  options : List (List UInt8 × Value)
  deriving Repr, DecidableEq

/-- The sections, in the order in which they are shown. -/
abbrev Wireless := List Section

/-- The value of an option: the first that has its name. -/
def Section.get (s : Section) (option : List UInt8) : Option Value :=
  (s.options.find? fun x => x.1 == option).map Prod.snd

/-- An option gets a value, a new one at the end. -/
def Section.put (s : Section) (option : List UInt8) (v : Value) : Section :=
  if s.options.any fun x => x.1 == option then
    { s with options := s.options.map fun x => if x.1 = option then (option, v) else x }
  else { s with options := s.options ++ [(option, v)] }

/-- `uci set wireless.section.option=v`: nothing happens without the section. -/
def uciSet (c : Wireless) (section_ option : List UInt8) (v : Value) : Wireless :=
  c.map fun s => if s.name = section_ then s.put option v else s

/-- `wireless.section.option='v'` -/
def shownOption (section_ option v : List UInt8) : List UInt8 :=
  asBytes "wireless.".toList ++ section_ ++ asBytes ".".toList ++ option ++
    asBytes "='".toList ++ v ++ asBytes "'".toList

/-- What `uci show wireless` prints: among other things, each option with its value. -/
structure Uci where
  shown : Wireless → List UInt8
  shown_option : ∀ {c : Wireless} {s : Section} {option v : List UInt8}, s ∈ c →
    s.get option = some (.one v) → asBytes "'".toList <:+: v ∨
      shownOption s.name option v <:+: shown c

/-! ## `check_public_wifi` -/

/-- `PUBLIC_WIFI_RADIOS` -/
def publicWifiRadios : List Text := ["a".toList, "g".toList]

/-- `wpublica`, `wpublicg` -/
def radioSection (standard : Text) : List UInt8 := asBytes ("wpublic".toList ++ standard)

/-- The one option that time control looks at and sets. -/
def disabled : List UInt8 := asBytes "disabled".toList

/-- `is_pub_wifi_enabled_impl` -/
def isPubWifiEnabledImpl (output : List UInt8) : Bool :=
  publicWifiRadios.all fun standard =>
    !decide (shownOption (radioSection standard) disabled (asBytes "1".toList) <:+: output)

/-- `is_pub_wifi_enabled`, where `uci` runs: `none` if what it prints is not UTF-8. -/
def isPubWifiEnabled (output : List UInt8) : Option Bool :=
  if (ByteArray.mk output.toArray).validateUTF8 then some (isPubWifiEnabledImpl output) else none

/-- `change_wifi_status` -/
def changeWifiStatus (enable : Bool) (standard : Text) (c : Wireless) : Wireless :=
  uciSet c (radioSection standard) disabled
    (.one (if enable then asBytes "0".toList else asBytes "1".toList))

/-- /etc/zealot.pub.tc -/
structure TimeControl where
  upTime : List (List UInt8)
  timezone : Text
  deriving Repr, DecidableEq

/-- `get_current_requested_wifi_status`: the file, where it is there and parses, and the index of
    the weekday with the hour in a timezone, where that is one. -/
def getCurrentRequestedWifiStatus (timeControl : Option TimeControl)
    (now : Text → Option (Nat × UInt8)) : Option Bool :=
  timeControl.bind fun timeControl => (now timeControl.timezone).map fun time =>
    match timeControl.upTime[time.1]? with
    | none => true
    | some dayTimes => if dayTimes.isEmpty then true else dayTimes.any fun t => t == time.2

/-- The wifi should be off if the file is there, parses and has hours for the day, but not this
    one; whatever is missing, it should be on. -/
theorem requested_off_iff {timeControl : Option TimeControl} {now : Text → Option (Nat × UInt8)} :
    (getCurrentRequestedWifiStatus timeControl now).getD true = false ↔
      ∃ t day hour times, timeControl = some t ∧ now t.timezone = some (day, hour) ∧
        t.upTime[day]? = some times ∧ times ≠ [] ∧ hour ∉ times := by
  unfold getCurrentRequestedWifiStatus
  cases timeControl with
  | none => simp
  | some t =>
    cases hnow : now t.timezone with
    | none => simp [hnow]
    | some time =>
      obtain ⟨day, hour⟩ := time
      cases htimes : t.upTime[day]? with
      | none => simp [hnow, htimes]
      | some times =>
        by_cases hempty : times = []
        · simp [hnow, htimes, hempty]
        · simp only [hnow, htimes, hempty, Option.bind_some, Option.map_some, Option.getD_some,
            List.isEmpty_iff, if_false, List.any_eq_false, beq_iff_eq]
          -- an hour of the day is compared with those of the list
          constructor
          · exact fun h => ⟨t, day, hour, times, rfl, hnow, htimes, hempty, fun hm => h hour hm rfl⟩
          · rintro ⟨_, _, _, _, ⟨⟩, htime, hat, -, hnotin⟩ other hm rfl
            rw [hnow] at htime
            obtain ⟨rfl, rfl⟩ := Prod.mk.inj (Option.some.inj htime)
            rw [htimes] at hat
            exact hnotin (Option.some.inj hat ▸ hm)

/-- `wifi_status` -/
def wifiStatus (U : Uci) (c : Wireless) : Bool := (isPubWifiEnabled (U.shown c)).getD false

/-- `check_public_wifi`, with what `get_current_requested_wifi_status` returns: the configuration
    after it, and whether `wifi` is run. -/
def checkPublicWifi (U : Uci) (requested : Option Bool) (c : Wireless) : Wireless × Bool :=
  let reqWifiStatus := requested.getD true
  if wifiStatus U c ≠ reqWifiStatus then
    (publicWifiRadios.foldl (fun c standard => changeWifiStatus reqWifiStatus standard c) c, true)
  else (c, false)

/-! ## One section -/

/-- An interface of the public wifi. -/
def Section.Public (s : Section) : Prop :=
  ∃ standard ∈ publicWifiRadios, s.name = radioSection standard

/-- Its radio sends, unless `disabled` is 1. -/
def Section.Enabled (s : Section) : Prop := s.get disabled ≠ some (.one (asBytes "1".toList))

/-- The section without that option, where it is one of the public wifi. -/
def Section.others (s : Section) : Section :=
  if s.name ∈ publicWifiRadios.map radioSection then
    { s with options := s.options.filter fun x => x.1 != disabled }
  else s

@[simp] theorem put_name (s : Section) (option : List UInt8) (v : Value) :
    (s.put option v).name = s.name := by
  unfold Section.put
  split <;> rfl

theorem put_type (s : Section) (option : List UInt8) (v : Value) :
    (s.put option v).type = s.type := by
  unfold Section.put
  split <;> rfl

/-- An option that is there is found with its new value. -/
theorem find_map_put (option : List UInt8) (v : Value) (options : List (List UInt8 × Value))
    (h : options.any fun x => x.1 == option) :
    (options.map fun x => if x.1 = option then (option, v) else x).find?
      (fun x => x.1 == option) = some (option, v) := by
  induction options with
  | nil => exact absurd h (by simp)
  | cons x options ih =>
    rw [List.map_cons, List.find?_cons]
    by_cases hx : x.1 = option
    · simp [hx]
    · have hrest : options.any fun x => x.1 == option := by
        rw [List.any_cons, beq_false_of_ne hx, Bool.false_or] at h
        exact h
      simp only [hx, if_false, beq_false_of_ne hx]
      exact ih hrest

/-- What is set is there. -/
theorem get_put (s : Section) (option : List UInt8) (v : Value) :
    (s.put option v).get option = some v := by
  unfold Section.put Section.get
  split
  · rename_i h
    rw [find_map_put option v s.options h]
    rfl
  · rename_i h
    rw [Bool.not_eq_true, List.any_eq_false] at h
    rw [List.find?_append, List.find?_eq_none.mpr h]
    simp

/-- The options of other names are as they were. -/
theorem filter_map_put (option : List UInt8) (v : Value) (options : List (List UInt8 × Value)) :
    (options.map fun x => if x.1 = option then (option, v) else x).filter
      (fun x => x.1 != option) = options.filter fun x => x.1 != option := by
  induction options with
  | nil => rfl
  | cons x options ih =>
    rw [List.map_cons, List.filter_cons, List.filter_cons, ih]
    by_cases hx : x.1 = option
    · simp [hx]
    · simp [hx]

/-- No other option changes. -/
theorem filter_put (s : Section) (option : List UInt8) (v : Value) :
    (s.put option v).options.filter (fun x => x.1 != option) =
      s.options.filter fun x => x.1 != option := by
  unfold Section.put
  split
  · exact filter_map_put option v s.options
  · show (s.options ++ [(option, v)]).filter _ = _
    rw [List.filter_append]
    simp

/-- Every option of that name has the new value. -/
theorem mem_put {s : Section} {option : List UInt8} {v : Value} {x : List UInt8 × Value}
    (hx : x ∈ (s.put option v).options) (hname : x.1 = option) : x = (option, v) := by
  unfold Section.put at hx
  split at hx
  · obtain ⟨y, -, rfl⟩ := List.mem_map.mp hx
    by_cases hy : y.1 = option
    · rw [if_pos hy]
    · rw [if_neg hy] at hname
      exact absurd hname hy
  · rename_i hany
    rcases List.mem_append.mp hx with hold | hnew
    · rw [Bool.not_eq_true, List.any_eq_false] at hany
      exact absurd (beq_iff_eq.mpr hname) (hany x hold)
    · exact List.mem_singleton.mp hnew

/-- Setting an option again to the same value changes nothing. -/
theorem put_put (s : Section) (option : List UInt8) (v : Value) :
    (s.put option v).put option v = s.put option v := by
  have hany : (s.put option v).options.any fun x => x.1 == option := by
    obtain ⟨x, hx, -⟩ := Option.map_eq_some_iff.mp (get_put s option v)
    exact List.any_eq_true.mpr ⟨x, List.mem_of_find?_eq_some hx,
      (List.find?_eq_some_iff_append.mp hx).1⟩
  have hmap : (s.put option v).options.map (fun x => if x.1 = option then (option, v) else x) =
      (s.put option v).options := by
    refine (List.map_congr_left fun x hx => ?_).trans (List.map_id _)
    by_cases hname : x.1 = option
    · rw [if_pos hname]
      exact (mem_put hx hname).symm
    · rw [if_neg hname]
      rfl
  rw [Section.put, if_pos hany, hmap]

/-! ## Both radios -/

/-- What `check_public_wifi` sets. -/
def disabledValue (enable : Bool) : Value :=
  .one (if enable then asBytes "0".toList else asBytes "1".toList)

/-- What the two `uci set` do to a section: something only for the public radios. -/
def setRadios (enable : Bool) (s : Section) : Section :=
  if s.name ∈ publicWifiRadios.map radioSection then s.put disabled (disabledValue enable) else s

theorem public_iff (s : Section) : s.Public ↔ s.name ∈ publicWifiRadios.map radioSection := by
  unfold Section.Public
  rw [List.mem_map]
  exact ⟨fun ⟨x, hx, h⟩ => ⟨x, hx, h.symm⟩, fun ⟨x, hx, h⟩ => ⟨x, hx, h.symm⟩⟩

/-- The two calls of `uci set` change each section at most once. -/
theorem changeWifiStatus_both (enable : Bool) (c : Wireless) :
    publicWifiRadios.foldl (fun c standard => changeWifiStatus enable standard c) c =
      c.map (setRadios enable) := by
  have hne : radioSection "a".toList ≠ radioSection "g".toList := by decide
  show uciSet (uciSet c _ _ _) _ _ _ = _
  unfold uciSet
  rw [List.map_map]
  refine List.map_congr_left fun s _ => ?_
  have hmem : s.name ∈ publicWifiRadios.map radioSection ↔
      s.name = radioSection "a".toList ∨ s.name = radioSection "g".toList := by
    simp [publicWifiRadios]
  unfold setRadios
  by_cases ha : s.name = radioSection "a".toList
  · rw [if_pos (hmem.mpr (.inl ha))]
    simp only [Function.comp_apply, ha, if_true, put_name, hne, if_false]
    rfl
  by_cases hg : s.name = radioSection "g".toList
  · rw [if_pos (hmem.mpr (.inr hg))]
    simp only [Function.comp_apply, hg, hne.symm, if_false, if_true]
    rfl
  · rw [if_neg fun h => (hmem.mp h).elim ha hg]
    simp only [Function.comp_apply, ha, if_false, hg]

/-- Setting the radios renames nothing. -/
theorem setRadios_name (enable : Bool) (s : Section) : (setRadios enable s).name = s.name := by
  unfold setRadios
  split
  · exact put_name ..
  · rfl

/-- Setting them twice is setting them once. -/
theorem setRadios_again (enable : Bool) (s : Section) :
    setRadios enable (setRadios enable s) = setRadios enable s := by
  unfold setRadios
  by_cases h : s.name ∈ publicWifiRadios.map radioSection
  · rw [if_pos h, put_name, if_pos h, put_put]
  · rw [if_neg h, if_neg h]

/-- Only `disabled` is set. -/
theorem setRadios_others (enable : Bool) (s : Section) :
    (setRadios enable s).others = s.others := by
  unfold Section.others
  rw [setRadios_name]
  unfold setRadios
  by_cases h : s.name ∈ publicWifiRadios.map radioSection
  · have hoptions := filter_put s disabled (disabledValue enable)
    have htype := put_type s disabled (disabledValue enable)
    rw [if_pos h, if_pos h, if_pos h, hoptions, htype]
  · rw [if_neg h, if_neg h, if_neg h]

/-- A public radio is on afterwards if it was to be on. -/
theorem setRadios_enabled_iff {enable : Bool} {s : Section} (h : s.Public) :
    (setRadios enable s).Enabled ↔ enable = true := by
  unfold setRadios Section.Enabled
  rw [if_pos ((public_iff s).mp h), get_put]
  cases enable <;> decide

/-! ## One check -/

/-- The wireless configuration after a check: both radios are set, or nothing is. -/
theorem checkPublicWifi_fst (U : Uci) (requested : Option Bool) (c : Wireless) :
    (checkPublicWifi U requested c).1 =
      if wifiStatus U c ≠ requested.getD true then c.map (setRadios (requested.getD true))
      else c := by
  unfold checkPublicWifi
  rw [← changeWifiStatus_both, apply_ite Prod.fst]

/-- **The public wifi is as requested after a check**, nothing else changed, and a second check
    changes nothing. -/
structure Settled (U : Uci) (requested : Option Bool) (c c' : Wireless) : Prop where
  radios : ∀ s ∈ c', s.Public → (s.Enabled ↔ requested.getD true = true)
  others : c'.map Section.others = c.map Section.others
  again : (checkPublicWifi U requested c').1 = c'

/-- A check that changes the radios settles them. -/
theorem settled_of_ne {U : Uci} {requested : Option Bool} {c : Wireless}
    (h : wifiStatus U c ≠ requested.getD true) :
    Settled U requested c (checkPublicWifi U requested c).1 := by
  rw [checkPublicWifi_fst, if_pos h]
  refine ⟨?_, ?_, ?_⟩
  · intro s hs hpublic
    obtain ⟨s, hs, rfl⟩ := List.mem_map.mp hs
    refine setRadios_enabled_iff ?_
    unfold Section.Public at hpublic
    rwa [setRadios_name] at hpublic
  · rw [List.map_map]
    exact List.map_congr_left fun s _ => setRadios_others _ s
  · rw [checkPublicWifi_fst]
    split
    · rw [List.map_map]
      exact List.map_congr_left fun s _ => setRadios_again _ s
    · rfl

/-- One that changes nothing leaves the radios as they were. -/
theorem settled_of_eq_iff {U : Uci} {requested : Option Bool} {c : Wireless}
    (h : wifiStatus U c = requested.getD true) :
    Settled U requested c (checkPublicWifi U requested c).1 ↔
      ∀ s ∈ c, s.Public → (s.Enabled ↔ requested.getD true = true) := by
  have hsame : (checkPublicWifi U requested c).1 = c := by
    rw [checkPublicWifi_fst, if_neg (not_not.mpr h)]
  rw [hsame]
  exact ⟨Settled.radios, fun hradios => ⟨hradios, rfl, hsame⟩⟩

/-- Where the wifi reads as on, no radio is off. -/
theorem enabled_of_status {U : Uci} {c : Wireless} (h : wifiStatus U c = true) {s : Section}
    (hs : s ∈ c) (hpublic : s.Public) : s.Enabled := by
  intro hget
  obtain ⟨standard, hstandard, hname⟩ := hpublic
  have himpl : isPubWifiEnabledImpl (U.shown c) = true := by
    unfold wifiStatus isPubWifiEnabled at h
    split at h
    · exact h
    · exact absurd h (by simp)
  have hall := List.all_eq_true.mp himpl standard hstandard
  rw [Bool.not_eq_true', decide_eq_false_iff_not] at hall
  rcases U.shown_option hs hget with hquote | hshown
  · exact absurd hquote (by decide)
  · rw [hname] at hshown
    exact hall hshown

/-- **A check settles the radios** exactly where they should be on, read as on, or are all off. -/
theorem settled_iff (U : Uci) (requested : Option Bool) (c : Wireless) :
    Settled U requested c (checkPublicWifi U requested c).1 ↔
      requested.getD true = true ∨ isPubWifiEnabled (U.shown c) = some true ∨
        ∀ s ∈ c, s.Public → ¬ s.Enabled := by
  have hstatus : wifiStatus U c = true ↔ isPubWifiEnabled (U.shown c) = some true := by
    unfold wifiStatus
    cases isPubWifiEnabled (U.shown c) <;> simp
  rw [← hstatus]
  -- the check acts exactly where status and request differ
  by_cases h : wifiStatus U c = requested.getD true
  · rw [settled_of_eq_iff h]
    cases hrequested : requested.getD true with
    | true =>
      rw [hrequested] at h
      exact iff_of_true (fun s hs hpublic => iff_of_true (enabled_of_status h hs hpublic) rfl)
        (.inl rfl)
    | false =>
      rw [hrequested] at h
      rw [h]
      simp
  · refine iff_of_true (settled_of_ne h) ?_
    cases hrequested : requested.getD true with
    | true => exact .inl rfl
    | false =>
      rw [hrequested, Bool.not_eq_false] at h
      exact .inr (.inl h)

/-! ### One radio off, one on -/

/-- A value as `uci show` prints it. -/
def plainValue : Value → List UInt8
  | .one v => asBytes "'".toList ++ v ++ asBytes "'".toList
  | .many vs => vs.flatMap fun v => asBytes "'".toList ++ v ++ asBytes "' ".toList

/-- One line for the section, one for each option; enough for values without quotes. -/
def plainShown (c : Wireless) : List UInt8 :=
  c.flatMap fun s => asBytes "wireless.".toList ++ s.name ++ asBytes "=".toList ++ s.type ++
    asBytes "\n".toList ++ s.options.flatMap fun x => asBytes "wireless.".toList ++ s.name ++
      asBytes ".".toList ++ x.1 ++ asBytes "=".toList ++ plainValue x.2 ++ asBytes "\n".toList

/-- A piece of a text is found in the text. -/
theorem infix_flatMap {α β : Type} {xs : List α} {x : α} (f : α → List β) (h : x ∈ xs) :
    f x <:+: xs.flatMap f := by
  obtain ⟨pre, post, rfl⟩ := List.append_of_mem h
  rw [List.flatMap_append, List.flatMap_cons, ← List.append_assoc]
  exact ⟨pre.flatMap f, post.flatMap f, rfl⟩

/-- uci as it prints a configuration, one line for each value. -/
def plainUci : Uci where
  shown := plainShown
  shown_option := by
    intro c s option v hs hget
    right
    obtain ⟨x, hx, hv⟩ := Option.map_eq_some_iff.mp hget
    obtain ⟨name, value⟩ := x
    obtain rfl : name = option := beq_iff_eq.mp (List.find?_eq_some_iff_append.mp hx).1
    obtain rfl : value = .one v := hv
    refine List.IsInfix.trans ?_ (infix_flatMap _ hs)
    refine List.IsInfix.trans ?_ (List.suffix_append _ _).isInfix
    refine List.IsInfix.trans ?_ (infix_flatMap _ (List.mem_of_find?_eq_some hx))
    refine ⟨[], asBytes "\n".toList, ?_⟩
    have hquote : asBytes "='".toList = asBytes "=".toList ++ asBytes "'".toList := by decide
    simp only [shownOption, plainValue, hquote, List.nil_append, List.append_assoc]

/-- A public radio of the given standard, with this value of `disabled`. -/
def wpublic (standard value : String) : Section where
  name := radioSection standard.toList
  type := asBytes "wifi-iface".toList
  options := [(asBytes "ssid".toList, .one (asBytes "Free".toList)),
    (disabled, .one (asBytes value.toList))]

/-- The first radio is off, the second is on. -/
def mixedRadios : Wireless := [wpublic "a" "1", wpublic "g" "0"]

/-- **The second radio stays on** when the wifi should be off: the first one is off already. -/
theorem mixed_radios_stay :
    checkPublicWifi plainUci (some false) mixedRadios = (mixedRadios, false) ∧
    wpublic "g" "0" ∈ mixedRadios ∧ (wpublic "g" "0").Public ∧ (wpublic "g" "0").Enabled := by
  have hstatus : wifiStatus plainUci mixedRadios = false := by
    by_contra hon
    rw [Bool.not_eq_false] at hon
    exact enabled_of_status hon (s := wpublic "a" "1") List.mem_cons_self
      ⟨"a".toList, by decide, rfl⟩ (by decide)
  refine ⟨?_, by simp [mixedRadios], ⟨"g".toList, by decide, rfl⟩, by unfold Section.Enabled; decide⟩
  unfold checkPublicWifi
  rw [hstatus]
  rfl

end Safewrt.Sentry
