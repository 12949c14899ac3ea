/-
  What uci reads in the /etc/config/wireless that genesis renders.

  genesis prints, uci reads, and nobody checks that the two agree.  Both sides are modelled on their
  own here: the template by the text it prints, the reader by what the lines of words of any file
  mean to it.  The template is then shown to be a print of lines (`tplConfigWireless_eq`), which is
  all that connects them.

  1. **`uciRead`**: the sections of a configuration file, from its lines of words.  A `config` line
     opens a section, an `option` or `list` line adds to the last one; anything else is refused.

  2. `configured`: the sections that a configuration means, for each radio that is on.  It is the
     specification, and holds the strings of the configuration as they are.

  3. **`wireless_read`**: as long as no string holds a quote, what is read are the sections of the
     configuration with its strings as they are escaped.

  4. A quote is never read (`uciRead_unquoted`), so a string that holds one is lost whatever the
     rest of the file turns into; and an escaped string is another one.  `wireless_faithful_iff`
     says exactly which configurations survive: those without a quote and without what HTML
     escapes.
-/
import Safewrt.Genesis.Config
import Safewrt.Lib.Words

namespace Safewrt.Genesis

open Safewrt.Lib Safewrt.Lib.Words

/-! ## The reader -/

/-- A section of a configuration file. -/
structure Section where
  type : Text
  name : Option Text
  options : List (Text × Text)
  lists : List (Text × Text)
  deriving Repr, DecidableEq

/-- A change of the last section. -/
def amend (f : Section → Section) : List Section → Option (List Section)
  | [] => none
  | [s] => some [f s]
  | s :: t :: rest => (amend f (t :: rest)).map (s :: ·)

/-- One line. -/
def command (sections : List Section) : List Text → Option (List Section)
  | [] => some sections
  | keyword :: args =>
    if keyword = "config".toList then
      match args with
      | [type] => some (sections ++ [⟨type, none, [], []⟩])
      | [type, name] => some (sections ++ [⟨type, some name, [], []⟩])
      | _ => none
    else if keyword = "option".toList then
      match args with
      | [name, value] =>
        amend (fun s => { s with options := s.options ++ [(name, value)] }) sections
      | _ => none
    else if keyword = "list".toList then
      match args with
      | [name, value] => amend (fun s => { s with lists := s.lists ++ [(name, value)] }) sections
      | _ => none
    else none

/-- The lines one after the other; a line that fits nowhere makes the whole file unreadable. -/
def sectionsOf (lines : List (List Text)) : Option (List Section) := lines.foldlM command []

/-- What a configuration file says; `none` where it is not one. -/
def uciRead (t : Text) : Option (List Section) := (readLines t).bind sectionsOf

/-! ## What is meant -/

/-- The options of an access point. -/
def apOptions (ap : ConfigWifiAp) : List (Text × Text) :=
  ("ssid".toList, ap.ssid) ::
    match ap.auth with
    | some auth => [("encryption".toList, auth.encryption), ("key".toList, auth.key)]
    | none => [("encryption".toList, "none".toList)]

/-- The channel of a radio, or 36 and 11. -/
def channelOf (radio : ConfigWifiRadio) (default : Text) : Text :=
  match radio.channel with
  | some channel => Nat.toDigits 10 channel.toNat
  | none => default

/-- The sections for 5 GHz: the device, and the access point on it. -/
def radioa (c : Config) : List Section :=
  [⟨"wifi-device".toList, some "radioa".toList,
      [("type".toList, "mac80211".toList),
        ("channel".toList, channelOf c.wifi.radio.a "36".toList),
        ("hwmode".toList, "11a".toList), ("path".toList, "pci0000:00/0000:00:00.0".toList),
        ("htmode".toList, "VHT80".toList)], []⟩,
    ⟨"wifi-iface".toList, none,
      [("device".toList, "radioa".toList), ("ifname".toList, "w-pub-a".toList),
        ("mode".toList, "ap".toList), ("network".toList, "pub".toList),
        ("country".toList, "DE".toList)] ++ apOptions c.wifi.ap.public, []⟩]

/-- The sections for 2.4 GHz, with another default channel and another device path. -/
def radiog (c : Config) : List Section :=
  [⟨"wifi-device".toList, some "radiog".toList,
      [("type".toList, "mac80211".toList),
        ("channel".toList, channelOf c.wifi.radio.g "11".toList),
        ("hwmode".toList, "11g".toList), ("path".toList, "platform/qca956x_wmac".toList),
        ("width".toList, "HT20".toList)], []⟩,
    ⟨"wifi-iface".toList, none,
      [("device".toList, "radiog".toList), ("ifname".toList, "w-pub-g".toList),
        ("mode".toList, "ap".toList), ("network".toList, "pub".toList),
        ("country".toList, "DE".toList)] ++ apOptions c.wifi.ap.public, []⟩]

/-- **What the configuration means**: a device and an interface for each radio that is on. -/
def configured (c : Config) : List Section :=
  (if c.wifi.radio.a.on then radioa c else []) ++ if c.wifi.radio.g.on then radiog c else []

/-! ## The rendered lines -/

/-- `option name 'value'`, the value in a column of its own. -/
def optionLine (name : Text) (gap : Nat) (token : Token) : Line :=
  ⟨[(4, .plain "option".toList), (1, .plain name), (gap, token)], 0⟩

/-- A line without words. -/
def blankLine (trail : Nat) : Line := ⟨[], trail⟩

/-- The same options as lines of tokens. -/
def publicLines (ap : ConfigWifiAp) : List Line :=
  optionLine "ssid".toList 5 (.value (escape ap.ssid)) ::
    match ap.auth with
    | some auth =>
      [blankLine 4, optionLine "encryption".toList 1 (.value (escape auth.encryption)),
        optionLine "key".toList 6 (.value (escape auth.key)), blankLine 4]
    | none => [optionLine "encryption".toList 1 (.value "none".toList)]

/-- The lines of the template for 5 GHz, as words and blanks. -/
def radioaLines (c : Config) : List Line :=
  [blankLine 0, ⟨[(0, .plain "config".toList), (1, .plain "wifi-device".toList),
      (2, .plain "radioa".toList)], 0⟩,
    optionLine "type".toList 5 (.plain "mac80211".toList),
    optionLine "channel".toList 2 (.plain (channelText c.wifi.radio.a "36".toList)),
    optionLine "hwmode".toList 3 (.plain "11a".toList),
    optionLine "path".toList 5 (.value "pci0000:00/0000:00:00.0".toList),
    optionLine "htmode".toList 3 (.value "VHT80".toList),
    blankLine 0, ⟨[(0, .plain "config".toList), (1, .plain "wifi-iface".toList)], 0⟩,
    optionLine "device".toList 3 (.value "radioa".toList),
    optionLine "ifname".toList 3 (.value "w-pub-a".toList),
    optionLine "mode".toList 5 (.value "ap".toList),
    optionLine "network".toList 2 (.value "pub".toList),
    optionLine "country".toList 2 (.value "DE".toList)] ++ publicLines c.wifi.ap.public ++
    [blankLine 0]

/-- The lines of the template for 2.4 GHz. -/
def radiogLines (c : Config) : List Line :=
  [blankLine 0, ⟨[(0, .plain "config".toList), (1, .plain "wifi-device".toList),
      (2, .plain "radiog".toList)], 0⟩,
    optionLine "type".toList 5 (.plain "mac80211".toList),
    optionLine "channel".toList 2 (.plain (channelText c.wifi.radio.g "11".toList)),
    optionLine "hwmode".toList 3 (.plain "11g".toList),
    optionLine "path".toList 5 (.value "platform/qca956x_wmac".toList),
    optionLine "width".toList 4 (.value "HT20".toList),
    blankLine 0, ⟨[(0, .plain "config".toList), (1, .plain "wifi-iface".toList)], 0⟩,
    optionLine "device".toList 3 (.value "radiog".toList),
    optionLine "ifname".toList 3 (.value "w-pub-g".toList),
    optionLine "mode".toList 5 (.value "ap".toList),
    optionLine "network".toList 2 (.value "pub".toList),
    optionLine "country".toList 2 (.value "DE".toList)] ++ publicLines c.wifi.ap.public

/-- The whole file: a radio that is off leaves nothing but the line end of its tag. -/
def wirelessLines (c : Config) : List Line :=
  (if c.wifi.radio.a.on then radioaLines c else []) ++
    (if c.wifi.radio.g.on then radiogLines c else []) ++ [blankLine 0]

/-- An option with a quoted value, as the template spells it. -/
theorem printLine_value (name : Text) (gap : Nat) (v : Text) :
    printLine (optionLine name gap (.value v)) =
      "    option ".toList ++ name ++ List.replicate gap ' ' ++ "'".toList ++ v ++ "'\n".toList := by
  simp [printLine, printTokens, optionLine, Token.print, quote]

theorem printLine_plain (name : Text) (gap : Nat) (w : Text) :
    printLine (optionLine name gap (.plain w)) =
      "    option ".toList ++ name ++ List.replicate gap ' ' ++ w ++ "\n".toList := by
  simp [printLine, printTokens, optionLine, Token.print]

/-- The rendered text of the access point is these lines, printed. -/
theorem publicOptions_eq (ap : ConfigWifiAp) :
    publicOptions ap = (publicLines ap).map printLine := by
  obtain ⟨ssid, auth⟩ := ap
  cases auth with
  | none =>
    simp only [publicOptions, publicLines, List.map_cons, List.map_nil, printLine_value]
    rfl
  | some auth =>
    simp only [publicOptions, publicLines, List.map_cons, List.map_nil, printLine_value]
    rfl

theorem radioaText_eq (c : Config) : radioaText c = (radioaLines c).map printLine := by
  simp only [radioaText, radioaLines, publicOptions_eq, List.map_append, List.map_cons,
    List.map_nil, printLine_value, printLine_plain]
  rfl

theorem radiogText_eq (c : Config) : radiogText c = (radiogLines c).map printLine := by
  simp only [radiogText, radiogLines, publicOptions_eq, List.map_append, List.map_cons,
    List.map_nil, printLine_value, printLine_plain]
  rfl

/-- The template prints these lines. -/
theorem tplConfigWireless_eq (c : Config) :
    tplConfigWireless c = (wirelessLines c).flatMap printLine := by
  unfold tplConfigWireless wirelessLines
  rw [List.flatMap_def, radioaText_eq, radiogText_eq, List.map_append, List.map_append]
  cases c.wifi.radio.a.on <;> cases c.wifi.radio.g.on <;> rfl

/-! ## What is read -/

/-- No quote in what is put in. -/
def ConfigWifiAp.Quoteless (ap : ConfigWifiAp) : Prop :=
  quote ∉ ap.ssid ∧ ∀ auth ∈ ap.auth, quote ∉ auth.encryption ∧ quote ∉ auth.key

/-- The access point as it is rendered. -/
def ConfigWifiAp.escaped (ap : ConfigWifiAp) : ConfigWifiAp :=
  ⟨escape ap.ssid, ap.auth.map fun auth => ⟨escape auth.encryption, escape auth.key⟩⟩

/-- The configuration with its strings as bart puts them into the file. -/
def Config.escaped (c : Config) : Config :=
  { c with wifi := { c.wifi with ap := ⟨c.wifi.ap.public.escaped⟩ } }

/-- A channel is a number and needs no escape. -/
theorem channelText_eq (radio : ConfigWifiRadio) (default : Text) :
    channelText radio default = channelOf radio default := by
  unfold channelText channelOf
  cases radio.channel with
  | none => rfl
  | some channel =>
    refine (escape_eq_self_iff _).mpr fun c hc => ?_
    have hdigit := isDigit_decimal hc
    refine ⟨?_, ?_, ?_, ?_⟩ <;> rintro rfl <;> exact absurd hdigit (by decide)

/-- A channel is a plain word. -/
theorem channel_readable (radio : ConfigWifiRadio) {default : Text}
    (h : (Token.plain default).Readable) : (Token.plain (channelText radio default)).Readable := by
  rw [channelText_eq]
  unfold channelOf
  cases radio.channel with
  | none => exact h
  | some channel =>
    refine ⟨Nat.toDigits_ne_nil, List.all_eq_true.mpr fun c hc => (isPlain_iff c).mpr ?_⟩
    have hdigit := isDigit_decimal hc
    refine ⟨?_, ?_, ?_⟩
    · rintro rfl
      exact absurd hdigit (by decide)
    · rintro rfl
      exact absurd hdigit (by decide)
    · by_contra hblank
      simp only [isBlank, Bool.not_eq_false, Bool.or_eq_true, beq_iff_eq] at hblank
      rcases hblank with rfl | rfl <;> exact absurd hdigit (by decide)

/-- An option can be read back if its name and its value can. -/
theorem optionLine_readable {name : Text} {gap : Nat} {token : Token}
    (hname : (Token.plain name).Readable) (hgap : 0 < gap) (htoken : token.Readable) :
    (optionLine name gap token).Readable := by
  refine ⟨?_, ?_⟩
  · intro x hx
    simp only [optionLine, List.mem_cons, List.not_mem_nil, or_false] at hx
    rcases hx with rfl | rfl | rfl
    · exact (by decide : (Token.plain "option".toList).Readable)
    · exact hname
    · exact htoken
  · intro x hx
    simp only [optionLine, List.tail_cons, List.mem_cons, List.not_mem_nil, or_false] at hx
    rcases hx with rfl | rfl
    · exact Nat.one_pos
    · exact hgap

/-- An escaped string can be closed by a quote if the string can. -/
theorem value_readable {v : Text} (h : quote ∉ v) : (Token.value (escape v)).Readable :=
  fun hmem => h ((quote_mem_escape_iff v).mp hmem)

/-- The strings of the access point stand between quotes, so they may hold anything but a quote. -/
theorem publicLines_readable {ap : ConfigWifiAp} (h : ap.Quoteless) :
    ∀ line ∈ publicLines ap, line.Readable := by
  obtain ⟨ssid, auth⟩ := ap
  obtain ⟨hssid, hauth⟩ := h
  have hssid := @optionLine_readable "ssid".toList 5 _ (by decide) (by decide)
    (value_readable hssid)
  cases auth with
  | none =>
    simp only [publicLines, List.forall_mem_cons]
    exact ⟨hssid, by decide, by simp⟩
  | some auth =>
    obtain ⟨hencryption, hkey⟩ := hauth auth rfl
    simp only [publicLines, List.forall_mem_cons]
    exact ⟨hssid, by decide,
      optionLine_readable (by decide) (by decide) (value_readable hencryption),
      optionLine_readable (by decide) (by decide) (value_readable hkey), by decide, by simp⟩

/-- All that the template has for the first radio can be read back. -/
theorem radioaLines_readable {c : Config} (h : c.wifi.ap.public.Quoteless) :
    ∀ line ∈ radioaLines c, line.Readable := by
  have hchannel := @optionLine_readable "channel".toList 2 _ (by decide)
    (by decide) (channel_readable c.wifi.radio.a (by decide : (Token.plain "36".toList).Readable))
  unfold radioaLines
  rw [List.forall_mem_append, List.forall_mem_append]
  refine ⟨⟨?_, publicLines_readable h⟩, by decide⟩
  simp only [List.forall_mem_cons]
  exact ⟨by decide, by decide, by decide, hchannel, by decide⟩

/-- All that the template has for the second radio can be read back. -/
theorem radiogLines_readable {c : Config} (h : c.wifi.ap.public.Quoteless) :
    ∀ line ∈ radiogLines c, line.Readable := by
  have hchannel := @optionLine_readable "channel".toList 2 _ (by decide)
    (by decide) (channel_readable c.wifi.radio.g (by decide : (Token.plain "11".toList).Readable))
  unfold radiogLines
  rw [List.forall_mem_append]
  refine ⟨?_, publicLines_readable h⟩
  simp only [List.forall_mem_cons]
  exact ⟨by decide, by decide, by decide, hchannel, by decide⟩

/-- The same of the whole file. -/
theorem wirelessLines_readable {c : Config} (h : c.wifi.ap.public.Quoteless) :
    ∀ line ∈ wirelessLines c, line.Readable := by
  unfold wirelessLines
  rw [List.forall_mem_append, List.forall_mem_append]
  refine ⟨⟨?_, ?_⟩, by decide⟩
  · split
    · exact radioaLines_readable h
    · exact List.forall_mem_nil _
  · split
    · exact radiogLines_readable h
    · exact List.forall_mem_nil _

/-! ## The sections -/

/-- The last section is the last one, whatever stands before. -/
theorem amend_append (f : Section → Section) (pre : List Section) {ss ss' : List Section}
    (h : amend f ss = some ss') : amend f (pre ++ ss) = some (pre ++ ss') := by
  induction pre with
  | nil => exact h
  | cons s pre ih =>
    cases hrest : pre ++ ss with
    | nil =>
      rw [List.append_eq_nil_iff.mp hrest |>.2] at h
      exact absurd h (by simp [amend])
    | cons t rest =>
      rw [List.cons_append, hrest, amend, ← hrest, ih]
      rfl

/-- What a line does to the sections, it does after others. -/
theorem command_append (pre : List Section) {ss ss' : List Section} {words : List Text}
    (h : command ss words = some ss') : command (pre ++ ss) words = some (pre ++ ss') := by
  -- the cases are those of `command`: an empty line, `config`, `option`, `list`
  unfold command at h ⊢
  split at h
  · rw [Option.some.inj h]
  · rename_i keyword args
    split at h
    · rename_i hkeyword
      rw [if_pos hkeyword]
      split at h
      · rw [← Option.some.inj h, List.append_assoc]
      · rw [← Option.some.inj h, List.append_assoc]
      · exact absurd h (by simp)
    · rename_i hconfig
      rw [if_neg hconfig]
      split at h
      · rename_i hkeyword
        rw [if_pos hkeyword]
        split at h
        · exact amend_append _ pre h
        · exact absurd h (by simp)
      · rename_i hoption
        rw [if_neg hoption]
        split at h
        · rename_i hkeyword
          rw [if_pos hkeyword]
          split at h
          · exact amend_append _ pre h
          · exact absurd h (by simp)
        · exact absurd h (by simp)

/-- Sections that are complete are not touched by later lines, so each radio can be read by itself.
    -/
theorem commands_append (pre : List Section) (lines : List (List Text)) :
    ∀ {ss ss' : List Section}, lines.foldlM command ss = some ss' →
      lines.foldlM command (pre ++ ss) = some (pre ++ ss') := by
  induction lines with
  | nil =>
    intro ss ss' h
    rw [Option.some.inj h]
    rfl
  | cons words lines ih =>
    intro ss ss' h
    rw [List.foldlM_cons] at h ⊢
    obtain ⟨t, hwords, hlines⟩ := Option.bind_eq_some_iff.mp h
    rw [command_append pre hwords]
    exact ih hlines

/-- The lines of the first radio give its sections. -/
theorem sections_radioa (c : Config) :
    ((radioaLines c).map Line.words).foldlM command [] = some (radioa c.escaped) := by
  unfold radioaLines radioa
  rw [channelText_eq]
  obtain ⟨⟨radio, ⟨ssid, auth⟩⟩, captif⟩ := c
  cases auth <;> rfl

/-- The lines of the second radio give its sections. -/
theorem sections_radiog (c : Config) :
    ((radiogLines c).map Line.words).foldlM command [] = some (radiog c.escaped) := by
  unfold radiogLines radiog
  rw [channelText_eq]
  obtain ⟨⟨radio, ⟨ssid, auth⟩⟩, captif⟩ := c
  cases auth <;> rfl

/-- **Without a quote in its strings, a configuration is read as it is escaped.** -/
theorem wireless_read {c : Config} (h : c.wifi.ap.public.Quoteless) :
    uciRead (tplConfigWireless c) = some (configured c.escaped) := by
  unfold uciRead
  rw [tplConfigWireless_eq, readLines_printLines (wirelessLines_readable h), Option.bind_some]
  have ha : ((if c.wifi.radio.a.on then radioaLines c else []).map Line.words).foldlM command [] =
      some (if c.wifi.radio.a.on then radioa c.escaped else []) := by
    split
    · exact sections_radioa c
    · rfl
  have hg : ((if c.wifi.radio.g.on then radiogLines c else []).map Line.words).foldlM command [] =
      some (if c.wifi.radio.g.on then radiog c.escaped else []) := by
    split
    · exact sections_radiog c
    · rfl
  have hboth := commands_append (if c.wifi.radio.a.on then radioa c.escaped else []) _ hg
  rw [List.append_nil] at hboth
  unfold sectionsOf wirelessLines configured
  rw [List.map_append, List.map_append, List.foldlM_append, List.foldlM_append, List.foldlM_append,
    ha]
  simp only [Option.bind_eq_bind, Option.bind_some]
  rw [hboth]
  rfl

/-! ## What survives -/

/-- Neither escaped for HTML nor the end of a value. -/
def Survives (x : Text) : Prop := ∀ c ∈ x, Verbatim c ∧ c ≠ quote

/-- Every string of the access point survives. -/
def ConfigWifiAp.Survives (ap : ConfigWifiAp) : Prop :=
  Genesis.Survives ap.ssid ∧
    ∀ auth ∈ ap.auth, Genesis.Survives auth.encryption ∧ Genesis.Survives auth.key

/-- A string comes through if it holds no quote and the escape leaves it alone. -/
theorem survives_iff (x : Text) : Survives x ↔ quote ∉ x ∧ escape x = x := by
  rw [escape_eq_self_iff]
  constructor
  · intro h
    exact ⟨fun hmem => (h quote hmem).2 rfl, fun c hc => (h c hc).1⟩
  · rintro ⟨hquote, hverbatim⟩ c hc
    refine ⟨hverbatim c hc, ?_⟩
    rintro rfl
    exact hquote hc

/-- The same for the three strings of the access point. -/
theorem survives_ap_iff (ap : ConfigWifiAp) :
    ap.Survives ↔ ap.Quoteless ∧ ap.escaped = ap := by
  obtain ⟨ssid, auth⟩ := ap
  unfold ConfigWifiAp.Survives ConfigWifiAp.Quoteless ConfigWifiAp.escaped
  simp only [survives_iff]
  cases auth with
  | none => simp
  | some auth =>
    obtain ⟨encryption, key⟩ := auth
    simp only [Option.mem_some_iff, forall_eq', Option.map_some, ConfigWifiAp.mk.injEq,
      Option.some.injEq, ConfigWifiAuth.mk.injEq]
    constructor
    · rintro ⟨⟨h1, h2⟩, ⟨h3, h4⟩, h5, h6⟩
      exact ⟨⟨h1, h3, h5⟩, h2, h4, h6⟩
    · rintro ⟨⟨h1, h3, h5⟩, h2, h4, h6⟩
      exact ⟨⟨h1, h2⟩, ⟨h3, h4⟩, h5, h6⟩

/-! ### No value holds a quote -/

/-- No value of the section holds a quote. -/
def Section.Unquoted (s : Section) : Prop := ∀ x ∈ s.options, quote ∉ x.2

/-- A change of the last section that adds no quote. -/
theorem amend_unquoted {f : Section → Section} (hf : ∀ s, s.Unquoted → (f s).Unquoted)
    {ss ss' : List Section} (hss : ∀ s ∈ ss, s.Unquoted) (h : amend f ss = some ss') :
    ∀ s ∈ ss', s.Unquoted := by
  induction ss generalizing ss' with
  | nil => exact absurd h (by simp [amend])
  | cons s ss ih =>
    rw [List.forall_mem_cons] at hss
    cases ss with
    | nil =>
      rw [← Option.some.inj h, List.forall_mem_singleton]
      exact hf s hss.1
    | cons t rest =>
      obtain ⟨rest', hrest, rfl⟩ := Option.map_eq_some_iff.mp h
      exact List.forall_mem_cons.mpr ⟨hss.1, ih hss.2 hrest⟩

/-- A line whose words hold no quote adds none. -/
theorem command_unquoted {ss ss' : List Section} {words : List Text}
    (hwords : ∀ w ∈ words, quote ∉ w) (hss : ∀ s ∈ ss, s.Unquoted)
    (h : command ss words = some ss') : ∀ s ∈ ss', s.Unquoted := by
  have hnew : ∀ type name, Section.Unquoted ⟨type, name, [], []⟩ := fun _ _ _ hx =>
    absurd hx List.not_mem_nil
  -- only an `option` puts a word into a value
  unfold command at h
  split at h
  · rw [← Option.some.inj h]
    exact hss
  · split at h
    · split at h
      · rw [← Option.some.inj h]
        exact forall_mem_concat hss (hnew _ _)
      · rw [← Option.some.inj h]
        exact forall_mem_concat hss (hnew _ _)
      · exact absurd h (by simp)
    · split at h
      · split at h
        · rename_i name value
          have hvalue : quote ∉ value := hwords value (by simp)
          refine amend_unquoted (fun s hs => ?_) hss h
          exact @forall_mem_concat (Text × Text) (fun x => quote ∉ x.2) _ (name, value) hs hvalue
        · exact absurd h (by simp)
      · split at h
        · split at h
          · refine amend_unquoted ?_ hss h
            exact fun s hs => hs
          · exact absurd h (by simp)
        · exact absurd h (by simp)

/-- By induction on the lines. -/
theorem sectionsOf_unquoted {lines : List (List Text)}
    (hlines : ∀ line ∈ lines, ∀ w ∈ line, quote ∉ w) : ∀ {ss ss' : List Section},
    (∀ s ∈ ss, s.Unquoted) → lines.foldlM command ss = some ss' → ∀ s ∈ ss', s.Unquoted := by
  induction lines with
  | nil =>
    intro ss ss' hss h
    rw [← Option.some.inj h]
    exact hss
  | cons words lines ih =>
    intro ss ss' hss h
    rw [List.forall_mem_cons] at hlines
    rw [List.foldlM_cons] at h
    obtain ⟨t, hwords, hrest⟩ := Option.bind_eq_some_iff.mp h
    exact ih hlines.2 (command_unquoted hlines.1 hss hwords) hrest

/-- The reader takes quotes away and never stores one. -/
theorem uciRead_unquoted {t : Text} {ss : List Section} (h : uciRead t = some ss) :
    ∀ s ∈ ss, s.Unquoted := by
  obtain ⟨lines, hlines, hss⟩ := Option.bind_eq_some_iff.mp h
  exact sectionsOf_unquoted (readLines_unquoted hlines) (by simp) hss

/-! ### Which configurations survive -/

/-- Some radio is on. -/
def Config.On (c : Config) : Prop := c.wifi.radio.a.on = true ∨ c.wifi.radio.g.on = true

/-- The last section is an interface, and ends with the options of the access point. -/
theorem configured_last {c : Config} (h : c.On) :
    ∃ s, (configured c).getLast? = some s ∧ s.options.drop 5 = apOptions c.wifi.ap.public := by
  unfold configured radioa radiog
  unfold Config.On at h
  cases ha : c.wifi.radio.a.on <;> cases hg : c.wifi.radio.g.on
  · rw [ha, hg] at h
    exact absurd h (by decide)
  · exact ⟨_, rfl, rfl⟩
  · exact ⟨_, rfl, rfl⟩
  · exact ⟨_, rfl, rfl⟩

/-- If a radio is on, the strings of the access point stand in its sections. -/
theorem quoteless_of_unquoted {c : Config} (hon : c.On)
    (h : ∀ s ∈ configured c, s.Unquoted) : c.wifi.ap.public.Quoteless := by
  obtain ⟨s, hs, hoptions⟩ := configured_last hon
  -- the last section ends with the options of the access point
  have hvalue : ∀ x ∈ apOptions c.wifi.ap.public, quote ∉ x.2 := by
    intro x hx
    rw [← hoptions] at hx
    exact h s (List.mem_of_getLast? hs) x (List.mem_of_mem_drop hx)
  refine ⟨hvalue _ List.mem_cons_self, fun auth hauth => ?_⟩
  unfold apOptions at hvalue
  rw [Option.mem_def.mp hauth] at hvalue
  exact ⟨hvalue ("encryption".toList, auth.encryption) (by simp),
    hvalue ("key".toList, auth.key) (by simp)⟩

/-- Different access points have different options. -/
theorem apOptions_injective {ap ap' : ConfigWifiAp} (h : apOptions ap = apOptions ap') :
    ap = ap' := by
  obtain ⟨ssid, auth⟩ := ap
  obtain ⟨ssid', auth'⟩ := ap'
  cases auth with
  | none =>
    cases auth' with
    | none => simpa [apOptions] using h
    | some auth' => exact absurd (congrArg List.length h) (by simp [apOptions])
  | some auth =>
    cases auth' with
    | none => exact absurd (congrArg List.length h) (by simp [apOptions])
    | some auth' =>
      obtain ⟨encryption, key⟩ := auth
      obtain ⟨encryption', key'⟩ := auth'
      simpa [apOptions] using h

/-- So with a radio on, the sections tell whether the escape changed something. -/
theorem configured_escaped_iff {c : Config} (hon : c.On) :
    configured c.escaped = configured c ↔ c.wifi.ap.public.escaped = c.wifi.ap.public := by
  constructor
  · intro h
    apply apOptions_injective
    obtain ⟨s, hs, hoptions⟩ := configured_last hon
    obtain ⟨s', hs', hoptions'⟩ := @configured_last c.escaped hon
    rw [h, hs, Option.some.injEq] at hs'
    rw [← hoptions, hs', hoptions']
    rfl
  · intro h
    have hc : c.escaped = c := by
      unfold Config.escaped
      rw [h]
    rw [hc]

/-- **Exactly the configurations whose strings survive are read back**, where any radio is on. -/
theorem wireless_faithful_iff (c : Config) :
    uciRead (tplConfigWireless c) = some (configured c) ↔
      (c.On → c.wifi.ap.public.Survives) := by
  by_cases hon : c.On
  · rw [survives_ap_iff]
    constructor
    · intro h _
      have hquoteless := quoteless_of_unquoted hon (uciRead_unquoted h)
      rw [wireless_read hquoteless, Option.some.injEq, configured_escaped_iff hon] at h
      exact ⟨hquoteless, h⟩
    · intro h
      obtain ⟨hquoteless, hescaped⟩ := h hon
      rw [wireless_read hquoteless, (configured_escaped_iff hon).mpr hescaped]
  · refine iff_of_true ?_ fun h => absurd h hon
    obtain ⟨ha, hg⟩ := not_or.mp hon
    rw [Bool.not_eq_true] at ha hg
    unfold tplConfigWireless configured
    rw [ha, hg]
    rfl

/-! ### An ampersand -/

/-- A free network on the first radio. -/
def ampersandConfig : Config where
  wifi := ⟨⟨⟨true, none⟩, ⟨false, none⟩⟩, ⟨⟨"Tom & Jerry".toList, none⟩⟩⟩
  captif := ⟨"http://portal.captif.io".toList⟩

/-- **The network has another name**: uci reads the entity. -/
theorem ampersand_renamed :
    uciRead (tplConfigWireless ampersandConfig) = some (radioa
      { ampersandConfig with
        wifi := { ampersandConfig.wifi with ap := ⟨⟨"Tom &amp; Jerry".toList, none⟩⟩ } }) ∧
    uciRead (tplConfigWireless ampersandConfig) ≠ some (configured ampersandConfig) := by
  have hread : uciRead (tplConfigWireless ampersandConfig) =
      some (configured ampersandConfig.escaped) := wireless_read ⟨by decide, by simp [ampersandConfig]⟩
  rw [hread]
  exact ⟨rfl, by decide +kernel⟩

end Safewrt.Genesis
