/-
  The configuration genesis reads and the files it renders from it
  (genesis/genesis-gf/src/main.rs and templates/).

  1. **The configuration** — the structures serde fills, field by field under the source's names.
     What it puts in for a table that is absent is part of the parser, which is a parameter of
     `main`.

  2. **The templates** — bart compiles each to a function that writes the text between the tags and,
     for `{{x}}`, what `x` displays.  It keeps the text of a template as it is, line feeds after a
     section tag included, and escapes what it puts in for HTML (`escape`): that is bart's default,
     and no template asks for three braces.  A template without tags is a constant here.

  A section is rendered for each radio that is on, both with the same access point.  None of the
  strings is checked against the syntax of the file it is put into: what a value with a quote or a
  line feed turns into is the subject of `Genesis.Wireless` and `Genesis.System`.
-/
import Safewrt.Lib.Text

namespace Safewrt.Genesis

open Safewrt.Lib

/-! ## The configuration -/

/-- `[wifi.radio.a]` and `[wifi.radio.g]` -/
structure ConfigWifiRadio where
  on : Bool
  channel : Option UInt32
  deriving Repr, DecidableEq

/-- `[wifi.radio]`: the radio for 5 GHz and the one for 2.4 GHz. -/
structure ConfigWifiRadios where
  a : ConfigWifiRadio
  g : ConfigWifiRadio
  deriving Repr, DecidableEq

/-- `[wifi.ap.public.auth]` -/
structure ConfigWifiAuth where
  encryption : Text
  key : Text
  deriving Repr, DecidableEq

/-- `[wifi.ap.public]`; without `auth` the network is open. -/
structure ConfigWifiAp where
  ssid : Text
  auth : Option ConfigWifiAuth
  deriving Repr, DecidableEq

/-- `[wifi.ap]`: there is one access point. -/
structure ConfigWifiAps where
  «public» : ConfigWifiAp
  deriving Repr, DecidableEq

/-- `[wifi]` -/
structure ConfigWifi where
  radio : ConfigWifiRadios
  ap : ConfigWifiAps
  deriving Repr, DecidableEq

/-- `[captif]` -/
structure ConfigCaptif where
  url : Text
  deriving Repr, DecidableEq

/-- The whole file. -/
structure Config where
  wifi : ConfigWifi
  captif : ConfigCaptif
  deriving Repr, DecidableEq

/-! ## What bart puts in

  `{{x}}` escapes the four characters that mean something between the tags of HTML or inside of
  double quotes.  A single quote is left as it is, and that is the quote of the files below. -/

/-- The characters that bart replaces in a value. -/
def escapeChar (c : Char) : Text :=
  if c = '&' then "&amp;".toList
  else if c = '<' then "&lt;".toList
  else if c = '>' then "&gt;".toList
  else if c = '"' then "&quot;".toList
  else [c]

/-- `{{x}}` -/
def escape (x : Text) : Text := x.flatMap escapeChar

/-- The characters that are put in as they are. -/
def Verbatim (c : Char) : Prop := c ≠ '&' ∧ c ≠ '<' ∧ c ≠ '>' ∧ c ≠ '"'

instance : DecidablePred Verbatim := fun _ => inferInstanceAs (Decidable (_ ∧ _))

theorem escapeChar_verbatim {c : Char} (h : Verbatim c) : escapeChar c = [c] := by
  obtain ⟨h1, h2, h3, h4⟩ := h
  simp [escapeChar, h1, h2, h3, h4]

/-- An entity is longer than the character it stands for. -/
theorem escapeChar_length {c : Char} (h : ¬ Verbatim c) : 1 < (escapeChar c).length := by
  unfold escapeChar
  split
  · decide
  split
  · decide
  split
  · decide
  split
  · decide
  · rename_i h1 h2 h3 h4
    exact absurd ⟨h1, h2, h3, h4⟩ h

theorem escape_cons (c : Char) (x : Text) : escape (c :: x) = escapeChar c ++ escape x :=
  List.flatMap_cons

/-- An escape is longer than what it stands for, so an escaped string that has kept its length is
    the same string. -/
theorem length_le_escape (x : Text) : x.length ≤ (escape x).length := by
  induction x with
  | nil => exact Nat.le_refl _
  | cons c x ih =>
    have hc : 1 ≤ (escapeChar c).length := by
      by_cases h : Verbatim c
      · rw [escapeChar_verbatim h]
        exact Nat.le_refl _
      · exact Nat.le_of_lt (escapeChar_length h)
    rw [escape_cons, List.length_append, List.length_cons]
    omega

/-- **A value survives** if none of its characters is replaced. -/
theorem escape_eq_self_iff (x : Text) : escape x = x ↔ ∀ c ∈ x, Verbatim c := by
  induction x with
  | nil => exact iff_of_true rfl (by simp)
  | cons c x ih =>
    rw [escape_cons, List.forall_mem_cons]
    by_cases hc : Verbatim c
    · rw [escapeChar_verbatim hc, List.singleton_append, List.cons.injEq, ih]
      simp [hc]
    · refine iff_of_false (fun h => ?_) fun h => hc h.1
      have hlen := congrArg List.length h
      have hlong := escapeChar_length hc
      have htail := length_le_escape x
      rw [List.length_append, List.length_cons] at hlen
      omega

/-- A quote is neither replaced nor made. -/
theorem quote_mem_escape_iff (x : Text) : '\'' ∈ escape x ↔ '\'' ∈ x := by
  have hchar : ∀ c, '\'' ∈ escapeChar c ↔ '\'' = c := by
    intro c
    unfold escapeChar
    split
    · rename_i h; subst h; decide
    split
    · rename_i h; subst h; decide
    split
    · rename_i h; subst h; decide
    split
    · rename_i h; subst h; decide
    · exact List.mem_singleton
  unfold escape
  simp only [List.mem_flatMap, hchar]
  exact ⟨fun ⟨c, hc, heq⟩ => heq ▸ hc, fun h => ⟨_, h, rfl⟩⟩

/-! ## The templates

  The text of each file under templates/, with the tags filled in.  A list of lines stands for the
  text that has a line feed behind each of them. -/

/-- Lines, each with its line feed. -/
def textOf (lines : List String) : Text := lines.flatMap fun line => line.toList ++ ['\n']

/-- The options of `c.wifi.ap.public`, the same in both sections. -/
def publicOptions (ap : ConfigWifiAp) : List Text :=
  ["    option ssid     '".toList ++ escape ap.ssid ++ "'\n".toList] ++
    match ap.auth with
    | some auth =>
      ["    \n".toList,
        "    option encryption '".toList ++ escape auth.encryption ++ "'\n".toList,
        "    option key      '".toList ++ escape auth.key ++ "'\n".toList,
        "    \n".toList]
    | none => ["    option encryption 'none'\n".toList]

/-- The channel of a radio, or the template's. -/
def channelText (radio : ConfigWifiRadio) (default : Text) : Text :=
  match radio.channel with
  | some channel => escape (Nat.toDigits 10 channel.toNat)
  | none => default

/-- The part of the first radio, line by line. -/
def radioaText (c : Config) : List Text :=
  ["\n".toList,
    "config wifi-device  radioa\n".toList,
    "    option type     mac80211\n".toList,
    "    option channel  ".toList ++ channelText c.wifi.radio.a "36".toList ++ "\n".toList,
    "    option hwmode   11a\n".toList,
    "    option path     'pci0000:00/0000:00:00.0'\n".toList,
    "    option htmode   'VHT80'\n".toList,
    "\n".toList,
    "config wifi-iface\n".toList,
    "    option device   'radioa'\n".toList,
    "    option ifname   'w-pub-a'\n".toList,
    "    option mode     'ap'\n".toList,
    "    option network  'pub'\n".toList,
    "    option country  'DE'\n".toList] ++ publicOptions c.wifi.ap.public ++ ["\n".toList]

/-- The part of the second one. -/
def radiogText (c : Config) : List Text :=
  ["\n".toList,
    "config wifi-device  radiog\n".toList,
    "    option type     mac80211\n".toList,
    "    option channel  ".toList ++ channelText c.wifi.radio.g "11".toList ++ "\n".toList,
    "    option hwmode   11g\n".toList,
    "    option path     'platform/qca956x_wmac'\n".toList,
    "    option width    'HT20'\n".toList,
    "\n".toList,
    "config wifi-iface\n".toList,
    "    option device   'radiog'\n".toList,
    "    option ifname   'w-pub-g'\n".toList,
    "    option mode     'ap'\n".toList,
    "    option network  'pub'\n".toList,
    "    option country  'DE'\n".toList] ++ publicOptions c.wifi.ap.public

/-- `wireless.mustache` -/
def tplConfigWireless (c : Config) : Text :=
  ((if c.wifi.radio.a.on then radioaText c else []) ++
    (if c.wifi.radio.g.on then radiogText c else []) ++ ["\n".toList]).flatten

/-- `network.mustache` -/
def tplConfigNetwork : Text :=
  textOf [
    "config interface    'loopback'",
    "\toption ifname   'lo'",
    "\toption proto    'static'",
    "\toption ipaddr   '127.0.0.1'",
    "\toption netmask  '255.0.0.0'",
    "",
    "config interface    'pub'",
    "\toption type     'bridge'",
    "\toption ifname   'eth0.1'",
    "\toption proto    'static'",
    "\toption ipaddr   '192.168.44.1'",
    "\toption netmask  '255.255.255.0'",
    "",
    "config interface    'wan'",
    "\toption ifname   'eth0.2'",
    "\toption proto    'dhcp'",
    "",
    "config switch",
    "\toption name     'switch0'",
    "\toption reset    '1'",
    "\toption enable_vlan '1'",
    "",
    "config switch_vlan",
    "\toption device   'switch0'",
    "\toption vlan     '1'",
    "\toption ports    '2 3 4 5 0t'",
    "",
    "config switch_vlan",
    "\toption device   'switch0'",
    "\toption vlan     '2'",
    "\toption ports    '1 0t'"]

/-- `firewall.mustache` -/
def tplConfigFirewall : Text :=
  textOf [
    "config defaults",
    "    option syn_flood    1",
    "    option input        ACCEPT",
    "    option output       ACCEPT",
    "    option forward      REJECT",
    "    option disable_ipv6 1",
    "",
    "config zone",
    "    option name         pub",
    "    list network        'pub'",
    "    option input        REJECT",
    "    option output       ACCEPT",
    "    option forward      REJECT",
    "",
    "config zone",
    "    option name         wan",
    "    list   network      'wan'",
    "    list   network      'wan6'",
    "    option input        REJECT",
    "    option output       ACCEPT",
    "    option forward      REJECT",
    "    option masq         1",
    "    option mtu_fix      1",
    "",
    "config rule",
    "    option name         Allow-DHCP-Renew",
    "    option src          wan",
    "    option proto        udp",
    "    option dest_port    68",
    "    option target       ACCEPT",
    "    option family       ipv4",
    "",
    "config rule",
    "    option name         Allow-Ping",
    "    option src          wan",
    "    option proto        icmp",
    "    option icmp_type    echo-request",
    "    option family       ipv4",
    "    option target       ACCEPT",
    "",
    "config rule",
    "    option name         Public-Allow-DHCP",
    "    option src          pub",
    "    option proto        udp",
    "    option dest_port    67",
    "    option target       ACCEPT",
    "    option family       ipv4",
    "",
    "config rule",
    "    option name         Public-Allow-DNS",
    "    option src          pub",
    "    option proto        udp",
    "    option dest_port    53",
    "    option target       ACCEPT",
    "    option family       ipv4",
    "",
    "config redirect",
    "    option name         Sentry",
    "    option src          pub",
    "    option src_dport    80",
    "    option dest         pub",
    "    option dest_ip      192.168.44.1",
    "    option dest_port    8444",
    "    option target       DNAT",
    "    option proto        tcp",
    "",
    "config rule",
    "    option name         Public-No-Email",
    "    option src          pub",
    "    option dest_port    25",
    "    option proto        tcp",
    "    option target       REJECT",
    "",
    "",
    "# terminate public wifi on wan",
    "config forwarding",
    "    option src          pub",
    "    option dest         wan",
    "",
    "config rule",
    "    option src          pub",
    "    option dest         wan",
    "    option dest_ip      10.0.0.0/8",
    "    option proto        all",
    "    option target       DROP",
    "",
    "config rule",
    "    option src          pub",
    "    option dest         wan",
    "    option dest_ip      172.16.0.0/12",
    "    option proto        all",
    "    option target       DROP",
    "",
    "config rule",
    "    option src          pub",
    "    option dest         wan",
    "    option dest_ip      192.168.0.0/16",
    "    option proto        all",
    "    option target       DROP",
    ""]

/-- `dhcp.mustache` -/
def tplConfigDhcp : Text :=
  textOf [
    "config dnsmasq",
    "    option domainneeded '1'",
    "    option boguspriv '1'",
    "    option filterwin2k '0'",
    "    option localise_queries '1'",
    "    option rebind_protection '1'",
    "    option rebind_localhost '1'",
    "    option local '/pub/'",
    "    option domain 'pub'",
    "    option expandhosts '1'",
    "    option nonegcache '0'",
    "    option authoritative '1'",
    "    option readethers '1'",
    "    option leasefile '/tmp/dhcp.leases'",
    "    option resolvfile '/tmp/resolv.conf.auto'",
    "    option nonwildcard '1'",
    "    option localservice '1'",
    "",
    "config dhcp 'pub'",
    "    option interface    'pub'",
    "    option start        '100'",
    "    option limit        '150'",
    "    option leasetime    '12h'",
    "    option dhcpv6       'server'",
    "    option ra           'server'",
    "",
    "config dhcp 'wan'",
    "    option interface 'wan'",
    "    option ignore     '1'"]

/-- `system.mustache` -/
def tplConfigSystem (hostname : Text) : Text :=
  textOf ["config system"] ++ "    option hostname '".toList ++ escape hostname ++ "'\n".toList ++
  textOf [
    "    option timezone 'UTC'",
    "    option ttylogin '0'",
    "    option log_size '64'",
    "    option urandom_seed '0'",
    "",
    "config timeserver 'ntp'",
    "    option enabled '1'",
    "    option enable_server '0'",
    "    list server '0.openwrt.pool.ntp.org'",
    "    list server '1.openwrt.pool.ntp.org'",
    "    list server '2.openwrt.pool.ntp.org'",
    "    list server '3.openwrt.pool.ntp.org'",
    "",
    "config led 'led_wlan'",
    "    option name 'WLAN'",
    "    option sysfs 'archer-c7-v4:green:wlan2g'",
    "    option trigger 'phy1tpt'",
    "",
    "config led 'led_wlan5g'",
    "    option name 'WLAN5G'",
    "    option sysfs 'archer-c7-v4:green:wlan5g'",
    "    option trigger 'phy0tpt'",
    "",
    "config led 'led_wan'",
    "    option name 'WAN'",
    "    option sysfs 'archer-c7-v4:green:wan'",
    "    option trigger 'switch0'",
    "    option port_mask '0x02'",
    "",
    "config led 'led_lan1'",
    "    option name 'LAN1'",
    "    option sysfs 'archer-c7-v4:green:lan4'",
    "    option trigger 'switch0'",
    "    option port_mask '0x04'",
    "",
    "config led 'led_lan2'",
    "    option name 'LAN2'",
    "    option sysfs 'archer-c7-v4:green:lan3'",
    "    option trigger 'switch0'",
    "    option port_mask '0x08'",
    "",
    "config led 'led_lan3'",
    "    option name 'LAN3'",
    "    option sysfs 'archer-c7-v4:green:lan2'",
    "    option trigger 'switch0'",
    "    option port_mask '0x10'",
    "",
    "config led 'led_lan4'",
    "    option name 'LAN4'",
    "    option sysfs 'archer-c7-v4:green:lan1'",
    "    option trigger 'switch0'",
    "    option port_mask '0x20'",
    "",
    "config led 'led_usb1'",
    "    option name 'USB1'",
    "    option sysfs 'archer-c7-v4:green:usb1'",
    "    option trigger 'usbdev'",
    "    option interval '50'",
    "    option dev '1-1'",
    "",
    "config led 'led_usb2'",
    "    option name 'USB2'",
    "    option sysfs 'archer-c7-v4:green:usb2'",
    "    option trigger 'usbdev'",
    "    option interval '50'",
    "    option dev '2-1'",
    ""]

/-- `dropbear.mustache` -/
def tplConfigDropbear : Text :=
  textOf [
    "config dropbear",
    "        option PasswordAuth     'off'",
    "        option RootPasswordAuth 'off'",
    "        option Port             '22'",
    ""]

/-- `rc.local.mustache` -/
def tplRcLocal : Text :=
  textOf [
    "#!/bin/sh",
    "ip6tables -P INPUT   DROP",
    "ip6tables -P FORWARD DROP",
    ""]

end Safewrt.Genesis
