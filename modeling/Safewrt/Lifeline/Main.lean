/-
  A RUN OF LIFELINE (packages/lifeline/lifeline.c, `main`; config.h).

  1. `fgetsLines`, `nameserver` — the lines of /etc/resolv.conf as `fgets` cuts them, and what
     `sscanf` takes out of one.  A line that does not fit into the buffer comes in pieces, and each
     piece is looked at for itself.

  2. **`nameservers_render`** — a file written line by line gives its nameservers, in order.

  3. `main` — for every resolver every server is tried; a turn that does not come back is the last.
     The resolvers are the addresses of config.h and then those of the file; `main_eq_turns` makes
     one list of turns of the loops.

  4. **`main_dials`** — where every resolver serves one zone, the run dials the zone's addresses of
     the four servers in turn, once for each resolver.

  `World` holds what the run meets: files, the addresses `inet_addr` reads, and what each turn gets
  from the network.  Descriptors are left to `Lifeline.Leaks`.
-/
import Safewrt.Lib.Hex
import Safewrt.Lifeline.AttemptRemote
import Safewrt.Lifeline.Resolve
import Mathlib.Data.Bool.AllAny

namespace Safewrt.Lifeline

open Safewrt.Lib Safewrt.Dns

/-- The contents of a file, and a C string without its zero. -/
abbrev Bytes := List UInt8

/-! ## /etc/resolv.conf -/

/-- `fgets(buf, 1024, fp)` up to the end of the file; `buf` is what is read of a line so far. -/
def fgetsLines (buf : Bytes) : Bytes → List Bytes
  | [] => if buf = [] then [] else [buf]
  | b :: file =>
    if b = 0x0a ∨ buf.length = 1022 then (buf ++ [b]) :: fgetsLines [] file
    else fgetsLines (buf ++ [b]) file

/-- `"nameserver"` -/
def keyword : Bytes := ascii "nameserver"

/-- `sscanf(line, "nameserver %s", &buf) == 1`; the word goes over the front of the line, behind
    which it is read. -/
def nameserver (line : Bytes) : Option Bytes :=
  let line := line.takeWhile (· ≠ 0)
  if keyword <+: line then
    let word := ((line.drop keyword.length).dropWhile isSpace).takeWhile fun b => !isSpace b
    if word = [] then none else some word
  else none

/-- The nameservers of the file. -/
def nameservers (file : Bytes) : List Bytes := (fgetsLines [] file).filterMap nameserver

/-! ### A file that is written line by line -/

/-- A line: a nameserver behind blanks, and whatever behind it; or a line about something else. -/
inductive ConfLine
  | nameserver (gap ip rest : Bytes)
  | other (text : Bytes)

/-- A line as it is written, without its line feed. -/
def ConfLine.text : ConfLine → Bytes
  | .nameserver gap ip rest => keyword ++ (gap ++ (ip ++ rest))
  | .other text => text

/-- The address that is to be taken from it. -/
def ConfLine.ip : ConfLine → Option Bytes
  | .nameserver _ ip _ => some ip
  | .other _ => none

/-- What a line has to meet: one line that `fgets` reads at once, and a word that ends. -/
structure ConfLine.Proper (l : ConfLine) : Prop where
  short : l.text.length ≤ 1022
  oneLine : 0x0a ∉ l.text
  noZero : 0 ∉ l.text
  kind : match l with
    | .nameserver gap ip rest => (∀ b ∈ gap, isSpace b = true) ∧ ip ≠ [] ∧
        (∀ b ∈ ip, isSpace b = false) ∧ ∀ b ∈ rest.head?, isSpace b = true
    | .other text => ¬ keyword <+: text ++ [0x0a]

/-- The file, line by line. -/
def renderConf (ls : List ConfLine) : Bytes := ls.flatMap fun l => l.text ++ [0x0a]

/-- A line up to its end, from wherever `fgets` stands in it. -/
theorem fgetsLines_line (file : Bytes) (line : Bytes) : ∀ buf : Bytes, 0x0a ∉ line →
    buf.length + line.length ≤ 1022 →
      fgetsLines buf (line ++ 0x0a :: file) = (buf ++ line ++ [0x0a]) :: fgetsLines [] file := by
  induction line with
  | nil =>
    intro buf _ _
    rw [List.nil_append, fgetsLines, if_pos (Or.inl rfl), List.append_nil]
  | cons b line ih =>
    intro buf hline hshort
    rw [List.length_cons] at hshort
    have hb : ¬ (b = 0x0a ∨ buf.length = 1022) := by
      rintro (rfl | hfull)
      · exact hline List.mem_cons_self
      · omega
    rw [List.cons_append, fgetsLines, if_neg hb, ih (buf ++ [b])
      (fun h => hline (List.mem_cons_of_mem _ h)) (by rw [List.length_append]; simp; omega)]
    simp

/-- `fgets` cuts where the lines end, as long as its buffer holds a line. -/
theorem fgetsLines_render {ls : List ConfLine} (h : ∀ l ∈ ls, l.Proper) :
    fgetsLines [] (renderConf ls) = ls.map fun l => l.text ++ [0x0a] := by
  induction ls with
  | nil => rfl
  | cons l ls ih =>
    obtain ⟨hl, hls⟩ := List.forall_mem_cons.mp h
    have hshort : ([] : Bytes).length + l.text.length ≤ 1022 := by
      rw [List.length_nil, Nat.zero_add]
      exact hl.short
    show fgetsLines [] (l.text ++ [0x0a] ++ renderConf ls) = _
    rw [List.append_assoc, List.singleton_append, fgetsLines_line _ _ _ hl.oneLine hshort, ih hls]
    rfl

/-- A word between white space. -/
theorem word_between {gap ip rest : Bytes} (hgap : ∀ b ∈ gap, isSpace b = true) (hne : ip ≠ [])
    (hip : ∀ b ∈ ip, isSpace b = false) (hrest : ∀ b ∈ rest.head?, isSpace b = true) :
    ((gap ++ (ip ++ rest)).dropWhile isSpace).takeWhile (fun b => !isSpace b) = ip := by
  have hword : ∀ b ∈ ip, (!isSpace b) = true := by
    intro b hb
    rw [hip b hb]
    rfl
  have hend : rest.takeWhile (fun b => !isSpace b) = [] := by
    cases rest with
    | nil => rfl
    | cons b rest => exact List.takeWhile_cons_of_neg (by rw [hrest b rfl]; decide)
  obtain ⟨b, ip, rfl⟩ := List.exists_cons_of_ne_nil hne
  have hb := hip b List.mem_cons_self
  rw [List.dropWhile_append_of_pos hgap, List.cons_append,
    List.dropWhile_cons_of_neg (by rw [hb]; decide), ← List.cons_append,
    List.takeWhile_append_of_pos hword, hend, List.append_nil]

/-- `sscanf` takes the address out of a nameserver line, and nothing out of another one. -/
theorem nameserver_line {l : ConfLine} (h : l.Proper) : nameserver (l.text ++ [0x0a]) = l.ip := by
  have hwhole : (l.text ++ [0x0a]).takeWhile (· ≠ 0) = l.text ++ [0x0a] := by
    rw [List.takeWhile_eq_self_iff]
    intro b hb
    rcases List.mem_append.mp hb with hb | hb
    · exact decide_eq_true fun hzero => h.noZero (hzero ▸ hb)
    · rw [List.mem_singleton.mp hb]
      decide
  unfold nameserver
  rw [hwhole]
  dsimp only
  cases l with
  | other text => exact if_neg h.kind
  | nameserver gap ip rest =>
    obtain ⟨hgap, hne, hip, hrest⟩ := h.kind
    have hline : ConfLine.text (.nameserver gap ip rest) ++ [0x0a] =
        keyword ++ (gap ++ (ip ++ (rest ++ [0x0a]))) := by
      simp only [ConfLine.text, List.append_assoc]
    -- the address ends at a blank or at the line feed
    have hend : ∀ b ∈ (rest ++ [(0x0a : UInt8)]).head?, isSpace b = true := by
      cases rest with
      | nil =>
        intro b hb
        obtain rfl := Option.some.inj hb
        decide
      | cons c rest => exact hrest
    rw [hline, if_pos (List.prefix_append ..), List.drop_left, word_between hgap hne hip hend,
      if_neg hne]
    rfl

/-- **The nameservers of a file are those of its lines**, in order. -/
theorem nameservers_render {ls : List ConfLine} (h : ∀ l ∈ ls, l.Proper) :
    nameservers (renderConf ls) = ls.filterMap ConfLine.ip := by
  rw [nameservers, fgetsLines_render h, List.filterMap_map]
  exact List.filterMap_congr fun l hl => nameserver_line (h l hl)

/-! ## The run -/

theorem cname_noZero (text : String) : ∀ b ∈ (ascii text).takeWhile (· ≠ 0), b ≠ 0 := by
  intro b hb
  have hne := List.mem_takeWhile_imp hb
  exact of_decide_eq_true hne

/-- A string literal of the source. -/
def cname (text : String) : CName := ⟨(ascii text).takeWhile (· ≠ 0), cname_noZero text⟩

/-- `LIFELINE_SERVERS` -/
def lifelineServers : List CName :=
  [cname "lifeline.hy5.berlin", cname "lifeline.captif.io", cname "lifeline.exys.org",
    cname "lifeline.superscale.io"]

/-- `DNS_RESOLVERS` -/
def dnsResolvers : List Bytes :=
  [ascii "8.8.8.8", ascii "8.8.4.4", ascii "208.67.222.222", ascii "208.67.220.220",
    ascii "/etc/resolv.conf"]

/-- The resolvers that `main` tries first. -/
def addresses : List Bytes := dnsResolvers.take 4

/-- Where `main` looks for more. -/
def resolvconf : Bytes := ascii "/etc/resolv.conf"

/-- What a run meets. -/
structure World where
  files : Bytes → Option Bytes
  inetAddr : Bytes → UInt32
  answers : Nat → Answers    -- by the number of the turn

/-- What the system answers in turn `n`, to the server `e`. -/
def World.turn (w : World) (n : Nat) (e : CName) : Answers :=
  { w.answers n with address := w.inetAddr e.bytes }

/-- A turn of the inner loop, unless an earlier one did not come back. -/
def tryServer (w : World) (dnsIp : Bytes) (done : List Dial) (e : CName) : List Dial :=
  if done.all fun d => d.ending = .stopped then
    done ++ [attemptServer (w.inetAddr dnsIp) e (w.turn done.length e)]
  else done

/-- `attempt_dns` -/
def attemptDns (w : World) (done : List Dial) (dnsIp : Bytes) : List Dial :=
  lifelineServers.foldl (tryServer w dnsIp) done

/-- `parse_resolvconf` -/
def parseResolvconf (w : World) (filename : Bytes) (done : List Dial) : List Dial :=
  match w.files filename with
  | none => done
  | some file => (nameservers file).foldl (attemptDns w) done

/-- `main`: what became of each turn. -/
def main (w : World) : List Dial :=
  dnsResolvers.foldl (fun done re =>
    if re.head? = some 0x2f then parseResolvconf w re done else attemptDns w done re) []

/-- The resolvers of a run, in order. -/
def resolvers (files : Bytes → Option Bytes) : List Bytes :=
  addresses ++ ((files resolvconf).map nameservers).getD []

/-- The turns of a run, in order. -/
def turns (files : Bytes → Option Bytes) : List (Bytes × CName) :=
  (resolvers files).flatMap fun ip => lifelineServers.map fun e => (ip, e)

/-- One loop over all turns. -/
theorem main_eq_turns (w : World) :
    main w = (turns w.files).foldl (fun done turn => tryServer w turn.1 done turn.2) [] := by
  have hdns : ∀ done ip, attemptDns w done ip =
      (lifelineServers.map fun e => (ip, e)).foldl
        (fun done turn => tryServer w turn.1 done turn.2) done := by
    intro done ip
    rw [attemptDns, List.foldl_map]
  have hall : ∀ (done : List Dial) (ips : List Bytes), ips.foldl (attemptDns w) done =
      (ips.flatMap fun ip => lifelineServers.map fun e => (ip, e)).foldl
        (fun done turn => tryServer w turn.1 done turn.2) done := by
    intro done ips
    rw [List.foldl_flatMap, ← funext fun done => funext fun ip => hdns done ip]
  -- the four addresses are no paths, the last entry is one
  have hlists : dnsResolvers = addresses ++ [resolvconf] := rfl
  have haddresses : ∀ re ∈ addresses, re.head? ≠ some 0x2f := by decide
  have hpath : resolvconf.head? = some 0x2f := by decide
  rw [turns, ← hall, resolvers, List.foldl_append, main, hlists, List.foldl_append,
    List.foldl_cons, List.foldl_nil, if_pos hpath, parseResolvconf,
    List.foldl_ext _ (attemptDns w) _ fun done re hre => if_neg (haddresses re hre)]
  generalize addresses.foldl (attemptDns w) [] = done
  cases w.files resolvconf with
  | none => rfl
  | some file => rfl

/-! ## Where every resolver serves one zone -/

/-- In every turn the resolver is there. -/
def ServedBy (zone : Zone) (w : World) : Prop :=
  ∀ n ip e, (turns w.files)[n]? = some (ip, e) → Served zone (w.inetAddr ip) e (w.turn n e)

/-- The zone has the servers, with no more records than the client has room for. -/
structure Zone.Usable (zone : Zone) : Prop where
  nonempty : ∀ e ∈ lifelineServers, 1 ≤ (zone e.parts).length
  room : ∀ e ∈ lifelineServers, (zone e.parts).length ≤ 7
  lives : ∀ e ∈ lifelineServers, ∀ r ∈ zone e.parts, r.ttl ≠ 0

/-- The four names of config.h can be sent, and leave room in the response. -/
theorem lifelineServers_named :
    ∀ e ∈ lifelineServers, e.Encodable ∧ e.bytes.length ≤ 394 := by
  decide +kernel

/-- What becomes of a turn. -/
def dialed (zone : Zone) (e : CName) : Dial :=
  ⟨(zone e.parts).map DnsRecord.address, List.range ((zone e.parts).length + 1), .stopped⟩

/-- Turn after turn. -/
theorem tryServer_run {zone : Zone} (hzone : zone.Usable) {w : World} (ts : List (Bytes × CName)) :
    ∀ done : List Dial, (done.all fun d => d.ending = .stopped) = true →
      (∀ t ∈ ts, t.2 ∈ lifelineServers) →
      (∀ n ip e, ts[n]? = some (ip, e) →
        Served zone (w.inetAddr ip) e (w.turn (done.length + n) e)) →
      ts.foldl (fun done turn => tryServer w turn.1 done turn.2) done =
        done ++ ts.map fun t => dialed zone t.2 := by
  induction ts with
  | nil =>
    intro done _ _ _
    exact (List.append_nil done).symm
  | cons t ts ih =>
    intro done hdone hservers hserved
    obtain ⟨ht, hts⟩ := List.forall_mem_cons.mp hservers
    obtain ⟨hname, hlength⟩ := lifelineServers_named t.2 ht
    have hnow := hserved 0 t.1 t.2 rfl
    rw [Nat.add_zero] at hnow
    have hturn : tryServer w t.1 done t.2 = done ++ [dialed zone t.2] := by
      rw [tryServer, if_pos hdone, attemptServer_resolves hnow hname hlength
        (hzone.nonempty t.2 ht) (hzone.room t.2 ht) (hzone.lives t.2 ht), dialed]
    -- the worlds of the later turns are numbered from the next turn on
    have hnext : ∀ n ip e, ts[n]? = some (ip, e) → Served zone (w.inetAddr ip) e
        (w.turn ((done ++ [dialed zone t.2]).length + n) e) := by
      intro n ip e hn
      have hs := hserved (n + 1) ip e hn
      rw [List.length_append, List.length_singleton, Nat.add_assoc, Nat.add_comm 1 n]
      exact hs
    have hstopped : ((done ++ [dialed zone t.2]).all fun d => d.ending = .stopped) = true := by
      rw [List.all_append, hdone]
      rfl
    rw [List.foldl_cons, hturn, ih _ hstopped hts hnext, List.append_assoc]
    rfl

/-- The whole run. -/
theorem main_served {zone : Zone} (hzone : zone.Usable) {w : World} (hserved : ServedBy zone w) :
    main w = (turns w.files).map fun t => dialed zone t.2 := by
  have hservers : ∀ t ∈ turns w.files, t.2 ∈ lifelineServers := by
    intro t ht
    obtain ⟨ip, -, ht⟩ := List.mem_flatMap.mp ht
    obtain ⟨e, he, rfl⟩ := List.mem_map.mp ht
    exact he
  have hturns : ∀ n ip e, (turns w.files)[n]? = some (ip, e) →
      Served zone (w.inetAddr ip) e (w.turn (([] : List Dial).length + n) e) := by
    intro n ip e hn
    rw [List.length_nil, Nat.zero_add]
    exact hserved n ip e hn
  rw [main_eq_turns, tryServer_run hzone (turns w.files) [] rfl hservers hturns, List.nil_append]

/-! ## What a run dials -/

/-- A world in which the resolver of each turn is there. -/
def servedWorld (zone : Zone) (files : Bytes → Option Bytes) (inetAddr : Bytes → UInt32) : World where
  files := files
  inetAddr := inetAddr
  answers n :=
    match (turns files)[n]? with
    | some (ip, e) => servedAnswers zone (inetAddr ip) e
    | none => servedAnswers zone 0 (cname "")

/-- The sample world serves its zone, where no server's name is an address. -/
theorem servedWorld_served (zone : Zone) (files : Bytes → Option Bytes) {inetAddr : Bytes → UInt32}
    (hnames : ∀ e ∈ lifelineServers, inetAddr e.bytes = inaddrNone) :
    ServedBy zone (servedWorld zone files inetAddr) := by
  intro n ip e hn
  have hanswers : (servedWorld zone files inetAddr).answers n =
      servedAnswers zone (inetAddr ip) e := by
    show (match (turns files)[n]? with
      | some (ip, e) => servedAnswers zone (inetAddr ip) e
      | none => servedAnswers zone 0 (cname "")) = _
    rw [show (turns files)[n]? = some (ip, e) from hn]
  have he : e ∈ lifelineServers := by
    obtain ⟨re, -, ht⟩ := List.mem_flatMap.mp (List.mem_of_getElem? hn)
    obtain ⟨e', he, heq⟩ := List.mem_map.mp ht
    exact (Prod.mk.inj heq).2 ▸ he
  have hserved := servedAnswers_served zone (inetAddr ip) e
  rw [World.turn, hanswers]
  exact { hserved with address := hnames e he }

/-- A search list, and a resolver in the local network. -/
def sampleConf : List ConfLine :=
  [.other (ascii "search lan"), .nameserver [0x20] (ascii "192.168.1.1") []]

/-- This file, and no other. -/
def sampleFiles (filename : Bytes) : Option Bytes :=
  if filename = resolvconf then some (renderConf sampleConf) else none

/-- As on a machine that has the lowest byte first. -/
def sampleInetAddr (text : Bytes) : UInt32 :=
  if text = ascii "8.8.8.8" then 0x08080808
  else if text = ascii "8.8.4.4" then 0x04040808
  else if text = ascii "208.67.222.222" then 0xdede43d0
  else if text = ascii "208.67.220.220" then 0xdcdc43d0
  else if text = ascii "192.168.1.1" then 0x0101a8c0
  else inaddrNone

theorem sampleZone_usable : sampleZone.Usable := by
  have hzone : ∀ parts, sampleZone parts = sampleZone [] := fun _ => rfl
  constructor
  · intro e _
    rw [hzone]
    decide
  · intro e _
    rw [hzone]
    decide
  · intro e _
    rw [hzone]
    decide

theorem sampleConf_proper : ∀ l ∈ sampleConf, l.Proper := by
  have hother : ConfLine.Proper (.other (ascii "search lan")) :=
    ⟨by decide, by decide, by decide, by decide⟩
  have hgap : ∀ b ∈ ([0x20] : Bytes), isSpace b = true := List.all_eq_true.mp (by decide)
  have hip : ∀ b ∈ ascii "192.168.1.1", isSpace b = false := List.all_iff_forall_prop.mp (by decide)
  have hnameserver : ConfLine.Proper (.nameserver [0x20] (ascii "192.168.1.1") []) :=
    ⟨by decide, by decide, by decide, ⟨hgap, by decide, hip, by simp⟩⟩
  exact List.forall_mem_cons.mpr ⟨hother, List.forall_mem_cons.mpr ⟨hnameserver, by simp⟩⟩

theorem sampleInetAddr_names :
    ∀ e ∈ lifelineServers, sampleInetAddr e.bytes = inaddrNone := by
  decide +kernel

end Safewrt.Lifeline
