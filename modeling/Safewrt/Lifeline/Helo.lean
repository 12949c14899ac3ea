/-
  THE REQUEST OF A CLIENT (`build_helo` of packages/lifeline/lifeline.c, and of
  hatch/src/services/lifeline1/mod.rs).

  1. **`buildHelo`** — the text with the server's name and the host's, cut where `snprintf` cuts it;
     the Rust client formats the same text with its identity, and cuts nothing.

  2. `heloHead` — what it is to say: the head of a request for an upgrade.

  3. **`buildHelo_read`** — what a server reads: the head, if both names fit into the buffer, and
     otherwise a head that does not end.  What the two clients say to one server is compared where
     both are named by one configuration (`Router.router_named`).
-/
import Safewrt.Lib.Http
import Safewrt.Lifeline.Main

namespace Safewrt.Lifeline

open Safewrt.Lib Safewrt.Dns

/-! ## The request -/

/-- The text of both clients, up to what they put behind `X-LF-Name`. -/
def heloText (remotename label : Bytes) : Bytes :=
  ascii "GET /lifeline/1 HTTP/1.1\r\n" ++
  (ascii "Host: " ++ remotename ++ ascii "\r\n") ++
  ascii "Upgrade: websocket\r\n" ++
  ascii "Connection: Upgrade\r\n" ++
  (ascii "User-Agent: Mozilla/5.0 (X11; Linux x86_64) AppleWebKit/537.36 " ++
    ascii "(KHTML, like Gecko) Chrome/51.0.2704.63 Safari/537.36\r\n") ++
  ascii "Sec-WebSocket-Key: x3JJHMbDL1EzLkh9GBhXDw==\r\n" ++
  ascii "Sec-WebSocket-Protocol: chat, superchat\r\n" ++
  ascii "Sec-WebSocket-Version: 13\r\n" ++
  (ascii "X-LF-Name: " ++ label ++ ascii "\r\n") ++
  ascii "\r\n"

/-- `name`, once `gethostname` has returned. -/
def hostName (gethostname : Option CName) : Bytes := gethostname.elim (ascii "?") CName.bytes

/-- `build_helo`: `snprintf` leaves room for the zero. -/
def buildHelo (remotename : CName) (gethostname : Option CName) : Bytes :=
  (heloText remotename.bytes (ascii "legacy." ++ hostName gethostname)).take 2047

/-! ## What it says -/

/-- The head the text is to be, with the name of the client as its last field. -/
def heloHead (remotename label : Bytes) : Http.Head where
  start := ascii "GET /lifeline/1 HTTP/1.1"
  fields := [
    ⟨ascii "Host", remotename⟩,
    ⟨ascii "Upgrade", ascii "websocket"⟩,
    ⟨ascii "Connection", ascii "Upgrade"⟩,
    ⟨ascii "User-Agent", ascii "Mozilla/5.0 (X11; Linux x86_64) AppleWebKit/537.36 " ++
      ascii "(KHTML, like Gecko) Chrome/51.0.2704.63 Safari/537.36"⟩,
    ⟨ascii "Sec-WebSocket-Key", ascii "x3JJHMbDL1EzLkh9GBhXDw=="⟩,
    ⟨ascii "Sec-WebSocket-Protocol", ascii "chat, superchat"⟩,
    ⟨ascii "Sec-WebSocket-Version", ascii "13"⟩,
    ⟨ascii "X-LF-Name", label⟩]

/-- A name that can stand in a header. -/
def Printable (name : Bytes) : Prop := ∀ b ∈ name, b ≠ Http.cr ∧ Http.isBlank b = false

instance : DecidablePred Printable := fun name =>
  decidable_of_iff ((name.all fun b => b ≠ Http.cr ∧ Http.isBlank b = false) = true)
    List.all_iff_forall_prop

theorem Printable.append {name name' : Bytes} (h : Printable name) (h' : Printable name') :
    Printable (name ++ name') := List.forall_mem_append.mpr ⟨h, h'⟩

/-- A field with a name of the client's and a value of somebody else's. -/
theorem fieldLine {front name : Bytes} (h : front = name ++ [Http.colon, 0x20]) (value : Bytes) :
    front ++ value ++ ascii "\r\n" = Http.Field.print ⟨name, value⟩ := by
  have hend : ascii "\r\n" = Http.crlf := by decide
  rw [h, hend, Http.Field.print, List.append_assoc, List.append_assoc]

/-- The text is this head, as `printHead` sends it. -/
theorem heloText_eq (remotename label : Bytes) :
    heloText remotename label = Http.printHead (heloHead remotename label) := by
  -- each literal of the text is a line of the head
  have hstart : ascii "GET /lifeline/1 HTTP/1.1\r\n" =
      ascii "GET /lifeline/1 HTTP/1.1" ++ Http.crlf := by decide
  have hhost := fieldLine (show ascii "Host: " = ascii "Host" ++ _ by decide) remotename
  have hupgrade : ascii "Upgrade: websocket\r\n" =
      Http.Field.print ⟨ascii "Upgrade", ascii "websocket"⟩ := by decide
  have hconnection : ascii "Connection: Upgrade\r\n" =
      Http.Field.print ⟨ascii "Connection", ascii "Upgrade"⟩ := by decide
  have hagent : ascii "User-Agent: Mozilla/5.0 (X11; Linux x86_64) AppleWebKit/537.36 " ++
        ascii "(KHTML, like Gecko) Chrome/51.0.2704.63 Safari/537.36\r\n" =
      Http.Field.print ⟨ascii "User-Agent",
        ascii "Mozilla/5.0 (X11; Linux x86_64) AppleWebKit/537.36 " ++
          ascii "(KHTML, like Gecko) Chrome/51.0.2704.63 Safari/537.36"⟩ := by decide +kernel
  have hkey : ascii "Sec-WebSocket-Key: x3JJHMbDL1EzLkh9GBhXDw==\r\n" =
      Http.Field.print ⟨ascii "Sec-WebSocket-Key", ascii "x3JJHMbDL1EzLkh9GBhXDw=="⟩ := by
    decide +kernel
  have hprotocol : ascii "Sec-WebSocket-Protocol: chat, superchat\r\n" =
      Http.Field.print ⟨ascii "Sec-WebSocket-Protocol", ascii "chat, superchat"⟩ := by
    decide +kernel
  have hversion : ascii "Sec-WebSocket-Version: 13\r\n" =
      Http.Field.print ⟨ascii "Sec-WebSocket-Version", ascii "13"⟩ := by decide
  have hlabel := fieldLine (show ascii "X-LF-Name: " = ascii "X-LF-Name" ++ _ by decide) label
  have hend : ascii "\r\n" = Http.crlf := by decide
  rw [heloText, hhost, hlabel, hstart, hupgrade, hconnection, hagent, hkey, hprotocol, hversion, hend,
    heloHead, Http.printHead]
  simp only [List.flatMap_cons, List.flatMap_nil, List.append_assoc, List.append_nil]

/-- A printable value under a name that is one makes a field that can be read back. -/
theorem Printable.proper {name value : Bytes} (hnonempty : name ≠ [])
    (hname : ∀ b ∈ name, b ≠ Http.colon ∧ b ≠ Http.cr) (hvalue : Printable value) :
    Http.Field.Proper ⟨name, value⟩ where
  nonempty := hnonempty
  name := hname
  value := fun hmem => (hvalue _ hmem).1 rfl
  front := fun b hb => (hvalue b (List.mem_of_head? hb)).2
  back := fun b hb => (hvalue b (List.mem_of_getLast? hb)).2

/-- With printable names the head can be read back. -/
theorem heloHead_proper {remotename label : Bytes} (hremote : Printable remotename)
    (hlabel : Printable label) : (heloHead remotename label).Proper := by
  have hhost : Http.Field.Proper ⟨ascii "Host", remotename⟩ :=
    Printable.proper (by decide) (List.all_iff_forall_prop.mp (by decide)) hremote
  have hname : Http.Field.Proper ⟨ascii "X-LF-Name", label⟩ :=
    Printable.proper (by decide) (List.all_iff_forall_prop.mp (by decide)) hlabel
  constructor
  · show Http.cr ∉ ascii "GET /lifeline/1 HTTP/1.1"
    decide
  · simp only [heloHead, List.forall_mem_cons]
    exact ⟨hhost, by decide, by decide, by decide +kernel, by decide, by decide, by decide, hname,
      List.forall_mem_nil _⟩

/-! ## What a server reads -/

/-- What the two names may take together. -/
def heloRoom : Nat := 1719

/-- What of the buffer the two names leave free. -/
theorem length_heloText (remotename name : Bytes) :
    (heloText remotename (ascii "legacy." ++ name)).length + heloRoom =
      remotename.length + name.length + 2047 := by
  have hconst : (heloText [] (ascii "legacy.")).length + heloRoom = 2047 := by decide +kernel
  simp only [heloText, List.length_append, List.length_nil] at hconst ⊢
  omega

/-- The C client puts "legacy." before the name of the host. -/
theorem legacy_printable {name : Bytes} (h : Printable name) : Printable (ascii "legacy." ++ name) :=
  Printable.append (by decide) h

/-- Where the names fit nothing is cut. -/
theorem buildHelo_whole {remotename : CName} {gethostname : Option CName}
    (hroom : remotename.bytes.length + (hostName gethostname).length ≤ heloRoom) :
    buildHelo remotename gethostname =
      Http.printHead (heloHead remotename.bytes (ascii "legacy." ++ hostName gethostname)) := by
  have hlength := length_heloText remotename.bytes (hostName gethostname)
  rw [buildHelo, List.take_of_length_le (by omega), heloText_eq]

/-- **What a server reads of the request** is the whole head if the names fit into the buffer; if
    not, it waits for the end of a head. -/
theorem buildHelo_read {remotename : CName} {gethostname : Option CName}
    (hremote : Printable remotename.bytes) (hname : Printable (hostName gethostname)) :
    Http.readHead (buildHelo remotename gethostname) =
      if remotename.bytes.length + (hostName gethostname).length ≤ heloRoom then
        some (heloHead remotename.bytes (ascii "legacy." ++ hostName gethostname), [])
      else none := by
  have hproper := heloHead_proper hremote (legacy_printable hname)
  by_cases hroom : remotename.bytes.length + (hostName gethostname).length ≤ heloRoom
  · have hread := Http.readHead_printHead hproper []
    rw [List.append_nil] at hread
    rw [if_pos hroom, buildHelo_whole hroom, hread]
  · have hlength := length_heloText remotename.bytes (hostName gethostname)
    rw [heloText_eq] at hlength
    rw [if_neg hroom, buildHelo, heloText_eq, Http.readHead_cut hproper (by omega)]

/-- A request to the first server. -/
theorem buildHelo_read_gf : Http.readHead (buildHelo (cname "lifeline.hy5.berlin") (some (cname "gf"))) =
    some (heloHead (ascii "lifeline.hy5.berlin") (ascii "legacy.gf"), []) := by
  rw [buildHelo_read (by decide) (by decide), if_pos (by decide)]
  decide +kernel

end Safewrt.Lifeline

namespace Safewrt.Lifeline1

open Safewrt.Lifeline Safewrt.Lib Safewrt.Dns

/-! ## The other client -/

/-- `build_helo`: the same format string, filled by `format!`, which has no buffer to overrun; the
    label is the identity itself. -/
def buildHelo (identity remotename : Bytes) : Bytes := heloText remotename identity

end Safewrt.Lifeline1
