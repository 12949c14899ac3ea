/-
  THE NAME OF A ROUTER.

  genesis writes the identity of the device into /etc/config/system; from there it becomes the
  name of the host, and with that name the clients call their servers.

  1. `hatchIdentity` — the name hatch goes by (`main` of packages/hatch/src/main.rs).

  2. `Booted` — what the router does between the two: it takes the name of the host from uci.

  3. **`router_named`** — an identity that survives its template arrives: hatch goes by it, and the
     servers of the other client read it behind `legacy.`
-/
import Safewrt.Genesis.System
import Safewrt.Lifeline.Helo
import Safewrt.Router.Setup

namespace Safewrt.Router

open Safewrt.Lib Safewrt.Dns Safewrt.Lifeline

/-! ## The names -/

/-- The identity of `main`: of the device, or the name of the host, where both unwraps succeed. -/
def hatchIdentity (getidentity : Option Text) (gethostname : Option CName) : Option Text :=
  getidentity.or (gethostname.bind fun name => fromBytes name.bytes)

/-- The name that genesis configures. -/
def configuredName (identity : Option Text) : Text := identity.getD "unidentified.gf".toList

/-- The name of the host in the configuration file of its system. -/
def systemName (file : Option Bytes) : Option Text :=
  ((file.bind fromBytes).bind Genesis.uciRead).bind Genesis.hostnameOf

/-- The host is called what uci reads, and `gethostname` returns it to whom has room for it. -/
def Booted (file : Option Bytes) (gethostname : Nat → Option CName) : Prop :=
  ∀ hostname, systemName file = some hostname → ∀ name : CName, name.bytes = asBytes hostname →
    ∀ size, name.bytes.length < size → gethostname size = some name

section

variable {w : Genesis.World} {fs after : Genesis.Fs} {c : Genesis.Config}

/-- The name that uci has is the configured one, if it survives the template. -/
theorem systemName_written (hconfig : Genesis.readConfig w fs = some c)
    (hmain : Genesis.main w fs = some after) (h : Genesis.Survives (configuredName w.identity)) :
    systemName (after "/etc/config/system".toList) = some (configuredName w.identity) := by
  obtain ⟨hquote, hescape⟩ := (Genesis.survives_iff _).mp h
  have hread := Genesis.hostname_read hquote
  rw [hescape] at hread
  have hfile : after "/etc/config/system".toList =
      some (asBytes (Genesis.tplConfigSystem (configuredName w.identity))) :=
    written_text hconfig hmain (by simp [Genesis.blocks, configuredName])
  rw [systemName, hfile, Option.bind_some, fromBytes_asBytes, Option.bind_some, hread]

/-- **The configured name arrives.**  If it survives its template, both clients know it, and their
    servers read it: hatch's as it is, the other one's behind `legacy.`. -/
theorem router_named (hconfig : Genesis.readConfig w fs = some c)
    (hmain : Genesis.main w fs = some after) (hsurvives : Genesis.Survives (configuredName w.identity))
    {name : CName} (hname : name.bytes = asBytes (configuredName w.identity))
    (hprintable : Printable name.bytes) (hshort : name.bytes.length < 64)
    {gethostname : Nat → Option CName}
    (hbooted : Booted (after "/etc/config/system".toList) gethostname) :
    ∃ identity, hatchIdentity w.identity (gethostname 64) = some identity ∧
      ∀ remotename : CName, Printable remotename.bytes →
        remotename.bytes.length + name.bytes.length ≤ heloRoom →
          Http.readHead (Lifeline1.buildHelo (asBytes identity) remotename.bytes) =
            some (heloHead remotename.bytes name.bytes, []) ∧
          Http.readHead (buildHelo remotename (gethostname 200)) =
            some (heloHead remotename.bytes (ascii "legacy." ++ name.bytes), []) := by
  have hhost : ∀ size, name.bytes.length < size → gethostname size = some name :=
    hbooted _ (systemName_written hconfig hmain hsurvives) name hname
  -- the same name, whether it is the identity itself or comes back from the host
  have hidentity : hatchIdentity w.identity (gethostname 64) = some (configuredName w.identity) := by
    rw [hatchIdentity, hhost 64 hshort, Option.bind_some, hname, fromBytes_asBytes]
    cases w.identity with
    | none => rfl
    | some identity => rfl
  refine ⟨_, hidentity, fun remotename hremote hroom => ?_⟩
  constructor
  · have hread := Http.readHead_printHead (heloHead_proper hremote hprintable) []
    rw [List.append_nil] at hread
    rw [Lifeline1.buildHelo, ← hname, heloText_eq, hread]
  · have hread := Http.readHead_printHead (heloHead_proper hremote (legacy_printable hprintable)) []
    rw [List.append_nil] at hread
    rw [hhost 200 (by omega), buildHelo_whole hroom]
    exact hread

end

/-! ## A router without an identity -/

/-- A host of that name. -/
def gethostnameOf (name : CName) (size : Nat) : Option CName :=
  if name.bytes.length < size then some name else none

/-- `gethostname` returns what uci has. -/
theorem gethostnameOf_booted {file : Option Bytes} {hostname : Text} {name : CName}
    (hread : systemName file = some hostname) (hname : name.bytes = asBytes hostname) :
    Booted file (gethostnameOf name) := by
  intro hostname' hread' name' hname' size hsize
  have hbytes : name'.bytes = name.bytes := by
    rw [hname', hname, Option.some.inj (hread'.symm.trans hread)]
  have hsame : name' = name := by
    cases name
    cases name'
    congr
  rw [← hsame]
  exact if_pos hsize

/-- The first server of each client reads the name that genesis has for it. -/
theorem router_named_unidentified : ∃ identity,
    hatchIdentity none (gethostnameOf (cname "unidentified.gf") 64) = some identity ∧
    Http.readHead (Lifeline1.buildHelo (asBytes identity) (cname "lifeline.hy5.berlin").bytes) =
      some (heloHead (ascii "lifeline.hy5.berlin") (ascii "unidentified.gf"), []) ∧
    Http.readHead (buildHelo (cname "lifeline.hy5.berlin")
      (gethostnameOf (cname "unidentified.gf") 200)) =
      some (heloHead (ascii "lifeline.hy5.berlin") (ascii "legacy.unidentified.gf"), []) := by
  have hmain : ∃ after, Genesis.main Genesis.sampleWorld (Genesis.sampleFs none) = some after := ⟨_, rfl⟩
  obtain ⟨after, hmain⟩ := hmain
  have hconfig : Genesis.readConfig Genesis.sampleWorld (Genesis.sampleFs none) =
      some Genesis.sampleConfig := rfl
  have hname : (cname "unidentified.gf").bytes =
      asBytes (configuredName Genesis.sampleWorld.identity) := by decide
  have hsurvives : Genesis.Survives (configuredName Genesis.sampleWorld.identity) := by
    show ∀ ch ∈ "unidentified.gf".toList,
      (ch ≠ '&' ∧ ch ≠ '<' ∧ ch ≠ '>' ∧ ch ≠ '"') ∧ ch ≠ Words.quote
    exact List.all_iff_forall_prop.mp (by decide)
  have hbooted := gethostnameOf_booted (systemName_written hconfig hmain hsurvives) hname
  obtain ⟨identity, hidentity, hclients⟩ :=
    router_named hconfig hmain hsurvives hname (by decide) (by decide) hbooted
  obtain ⟨hhatch, hlifeline⟩ := hclients (cname "lifeline.hy5.berlin") (by decide) (by decide)
  refine ⟨identity, hidentity, ?_, ?_⟩
  · rw [hhatch]
    decide +kernel
  · rw [hlifeline]
    decide +kernel

end Safewrt.Router
