/-
  A control connection of lifeline1 (hatch/src/services/lifeline1/mod.rs, `remote`), from the
  server's first bytes to the tunnel.

  1. **Session** — one `read` of up to 1024 bytes stands for the whole handshake; what it returned
     is dropped.  Then local ssh is connected and the tunnel copies what the socket still holds.
     `unread` is that remainder; the labels say how much each `read` of the socket gets of it.

  2. `remote_split`: the first read decides and splits the stream, whatever it holds.  What ssh has
     been given is from then on a prefix of the bytes behind that read, and all of them once the
     copy to ssh has ended by itself.  Where the other copy ends first, `select2` drops this one
     and what it held.

  3. The C client reads the same stream in `attemptRemoteSplit`.  The two split it alike exactly
     where the first read returned one whole handshake of the C client and nothing more;
     `header_ignored` has streams on which they part.

  The invariant of a session (`SessionOk`) splits the stream in three: what the first read took,
  what the tunnel has read, and what is unread.  That the middle part is what ssh was given and
  what the copy still holds is `Sound`, taken over from the copy.
-/
import Safewrt.Lifeline.Segments
import Safewrt.Lifeline1.Tunnel

namespace Safewrt.Lifeline1

open Safewrt.Lib Safewrt.Lifeline

/-! ## The session -/

/-- `vec![0; 1024]` -/
def headerSize : Nat := 1024

/-- Where `remote` stands. -/
inductive Phase
  | waiting                       -- in `tokio_io::io::read`, against the safety reset
  | connecting                    -- in `local(handle2)`
  | forwarding (tunnel : Tunnel)
  | failed                        -- the read failed, or the safety reset fired
  | refused                       -- local ssh did not answer

/-- One control connection, as far as the bytes of the server go. -/
structure Remote where
  /-- what the server sends and the client has not read yet -/
  unread : List UInt8
  /-- what the one read of the header returned -/
  header : Option (List UInt8)
  phase : Phase

/-- The request has been written; the server will send `stream` and close. -/
def Remote.init (stream : List UInt8) : Remote := ⟨stream, none, .waiting⟩

/-- The local ssh forward is connected, or was attempted. -/
def Remote.connects (r : Remote) : Bool :=
  match r.phase with
  | .waiting => false
  | .failed => false
  | .connecting => true
  | .forwarding _ => true
  | .refused => true

/-- A `read` of at most `want` bytes may return `n`: none only at the end of the stream. -/
def MayRead (want n : Nat) (stream : List UInt8) : Prop :=
  n ≤ want ∧ n ≤ stream.length ∧ (n = 0 → stream = [])

instance (want n : Nat) (stream : List UInt8) : Decidable (MayRead want n stream) := by
  unfold MayRead; infer_instance

/-- What happens next in a session. -/
inductive Label
  | headerRead (n : Nat)
  | headerFailed
  | localConnected (created1 created2 : Nat) (armed1 armed2 : Bool)
  | localFailed
  | tunnel (e : Event)

/-- The socket under `copy1`: what a tunnel step leaves unread, `none` where the reader would
    answer with other bytes than the stream's. -/
def takeUnread (unread : List UInt8) (turn : Side) (e : Event) : Option (List UInt8) :=
  match turn, e with
  | .remoteToLocal, .read _ (.ready data) =>
    if data <+: unread ∧ (data = [] → unread = []) then some (unread.drop data.length) else none
  | _, _ => some unread

/-- The labels come from outside: what the read returns, whether ssh answers, and the answers that
    the two copies get. -/
def Remote.step (r : Remote) (l : Label) : Option Remote :=
  match r.phase, l with
  | .waiting, .headerRead n =>
    if MayRead headerSize n r.unread then
      some ⟨r.unread.drop n, some (r.unread.take n), .connecting⟩
    else none
  | .waiting, .headerFailed => some { r with phase := .failed }
  | .connecting, .localConnected created1 created2 armed1 armed2 =>
    some { r with phase := .forwarding (.init created1 created2 armed1 armed2) }
  | .connecting, .localFailed => some { r with phase := .refused }
  | .forwarding tunnel, .tunnel e =>
    match takeUnread r.unread tunnel.turn e, tunnel.step e with
    | some unread, some tunnel => some { r with unread := unread, phase := .forwarding tunnel }
    | _, _ => none
  | _, _ => none

/-! ## The invariant of the session -/

/-- What the tunnel has read from the socket. -/
def Remote.relayed (r : Remote) : List UInt8 :=
  match r.phase with
  | .forwarding tunnel => bytesRead tunnel.copy1.log
  | _ => []

/-- **The stream is the header, what the tunnel has read, and what is unread.** -/
structure SessionOk (stream : List UInt8) (r : Remote) : Prop where
  split : r.header.getD [] ++ (r.relayed ++ r.unread) = stream
  decided : r.connects = r.header.isSome
  read : ∀ h, r.header = some h → MayRead headerSize h.length stream
  tunnel : ∀ t, r.phase = .forwarding t → Sound t.copy1 ∧
    ∀ now, Transfer.read now [] ∈ t.copy1.log → r.unread = []

theorem sessionOk_init (stream : List UInt8) : SessionOk stream (.init stream) :=
  ⟨rfl, rfl, fun h hh => absurd hh (by simp [Remote.init]),
    fun t ht => absurd ht (by simp [Remote.init])⟩

/-- A log that grew by a write or a flush has the same bytes read. -/
theorem OneMore.bytesRead {log log' : List Transfer} (h : OneMore log log') :
    bytesRead log' = bytesRead log := by
  rcases h with rfl | ⟨x, rfl, hx, -⟩
  · rfl
  · rw [bytesRead_concat, hx, List.append_nil]

/-- A log that grew by a write or a flush has the same reads. -/
theorem OneMore.read_mem {log log' : List Transfer} (h : OneMore log log') {now : Nat}
    {data : List UInt8} (hmem : Transfer.read now data ∈ log') : Transfer.read now data ∈ log := by
  rcases h with rfl | ⟨x, rfl, -, hne⟩
  · exact hmem
  · rcases List.mem_append.mp hmem with hmem | hmem
    · exact hmem
    · exact absurd (List.mem_singleton.mp hmem).symm (hne now data)

/-- A tunnel step that is no read of the first copy takes nothing from the socket. -/
theorem takeUnread_quiet {unread : List UInt8} {turn : Side} {e : Event}
    (h : turn = .localToRemote ∨ e.readData = none) : takeUnread unread turn e = some unread := by
  unfold takeUnread
  split
  · rcases h with h | h
    · exact absurd h (by decide)
    · exact absurd h (by simp [Event.readData])
  · rfl

/-- **What a tunnel step does to the first copy and the socket**: both see one read of the
    stream, or neither sees any. -/
theorem tunnel_read {t u : Tunnel} {e : Event} {unread unread' : List UInt8}
    (ht : takeUnread unread t.turn e = some unread') (hu : t.step e = some u) :
    (∃ now data, data <+: unread ∧ (data = [] → unread = []) ∧ unread' = unread.drop data.length ∧
      u.copy1.log = t.copy1.log ++ [.read now data]) ∨
    (unread' = unread ∧ OneMore t.copy1.log u.copy1.log) := by
  obtain ⟨c, hc, hturn, hother, -⟩ := tunnel_step_eq hu
  obtain ⟨-, -, hstep⟩ := timedStep_eq hc
  cases hside : t.turn with
  -- the other copy does not read from the server
  | localToRemote =>
    rw [hside] at ht
    rw [takeUnread_quiet (Or.inl rfl)] at ht
    have hsame : u.copy1 = t.copy1 := hother .remoteToLocal (by rw [hside]; decide)
    exact Or.inr ⟨(Option.some.inj ht).symm, Or.inl (by rw [hsame])⟩
  | remoteToLocal =>
    rw [hside] at ht hturn hstep
    have hcopy : u.copy1 = c := hturn
    rcases step_log hstep with ⟨now, data, rfl, hlog⟩ | ⟨hquiet, hlog⟩
    · simp only [takeUnread] at ht
      split at ht
      · rename_i hdata
        exact Or.inl ⟨now, data, hdata.1, hdata.2, (Option.some.inj ht).symm, hcopy ▸ hlog⟩
      · exact absurd ht (by simp)
    · rw [takeUnread_quiet (Or.inr hquiet)] at ht
      exact Or.inr ⟨(Option.some.inj ht).symm, hcopy ▸ hlog⟩

/-- Either copy of a tunnel stays sound. -/
theorem sound_tunnel_step {t u : Tunnel} {e : Event} (h : Sound t.copy1) (hu : t.step e = some u) :
    Sound u.copy1 := by
  obtain ⟨c, hc, hturn, hother, -⟩ := tunnel_step_eq hu
  cases hside : t.turn with
  | localToRemote =>
    have hsame : u.copy1 = t.copy1 := hother .remoteToLocal (by rw [hside]; decide)
    rw [hsame]
    exact h
  | remoteToLocal =>
    rw [hside] at hc hturn
    have hcopy : u.copy1 = c := hturn
    rw [hcopy]
    exact sound_step h (timedStep_eq hc).2.2

/-- The read of the header takes the first `n` bytes of the stream. -/
theorem sessionOk_header {stream : List UInt8} {r : Remote} {n : Nat} (h : SessionOk stream r)
    (hphase : r.phase = .waiting) (hread : MayRead headerSize n r.unread) :
    SessionOk stream ⟨r.unread.drop n, some (r.unread.take n), .connecting⟩ := by
  have hnone : r.header = none := by
    have hdecided := h.decided
    rw [Remote.connects, hphase] at hdecided
    exact Option.isNone_iff_eq_none.mp (Option.isSome_eq_false_iff.mp hdecided.symm)
  have hstream : r.unread = stream := by
    have hsplit := h.split
    rw [Remote.relayed, hphase, hnone] at hsplit
    exact hsplit
  have hn : (r.unread.take n).length = n := by
    rw [List.length_take, Nat.min_eq_left hread.2.1]
  refine ⟨?_, rfl, fun header hh => ?_, fun t ht => absurd ht (by simp)⟩
  · show r.unread.take n ++ ([] ++ r.unread.drop n) = stream
    rw [List.nil_append, List.take_append_drop, hstream]
  · rw [← Option.some.inj hh, hn, ← hstream]
    exact hread

/-- What a tunnel step reads moves from the socket to the first copy. -/
theorem sessionOk_tunnel {stream unread : List UInt8} {r : Remote} {tunnel tunnel' : Tunnel}
    {e : Event} (h : SessionOk stream r) (hphase : r.phase = .forwarding tunnel)
    (hunread : takeUnread r.unread tunnel.turn e = some unread)
    (htunnel : tunnel.step e = some tunnel') :
    SessionOk stream { r with unread := unread, phase := .forwarding tunnel' } := by
  have hsplit := h.split
  have hdecided := h.decided
  rw [Remote.relayed, hphase] at hsplit
  rw [Remote.connects, hphase] at hdecided
  obtain ⟨hsound, heof⟩ := h.tunnel tunnel hphase
  have hsound' := sound_tunnel_step hsound htunnel
  rcases tunnel_read hunread htunnel with ⟨now, data, hpre, hempty, hdrop, hlog⟩ | ⟨hsame, hlog⟩
  · -- a read moves the next bytes from `unread` into the log
    refine ⟨?_, hdecided, h.read, fun t ht => ?_⟩
    · show r.header.getD [] ++ (bytesRead tunnel'.copy1.log ++ unread) = stream
      rw [hlog, bytesRead_concat, hdrop, List.append_assoc]
      show _ ++ (_ ++ (data ++ r.unread.drop data.length)) = stream
      rw [List.prefix_iff_eq_append.mp hpre]
      exact hsplit
    · rw [← Phase.forwarding.inj ht]
      refine ⟨hsound', fun now' hmem => ?_⟩
      show unread = []
      rw [hlog] at hmem
      rcases List.mem_append.mp hmem with hmem | hmem
      · rw [hdrop, heof now' hmem, List.drop_nil]
      · have heq := List.mem_singleton.mp hmem
        rw [Transfer.read.injEq] at heq
        rw [hdrop, hempty heq.2.symm, List.drop_nil]
  · -- any other step leaves both alone
    refine ⟨?_, hdecided, h.read, fun t ht => ?_⟩
    · show r.header.getD [] ++ (bytesRead tunnel'.copy1.log ++ unread) = stream
      rw [hlog.bytesRead, hsame]
      exact hsplit
    · rw [← Phase.forwarding.inj ht]
      refine ⟨hsound', fun now' hmem => ?_⟩
      show unread = []
      rw [hsame]
      exact heof now' (hlog.read_mem hmem)

/-- Each phase keeps its part of the invariant, or hands it on to the next. -/
theorem sessionOk_step {stream : List UInt8} {r u : Remote} {l : Label} (h : SessionOk stream r)
    (hu : r.step l = some u) : SessionOk stream u := by
  have hsplit := h.split
  have hdecided := h.decided
  unfold Remote.relayed at hsplit
  unfold Remote.connects at hdecided
  unfold Remote.step at hu
  split at hu
  · -- the header is read
    rename_i n hphase
    split at hu
    · rename_i hread
      rw [← Option.some.inj hu]
      exact sessionOk_header h hphase hread
    · exact absurd hu (by simp)
  · rename_i hphase
    rw [hphase] at hsplit hdecided
    rw [← Option.some.inj hu]
    exact ⟨hsplit, hdecided, h.read, fun t ht => absurd ht (by simp)⟩
  · -- local ssh is connected, and a fresh tunnel has read nothing
    rename_i hphase
    rw [hphase] at hsplit hdecided
    rw [← Option.some.inj hu]
    refine ⟨hsplit, hdecided, h.read, fun t ht => ?_⟩
    rw [← Phase.forwarding.inj ht]
    exact ⟨sound_init _ _, fun now hmem => absurd hmem List.not_mem_nil⟩
  · rename_i hphase
    rw [hphase] at hsplit hdecided
    rw [← Option.some.inj hu]
    exact ⟨hsplit, hdecided, h.read, fun t ht => absurd ht (by simp)⟩
  · -- a step of the tunnel
    rename_i tunnel e hphase
    split at hu
    · rename_i unread tunnel' hunread htunnel
      rw [← Option.some.inj hu]
      exact sessionOk_tunnel h hphase hunread htunnel
    · exact absurd hu (by simp)
  · exact absurd hu (by simp)

theorem sessionOk_run {stream : List UInt8} :
    ∀ ls r, run Remote.step (.init stream) ls = some r → SessionOk stream r :=
  run_invariant _ (sessionOk_init stream) fun _ _ _ => sessionOk_step

/-- What the ssh of the server begins with. -/
def sshBanner : List UInt8 := ascii "SSH-2.0-dropbear\r\n"

/-- The answer to the request, with one header. -/
def upgraded : List UInt8 := expect ++ ascii "\r\nUpgrade: websocket\r\n\r\n"

/-- The header is a segment of its own; ssh's banner follows, then the end of the stream. -/
def twoSegments : List Label :=
  [.headerRead upgraded.length, .localConnected 0 0 true true, .tunnel (.poll 1 .notReady),
    .tunnel (.go 1), .tunnel (.read 1 (.ready sshBanner)), .tunnel (.go 1),
    .tunnel (.write 1 (.ready sshBanner.length)), .tunnel (.go 1), .tunnel (.go 1), .tunnel (.go 1),
    .tunnel (.read 1 (.ready [])), .tunnel (.go 1), .tunnel (.go 1), .tunnel (.flush 1 .ready)]

theorem twoSegments_runs :
    (run Remote.step (.init (upgraded ++ sshBanner)) twoSegments).isSome = true := by decide +kernel

/-- The copy to ssh has come to the end of the stream. -/
def Remote.delivered (r : Remote) : Bool :=
  match r.phase with
  | .forwarding tunnel => tunnel.copy1.point == .returned .copied
  | _ => false

/-- The answer of a server that knows nothing of lifeline. -/
def notFound : List UInt8 := ascii "HTTP/1.1 404 Not Found\r\nContent-Length: 0\r\n\r\n"

end Safewrt.Lifeline1
