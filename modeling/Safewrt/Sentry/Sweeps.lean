/-
  Two runs of `check_for_expired` on one chain.

  The function takes no lock, so nothing keeps two runs of it apart.  Each lists the chain once and
  then deletes by what it has listed, while the other may have deleted the same.

  1. **Stages** — each `iptables` call is one step, each test of a line another; the two runs and
     the clock move in any order (`Sweeps.step`).

  2. **Simulation** — the runs through lines and specifications are two sweepers of the access
     list (`sim_step`); looking at the line for the chain itself is the one step the list does not
     see.

  3. `two_sweeps`, from the theorems about two sweepers: nothing unexpired is removed, and what was
     expired at the later listing is gone unless both runs stop early.  `twiceAuthorized` is a
     chain on which both do, in `lockstep`.
-/
import Mathlib.Data.List.Nodup
import Safewrt.Sentry.AccessList

namespace Safewrt.Sentry

open Safewrt.Lib

/-! ## Two runs -/

/-- Where a run of `check_for_expired` stands. -/
inductive Stage
  | start
  | lines (todo : List Text)                -- head of `for rule in rules`
  | deleting (rule : Rule) (todo : List Text)  -- in `ipt.delete`
  | returned (result : Except Text Unit)

/-- `check_for_expired` has returned. -/
def Stage.ended : Stage → Bool
  | .returned _ => true
  | _ => false

/-- The chain, the clock, the two runs, and when the last of them took its listing. -/
structure Sweeps (I : Iptables) where
  chain : List I.Rule
  clock : Nat
  stage : Who → Stage
  lastListing : Nat

variable {I : Iptables} {d : DigitClass}

/-- Neither run has taken its listing. -/
def Sweeps.init (chain : List I.Rule) (clock : Nat) : Sweeps I :=
  ⟨chain, clock, fun _ => .start, clock⟩

/-- The run `w` goes on to `p`. -/
def Sweeps.goto (s : Sweeps I) (w : Who) (p : Stage) : Sweeps I :=
  { s with stage := Function.update s.stage w p }

/-- One step of a run with validity `validTime`, or of the clock. -/
def Sweeps.step (d : DigitClass) (validTime : Int) (s : Sweeps I) : Turn → Option (Sweeps I)
  | .tick n => some { s with clock := s.clock + n }
  | .move w =>
    match s.stage w with
    | .start => some { s.goto w (.lines (I.list s.chain)) with lastListing := s.clock }
    | .lines [] => some (s.goto w (.returned (.ok ())))
    | .lines (line :: todo) =>
      match Rule.parse d line with
      | none => some (s.goto w (.lines todo))
      | some rule =>
        some (s.goto w (if rule.isExpired validTime s.clock then .deleting rule todo
          else .lines todo))
    | .deleting rule todo =>
      match I.delete s.chain rule.toText with
      | some chain => some { s.goto w (.lines todo) with chain := chain }
      | none =>
        some (s.goto w (.returned (.error ("Error deleting rule: ".toList ++ rule.toText))))
    | .returned _ => none

/-! ## They are two sweepers of the access list -/

/-- The lines of the entries. -/
def linesOf (entries : List (Entry I d)) : List Text := entries.map fun e => I.print e.rule

/-- A stage and the point of the sweeper it stands for. -/
inductive StageSim : Stage → Point (Entry I d) → Prop
  | start : StageSim .start .idle
  | listed (todo : List (Entry I d)) :
    StageSim (.lines ("-N prerouting_public_rule".toList :: linesOf todo)) (.looking todo)
  | lines (todo : List (Entry I d)) : StageSim (.lines (linesOf todo)) (.looking todo)
  | deleting (mac : Mac) (n : Nat) (rule : I.Rule) (h : I.Authorizes mac n rule)
      (todo : List (Entry I d)) :
    StageSim (.deleting ⟨mac.text, n⟩ (linesOf todo)) (.deleting (.authorized mac n rule h) todo)
  | ok : StageSim (.returned (.ok ())) .ok
  | error (e : Text) (x : Entry I d) (todo : List (Entry I d)) :
    StageSim (.returned (.error e)) (.failed x todo)

/-- The chain is the list of the sweepers, and each run stands where its sweeper does. -/
structure Sim (s : Sweeps I) (a : World (Entry I d)) : Prop where
  chain : s.chain = a.items.map Entry.rule
  clock : s.clock = a.clock
  listing : s.lastListing = a.lastListing
  stage : ∀ w, StageSim (s.stage w) (a.point w)

/-- When an entry is due. -/
def dueAt (validTime : Int) (t : Nat) (e : Entry I d) : Bool := e.isExpired validTime t

/-- What is expired stays expired, since the clock only goes forward. -/
theorem stays_dueAt (validTime : Int) : Stays (dueAt validTime : Nat → Entry I d → Bool) := by
  intro t u e hle h
  cases e with
  | authorized mac n rule hr =>
    have hlt : wrapI64 (n + validTime) < t := of_decide_eq_true h
    have hlt' : wrapI64 (n + validTime) < u := by omega
    exact decide_eq_true hlt'
  | other rule hr => exact absurd h (by simp [dueAt, Entry.isExpired])

/-- A run goes on, and its sweeper with it. -/
theorem Sim.goto {s : Sweeps I} {a : World (Entry I d)} (h : Sim s a) (w : Who) {p : Stage}
    {q : Point (Entry I d)} (hpq : StageSim p q) :
    ∀ v, StageSim ((s.goto w p).stage v) ((a.goto w q).point v) := by
  intro v
  by_cases hv : v = w
  · subst hv
    show StageSim (Function.update s.stage v p v) (Function.update a.point v q v)
    rw [Function.update_self, Function.update_self]
    exact hpq
  · show StageSim (Function.update s.stage w p v) (Function.update a.point w q v)
    rw [Function.update_of_ne hv, Function.update_of_ne hv]
    exact h.stage v

theorem init_sim (start : List (Entry I d)) (clock : Nat) :
    Sim (.init (start.map Entry.rule) clock) (.init start clock) :=
  ⟨rfl, rfl, rfl, fun _ => .start⟩

/-- A line of the listing is looked at. -/
theorem sim_line {validTime : Int} {s s' : Sweeps I} {a : World (Entry I d)} {w : Who}
    {e : Entry I d} {todo : List (Entry I d)} (h : Sim s a) (hp : a.point w = .looking (e :: todo))
    (hs : (match Rule.parse d (I.print e.rule) with
      | none => some (s.goto w (.lines (linesOf todo)))
      | some rule =>
        some (s.goto w (if rule.isExpired validTime s.clock then .deleting rule (linesOf todo)
          else .lines (linesOf todo)))) = some s') :
    ∃ a', Move (dueAt validTime) a a' ∧ Sim s' a' := by
  rw [parse_entry] at hs
  cases e with
  | authorized mac n rule hr =>
    rw [← Option.some.inj hs, h.clock]
    by_cases hdue : Rule.isExpired ⟨mac.text, n⟩ validTime a.clock = true
    · rw [if_pos hdue]
      exact ⟨_, .flag w _ todo hp hdue, h.chain, h.clock, h.listing,
        h.goto w (.deleting mac n rule hr todo)⟩
    · rw [if_neg hdue]
      exact ⟨_, .pass w _ todo hp (Bool.eq_false_iff.mpr hdue), h.chain, h.clock, h.listing,
        h.goto w (.lines todo)⟩
  | other rule hr =>
    rw [← Option.some.inj hs]
    exact ⟨_, .pass w _ todo hp rfl, h.chain, h.clock, h.listing, h.goto w (.lines todo)⟩

/-- A rule is deleted, or not found. -/
theorem sim_delete {s s' : Sweeps I} {a : World (Entry I d)} {w : Who} {mac : Mac} {n : Nat}
    {rule : I.Rule} {hr : I.Authorizes mac n rule} {todo : List (Entry I d)}
    {due : Nat → Entry I d → Bool} (h : Sim s a)
    (hp : a.point w = .deleting (.authorized mac n rule hr) todo)
    (hs : (match I.delete s.chain (Rule.toText ⟨mac.text, n⟩) with
      | some chain => some { s.goto w (.lines (linesOf todo)) with chain := chain }
      | none => some (s.goto w (.returned (.error ("Error deleting rule: ".toList ++
          Rule.toText ⟨mac.text, n⟩))))) = some s') :
    ∃ a', Move due a a' ∧ Sim s' a' := by
  rw [h.chain, delete_entries hr] at hs
  by_cases hmem : Entry.authorized mac n rule hr ∈ a.items
  · rw [if_pos hmem] at hs
    rw [← Option.some.inj hs]
    exact ⟨_, .delete w _ todo hp hmem, rfl, h.clock, h.listing, h.goto w (.lines todo)⟩
  · rw [if_neg hmem] at hs
    rw [← Option.some.inj hs]
    exact ⟨_, .fail w _ todo hp hmem, h.chain, h.clock, h.listing, h.goto w (.error _ _ todo)⟩

/-- **One step of the code is one step of the sweepers, or none** (the line for the chain). -/
theorem sim_step {validTime : Int} {s s' : Sweeps I} {a : World (Entry I d)} {t : Turn}
    (h : Sim s a) (hs : s.step d validTime t = some s') :
    Sim s' a ∨ ∃ a', Move (dueAt validTime) a a' ∧ Sim s' a' := by
  cases t with
  | tick n =>
    rw [← Option.some.inj hs]
    refine Or.inr ⟨_, .tick n, h.chain, ?_, h.listing, h.stage⟩
    show s.clock + n = a.clock + n
    rw [h.clock]
  | move w =>
    simp only [Sweeps.step] at hs
    have hsim := h.stage w
    -- by the stage of the run that moves; the other stays where it is
    generalize hstage : s.stage w = stage at hsim hs
    generalize hp : a.point w = point at hsim
    cases hsim with
    | start =>
      rw [← Option.some.inj hs]
      have hlines : I.list s.chain = "-N prerouting_public_rule".toList :: linesOf a.items := by
        rw [Iptables.list, h.chain, List.map_map]
        rfl
      rw [hlines]
      exact Or.inr ⟨_, .list w hp, h.chain, h.clock, h.clock, h.goto w (.listed a.items)⟩
    | listed todo =>
      simp only [parse_header] at hs
      rw [← Option.some.inj hs]
      refine Or.inl ⟨h.chain, h.clock, h.listing, fun v => ?_⟩
      have hv := h.goto w (.lines todo) v
      by_cases hvw : v = w
      · subst hvw
        rw [goto_self] at hv
        rw [hp]
        exact hv
      · rw [goto_of_ne a _ hvw] at hv
        exact hv
    | lines todo =>
      cases todo with
      | nil =>
        rw [← Option.some.inj hs]
        exact Or.inr ⟨_, .finish w hp, h.chain, h.clock, h.listing, h.goto w .ok⟩
      | cons e todo => exact Or.inr (sim_line h hp hs)
    | deleting mac n rule hr todo => exact Or.inr (sim_delete h hp hs)
    | ok => exact absurd hs (by simp)
    | error => exact absurd hs (by simp)

/-- Every run of the code is a run of the sweepers. -/
theorem sim_run {validTime : Int} {start : List (Entry I d)} {clock : Nat} :
    ∀ ts s, run (Sweeps.step d validTime) (.init (start.map Entry.rule) clock) ts = some s →
      ∃ ts' a, run (World.step (dueAt validTime)) (.init start clock) ts' = some a ∧ Sim s a := by
  refine run_invariant _ ⟨[], _, rfl, init_sim start clock⟩ ?_
  rintro s t s' ⟨ts, a, hrun, hsim⟩ hs
  rcases sim_step hsim hs with hsim' | ⟨a', ha', hsim'⟩
  · exact ⟨ts, a, hrun, hsim'⟩
  · obtain ⟨t', ht'⟩ := step_of_move ha'
    exact ⟨ts ++ [t'], a', run_concat.mpr ⟨a, hrun, ht'⟩, hsim'⟩

/-! ## What two sweeps leave -/

/-- A run that has returned is a sweeper that has ended. -/
theorem Sim.ended {s : Sweeps I} {a : World (Entry I d)} (h : Sim s a) {w : Who}
    (hw : (s.stage w).ended = true) : (a.point w).ended = true := by
  have hsim := h.stage w
  generalize s.stage w = stage at hsim hw
  generalize a.point w = point at hsim
  cases hsim with
  | ok => rfl
  | error => rfl
  | start => exact absurd hw (by simp [Stage.ended])
  | listed => exact absurd hw (by simp [Stage.ended])
  | lines => exact absurd hw (by simp [Stage.ended])
  | deleting => exact absurd hw (by simp [Stage.ended])

/-- A run that returned `Ok` is a sweeper that came to its end. -/
theorem Sim.ok {s : Sweeps I} {a : World (Entry I d)} (h : Sim s a) {w : Who}
    (hw : s.stage w = .returned (.ok ())) : a.point w = .ok := by
  have hsim := h.stage w
  rw [hw] at hsim
  generalize a.point w = point at hsim
  cases hsim
  rfl

/-- **Two sweeps of one chain**, in any interleaving.  At every moment all that is not expired is
    in the chain, in its order.  Once both have ended, nothing that was expired at the later
    listing is left, if one of them ended with `Ok` or no authorization occurs twice. -/
theorem two_sweeps (I : Iptables) (d : DigitClass) (validTime : Int) (start : List (Entry I d))
    (clock : Nat) (ts : List Turn) (s : Sweeps I)
    (hrun : run (Sweeps.step d validTime) (.init (start.map Entry.rule) clock) ts = some s) :
    ∃ left : List (Entry I d), s.chain = left.map Entry.rule ∧
      (left.filter fun e => !e.isExpired validTime s.clock) =
        (start.filter fun e => !e.isExpired validTime s.clock) ∧
      ((∀ w, (s.stage w).ended = true) →
        ((∃ w, s.stage w = .returned (.ok ())) ∨
          ∀ mac n rule h, start.count (.authorized mac n rule h) ≤ 1) →
        ∀ e ∈ left, e.isExpired validTime s.lastListing = false) := by
  obtain ⟨ts', a, ha, hsim⟩ := sim_run ts s hrun
  have hstays := stays_dueAt (I := I) (d := d) validTime
  refine ⟨a.items, hsim.chain, ?_, fun hended honce e he => ?_⟩
  · rw [hsim.clock]
    exact (notDue_kept hstays ts' a ha).kept
  · have hended' : ∀ w, (a.point w).ended = true := fun w => hsim.ended (hended w)
    have hok : ∃ w, a.point w = .ok := by
      rcases honce with ⟨w, hw⟩ | honce
      · exact ⟨w, hsim.ok hw⟩
      · refine not_both_failed hstays ha (fun e hdue => ?_) hended'
        cases e with
        | authorized mac n rule hr => exact honce mac n rule hr
        | other rule hr => exact absurd hdue (by simp [dueAt, Entry.isExpired])
    rw [hsim.listing]
    exact due_gone_of_ok hstays ha hended' hok he

/-! ### Two runs in lockstep -/

def sampleEntry (mac : Mac) (n : Nat) (h : n < 2 ^ 63) : Entry plainIptables asciiDigits :=
  .authorized mac n (.accept mac.text ("timestamp=".toList ++ decimal n))
    ⟨h, plainDenote_authorize n mac.no_space⟩

/-- Both take their listings, then one run goes ahead and the other stops at its first delete. -/
def oneAhead : List Turn :=
  [.move .one, .move .two, .move .one, .move .one, .move .one, .move .two, .move .two, .move .two,
    .move .one, .move .one, .move .one]

/-- Two clients, each authorized once. -/
def onceAuthorized : List (Entry plainIptables asciiDigits) :=
  [sampleEntry sampleMac 100 (by decide), sampleEntry otherMac 200 (by decide)]

theorem oneAhead_runs :
    (run (Sweeps.step asciiDigits 3600) (.init (onceAuthorized.map Entry.rule) 10000)
      oneAhead).isSome = true := by decide +kernel

/-- One run deletes both rules; the other stops at its first delete. -/
theorem two_sweeps_oneAhead :
    let s := (run (Sweeps.step asciiDigits 3600) (.init (onceAuthorized.map Entry.rule) 10000)
      oneAhead).get oneAhead_runs
    ∃ left : List (Entry plainIptables asciiDigits), s.chain = left.map Entry.rule ∧
      ∀ e ∈ left, e.isExpired 3600 s.lastListing = false := by
  intro s
  obtain ⟨left, hleft, -, hgone⟩ := two_sweeps plainIptables asciiDigits 3600 onceAuthorized 10000
    oneAhead s (Option.some_get oneAhead_runs).symm
  have hended : ∀ w, (s.stage w).ended = true := by
    intro w
    cases w
    · decide +kernel
    · decide +kernel
  have honce : onceAuthorized.Nodup := by decide +kernel
  exact ⟨left, hleft, hgone hended
    (Or.inr fun mac n rule h => List.nodup_iff_count_le_one.mp honce (.authorized mac n rule h))⟩

/-- One client authorized twice in one second, and another one. -/
def twiceAuthorized : List (Entry plainIptables asciiDigits) :=
  [sampleEntry sampleMac 100 (by decide), sampleEntry sampleMac 100 (by decide),
    sampleEntry otherMac 200 (by decide)]

/-- Each run deletes one of the two equal rules, and neither finds the second. -/
def lockstep : List Turn :=
  [.move .one, .move .two, .move .one, .move .one, .move .one, .move .two, .move .two, .move .two,
    .move .one, .move .one, .move .two, .move .two]

theorem lockstep_runs :
    (run (Sweeps.step asciiDigits 3600) (.init (twiceAuthorized.map Entry.rule) 10000)
      lockstep).isSome = true := by decide +kernel

/-- Both runs have ended, and the other client's rule, long expired, is still there. -/
theorem lockstep_leaves_expired :
    let s := (run (Sweeps.step asciiDigits 3600) (.init (twiceAuthorized.map Entry.rule) 10000)
      lockstep).get lockstep_runs
    ((s.stage .one).ended = true ∧ (s.stage .two).ended = true) ∧
      s.chain = [(sampleEntry otherMac 200 (by decide)).rule] ∧
      (sampleEntry otherMac 200 (by decide)).isExpired 3600 s.lastListing = true := by
  decide +kernel

end Safewrt.Sentry
