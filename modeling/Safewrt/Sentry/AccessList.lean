/-
  The access list: what the chain `prerouting_public_rule` is for.

  1. **Entries** — an authorization (a MAC and the second it was given in) or a rule of somebody
     else, which has no timestamp comment.  `Entry.rule` puts an entry into the chain, and no two
     entries look alike there (`rule_injective`).  An authorization carries the rule iptables made
     of it (`Iptables.Authorizes`), so a list of entries is one that iptables has taken.

  2. **Refinement** — the sweep of the chain, through lines and specifications, is the sweep of
     the list by value (`sweepLines_entries`); so it never fails and filters
     (`checkForExpired_entries`).

  3. `check_for_expired_exact`: after any sequence of authorizations and sweeps.  An authorization
     that iptables refuses leaves the chain as it was, and is no entry of the list.
-/
import Safewrt.Lib.Sweep
import Safewrt.Sentry.AccessControl

namespace Safewrt.Sentry

open Safewrt.Lib

/-! ## Entries -/

/-- `rule` is what iptables keeps of the authorization of `mac` at `timestamp`.  The clock is an
    `i64`. -/
structure Iptables.Authorizes (I : Iptables) (mac : Mac) (timestamp : Nat) (rule : I.Rule) :
    Prop where
  short : timestamp < 2 ^ 63
  taken : I.denote (authorizeSpec mac.text timestamp) = some rule

/-- What the chain can hold. -/
inductive Entry (I : Iptables) (d : DigitClass)
  | authorized (mac : Mac) (timestamp : Nat) (rule : I.Rule)
      (taken : I.Authorizes mac timestamp rule)
  | other (rule : I.Rule) (foreign : timestampCapture d (I.print rule) = none)
  deriving DecidableEq

variable {I : Iptables} {d : DigitClass}

/-- The rule in the chain. -/
def Entry.rule : Entry I d → I.Rule
  | .authorized _ _ rule _ => rule
  | .other rule _ => rule

/-- `Rule::is_expired` of what the sweep reads. -/
def Entry.isExpired (validTime now : Int) : Entry I d → Bool
  | .authorized mac n _ _ => Rule.isExpired ⟨mac.text, n⟩ validTime now
  | .other _ _ => false

theorem Iptables.Authorizes.print {mac : Mac} {n : Nat} {rule : I.Rule}
    (h : I.Authorizes mac n rule) : I.print rule = listedLine mac.text n :=
  I.prints mac n rule h.short h.taken

/-- What the sweep reads in the line of an entry. -/
theorem parse_entry (e : Entry I d) :
    Rule.parse d (I.print e.rule) =
      match e with
      | .authorized mac n _ _ => some ⟨mac.text, n⟩
      | .other _ _ => none := by
  cases e with
  | authorized mac n rule h =>
    show Rule.parse d (I.print rule) = _
    rw [h.print, parse_listed d mac h.short]
  | other rule h => exact parse_eq_none d h

/-- **No two entries have the same rule.** -/
theorem rule_injective : Function.Injective (Entry.rule : Entry I d → I.Rule) := by
  intro e f h
  have hparse := congrArg (fun rule => Rule.parse d (I.print rule)) h
  simp only [parse_entry] at hparse
  cases e with
  | authorized mac n rule hrule =>
    cases f with
    | authorized mac' n' rule' hrule' =>
      have hsame : rule = rule' := h
      have heq := Option.some.inj hparse
      rw [Rule.mk.injEq, Int.ofNat_inj] at heq
      obtain ⟨htext, rfl⟩ := heq
      -- an authorization is told by what the sweep reads in its line
      have hmac : mac = mac' := by
        cases mac
        cases mac'
        cases htext
        rfl
      subst hmac hsame
      rfl
    | other rule' h' => exact absurd hparse (by simp)
  | other rule hr =>
    cases f with
    | authorized mac' n' rule' hrule' => exact absurd hparse (by simp)
    | other rule' hr' =>
      have heq : rule = rule' := h
      subst heq
      rfl

/-- The rule is in the chain where the authorization is in the list. -/
theorem authorized_mem_iff {mac : Mac} {n : Nat} {rule : I.Rule} (h : I.Authorizes mac n rule)
    {entries : List (Entry I d)} :
    rule ∈ entries.map Entry.rule ↔ Entry.authorized mac n rule h ∈ entries := by
  have hiff : (Entry.authorized mac n rule h : Entry I d).rule ∈ entries.map Entry.rule ↔
      Entry.authorized mac n rule h ∈ entries := List.mem_map_of_injective rule_injective
  exact hiff

/-- Deleting by the specification of an authorization erases its entry. -/
theorem delete_entries {mac : Mac} {n : Nat} {rule : I.Rule} (h : I.Authorizes mac n rule)
    (entries : List (Entry I d)) :
    I.delete (entries.map Entry.rule) (Rule.toText ⟨mac.text, n⟩) =
      if .authorized mac n rule h ∈ entries then
        some ((entries.erase (.authorized mac n rule h)).map Entry.rule)
      else none := by
  unfold Iptables.delete
  rw [denote_toText I mac n, h.taken, Option.bind_some]
  by_cases hin : Entry.authorized mac n rule h ∈ entries
  · rw [if_pos ((authorized_mem_iff h).mpr hin), if_pos hin, List.map_erase rule_injective]
    rfl
  · rw [if_neg (fun hc => hin ((authorized_mem_iff h).mp hc)), if_neg hin]

/-! ## The sweep of the chain is the sweep of the list -/

/-- Line by line, the sweep of the chain does what the sweep of the list does.  By induction on the
    lines that are left, with any chain at that moment. -/
theorem sweepLines_entries (validTime now : Int) (todo : List (Entry I d)) :
    ∀ entries left, sweepAll (Entry.isExpired validTime now) todo entries = some left →
      sweepLines I d validTime now (todo.map fun e => I.print e.rule) (entries.map Entry.rule) =
        (.ok (), left.map Entry.rule) := by
  induction todo with
  | nil =>
    intro entries left h
    rw [← Option.some.inj h]
    rfl
  | cons e todo ih =>
    intro entries left h
    unfold sweepAll at h
    rw [List.map_cons, sweepLines, parse_entry]
    cases e with
    | authorized mac n rule hrule =>
      simp only
      have hexpired : Entry.isExpired validTime now (.authorized mac n rule hrule : Entry I d) =
        Rule.isExpired ⟨mac.text, n⟩ validTime now := rfl
      rw [hexpired] at h
      split
      · rename_i hdue
        rw [if_pos hdue] at h
        rw [delete_entries hrule]
        split at h
        · rename_i hmem
          rw [if_pos hmem]
          exact ih _ _ h
        · exact absurd h (by simp)
      · rename_i hdue
        rw [if_neg hdue] at h
        exact ih _ _ h
    | other rule hr =>
      rw [if_neg (by simp [Entry.isExpired])] at h
      exact ih _ _ h

/-- **The sweep of the chain**: no error, the expired authorizations removed, the rest in order. -/
theorem checkForExpired_entries (validTime : Option Int) (config : Option Text) (now : Int)
    (entries : List (Entry I d)) :
    checkForExpired I d validTime config now (entries.map Entry.rule) =
      (validTime.orElse fun _ => readValidTime config).map fun V =>
        (.ok (), (entries.filter fun e => !e.isExpired V now).map Entry.rule) := by
  unfold checkForExpired
  congr 1
  funext V
  rw [Iptables.list, sweepLines, parse_header, List.map_map]
  exact sweepLines_entries V now entries entries _ (sweepAll_listing _ entries)

/-! ## Sequences of authorizations and sweeps -/

/-- What changes the chain: a client is authorized, or a sweep runs. -/
inductive Op
  | authorize (mac : Mac) (now : Nat)
  | sweep (validTime : Option Int) (config : Option Text) (now : Int)

/-- One call, where it succeeds.  The clock is an `i64`. -/
def Op.step (I : Iptables) (d : DigitClass) (chain : List I.Rule) : Op → Option (List I.Rule)
  | .authorize mac now =>
    if now < 2 ^ 63 then authorizeClientInIptables I mac.text now chain else none
  | .sweep validTime config now =>
    match checkForExpired I d validTime config now chain with
    | some (.ok _, chain) => some chain
    | _ => none

/-- The chain is the image of an access list. -/
theorem op_step_entries {entries : List (Entry I d)} {chain : List I.Rule} {op : Op}
    (h : Op.step I d (entries.map Entry.rule) op = some chain) :
    ∃ entries' : List (Entry I d), chain = entries'.map Entry.rule := by
  cases op with
  | authorize mac now =>
    simp only [Op.step] at h
    split at h
    · rename_i hnow
      rw [authorizeClientInIptables, Iptables.append, Option.map_eq_some_iff] at h
      obtain ⟨rule, hrule, rfl⟩ := h
      refine ⟨entries ++ [.authorized mac now rule ⟨hnow, hrule⟩], ?_⟩
      rw [List.map_append]
      rfl
    · exact absurd h (by simp)
  | sweep validTime config now =>
    simp only [Op.step, checkForExpired_entries] at h
    cases hV : validTime.orElse fun _ => readValidTime config with
    | none =>
      rw [hV] at h
      exact absurd h (by simp)
    | some V =>
      rw [hV] at h
      exact ⟨_, (Option.some.inj h).symm⟩

/-- `timestamp + valid_time < now`, as integers. -/
def Entry.Expired (validTime now : Int) : Entry I d → Prop
  | .authorized _ n _ _ => n + validTime < now
  | .other _ _ => False

instance (validTime now : Int) (e : Entry I d) : Decidable (e.Expired validTime now) := by
  cases e <;> unfold Entry.Expired <;> infer_instance

/-- `n` is an `i64`. -/
def IsI64 (n : Int) : Prop := -2 ^ 63 ≤ n ∧ n < 2 ^ 63

theorem wrapI64_of_isI64 {n : Int} (h : IsI64 n) : wrapI64 n = n :=
  Int.bmod_eq_of_le h.1 h.2

/-- Without overflow the test of the code is the comparison of the numbers. -/
theorem isExpired_eq {validTime now : Int} {entries : List (Entry I d)}
    (h : ∀ mac n rule hr, Entry.authorized mac n rule hr ∈ entries → IsI64 (n + validTime)) :
    ∀ e ∈ entries, e.isExpired validTime now = decide (e.Expired validTime now) := by
  intro e he
  cases e with
  | authorized mac n rule hr =>
    show decide (wrapI64 (n + validTime) < now) = _
    rw [wrapI64_of_isI64 (h mac n rule hr he)]
    rfl
  | other rule hr => rfl

/-- The MAC has an authorization in the chain. -/
def Iptables.Accepts (I : Iptables) (chain : List I.Rule) (mac : Mac) : Prop :=
  ∃ n rule, I.Authorizes mac n rule ∧ rule ∈ chain

/-- **What a sweep does**, after any sequence of authorizations and successful sweeps that starts
    from any chain: it does not fail, it removes exactly the authorizations that are expired, and
    so it leaves a MAC its access exactly where that MAC has an authorization that is not. -/
theorem check_for_expired_exact (I : Iptables) (d : DigitClass) (start : List (Entry I d))
    (ops : List Op) (chain : List I.Rule)
    (hrun : run (Op.step I d) (start.map Entry.rule) ops = some chain) :
    ∃ entries : List (Entry I d), chain = entries.map Entry.rule ∧
      ∀ (validTime : Option Int) (config : Option Text) (V now : Int),
        (validTime.orElse fun _ => readValidTime config) = some V →
        (∀ mac n rule h, Entry.authorized mac n rule h ∈ entries → IsI64 (n + V)) →
        let left := (entries.filter fun e => !decide (e.Expired V now)).map Entry.rule
        checkForExpired I d validTime config now chain = some (.ok (), left) ∧
        ∀ mac, I.Accepts left mac ↔
          ∃ n rule, I.Authorizes mac n rule ∧ rule ∈ chain ∧ now ≤ n + V := by
  -- every operation keeps the chain a list of entries
  have hentries := run_invariant (fun chain => ∃ entries : List (Entry I d),
    chain = entries.map Entry.rule) ⟨start, rfl⟩
    (fun t op u ⟨entries, ht⟩ hu => op_step_entries (ht ▸ hu)) ops chain hrun
  obtain ⟨entries, rfl⟩ := hentries
  refine ⟨entries, rfl, fun validTime config V now hV hoverflow => ⟨?_, fun mac => ?_⟩⟩
  · have hfilter : (entries.filter fun e => !e.isExpired V now) =
        entries.filter fun e => !decide (e.Expired V now) :=
      List.filter_congr fun e he => by rw [isExpired_eq hoverflow e he]
    rw [checkForExpired_entries, hV, Option.map_some, hfilter]
  · constructor
    · rintro ⟨n, rule, h, hmem⟩
      have hleft := List.mem_filter.mp ((authorized_mem_iff h).mp hmem)
      refine ⟨n, rule, h, (authorized_mem_iff h).mpr hleft.1, ?_⟩
      have hnot : ¬ Entry.Expired V now (.authorized mac n rule h : Entry I d) := by
        simpa using hleft.2
      have hlt : ¬ (n : Int) + V < now := hnot
      omega
    · rintro ⟨n, rule, h, hmem, hle⟩
      refine ⟨n, rule, h, (authorized_mem_iff h).mpr
        (List.mem_filter.mpr ⟨(authorized_mem_iff h).mp hmem, ?_⟩)⟩
      show (!decide ((n : Int) + V < now)) = true
      rw [decide_eq_false (by omega)]
      rfl

/-! ### Two clients and a rule of somebody else -/

def sampleMac : Mac :=
  ⟨"DE:AD:BE:DE:AD:DE".toList, by decide, List.all_eq_true.mp (by decide)⟩

def otherMac : Mac :=
  ⟨"DE:AD:BE:DE:FF:DE".toList, by decide, List.all_eq_true.mp (by decide)⟩

/-- `-A prerouting_public_rule -j RETURN` -/
def returnRule : Entry plainIptables asciiDigits :=
  .other (.other "-A prerouting_public_rule -j RETURN".toList) (by decide)

/-- One client at 100, an hour's sweep at 4000, another client then. -/
def sampleOps : List Op :=
  [.authorize sampleMac 100, .sweep (some 3600) none 4000, .authorize otherMac 4000]

theorem sampleOps_runs :
    (run (Op.step plainIptables asciiDigits) ([returnRule].map Entry.rule) sampleOps).isSome =
      true := by decide +kernel

/-- A sweep at 5000 that lets nobody stay. -/
theorem check_for_expired_exact_sample :
    let chain := (run (Op.step plainIptables asciiDigits) ([returnRule].map Entry.rule)
      sampleOps).get sampleOps_runs
    ∃ left, checkForExpired plainIptables asciiDigits (some 0) none 5000 chain =
        some (.ok (), left) ∧
      ∀ mac, plainIptables.Accepts left mac ↔
        ∃ n rule, plainIptables.Authorizes mac n rule ∧ rule ∈ chain ∧ 5000 ≤ (n : Int) + 0 := by
  intro chain
  obtain ⟨entries, -, hsweep⟩ := check_for_expired_exact plainIptables asciiDigits [returnRule]
    sampleOps chain (Option.some_get sampleOps_runs).symm
  refine ⟨_, hsweep (some 0) none 0 5000 rfl fun mac n rule h _ => ?_⟩
  have hshort := h.short
  constructor
  · omega
  · omega

end Safewrt.Sentry
