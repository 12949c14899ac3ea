/-
  The configured validity (hatch/src/services/sentry/src/access_control.rs, `read_valid_time` and
  what `check_for_expired(None)` makes of it).

  1. **`decideLine`**: what the sweep decides about one listed line, from the two texts it is given,
     the file and the line.  `sweepLines_cons` says that the sweep does so.

  2. **The texts**: a decimal number followed by a line feed is no number for `parse::<i64>`
     (`parseI64_newline`), and the timestamp of a rule is never negative (`parse_timestamp`), since
     its expression takes digits only.

  3. **`decideLine_exact_iff`**: the decision is the comparison with the configured number exactly
     where the file ends without a line feed, `Duration::seconds` accepts the number, and the sum
     with the timestamp does not exceed an `i64`.

  Where the number is not read the sweep takes 24 hours, and says so to nobody.  The number of
  seconds of 24 hours is therefore right by chance with a line feed behind it, and is the one
  exception in the condition.
-/
import Safewrt.Sentry.AccessList

namespace Safewrt.Sentry

open Safewrt.Lib

/-! ## The decision -/

/-- Whether `check_for_expired(None)` deletes the rule of a line; `none` where `read_valid_time`
    panics, or where the line is no rule of sentry's. -/
def decideLine (d : DigitClass) (config : Option Text) (line : Text) (now : Int) : Option Bool :=
  (readValidTime config).bind fun validTime =>
    (Rule.parse d line).map fun rule => rule.isExpired validTime now

/-- The sweep with the configured validity, one line further. -/
theorem sweepLines_cons (I : Iptables) {d : DigitClass} {config : Option Text} {validTime : Int}
    (hconfig : readValidTime config = some validTime) (now : Int) {line : Text} {rule : Rule}
    (hline : Rule.parse d line = some rule) (lines : List Text) (chain : List I.Rule) :
    sweepLines I d validTime now (line :: lines) chain =
      if decideLine d config line now = some true then
        match I.delete chain rule.toText with
        | some chain => sweepLines I d validTime now lines chain
        | none => (.error ("Error deleting rule: ".toList ++ rule.toText), chain)
      else sweepLines I d validTime now lines chain := by
  have hdecide : decideLine d config line now = some (rule.isExpired validTime now) := by
    rw [decideLine, hconfig, hline]
    rfl
  rw [sweepLines, hline, hdecide]
  cases hexpired : rule.isExpired validTime now with
  | true =>
    dsimp only
    rewrite [hexpired, if_pos rfl, if_pos rfl]
    rfl
  | false =>
    dsimp only
    rw [hexpired, if_neg (by simp), if_neg (by simp)]

/-! ## The file -/

/-- A line feed is no digit, and no digit behind it makes up for that. -/
theorem parseDigits_newline (t : Text) : parseDigits (t ++ ['\n']) = none := by
  have hall : ¬ (t ++ ['\n'] ≠ [] ∧ (t ++ ['\n']).all Char.isDigit = true) := by
    rintro ⟨-, h⟩
    have hdigit := List.all_eq_true.mp h '\n' (by simp)
    exact absurd hdigit (by decide)
  rw [parseDigits, if_neg hall]

/-- **The line feed an editor leaves** is no part of a number. -/
theorem parseI64_newline (t : Text) : parseI64 (t ++ ['\n']) = none := by
  have hnone := parseDigits_newline t
  cases t with
  | nil => decide
  | cons c t =>
    have hrest := parseDigits_newline t
    unfold parseI64
    split
    · next heq =>
      rw [← (List.cons.inj heq).2]
      show (parseDigits (t ++ ['\n'])).bind _ = none
      rw [hrest, Option.bind_none]
    · next heq =>
      rw [← (List.cons.inj heq).2]
      show (parseDigits (t ++ ['\n'])).bind _ = none
      rw [hrest, Option.bind_none]
    · rw [hnone, Option.bind_none]

/-- What the file holds: the number, and a line feed or not. -/
def contents (t : Text) (newline : Bool) : Text := t ++ (if newline then ['\n'] else [])

/-- The hours of the default, in seconds. -/
def defaultValidTime : Int := 24 * 3600

/-- `Duration::seconds` accepts the number. -/
def FitsDuration (n : Int) : Prop := n.natAbs ≤ (2 ^ 63 - 1) / 1000

instance (n : Int) : Decidable (FitsDuration n) := inferInstanceAs (Decidable (_ ≤ _))

/-- **What is read of the file** is the number in it exactly where no line feed follows, or where
    the default happens to be that number. -/
theorem readValidTime_eq_iff {t : Text} {seconds : Int} (ht : parseI64 t = some seconds)
    (newline : Bool) :
    readValidTime (some (contents t newline)) = some seconds ↔
      (newline = false ∨ seconds = defaultValidTime) ∧ FitsDuration seconds := by
  cases newline with
  | false =>
    have hcontents : contents t false = t := List.append_nil t
    rw [hcontents, readValidTime, Option.bind_some, ht]
    show durationSeconds seconds = some seconds ↔ _
    by_cases hfits : FitsDuration seconds
    · exact iff_of_true (if_pos hfits) ⟨Or.inl rfl, hfits⟩
    · have hpanic : durationSeconds seconds = none := if_neg hfits
      rw [hpanic]
      exact iff_of_false (by simp) fun h => hfits h.2
  | true =>
    have hcontents : parseI64 (contents t true) = none := parseI64_newline t
    rw [readValidTime, Option.bind_some, hcontents]
    simp only [defaultValidTime, FitsDuration]
    constructor
    · intro h
      have h' := Option.some.inj h
      subst h'
      exact ⟨Or.inr rfl, by decide⟩
    · rintro ⟨h | h, -⟩
      · exact absurd h (by simp)
      · rw [h]

/-! ## The lines -/

/-- A capture was made somewhere in the line. -/
theorem exists_of_search {α : Type} {m : Text → Option α} {t : Text} {a : α}
    (h : search m t = some a) : ∃ s, m s = some a := by
  induction t with
  | nil => exact ⟨[], h⟩
  | cons c t ih =>
    rw [search] at h
    cases hm : m (c :: t) with
    | none =>
      rw [hm, Option.none_or] at h
      exact ih h
    | some b =>
      rw [hm, Option.some_or] at h
      exact ⟨c :: t, hm.trans h⟩

/-- Without a minus sign the number is a natural one. -/
theorem parseI64_nonneg {t : Text} {n : Int} (hsign : t.head? ≠ some '-')
    (h : parseI64 t = some n) : 0 ≤ n := by
  have hnat : ∀ t', ((parseDigits t').bind fun n => if n < 2 ^ 63 then some (n : Int) else none) =
      some n → 0 ≤ n := by
    intro t' h
    obtain ⟨m, -, hm⟩ := Option.bind_eq_some_iff.mp h
    split at hm
    · rw [← Option.some.inj hm]
      exact Int.natCast_nonneg m
    · exact absurd hm (by simp)
  unfold parseI64 at h
  split at h
  · exact absurd rfl hsign
  · exact hnat _ h
  · exact hnat _ h

/-- **A timestamp that was read** is not negative. -/
theorem parse_timestamp {d : DigitClass} {line : Text} {rule : Rule}
    (h : Rule.parse d line = some rule) : 0 ≤ rule.timestamp := by
  unfold Rule.parse at h
  split at h
  · next macSource timestamp _ hcapture =>
    obtain ⟨n, hn, rfl⟩ := Option.map_eq_some_iff.mp h
    refine parseI64_nonneg ?_ hn
    -- the expression captures digits only
    obtain ⟨s, hs⟩ := exists_of_search hcapture
    obtain ⟨t, -, ht⟩ := Option.bind_eq_some_iff.mp hs
    simp only at ht
    split at ht
    · rw [← Option.some.inj ht]
      intro hhead
      have hmem : '-' ∈ t.takeWhile d.digit := List.mem_of_mem_head? hhead
      have hdigit := List.mem_takeWhile_imp hmem
      rw [d.ascii '-' (by decide)] at hdigit
      exact absurd hdigit (by decide)
    · exact absurd ht (by simp)
  · exact absurd h (by simp)

/-! ## Where the decision is exact -/

/-- The rule of the line is judged by the exact comparison with the configured seconds: nothing
    panics, nothing wraps, and no other number takes their place. -/
structure Exact (d : DigitClass) (content line : Text) (seconds : Int) (rule : Rule) (now : Int) :
    Prop where
  configured : readValidTime (some content) = some seconds
  noOverflow : IsI64 (rule.timestamp + seconds)
  decision : decideLine d (some content) line now = some (decide (rule.timestamp + seconds < now))

/-- **The decision of `check_for_expired(None)`** on a decimal number, with or without a line feed:
    exact exactly where there is no line feed (or the number is the default), the number is a
    duration, and the sum with the timestamp is below the end of an `i64`. -/
theorem decideLine_exact_iff {d : DigitClass} {t : Text} {seconds : Int}
    (ht : parseI64 t = some seconds) (newline : Bool) {line : Text} {rule : Rule}
    (hline : Rule.parse d line = some rule) (now : Int) :
    Exact d (contents t newline) line seconds rule now ↔
      (newline = false ∨ seconds = defaultValidTime) ∧ FitsDuration seconds ∧
        rule.timestamp + seconds < 2 ^ 63 := by
  have hread := readValidTime_eq_iff ht newline
  have hlow := parse_timestamp hline
  constructor
  · intro h
    obtain ⟨hnewline, hfits⟩ := hread.mp h.configured
    exact ⟨hnewline, hfits, h.noOverflow.2⟩
  · rintro ⟨hnewline, hfits, hsum⟩
    have hconfigured := hread.mpr ⟨hnewline, hfits⟩
    have hseconds : -2 ^ 63 ≤ seconds := by
      unfold FitsDuration at hfits
      omega
    have hi64 : IsI64 (rule.timestamp + seconds) := ⟨by omega, hsum⟩
    refine ⟨hconfigured, hi64, ?_⟩
    rw [decideLine, hconfigured, hline]
    show some (decide (wrapI64 (rule.timestamp + seconds) < now)) = _
    rw [wrapI64_of_isI64 hi64]

/-! ### A file with a line feed -/

/-- `3600`, as `test_access_control_duration_from_file` writes it. -/
def oneHour : Text := "3600".toList

theorem parse_oneHour : parseI64 oneHour = some 3600 := by decide

/-- The rule of one client, authorized at second 1000. -/
def authorizedLine : Text := listedLine sampleMac.text 1000

theorem parse_authorizedLine :
    Rule.parse asciiDigits authorizedLine = some ⟨sampleMac.text, 1000⟩ :=
  parse_listed asciiDigits sampleMac (by decide)

/-- Without the line feed the hour counts. -/
theorem decideLine_exact_oneHour :
    Exact asciiDigits (contents oneHour false) authorizedLine 3600
      ⟨sampleMac.text, 1000⟩ 5000 :=
  (decideLine_exact_iff parse_oneHour false parse_authorizedLine 5000).mpr
    ⟨Or.inl rfl, by decide, by decide⟩

/-- With a line feed behind the number the hour is taken for a day: at second 5000 the rule has
    expired, and it stays. -/
theorem decideLine_newline :
    parseI64 oneHour = some 3600 ∧
      readValidTime (some (contents oneHour true)) = some (24 * 3600) ∧
      decideLine asciiDigits (some (contents oneHour true)) authorizedLine 5000 = some false ∧
      (1000 + 3600 : Int) < 5000 := by
  have hread : readValidTime (some (contents oneHour true)) = some (24 * 3600) := by decide
  refine ⟨parse_oneHour, hread, ?_, by decide⟩
  rw [decideLine, hread, parse_authorizedLine]
  decide

end Safewrt.Sentry
