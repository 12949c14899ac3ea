/-
  Authorizations in iptables (hatch/src/services/sentry/src/access_control.rs, and
  `authorize_client_in_iptables` of sentry/sentry.rs).

  1. **Texts** — one rule has three: the specification sentry appends, the line iptables lists,
     and the specification the sweep deletes by.  The two regular expressions read the second.

  2. **iptables** is a parameter: what a specification denotes and how a rule is printed, with
     what is relied on as laws (`Iptables`).  Appending and deleting by specification is then
     appending and erasing.  There are two laws: the spelling the sweep deletes by means what the
     spelling of the authorization means, and the rule of an authorization that iptables takes is
     listed in the one form the sweep reads.  Which authorizations it takes is left open.

  3. **The sweep** — `check_for_expired` line by line.

  4. The three texts agree: `parse_listed` reads from the line what was written into the
     specification, and `denote_toText` finds the same rule again for the deletion.

  5. `plainIptables` knows these rules and no others, and keeps all of the laws.
-/
import Safewrt.Lib.Text

namespace Safewrt.Sentry

open Safewrt.Lib

/-! ## Reading a listed rule -/

/-- `\d`.  Which characters beyond ASCII it takes is a matter of the Unicode tables of regex. -/
structure DigitClass where
  digit : Char → Bool
  ascii : ∀ c, c.toNat < 128 → digit c = c.isDigit

/-- `[a-fA-F0-9:]` -/
def isMacChar (c : Char) : Bool :=
  ('a' ≤ c && c ≤ 'f') || ('A' ≤ c && c ≤ 'F') || ('0' ≤ c && c ≤ '9') || c == ':'

/-- `--mac-source\s([a-fA-F0-9:]{17})` at the head of the text. -/
def macSourceAt (t : Text) : Option Text :=
  (strip "--mac-source".toList t).bind fun t =>
    match t with
    | [] => none
    | c :: t =>
      if isWhitespace c && (t.take 17).length == 17 && (t.take 17).all isMacChar then
        some (t.take 17)
      else none

/-- `"timestamp=(\d+)"` at the head of the text. -/
def timestampAt (d : DigitClass) (t : Text) : Option Text :=
  (strip "\"timestamp=".toList t).bind fun t =>
    let digits := t.takeWhile d.digit
    if digits ≠ [] ∧ (t.drop digits.length).head? = some '"' then some digits else none

/-- `MAC_SOURCE_REGEX.captures(rule)` -/
def macSourceCapture : Text → Option Text := search macSourceAt

/-- `TIMESTAMP_REGEX.captures(rule)` -/
def timestampCapture (d : DigitClass) : Text → Option Text := search (timestampAt d)

/-- `Rule` of access_control.rs: what the sweep knows of a rule. -/
structure Rule where
  macSource : Text
  timestamp : Int
  deriving Repr, DecidableEq

/-- `Rule::parse` -/
def Rule.parse (d : DigitClass) (rule : Text) : Option Rule :=
  match macSourceCapture rule, timestampCapture d rule with
  | some macSource, some timestamp => (parseI64 timestamp).map fun n => ⟨macSource, n⟩
  | _, _ => none

/-- `Rule::to_string`, the specification the sweep deletes by. -/
def Rule.toText (rule : Rule) : Text :=
  "-m mac --mac-source ".toList ++ (rule.macSource ++ (" -m comment --comment ".toList ++
    (("timestamp=".toList ++ decimal rule.timestamp) ++ " -j ACCEPT".toList)))

/-- The sum of two `i64` in a release build. -/
def wrapI64 (n : Int) : Int := n.bmod (2 ^ 64)

/-- `Rule::is_expired`, when `Utc::now().timestamp()` is `now`. -/
def Rule.isExpired (rule : Rule) (validTime now : Int) : Bool :=
  decide (wrapI64 (rule.timestamp + validTime) < now)

/-! ## iptables -/

/-- The rule that `authorize_client_in_iptables` appends. -/
def authorizeSpec (mac : Text) (now : Int) : Text :=
  "-jACCEPT -mmac --mac-source ".toList ++ (mac ++ (" -mcomment --comment ".toList ++
    ("timestamp=".toList ++ decimal now)))

/-- How iptables lists it. -/
def listedLine (mac : Text) (timestamp : Int) : Text :=
  "-A prerouting_public_rule -m mac ".toList ++ ("--mac-source".toList ++ (' ' :: (mac ++
    (" -m comment --comment ".toList ++ ("\"timestamp=".toList ++ (decimal timestamp ++
      "\" -j ACCEPT".toList))))))

/-- Seventeen characters of a MAC address. -/
structure Mac where
  text : Text
  length : text.length = 17
  chars : ∀ c ∈ text, isMacChar c = true
  deriving DecidableEq

/-- A MAC ends at the first blank or quote behind it. -/
theorem isMacChar_ascii {c : Char} (h : isMacChar c = true) : c ≠ '"' ∧ c ≠ ' ' := by
  constructor
  · rintro rfl
    exact absurd h (by decide)
  · rintro rfl
    exact absurd h (by decide)

theorem Mac.no_space (mac : Mac) : ' ' ∉ mac.text :=
  fun h => (isMacChar_ascii (mac.chars _ h)).2 rfl

/-- iptables, as far as sentry relies on it; of a specification it refuses nothing is asked.
    `spelling`: an option may have its argument attached and `-j` may stand anywhere.  `prints`:
    the line shown for a rule that sentry appended. -/
structure Iptables where
  Rule : Type
  decEq : DecidableEq Rule
  denote : Text → Option Rule
  print : Rule → Text
  spelling : ∀ mac comment : Text, ' ' ∉ mac → ' ' ∉ comment →
    denote ("-m mac --mac-source ".toList ++ (mac ++ (" -m comment --comment ".toList ++
      (comment ++ " -j ACCEPT".toList)))) =
    denote ("-jACCEPT -mmac --mac-source ".toList ++ (mac ++ (" -mcomment --comment ".toList ++
      comment)))
  prints : ∀ (mac : Mac) (n : Nat) (rule : Rule), n < 2 ^ 63 →
    denote (authorizeSpec mac.text n) = some rule → print rule = listedLine mac.text n

instance (I : Iptables) : DecidableEq I.Rule := I.decEq

variable (I : Iptables) (d : DigitClass)

/-- `ipt.append(IPT_TABLE, IPT_CHAIN, spec)` -/
def Iptables.append (chain : List I.Rule) (spec : Text) : Option (List I.Rule) :=
  (I.denote spec).map fun rule => chain ++ [rule]

/-- `ipt.delete(IPT_TABLE, IPT_CHAIN, spec)`: the first rule equal to the specification. -/
def Iptables.delete (chain : List I.Rule) (spec : Text) : Option (List I.Rule) :=
  (I.denote spec).bind fun rule => if rule ∈ chain then some (chain.erase rule) else none

/-- `ipt.list(IPT_TABLE, IPT_CHAIN)`: the chain itself, then its rules. -/
def Iptables.list (chain : List I.Rule) : List Text :=
  "-N prerouting_public_rule".toList :: chain.map I.print

/-- `authorize_client_in_iptables` at `now`; `none` where it returns an error. -/
def authorizeClientInIptables (mac : Text) (now : Int) (chain : List I.Rule) :
    Option (List I.Rule) :=
  I.append chain (authorizeSpec mac now)

/-! ## The sweep -/

/-- `Duration::seconds`; `none` where it panics. -/
def durationSeconds (n : Int) : Option Int :=
  if n.natAbs ≤ (2 ^ 63 - 1) / 1000 then some n else none

/-- `read_valid_time`, in seconds; `config` is what can be read of the file. -/
def readValidTime (config : Option Text) : Option Int :=
  match config.bind parseI64 with
  | some time => durationSeconds time
  | none => some (24 * 3600)

/-- The loop of `check_for_expired` over the listed lines: how it ends, and the chain then. -/
def sweepLines (validTime now : Int) :
    List Text → List I.Rule → Except Text Unit × List I.Rule
  | [], chain => (.ok (), chain)
  | line :: lines, chain =>
    match Rule.parse d line with
    | none => sweepLines validTime now lines chain
    | some rule =>
      if rule.isExpired validTime now then
        match I.delete chain rule.toText with
        | some chain => sweepLines validTime now lines chain
        | none => (.error ("Error deleting rule: ".toList ++ rule.toText), chain)
      else sweepLines validTime now lines chain

/-- `check_for_expired(valid_time)`; `none` where `read_valid_time` panics.  `now` is the second
    in which the sweep runs. -/
def checkForExpired (validTime : Option Int) (config : Option Text) (now : Int)
    (chain : List I.Rule) : Option (Except Text Unit × List I.Rule) :=
  (validTime.orElse fun _ => readValidTime config).map fun validTime =>
    sweepLines I d validTime now (I.list chain) chain

/-! ## The three texts of one authorization -/

/-- The capture takes seventeen characters, which is the whole MAC. -/
theorem macSourceAt_listed (mac : Mac) (rest : Text) :
    macSourceAt ("--mac-source".toList ++ (' ' :: (mac.text ++ rest))) = some mac.text := by
  have htake : (mac.text ++ rest).take 17 = mac.text := by
    rw [← mac.length, List.take_left]
  have hall : mac.text.all isMacChar = true := List.all_eq_true.mpr mac.chars
  unfold macSourceAt
  rw [strip_append, Option.bind_some]
  simp only [htake]
  rw [if_pos]
  rw [mac.length, hall]
  decide

/-- The first `--mac-source` of a listed authorization is the one before its MAC. -/
theorem macSourceCapture_listed (mac : Mac) (n : Int) :
    macSourceCapture (listedLine mac.text n) = some mac.text := by
  have hlit : StartsWith "--mac-source".toList macSourceAt := startsWith_bind _ _
  unfold macSourceCapture listedLine
  rw [search_skip_literal hlit (by decide)]
  exact search_of_some (macSourceAt_listed mac _)

/-- Decimal digits are digits for the regular expression, and nothing else before the quote is. -/
theorem takeWhile_decimal (n : Nat) (rest : Text) :
    (Nat.toDigits 10 n ++ '"' :: rest).takeWhile d.digit = Nat.toDigits 10 n := by
  have hdigits : ∀ c ∈ Nat.toDigits 10 n, d.digit c = true := by
    intro c hc
    have hc := isDigit_decimal hc
    have hlt : c.toNat < 128 := by
      simp only [Char.isDigit, Bool.and_eq_true, decide_eq_true_eq] at hc
      have h57 : c.toNat ≤ 57 := hc.2
      omega
    rw [d.ascii c hlt, hc]
  have hquote : d.digit '"' = false := by
    rw [d.ascii '"' (by decide)]
    decide
  rw [List.takeWhile_append_of_pos hdigits, List.takeWhile_cons_of_neg (by rw [hquote]; decide),
    List.append_nil]

/-- The capture ends at the quote that iptables puts behind the comment. -/
theorem timestampAt_listed (n : Nat) (rest : Text) :
    timestampAt d ("\"timestamp=".toList ++ (Nat.toDigits 10 n ++ '"' :: rest)) =
      some (Nat.toDigits 10 n) := by
  unfold timestampAt
  rw [strip_append, Option.bind_some]
  simp only [takeWhile_decimal]
  rw [if_pos ⟨Nat.toDigits_ne_nil, by rw [List.drop_left]; rfl⟩]

/-- The first `"timestamp=` of a listed authorization is that of its comment: there is no quote
    before. -/
theorem timestampCapture_listed (mac : Mac) (n : Nat) :
    timestampCapture d (listedLine mac.text n) = some (Nat.toDigits 10 n) := by
  have hlit : StartsWith ('"' :: "timestamp=".toList) (timestampAt d) := startsWith_bind _ _
  have hpre : '"' ∉ "-A prerouting_public_rule -m mac ".toList ++ ("--mac-source".toList ++
      (' ' :: (mac.text ++ " -m comment --comment ".toList))) := by
    have hmac : '"' ∉ mac.text := fun h => (isMacChar_ascii (mac.chars _ h)).1 rfl
    simp only [List.mem_append, List.mem_cons, not_or]
    exact ⟨by decide, by decide, by decide, hmac, by decide⟩
  have hline : listedLine mac.text n = ("-A prerouting_public_rule -m mac ".toList ++
      ("--mac-source".toList ++ (' ' :: (mac.text ++ " -m comment --comment ".toList)))) ++
        ("\"timestamp=".toList ++ (Nat.toDigits 10 n ++ '"' :: " -j ACCEPT".toList)) := by
    unfold listedLine
    simp only [List.append_assoc, List.cons_append]
    rfl
  unfold timestampCapture
  rw [hline, search_skip_char hlit hpre]
  exact search_of_some (timestampAt_listed d n _)

/-- **What the sweep reads is what sentry wrote.** -/
theorem parse_listed (mac : Mac) {n : Nat} (h : n < 2 ^ 63) :
    Rule.parse d (listedLine mac.text n) = some ⟨mac.text, n⟩ := by
  unfold Rule.parse
  rw [macSourceCapture_listed, timestampCapture_listed]
  simp only [parseI64_decimal h, Option.map_some]

/-- A line without a timestamp is passed over, whatever else stands in it. -/
theorem parse_eq_none {line : Text} (h : timestampCapture d line = none) :
    Rule.parse d line = none := by
  unfold Rule.parse
  rw [h]
  cases macSourceCapture line <;> rfl

/-- The line for the chain itself is no authorization. -/
theorem parse_header : Rule.parse d "-N prerouting_public_rule".toList = none :=
  parse_eq_none d (search_eq_none_of_literal (startsWith_bind "\"timestamp=".toList _) (by decide))

/-- **The specification deleted is the one appended**, in another spelling. -/
theorem denote_toText (mac : Mac) (n : Nat) :
    I.denote (Rule.toText ⟨mac.text, n⟩) = I.denote (authorizeSpec mac.text n) := by
  have hcomment : ' ' ∉ "timestamp=".toList ++ decimal n := by
    rw [List.mem_append, not_or]
    refine ⟨by decide, fun h => ?_⟩
    exact absurd (isDigit_decimal h) (by decide)
  exact I.spelling mac.text _ mac.no_space hcomment

/-! ## An iptables that knows these rules -/

/-- A rule of sentry's shape, or any other by its line. -/
inductive PlainRule
  | accept (mac comment : Text)
  | other (line : Text)
  deriving Repr, DecidableEq

/-- The word at the head of the text. -/
def word (t : Text) : Text := t.takeWhile fun c => c != ' '

/-- The spelling that sentry appends in. -/
def denoteShort (spec : Text) : Option PlainRule :=
  (strip "-jACCEPT -mmac --mac-source ".toList spec).bind fun t =>
    (strip " -mcomment --comment ".toList (t.drop (word t).length)).map fun comment =>
      .accept (word t) comment

/-- The spelling that the sweep deletes in. -/
def denoteLong (spec : Text) : Option PlainRule :=
  (strip "-m mac --mac-source ".toList spec).bind fun t =>
    (strip " -m comment --comment ".toList (t.drop (word t).length)).bind fun t' =>
      if t'.drop (word t').length = " -j ACCEPT".toList then some (.accept (word t) (word t'))
      else none

/-- A comment is listed in quotes. -/
def PlainRule.print : PlainRule → Text
  | .accept mac comment =>
    "-A prerouting_public_rule -m mac ".toList ++ ("--mac-source".toList ++ (' ' :: (mac ++
      (" -m comment --comment ".toList ++ ("\"".toList ++ (comment ++ "\" -j ACCEPT".toList))))))
  | .other line => line

/-- A word ends at the first blank. -/
theorem word_append {w rest : Text} (h : ' ' ∉ w) : word (w ++ ' ' :: rest) = w := by
  have hall : ∀ c ∈ w, (c != ' ') = true := by
    intro c hc
    rw [bne_iff_ne]
    rintro rfl
    exact h hc
  unfold word
  rw [List.takeWhile_append_of_pos hall, List.takeWhile_cons_of_neg (by decide), List.append_nil]

/-- The MAC and the comment are read back from the spelling of `append`. -/
theorem denoteShort_eq {mac : Text} (comment : Text) (h : ' ' ∉ mac) :
    denoteShort ("-jACCEPT -mmac --mac-source ".toList ++ (mac ++
      (" -mcomment --comment ".toList ++ comment))) = some (.accept mac comment) := by
  have hword : word (mac ++ (" -mcomment --comment ".toList ++ comment)) = mac := word_append h
  unfold denoteShort
  rw [strip_append, Option.bind_some, hword, List.drop_left, strip_append]
  rfl

/-- They are read back from the spelling of `delete`. -/
theorem denoteLong_eq {mac comment : Text} (h : ' ' ∉ mac) (hc : ' ' ∉ comment) :
    denoteLong ("-m mac --mac-source ".toList ++ (mac ++ (" -m comment --comment ".toList ++
      (comment ++ " -j ACCEPT".toList)))) = some (.accept mac comment) := by
  have hword : word (mac ++ (" -m comment --comment ".toList ++
    (comment ++ " -j ACCEPT".toList))) = mac := word_append h
  have hword' : word (comment ++ " -j ACCEPT".toList) = comment := word_append hc
  unfold denoteLong
  rw [strip_append, Option.bind_some, hword, List.drop_left, strip_append, Option.bind_some,
    hword', List.drop_left, if_pos rfl]

/-- No text has both spellings. -/
theorem denoteShort_long (t : Text) : denoteShort ("-m mac --mac-source ".toList ++ t) = none := by
  have hne : ¬ "-jACCEPT -mmac --mac-source ".toList <+: "-m mac --mac-source ".toList ++ t := by
    intro h
    have h2 := (List.cons_prefix_cons.mp h).2
    exact absurd (List.cons_prefix_cons.mp h2).1 (by decide)
  unfold denoteShort
  rw [strip_eq_none hne, Option.bind_none]

/-- The rule of an authorization is listed as `listedLine` has it. -/
theorem print_timestamp (mac : Text) (n : Int) :
    PlainRule.print (.accept mac ("timestamp=".toList ++ decimal n)) = listedLine mac n := by
  have hquote : "\"timestamp=".toList = "\"".toList ++ "timestamp=".toList := by decide
  unfold PlainRule.print listedLine
  rw [hquote]
  simp only [List.append_assoc]

theorem denoteShort_authorize (n : Int) {mac : Text} (h : ' ' ∉ mac) :
    denoteShort (authorizeSpec mac n) = some (.accept mac ("timestamp=".toList ++ decimal n)) := by
  unfold authorizeSpec
  exact denoteShort_eq _ h

/-- A text in one of the two spellings. -/
def plainDenote (spec : Text) : Option PlainRule := (denoteShort spec).or (denoteLong spec)

theorem plainDenote_authorize (n : Int) {mac : Text} (h : ' ' ∉ mac) :
    plainDenote (authorizeSpec mac n) = some (.accept mac ("timestamp=".toList ++ decimal n)) := by
  unfold plainDenote
  rw [denoteShort_authorize n h, Option.some_or]

/-- Both spellings of one authorization are one rule. -/
theorem plainDenote_spelling {mac comment : Text} (h : ' ' ∉ mac) (hc : ' ' ∉ comment) :
    plainDenote ("-m mac --mac-source ".toList ++ (mac ++ (" -m comment --comment ".toList ++
      (comment ++ " -j ACCEPT".toList)))) =
    plainDenote ("-jACCEPT -mmac --mac-source ".toList ++ (mac ++ (" -mcomment --comment ".toList ++
      comment))) := by
  unfold plainDenote
  rw [denoteShort_long, denoteLong_eq h hc, denoteShort_eq comment h, Option.none_or,
    Option.some_or]

/-- An iptables for the two spellings of sentry. -/
def plainIptables : Iptables where
  Rule := PlainRule
  decEq := inferInstance
  denote := plainDenote
  print := PlainRule.print
  spelling _ _ hmac hcomment := plainDenote_spelling hmac hcomment
  prints mac n rule _ h := by
    rw [plainDenote_authorize n mac.no_space, Option.some.injEq] at h
    rw [← h]
    exact print_timestamp mac.text n

/-- `\d` without the digits beyond ASCII. -/
def asciiDigits : DigitClass := ⟨Char.isDigit, fun _ _ => rfl⟩

end Safewrt.Sentry
