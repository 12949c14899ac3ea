/-
  TEXT: searching, decimal numbers, white space.

  1. **Searching** — a pattern without alternatives is a partial function on the text from a given
     place on (`m t`, with its capture); the leftmost match is the first suffix where it answers
     (`search`).  `search_skip` and its two corollaries say when what stands before a match can be
     passed over: the pattern starts with a literal, and the literal is not there.

  2. **Decimal numbers** — what a number is printed as, and the reading of a signed 64-bit one.

  3. **Lines and words** — the pieces between line feeds, and between characters with the Unicode
     property White_Space — and the bytes of a text.
-/
import Mathlib.Algebra.Group.Int.Defs
import Mathlib.Algebra.Group.Nat.Defs
import Mathlib.Data.List.Infix
import Mathlib.Data.List.TakeWhile

namespace Safewrt.Lib

/-- A text is its characters; where the code holds UTF-8, `asBytes` says which bytes these are. -/
abbrev Text := List Char

/-! ## Searching -/

variable {α : Type}

/-- What follows `lit` at the head of the text. -/
def strip (lit t : Text) : Option Text :=
  if lit <+: t then some (t.drop lit.length) else none

theorem strip_append (lit t : Text) : strip lit (lit ++ t) = some t := by
  unfold strip
  rw [if_pos (List.prefix_append lit t), List.drop_left]

theorem strip_eq_none {lit t : Text} (h : ¬ lit <+: t) : strip lit t = none := by
  unfold strip
  rw [if_neg h]

/-- The leftmost place where `m` matches. -/
def search (m : Text → Option α) : Text → Option α
  | [] => m []
  | c :: t => (m (c :: t)).or (search m t)

/-- The leftmost match is here if there is a match here. -/
theorem search_of_some {m : Text → Option α} {t : Text} {a : α} (h : m t = some a) :
    search m t = some a := by
  cases t with
  | nil => exact h
  | cons c t => rw [search, h, Option.some_or]

/-- No match starts inside `pre`. -/
theorem search_skip {m : Text → Option α} {pre rest : Text}
    (h : ∀ i, i < pre.length → m (pre.drop i ++ rest) = none) :
    search m (pre ++ rest) = search m rest := by
  induction pre with
  | nil => rfl
  | cons c pre ih =>
    have h0 : m (c :: (pre ++ rest)) = none := h 0 (Nat.succ_pos _)
    have htail : ∀ i, i < pre.length → m (pre.drop i ++ rest) = none := by
      intro i hi
      exact h (i + 1) (Nat.succ_lt_succ hi)
    rw [List.cons_append, search, h0, Option.none_or]
    exact ih htail

/-- There is no match at all if there is none at any place. -/
theorem search_eq_none {m : Text → Option α} {t : Text} (h : ∀ s, s <:+ t → m s = none) :
    search m t = none := by
  have hskip : search m (t ++ []) = search m [] := search_skip fun i _ => by
    rw [List.append_nil]
    exact h _ (List.drop_suffix i t)
  rw [List.append_nil] at hskip
  rw [hskip]
  exact h [] List.nil_suffix

/-- A pattern that starts with the literal `lit`. -/
def StartsWith (lit : Text) (m : Text → Option α) : Prop :=
  ∀ t, ¬ lit <+: t → m t = none

/-- A pattern that begins by taking off a literal starts with this literal. -/
theorem startsWith_bind (lit : Text) (k : Text → Option α) :
    StartsWith lit fun t => (strip lit t).bind k := by
  intro t ht
  show (strip lit t).bind k = none
  rw [strip_eq_none ht, Option.bind_none]

/-- The first occurrence of the literal is where `pre` ends. -/
theorem search_skip_literal {lit : Text} {m : Text → Option α} (hm : StartsWith lit m)
    {pre rest : Text} (h : ∀ i, i < pre.length → ¬ lit <+: (pre ++ lit).drop i) :
    search m (pre ++ (lit ++ rest)) = search m (lit ++ rest) := by
  apply search_skip
  intro i hi
  apply hm
  intro hpre
  apply h i hi
  rw [List.drop_append_of_le_length (Nat.le_of_lt hi)]
  rw [← List.append_assoc] at hpre
  exact List.prefix_of_prefix_length_le hpre (List.prefix_append _ rest) (by simp)

/-- The literal starts with a character that `pre` does not have. -/
theorem search_skip_char {c : Char} {lit : Text} {m : Text → Option α}
    (hm : StartsWith (c :: lit) m) {pre rest : Text} (h : c ∉ pre) :
    search m (pre ++ rest) = search m rest := by
  apply search_skip
  intro i hi
  apply hm
  rw [List.drop_eq_getElem_cons hi, List.cons_append, List.cons_prefix_cons]
  rintro ⟨rfl, -⟩
  exact h (List.getElem_mem hi)

/-- Without the literal there is no match. -/
theorem search_eq_none_of_literal {lit : Text} {m : Text → Option α} (hm : StartsWith lit m)
    {t : Text} (h : ¬ lit <:+: t) : search m t = none :=
  search_eq_none fun s hs => hm s fun hpre => h (hpre.isInfix.trans hs.isInfix)

/-! ## Decimal numbers -/

/-- What a number is printed as. -/
def decimal : Int → Text
  | .ofNat n => Nat.toDigits 10 n
  | .negSucc n => '-' :: Nat.toDigits 10 (n + 1)

/-- The value of a non-empty string of ASCII digits. -/
def parseDigits (t : Text) : Option Nat :=
  if t ≠ [] ∧ t.all Char.isDigit then some (Nat.ofDigitChars 10 t 0) else none

/-- The reading of a signed 64-bit number: an optional sign, then digits. -/
def parseI64 : Text → Option Int
  | '-' :: t => (parseDigits t).bind fun n => if n ≤ 2 ^ 63 then some (-(n : Int)) else none
  | '+' :: t => (parseDigits t).bind fun n => if n < 2 ^ 63 then some (n : Int) else none
  | t => (parseDigits t).bind fun n => if n < 2 ^ 63 then some (n : Int) else none

/-- Decimal numbers are digits only, so neither a blank nor a quote can stand in one. -/
theorem isDigit_decimal {n : Nat} {c : Char} (h : c ∈ Nat.toDigits 10 n) : c.isDigit = true :=
  Nat.isDigit_of_mem_toDigits (by decide) (Nat.le_refl 10) h

theorem parseDigits_decimal (n : Nat) : parseDigits (Nat.toDigits 10 n) = some n := by
  unfold parseDigits
  rw [if_pos ⟨Nat.toDigits_ne_nil, List.all_eq_true.mpr fun c hc => isDigit_decimal hc⟩,
    Nat.ofDigitChars_ten_toDigits]

/-- As long as it fits: beyond, the reading fails instead of wrapping around. -/
theorem parseI64_decimal {n : Nat} (h : n < 2 ^ 63) :
    parseI64 (Nat.toDigits 10 n) = some (n : Int) := by
  have hparse := parseDigits_decimal n
  have hdigit : ∀ c ∈ Nat.toDigits 10 n, c.isDigit = true := fun c hc => isDigit_decimal hc
  generalize Nat.toDigits 10 n = t at hparse hdigit
  unfold parseI64
  split
  · exact absurd (hdigit '-' List.mem_cons_self) (by decide)
  · exact absurd (hdigit '+' List.mem_cons_self) (by decide)
  · rw [hparse, Option.bind_some, if_pos h]

/-! ## Lines and words -/

/-- A line feed ends a line, and takes a carriage return before it with it. -/
def lines (t : Text) : List Text :=
  let all := t.splitOn '\n'
  let ended := if all.getLast? = some [] then all.dropLast else all
  ended.map fun line => if line.getLast? = some '\r' then line.dropLast else line

/-- The Unicode property White_Space. -/
def isWhitespace (c : Char) : Bool :=
  (0x09 ≤ c.toNat && c.toNat ≤ 0x0d) || c.toNat == 0x20 || c.toNat == 0x85 || c.toNat == 0xa0 ||
    c.toNat == 0x1680 || (0x2000 ≤ c.toNat && c.toNat ≤ 0x200a) || c.toNat == 0x2028 ||
    c.toNat == 0x2029 || c.toNat == 0x202f || c.toNat == 0x205f || c.toNat == 0x3000

/-- The words between white space. -/
def splitWhitespace (t : Text) : List Text := (t.splitOnP isWhitespace).filter fun w => !w.isEmpty

theorem splitWhitespace_nil : splitWhitespace [] = [] := rfl

/-- A word can be printed between white space. -/
def isWord (w : Text) : Bool := !w.isEmpty && w.all fun c => !isWhitespace c

theorem isWord_iff {w : Text} :
    isWord w = true ↔ w ≠ [] ∧ ∀ c ∈ w, isWhitespace c = false := by
  simp [isWord]

/-- White space separates. -/
theorem splitWhitespace_gap (t u : Text) {c : Char} (h : isWhitespace c = true) :
    splitWhitespace (t ++ c :: u) = splitWhitespace t ++ splitWhitespace u := by
  unfold splitWhitespace
  rw [List.splitOnP_append_cons t u h, List.filter_append]

/-- A single word is split into itself. -/
theorem splitWhitespace_word {w : Text} (h : isWord w = true) : splitWhitespace w = [w] := by
  obtain ⟨hne, hfree⟩ := isWord_iff.mp h
  unfold splitWhitespace
  rw [List.splitOnP_eq_singleton hfree]
  cases w with
  | nil => exact absurd rfl hne
  | cons c w => rfl

/-- Words with a blank behind each. -/
theorem splitWhitespace_words {ws : List Text} (h : ∀ w ∈ ws, isWord w = true) :
    splitWhitespace (ws.flatMap fun w => w ++ [' ']) = ws := by
  induction ws with
  | nil => rfl
  | cons w ws ih =>
    have hcons : (w :: ws).flatMap (fun w => w ++ [' ']) =
        w ++ ' ' :: ws.flatMap (fun w => w ++ [' ']) := by
      rw [List.flatMap_cons, List.append_assoc]
      rfl
    rw [hcons, splitWhitespace_gap _ _ (by decide), splitWhitespace_word (h w List.mem_cons_self),
      ih fun w' hw' => h w' (List.mem_cons_of_mem _ hw')]
    rfl

/-- A line without a carriage return at its end. -/
def dropCr (line : Text) : Text := if line.getLast? = some '\r' then line.dropLast else line

/-- A carriage return before the line feed is white space, and white space at the end of a line
    makes no word. -/
theorem splitWhitespace_dropCr (line : Text) :
    splitWhitespace (dropCr line) = splitWhitespace line := by
  unfold dropCr
  split
  · rename_i hlast
    obtain ⟨front, rfl⟩ := List.getLast?_eq_some_iff.mp hlast
    rw [List.dropLast_concat, splitWhitespace_gap front [] (by decide), splitWhitespace_nil,
      List.append_nil]
  · rfl

/-- Lines with a line feed behind each. -/
theorem lines_terminated {ts : List Text} (h : ∀ t ∈ ts, '\n' ∉ t) :
    lines (ts.flatMap fun t => t ++ ['\n']) = ts.map dropCr := by
  have hsplit : (ts.flatMap fun t => t ++ ['\n']).splitOn '\n' = ts ++ [[]] := by
    induction ts with
    | nil => rfl
    | cons t ts ih =>
      have hcons : (t :: ts).flatMap (fun t => t ++ ['\n']) =
          t ++ '\n' :: ts.flatMap (fun t => t ++ ['\n']) := by
        rw [List.flatMap_cons, List.append_assoc]
        rfl
      rw [hcons, List.splitOn_append_cons_self_of_not_mem (h t List.mem_cons_self),
        ih fun t' ht' => h t' (List.mem_cons_of_mem _ ht')]
      rfl
  unfold lines
  rw [hsplit]
  dsimp only
  rw [List.getLast?_concat, if_pos rfl, List.dropLast_concat]
  rfl

/-- Lines that are not empty, with line feeds between them. -/
theorem lines_separated {ts : List Text} (h : ∀ t ∈ ts, '\n' ∉ t) (hne : ∀ t ∈ ts, t ≠ []) :
    lines (['\n'].intercalate ts) = ts.map dropCr := by
  cases ts with
  | nil => rfl
  | cons t ts =>
    have hlast : (t :: ts).getLast? ≠ some [] := by
      intro hnil
      exact hne [] (List.mem_of_getLast? hnil) rfl
    unfold lines
    rw [List.splitOn_intercalate '\n' h (List.cons_ne_nil t ts)]
    dsimp only
    rw [if_neg hlast]
    rfl

/-! ## Bytes -/

/-- A text as it is stored. -/
def asBytes (t : Text) : List UInt8 := t.flatMap String.utf8EncodeChar

/-- The text that is stored; `none` where the bytes are not UTF-8. -/
def fromBytes (bytes : List UInt8) : Option Text :=
  (bytes.toByteArray.utf8Decode?).map Array.toList

/-- UTF-8 that was made from a text is read as this text. -/
theorem fromBytes_asBytes (t : Text) : fromBytes (asBytes t) = some t := by
  show (t.utf8Encode.utf8Decode?).map Array.toList = some t
  rw [List.utf8Decode?_utf8Encode]
  rfl

end Safewrt.Lib
