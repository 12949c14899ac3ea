/-
  LINES OF QUOTED WORDS.

  A text is a list of lines, a line a list of words between blanks.  Between two single quotes
  every character is literal, line feeds and blanks included; nothing else is special, and a quoted
  part next to a plain one belongs to the same word.

  1. **The reader** (`readLines`) takes one character at a time, so reading an appended text is
     reading on from where the first left off (`feed_append`).  Its state is the lines that are
     done, the words of the line it is in, and a mode: between words, in a word, between quotes.

  2. **The printer** (`printLine`) puts blanks before each token and at the end of the line; a
     value is printed between quotes as it is.  `readLines_printLines`: what is printed is read
     back, if no plain word holds a blank or a quote and no value a quote.  The number of blanks
     is part of a `Line`, so any layout of the same words is covered.

  3. `readLines_unquoted`: whatever the text, no word that is read holds a quote.  The invariant
     is on the reader, and says of the quote what each mode lets through.

  Together they decide a round trip in both directions: a printed value that holds no quote comes
  back, and one that holds a quote cannot, wherever the reader puts the pieces.
-/
import Safewrt.Lib.Text

namespace Safewrt.Lib.Words

open Safewrt.Lib

/-! ## The reader -/

/-- The one character with a meaning of its own: it opens and closes a literal part. -/
def quote : Char := '\''

/-- What stands between two words of a line.  A line feed ends the line and is no blank. -/
def isBlank (c : Char) : Bool := c == ' ' || c == '\t'

/-- Where the reader is. -/
inductive Mode
  | blank
  | word (w : Text)
  | quoted (w : Text)
  deriving Repr, DecidableEq

/-- The lines that are finished, and the words of the line that is not. -/
structure Reader where
  lines : List (List Text)
  words : List Text
  mode : Mode
  deriving Repr, DecidableEq

/-- `words` with the word that is being read. -/
def Reader.closed (r : Reader) : List Text :=
  match r.mode with
  | .word w => r.words ++ [w]
  | _ => r.words

/-- One character. -/
def Reader.next (r : Reader) (c : Char) : Reader :=
  match r.mode with
  | .quoted w => { r with mode := if c == quote then .word w else .quoted (w ++ [c]) }
  | .blank =>
    if c == quote then { r with mode := .quoted [] }
    else if c == '\n' then ⟨r.lines ++ [r.words], [], .blank⟩
    else if isBlank c then r
    else { r with mode := .word [c] }
  | .word w =>
    if c == quote then { r with mode := .quoted w }
    else if c == '\n' then ⟨r.lines ++ [r.words ++ [w]], [], .blank⟩
    else if isBlank c then ⟨r.lines, r.words ++ [w], .blank⟩
    else { r with mode := .word (w ++ [c]) }

/-- All characters of a text, from the left. -/
def Reader.feed (r : Reader) (t : Text) : Reader := t.foldl Reader.next r

/-- The lines of a text; `none` where a quote is not closed. -/
def readLines (t : Text) : Option (List (List Text)) :=
  let r := Reader.feed ⟨[], [], .blank⟩ t
  match r.mode with
  | .quoted _ => none
  | _ => some (r.lines ++ [r.closed])

/-- Reading is a fold, so a text can be read in pieces: this is what lets the printer's pieces be
    read one by one below. -/
theorem feed_append (r : Reader) (s t : Text) : r.feed (s ++ t) = (r.feed s).feed t :=
  List.foldl_append

theorem feed_cons (r : Reader) (c : Char) (t : Text) : r.feed (c :: t) = (r.next c).feed t := rfl

/-! ## The printer -/

inductive Token
  | plain (w : Text)
  | value (v : Text)
  deriving Repr, DecidableEq

/-- What the reader is to make of a token: the quotes of a value are not part of it. -/
def Token.text : Token → Text
  | .plain w => w
  | .value v => v

/-- A token as it stands in the text. -/
def Token.print : Token → Text
  | .plain w => w
  | .value v => quote :: v ++ [quote]

/-- A character that needs no quotes. -/
def isPlain (c : Char) : Bool := c != quote && c != '\n' && !isBlank c

/-- A plain word that is one, a value that a quote can close. -/
def Token.Readable : Token → Prop
  | .plain w => w ≠ [] ∧ w.all isPlain = true
  | .value v => quote ∉ v

instance : DecidablePred Token.Readable
  | .plain w => inferInstanceAs (Decidable (w ≠ [] ∧ w.all isPlain = true))
  | .value v => inferInstanceAs (Decidable (quote ∉ v))

/-- The tokens of a line, each with the number of blanks before it, and the blanks at its end. -/
structure Line where
  tokens : List (Nat × Token)
  trail : Nat
  deriving Repr, DecidableEq

/-- The tokens of a line, each behind as many blanks as it is given. -/
def printTokens (tokens : List (Nat × Token)) : Text :=
  tokens.flatMap fun x => List.replicate x.1 ' ' ++ x.2.print

/-- A line, with the blanks at its end and its line feed. -/
def printLine (line : Line) : Text :=
  printTokens line.tokens ++ List.replicate line.trail ' ' ++ ['\n']

/-- The words that are to be read from a printed line. -/
def Line.words (line : Line) : List Text := line.tokens.map fun x => x.2.text

/-- A line that can be read back: blanks between its tokens. -/
def Line.Readable (line : Line) : Prop :=
  (∀ x ∈ line.tokens, x.2.Readable) ∧ ∀ x ∈ line.tokens.tail, 0 < x.1

instance (line : Line) : Decidable line.Readable := inferInstanceAs (Decidable (_ ∧ _))

/-! ## What is printed is read back -/

/-- Between words blanks change nothing. -/
theorem feed_blanks (lines : List (List Text)) (words : List Text) (n : Nat) :
    Reader.feed ⟨lines, words, .blank⟩ (List.replicate n ' ') = ⟨lines, words, .blank⟩ := by
  induction n with
  | zero => rfl
  | succ n ih =>
    rw [List.replicate_succ, feed_cons]
    exact ih

/-- Blanks after a word end it. -/
theorem feed_blanks_word (lines : List (List Text)) (words : List Text) (w : Text) {n : Nat}
    (h : 0 < n) : Reader.feed ⟨lines, words, .word w⟩ (List.replicate n ' ') =
      ⟨lines, words ++ [w], .blank⟩ := by
  obtain ⟨m, rfl⟩ : ∃ m, n = m + 1 := ⟨n - 1, by omega⟩
  rw [List.replicate_succ, feed_cons]
  exact feed_blanks lines (words ++ [w]) m

/-- The three characters that end a plain word, or change how it is read, are not in it. -/
theorem isPlain_iff (c : Char) :
    isPlain c = true ↔ c ≠ quote ∧ c ≠ '\n' ∧ isBlank c = false := by
  simp [isPlain, and_assoc]

/-- Plain characters go on the word that is being read. -/
theorem feed_plain_word (lines : List (List Text)) (words : List Text) (u : Text)
    (h : ∀ c ∈ u, isPlain c = true) : ∀ w,
    Reader.feed ⟨lines, words, .word w⟩ u = ⟨lines, words, .word (w ++ u)⟩ := by
  induction u with
  | nil =>
    intro w
    rw [List.append_nil]
    rfl
  | cons c u ih =>
    intro w
    obtain ⟨hquote, hline, hblank⟩ := (isPlain_iff c).mp (h c List.mem_cons_self)
    have hnext : Reader.next ⟨lines, words, .word w⟩ c = ⟨lines, words, .word (w ++ [c])⟩ := by
      simp [Reader.next, hquote, hline, hblank]
    rw [feed_cons, hnext, ih (fun x hx => h x (List.mem_cons_of_mem c hx)), List.append_assoc]
    rfl

/-- Inside quotes everything but a quote goes on the word, line feeds and blanks too. -/
theorem feed_quoted (lines : List (List Text)) (words : List Text) (v : Text) (h : quote ∉ v) :
    ∀ w, Reader.feed ⟨lines, words, .quoted w⟩ v = ⟨lines, words, .quoted (w ++ v)⟩ := by
  induction v with
  | nil =>
    intro w
    rw [List.append_nil]
    rfl
  | cons c v ih =>
    intro w
    rw [List.mem_cons, not_or] at h
    have hnext : Reader.next ⟨lines, words, .quoted w⟩ c = ⟨lines, words, .quoted (w ++ [c])⟩ := by
      simp [Reader.next, Ne.symm h.1]
    rw [feed_cons, hnext, ih h.2, List.append_assoc]
    rfl

/-- A token leaves its word open. -/
theorem feed_token (lines : List (List Text)) (words : List Text) {token : Token}
    (h : token.Readable) : Reader.feed ⟨lines, words, .blank⟩ token.print =
      ⟨lines, words, .word token.text⟩ := by
  cases token with
  | plain w =>
    obtain ⟨hne, hplain⟩ := h
    rw [List.all_eq_true] at hplain
    obtain ⟨c, u, rfl⟩ := List.exists_cons_of_ne_nil hne
    obtain ⟨hquote, hline, hblank⟩ := (isPlain_iff c).mp (hplain c List.mem_cons_self)
    have hnext : Reader.next ⟨lines, words, .blank⟩ c = ⟨lines, words, .word [c]⟩ := by
      simp [Reader.next, hquote, hline, hblank]
    show Reader.feed ⟨lines, words, .blank⟩ (c :: u) = _
    rw [feed_cons, hnext, feed_plain_word lines words u
      fun x hx => hplain x (List.mem_cons_of_mem c hx)]
    rfl
  | value v =>
    show Reader.feed ⟨lines, words, .quoted []⟩ (v ++ [quote]) = _
    rw [feed_append, feed_quoted lines words v h]
    rfl

/-- The end of a line, with a word still open. -/
theorem feed_end (lines : List (List Text)) (words : List Text) (w : Text) (trail : Nat) :
    Reader.feed ⟨lines, words, .word w⟩ (List.replicate trail ' ' ++ ['\n']) =
      ⟨lines ++ [words ++ [w]], [], .blank⟩ := by
  by_cases htrail : 0 < trail
  · rw [feed_append, feed_blanks_word lines words w htrail]
    rfl
  · obtain rfl : trail = 0 := by omega
    rfl

/-- The tokens after the first one, up to the line feed. -/
theorem feed_tokens (lines : List (List Text)) (trail : Nat) (tokens : List (Nat × Token)) :
    (∀ x ∈ tokens, x.2.Readable) → (∀ x ∈ tokens, 0 < x.1) → ∀ words w,
    Reader.feed ⟨lines, words, .word w⟩ (printLine ⟨tokens, trail⟩) =
      ⟨lines ++ [words ++ w :: tokens.map fun x => x.2.text], [], .blank⟩ := by
  induction tokens with
  | nil => intro _ _ words w; exact feed_end lines words w trail
  | cons x tokens ih =>
    intro hread hpos words w
    have hsplit : printLine ⟨x :: tokens, trail⟩ =
        List.replicate x.1 ' ' ++ (x.2.print ++ printLine ⟨tokens, trail⟩) := by
      simp [printLine, printTokens]
    rw [hsplit, feed_append, feed_blanks_word lines words w (hpos x List.mem_cons_self),
      feed_append, feed_token lines _ (hread x List.mem_cons_self),
      ih (fun y hy => hread y (List.mem_cons_of_mem x hy))
        (fun y hy => hpos y (List.mem_cons_of_mem x hy)), List.append_assoc]
    rfl

/-- One printed line is one line more, and the reader stands at the start of the next. -/
theorem feed_printLine (lines : List (List Text)) {line : Line} (h : line.Readable) :
    Reader.feed ⟨lines, [], .blank⟩ (printLine line) = ⟨lines ++ [line.words], [], .blank⟩ := by
  obtain ⟨tokens, trail⟩ := line
  cases tokens with
  | nil =>
    show Reader.feed ⟨lines, [], .blank⟩ (List.replicate trail ' ' ++ ['\n']) = _
    rw [feed_append, feed_blanks]
    rfl
  | cons x tokens =>
    -- the first token may have no blanks before it, the others have one at least
    have hsplit : printLine ⟨x :: tokens, trail⟩ =
        List.replicate x.1 ' ' ++ (x.2.print ++ printLine ⟨tokens, trail⟩) := by
      simp [printLine, printTokens]
    rw [hsplit, feed_append, feed_blanks, feed_append, feed_token lines _
      (h.1 x List.mem_cons_self), feed_tokens lines trail tokens
        (fun y hy => h.1 y (List.mem_cons_of_mem x hy)) h.2]
    rfl

/-- By induction on the lines, from any lines read before. -/
theorem feed_printLines (printed : List Line) : (∀ line ∈ printed, line.Readable) → ∀ lines,
    Reader.feed ⟨lines, [], .blank⟩ (printed.flatMap printLine) =
      ⟨lines ++ printed.map Line.words, [], .blank⟩ := by
  induction printed with
  | nil =>
    intro _ lines
    rw [List.map_nil, List.append_nil]
    rfl
  | cons line printed ih =>
    intro h lines
    rw [List.flatMap_cons, feed_append, feed_printLine lines (h line List.mem_cons_self),
      ih (fun l hl => h l (List.mem_cons_of_mem line hl)), List.map_cons, List.append_assoc]
    rfl

/-- **What is printed is read back**, with an empty line at the end. -/
theorem readLines_printLines {printed : List Line} (h : ∀ line ∈ printed, line.Readable) :
    readLines (printed.flatMap printLine) = some (printed.map Line.words ++ [[]]) := by
  unfold readLines
  rw [feed_printLines printed h]
  rfl

/-! ## Quotes are never read -/

/-- The word that is being read holds no quote. -/
def Mode.Unquoted : Mode → Prop
  | .blank => True
  | .word w => quote ∉ w
  | .quoted w => quote ∉ w

/-- No word that was read holds a quote. -/
structure Reader.Unquoted (r : Reader) : Prop where
  lines : ∀ line ∈ r.lines, ∀ w ∈ line, quote ∉ w
  words : ∀ w ∈ r.words, quote ∉ w
  mode : r.mode.Unquoted

/-- A word more in a list of which all words are fine. -/
theorem forall_mem_concat {α : Type} {p : α → Prop} {xs : List α} {x : α} (h : ∀ y ∈ xs, p y)
    (hx : p x) : ∀ y ∈ xs ++ [x], p y := by
  intro y hy
  rcases List.mem_append.mp hy with hy | hy
  · exact h y hy
  · rw [List.mem_singleton.mp hy]
    exact hx

theorem not_mem_concat {w : Text} {c : Char} (h : quote ∉ w) (hc : c ≠ quote) :
    quote ∉ w ++ [c] := by
  rw [List.mem_append, List.mem_singleton, not_or]
  exact ⟨h, Ne.symm hc⟩

/-- One character keeps the invariant: a quote changes the mode and is never stored. -/
theorem next_unquoted {r : Reader} (h : r.Unquoted) (c : Char) : (r.next c).Unquoted := by
  obtain ⟨lines, words, mode⟩ := r
  obtain ⟨hlines, hwords, hmode⟩ := h
  cases mode with
  -- only here does a quote end something; it is never kept
  | quoted w =>
    refine ⟨hlines, hwords, ?_⟩
    by_cases hc : c = quote
    · simpa [Reader.next, hc, Mode.Unquoted] using hmode
    · simpa [Reader.next, hc, Mode.Unquoted] using not_mem_concat hmode hc
  | blank =>
    by_cases hc : c = quote
    · subst hc
      exact ⟨hlines, hwords, by simp [Mode.Unquoted, Reader.next]⟩
    by_cases hline : c = '\n'
    · subst hline
      exact ⟨forall_mem_concat hlines hwords, by simp [Reader.next, quote], trivial⟩
    by_cases hblank : isBlank c = true
    · simpa [Reader.next, hc, hline, hblank] using Reader.Unquoted.mk hlines hwords trivial
    · simp only [Reader.next, hc, hline, hblank, beq_iff_eq, if_false, Bool.false_eq_true]
      exact ⟨hlines, hwords, by simpa [Mode.Unquoted] using Ne.symm hc⟩
  | word w =>
    by_cases hc : c = quote
    · subst hc
      exact ⟨hlines, hwords, hmode⟩
    by_cases hline : c = '\n'
    · subst hline
      exact ⟨forall_mem_concat hlines (forall_mem_concat hwords hmode),
        by simp [Reader.next, quote], trivial⟩
    by_cases hblank : isBlank c = true
    · simp only [Reader.next, hc, hline, hblank, beq_iff_eq, if_false, if_true]
      exact ⟨hlines, forall_mem_concat hwords hmode, trivial⟩
    · simp only [Reader.next, hc, hline, hblank, beq_iff_eq, if_false, Bool.false_eq_true]
      exact ⟨hlines, hwords, not_mem_concat hmode hc⟩

theorem feed_unquoted (t : Text) : ∀ {r : Reader}, r.Unquoted → (r.feed t).Unquoted := by
  induction t with
  | nil => intro r h; exact h
  | cons c t ih => intro r h; exact ih (next_unquoted h c)

/-- **No word holds a quote**, whatever the text. -/
theorem readLines_unquoted {t : Text} {lines : List (List Text)} (h : readLines t = some lines) :
    ∀ line ∈ lines, ∀ w ∈ line, quote ∉ w := by
  have hstart : Reader.Unquoted ⟨[], [], .blank⟩ :=
    ⟨by simp, by simp, trivial⟩
  have hfed := feed_unquoted t hstart
  unfold readLines at h
  generalize Reader.feed ⟨[], [], .blank⟩ t = r at h hfed
  obtain ⟨done, words, mode⟩ := r
  obtain ⟨hlines, hwords, hmode⟩ := hfed
  cases mode with
  | quoted w => exact absurd h (by simp)
  | blank =>
    rw [← Option.some.inj h]
    exact forall_mem_concat hlines hwords
  | word w =>
    rw [← Option.some.inj h]
    exact forall_mem_concat hlines (forall_mem_concat hwords hmode)

end Safewrt.Lib.Words
