/-
  The neighbour table that `ip n` prints, and what the sentry finds in it
  (hatch/src/services/sentry/src/sentry/ip.rs, `get_mac_impl`).

  1. **`Neighbour`**: an entry, with or without a link-layer address, and with any number of flag
     words.  `Prints` relates a table to any text that has the words of one entry on each line,
     however they are spaced.

  2. **`getMacImpl_prints`**: the code on such a text, entry by entry.  It counts columns and takes
     the fifth, so an entry without an address counts as one with it where two flag words fill the
     place of `lladdr` and the address (`Neighbour.taken`).

  3. **`faithful_iff`**: the answer is the address of the first entry for the client that has one,
     and the client whitelisted is that one, exactly where no such entry comes before it.

  What a link-layer address looks like is a parameter (`LinkLayer`), since the code does not check
  it.  A flag word is any word that is no such address, so that the two can be told apart at all.
-/
import Safewrt.Sentry.Authorization
import Mathlib.Data.List.Forall2

namespace Safewrt.Sentry

open Safewrt.Lib

/-! ## Tables -/

/-- A printed word. -/
structure Word where
  chars : Text
  printed : isWord chars = true

/-- An entry of the neighbour table.  `LinkLayer` tells the words that are link-layer addresses;
    flag words (`router`, `proxy`, `extern_learn` and so on) are none. -/
structure Neighbour (LinkLayer : Text → Prop) where
  dest : Word
  device : Word
  lladdr : Option { w : Word // LinkLayer w.chars }
  flags : List { w : Word // ¬ LinkLayer w.chars }
  state : Word

variable {LinkLayer : Text → Prop}

/-- The words between the device and the state. -/
def Neighbour.middle (e : Neighbour LinkLayer) : List Text :=
  (match e.lladdr with
    | some a => ["lladdr".toList, a.1.chars]
    | none => []) ++ e.flags.map fun f => f.1.chars

/-- The columns of the entry. -/
def Neighbour.columns (e : Neighbour LinkLayer) : List Text :=
  [e.dest.chars, "dev".toList, e.device.chars] ++ (e.middle ++ [e.state.chars])

/-- `line` has the columns of the entry, with any white space around them. -/
structure Neighbour.Prints (e : Neighbour LinkLayer) (line : Text) : Prop where
  columns : splitWhitespace line = e.columns
  oneLine : '\n' ∉ line

/-- `output` is the table, one entry a line, with or without a line feed behind the last. -/
def Prints (table : List (Neighbour LinkLayer)) (output : Text) : Prop :=
  ∃ texts, List.Forall₂ Neighbour.Prints table texts ∧
    (output = texts.flatMap (fun t => t ++ ['\n']) ∨ output = ['\n'].intercalate texts)

/-- The address of the first entry for `ip` that has one. -/
def lladdrOf (table : List (Neighbour LinkLayer)) (ip : Text) : Option Text :=
  table.findSome? fun e => if e.dest.chars = ip then e.lladdr.map fun a => a.1.chars else none

/-- What `get_mac_impl` takes from an entry: the second flag word where there is no address. -/
def Neighbour.taken (e : Neighbour LinkLayer) : Option Text :=
  match e.lladdr with
  | some a => some a.1.chars
  | none => e.flags[1]?.map fun f => f.1.chars

/-! ## The code on a table -/

/-- The closure of `get_mac_impl`, on the columns of a line. -/
theorem columns_taken (e : Neighbour LinkLayer) (ip : Text) :
    (if e.columns.length < 6 then none
      else if e.columns.head? = some ip then e.columns[4]? else none) =
      if e.dest.chars = ip then e.taken else none := by
  have hhead : e.columns.head? = some ip ↔ e.dest.chars = ip := Option.some_inj
  have hlen : e.columns.length = 4 + e.middle.length := by
    unfold Neighbour.columns
    rw [List.length_append, List.length_append]
    show 3 + (_ + 1) = _
    omega
  have hfifth : e.columns[4]? = (e.middle ++ [e.state.chars])[1]? := rfl
  simp only [hhead, hlen, hfifth]
  unfold Neighbour.taken Neighbour.middle
  cases e.lladdr with
  | some a =>
    -- `lladdr` and the address make the six columns
    rw [if_neg (by simp; omega)]
    rfl
  | none =>
    dsimp only
    rw [List.nil_append, List.length_map]
    by_cases hfew : e.flags.length < 2
    · rw [if_pos (by omega), List.getElem?_eq_none (by omega)]
      simp
    · rw [if_neg (by omega), List.getElem?_append_left (by rw [List.length_map]; omega),
        List.getElem?_map]

/-- The line of an entry is not empty. -/
theorem Neighbour.Prints.ne_nil {e : Neighbour LinkLayer} {line : Text} (h : e.Prints line) :
    line ≠ [] := by
  intro hnil
  have hcolumns := h.columns
  rw [hnil, splitWhitespace_nil] at hcolumns
  exact absurd hcolumns (List.cons_ne_nil _ _).symm

/-- Every line of the text is the line of an entry. -/
theorem prints_line {table : List (Neighbour LinkLayer)} {texts : List Text}
    (h : List.Forall₂ Neighbour.Prints table texts) {line : Text} (hline : line ∈ texts) :
    ∃ e : Neighbour LinkLayer, e.Prints line := by
  induction h with
  | nil => exact absurd hline List.not_mem_nil
  | cons he _ ih =>
    rcases List.mem_cons.mp hline with rfl | hline
    · exact ⟨_, he⟩
    · exact ih hline

/-- The lines of a printed table, whether or not the last one is closed. -/
theorem lines_prints {table : List (Neighbour LinkLayer)} {texts : List Text} {output : Text}
    (h : List.Forall₂ Neighbour.Prints table texts)
    (houtput : output = texts.flatMap (fun t => t ++ ['\n']) ∨ output = ['\n'].intercalate texts) :
    lines output = texts.map dropCr := by
  have hfree : ∀ t ∈ texts, '\n' ∉ t := by
    intro t ht
    obtain ⟨e, he⟩ := prints_line h ht
    exact he.oneLine
  have hne : ∀ t ∈ texts, t ≠ [] := by
    intro t ht
    obtain ⟨e, he⟩ := prints_line h ht
    exact he.ne_nil
  rcases houtput with rfl | rfl
  · exact lines_terminated hfree
  · exact lines_separated hfree hne

/-- **`get_mac_impl` on a printed table**, entry by entry. -/
theorem getMacImpl_prints {table : List (Neighbour LinkLayer)} {output : Text}
    (h : Prints table output) (ip : Text) : getMacImpl ip output =
      table.findSome? fun e => if e.dest.chars = ip then e.taken else none := by
  obtain ⟨texts, hprints, houtput⟩ := h
  unfold getMacImpl
  rw [lines_prints hprints houtput]
  clear houtput
  induction hprints with
  | nil => rfl
  | @cons e line table texts he _ ih =>
    have hcolumns : splitWhitespace (dropCr line) = e.columns :=
      (splitWhitespace_dropCr line).trans he.columns
    rw [List.map_cons, List.findSome?_cons, List.findSome?_cons, ih, hcolumns]
    dsimp only
    rw [columns_taken]

/-! ## Whose address it is -/

/-- What a client at `ip` can rely on. -/
structure Faithful (table : List (Neighbour LinkLayer)) (output ip : Text) : Prop where
  /-- the address of the first entry for `ip` that has one, and none where there is none -/
  mac : getMacImpl ip output = lladdrOf table ip
  /-- no other word is taken for an address -/
  linkLayer : ∀ m, getMacImpl ip output = some m → LinkLayer m
  /-- the rule that authorizes the client is for an address of its own -/
  authorize : ∀ (I : Iptables) (env : Env) (chain chain' : List I.Rule) (accept : Accept),
    env.neighbours = some output →
    authorizeClient I ip env chain = .ok (some (accept, chain')) →
    ∃ e ∈ table, ∃ a rule, e.dest.chars = ip ∧ e.lladdr = some a ∧ accept.mac = a.1.chars ∧
      I.denote (authorizeSpec a.1.chars env.now) = some rule ∧ chain' = chain ++ [rule]

/-- No entry for `ip` without an address has two flag words, before the first one with an
    address. -/
def Clear (table : List (Neighbour LinkLayer)) (ip : Text) : Prop :=
  ∀ e ∈ table.takeWhile (fun e => !(e.dest.chars = ip && e.lladdr.isSome)),
    e.dest.chars = ip → e.flags.length < 2

instance (table : List (Neighbour LinkLayer)) (ip : Text) : Decidable (Clear table ip) :=
  inferInstanceAs (Decidable (∀ e ∈ table.takeWhile _, e.dest.chars = ip → e.flags.length < 2))

/-- The address is that of an entry of the table for this client. -/
theorem lladdrOf_some {table : List (Neighbour LinkLayer)} {ip m : Text}
    (h : lladdrOf table ip = some m) :
    ∃ e ∈ table, ∃ a, e.dest.chars = ip ∧ e.lladdr = some a ∧ m = a.1.chars := by
  obtain ⟨e, he, hsome⟩ := List.exists_of_findSome?_eq_some h
  split at hsome
  · rename_i hdest
    obtain ⟨a, ha, rfl⟩ := Option.map_eq_some_iff.mp hsome
    exact ⟨e, he, a, hdest, ha, rfl⟩
  · exact absurd hsome (by simp)

/-- **What is taken is the address, exactly on a clear table.** -/
theorem taken_iff (table : List (Neighbour LinkLayer)) (ip : Text) :
    (table.findSome? fun e => if e.dest.chars = ip then e.taken else none) = lladdrOf table ip ↔
      Clear table ip := by
  induction table with
  | nil => exact iff_of_true rfl fun e he => absurd he List.not_mem_nil
  | cons e table ih =>
    unfold lladdrOf Clear at ih ⊢
    rw [List.findSome?_cons, List.findSome?_cons, List.takeWhile_cons]
    by_cases hdest : e.dest.chars = ip
    · rw [if_pos hdest, if_pos hdest]
      unfold Neighbour.taken
      cases hlladdr : e.lladdr with
      | some a =>
        -- the first entry with an address: both stop at it
        rw [if_neg (by simp [hdest])]
        exact iff_of_true rfl fun e' he' => absurd he' List.not_mem_nil
      | none =>
        rw [if_pos (by simp), List.forall_mem_cons]
        by_cases hfew : e.flags.length < 2
        · rw [List.getElem?_eq_none (by omega)]
          exact ih.trans ⟨fun h => ⟨fun _ => hfew, h⟩, And.right⟩
        · -- its second flag word is taken, which is no address
          have hflag : e.flags[1]? = some e.flags[1] := List.getElem?_eq_getElem (by omega)
          rw [hflag]
          refine iff_of_false (fun heq => ?_) fun h => hfew (h.1 hdest)
          obtain ⟨e', -, a, -, -, ha⟩ := lladdrOf_some heq.symm
          have hchars : e.flags[1].1.chars = a.1.chars := ha
          refine e.flags[1].2 ?_
          rw [hchars]
          exact a.2
    · rw [if_neg hdest, if_neg hdest, if_pos (by simp [hdest]), List.forall_mem_cons]
      exact ih.trans ⟨fun h => ⟨fun h' => absurd h' hdest, h⟩, And.right⟩

/-- The first of the three is all there is to show. -/
theorem faithful_of_mac {table : List (Neighbour LinkLayer)} {output ip : Text}
    (h : getMacImpl ip output = lladdrOf table ip) : Faithful table output ip := by
  refine ⟨h, fun m hm => ?_, fun I env chain chain' accept hneighbours hauthorize => ?_⟩
  · obtain ⟨e, -, a, -, -, rfl⟩ := lladdrOf_some (h.symm.trans hm)
    exact a.2
  · obtain ⟨mac, rule, hmac, -, hrule, rfl, rfl⟩ := authorizeClient_eq_iff.mp hauthorize
    rw [hneighbours] at hmac
    obtain ⟨e, he, a, hdest, ha, rfl⟩ := lladdrOf_some (h.symm.trans hmac)
    exact ⟨e, he, a, rule, hdest, ha, rfl, hrule, rfl⟩

/-- **The address found is the client's own, exactly on a clear table.** -/
theorem faithful_iff (table : List (Neighbour LinkLayer)) (output ip : Text)
    (h : Prints table output) : Faithful table output ip ↔ Clear table ip := by
  rw [← taken_iff, ← getMacImpl_prints h ip]
  exact ⟨Faithful.mac, faithful_of_mac⟩

/-! ## A table as `ip n` prints it -/

/-- Every word with a blank behind it. -/
def Neighbour.print (e : Neighbour LinkLayer) : Text := e.columns.flatMap fun w => w ++ [' ']

/-- One line for each entry. -/
def printTable (table : List (Neighbour LinkLayer)) : Text :=
  (table.map Neighbour.print).flatMap fun t => t ++ ['\n']

/-- No column holds white space, so splitting finds the columns again. -/
theorem columns_words (e : Neighbour LinkLayer) : ∀ w ∈ e.columns, isWord w = true := by
  have hmiddle : ∀ w ∈ e.middle, isWord w = true := by
    unfold Neighbour.middle
    intro w hw
    rcases List.mem_append.mp hw with hw | hw
    · cases hlladdr : e.lladdr with
      | none =>
        rw [hlladdr] at hw
        exact absurd hw List.not_mem_nil
      | some a =>
        rw [hlladdr] at hw
        rcases List.mem_pair.mp hw with rfl | rfl
        · rfl
        · exact a.1.printed
    · obtain ⟨f, -, rfl⟩ := List.mem_map.mp hw
      exact f.1.printed
  intro w hw
  rcases List.mem_append.mp hw with hw | hw
  · rcases List.mem_cons.mp hw with rfl | hw
    · exact e.dest.printed
    · rcases List.mem_pair.mp hw with rfl | rfl
      · rfl
      · exact e.device.printed
  · rcases List.mem_append.mp hw with hw | hw
    · exact hmiddle w hw
    · rw [List.mem_singleton.mp hw]
      exact e.state.printed

/-- With single blanks between the columns a line prints its entry. -/
theorem prints_print (e : Neighbour LinkLayer) : e.Prints e.print := by
  refine ⟨splitWhitespace_words (columns_words e), fun hmem => ?_⟩
  obtain ⟨w, hw, hchar⟩ := List.mem_flatMap.mp hmem
  rcases List.mem_append.mp hchar with hchar | hchar
  · exact absurd ((isWord_iff.mp (columns_words e w hw)).2 _ hchar) (by decide)
  · exact absurd (List.mem_singleton.mp hchar) (by decide)

theorem prints_printTable (table : List (Neighbour LinkLayer)) : Prints table (printTable table) := by
  refine ⟨table.map Neighbour.print, ?_, .inl rfl⟩
  rw [List.forall₂_map_right_iff, List.forall₂_same]
  exact fun e _ => prints_print e

/-! ### An entry without an address and with two flags -/

/-- Link-layer addresses of the samples. -/
def HasColon (w : Text) : Prop := w.contains ':' = true

theorem client_printed : isWord "192.168.44.230".toList = true := rfl

theorem bridge_printed : isWord "br-public".toList = true := rfl

theorem mac_printed : isWord "DE:AD:BE:EF:00:22".toList = true := rfl

theorem router_printed : isWord "router".toList = true := rfl

theorem learned_printed : isWord "extern_learn".toList = true := rfl

theorem failed_printed : isWord "FAILED".toList = true := rfl

theorem mac_hasColon : HasColon "DE:AD:BE:EF:00:22".toList := rfl

theorem router_no_colon : ¬ HasColon "router".toList := Bool.eq_false_iff.mp rfl

theorem learned_no_colon : ¬ HasColon "extern_learn".toList := Bool.eq_false_iff.mp rfl

/-- An entry for the client. -/
def clientEntry (lladdr : Option { w : Word // HasColon w.chars })
    (flags : List { w : Word // ¬ HasColon w.chars }) : Neighbour HasColon :=
  ⟨⟨_, client_printed⟩, ⟨_, bridge_printed⟩, lladdr, flags, ⟨_, failed_printed⟩⟩

/-- One flag word, then an entry with the address. -/
def clearTable : List (Neighbour HasColon) :=
  [clientEntry none [⟨⟨_, router_printed⟩, router_no_colon⟩],
    clientEntry (some ⟨⟨_, mac_printed⟩, mac_hasColon⟩) [⟨⟨_, router_printed⟩, router_no_colon⟩]]

/-- `192.168.44.230 dev br-public router extern_learn FAILED` -/
def shadowTable : List (Neighbour HasColon) :=
  [clientEntry none [⟨⟨_, router_printed⟩, router_no_colon⟩,
    ⟨⟨_, learned_printed⟩, learned_no_colon⟩]]

/-- Without two flags before it, the client's own entry is taken. -/
theorem faithful_iff_clearTable :
    Faithful clearTable (printTable clearTable) "192.168.44.230".toList :=
  (faithful_iff clearTable _ _ (prints_printTable clearTable)).mpr (by decide)

/-- **A flag word is taken for the address** of a client that has none. -/
theorem shadowTable_unfaithful : Prints shadowTable (printTable shadowTable) ∧
    lladdrOf shadowTable "192.168.44.230".toList = none ∧
    getMacImpl "192.168.44.230".toList (printTable shadowTable) = some "extern_learn".toList ∧
    ¬ Faithful shadowTable (printTable shadowTable) "192.168.44.230".toList := by
  have hmac : getMacImpl "192.168.44.230".toList (printTable shadowTable) =
      some "extern_learn".toList := by decide +kernel
  exact ⟨prints_printTable shadowTable, by decide, hmac, fun h =>
    learned_no_colon (h.linkLayer _ hmac)⟩

end Safewrt.Sentry
