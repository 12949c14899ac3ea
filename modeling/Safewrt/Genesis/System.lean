/-
  What uci reads in the /etc/config/system that genesis renders.

  The file has one value that is not fixed, the hostname in the first option of the first section.
  It is the identity of the device where the device has one, which no part of genesis checks.

  1. `feed_lines` — reading on behind lines that are read.

  2. **`system_read`** — the hostname goes into the first section as it is escaped; what else is
     read is the same for every hostname.  The template is read once, with the section still empty,
     and `commands_onHead` puts the hostname in front: a command adds to a section and never looks at
     what is in it.  That no other option is called hostname is a finite check over the template's
     lines (`EndsUnnamed`).

  3. **`hostname_faithful_iff`** — exactly the hostnames that survive are read back.  One with a
     quote ends its value early, and one with a character that HTML escapes is read as another.
-/
import Safewrt.Genesis.Wireless

namespace Safewrt.Genesis

open Safewrt.Lib Safewrt.Lib.Words

/-! ## Reading on -/

/-- Lines that are read already stay in front. -/
theorem next_lines (lines : List (List Text)) (r : Reader) (c : Char) :
    Reader.next { r with lines := lines ++ r.lines } c =
      { r.next c with lines := lines ++ (r.next c).lines } := by
  obtain ⟨read, words, mode⟩ := r
  -- only a line feed outside of quotes adds a line, and it adds it at the end
  cases mode with
  | quoted w => rfl
  | blank =>
    simp only [Reader.next]
    split
    · rfl
    split
    · rw [List.append_assoc]
    split
    · rfl
    · rfl
  | word w =>
    simp only [Reader.next]
    split
    · rfl
    split
    · rw [List.append_assoc]
    split
    · rfl
    · rfl

/-- The lines that were read before stay in front and change nothing else. -/
theorem feed_lines (lines : List (List Text)) (t : Text) : ∀ r : Reader,
    Reader.feed { r with lines := lines ++ r.lines } t =
      { r.feed t with lines := lines ++ (r.feed t).lines } := by
  induction t with
  | nil => exact fun r => rfl
  | cons c t ih =>
    intro r
    rw [feed_cons, next_lines, ih (r.next c), feed_cons]

/-! ## A change of the first section -/

/-- The first section changed, if there is one. -/
def onHead (f : Section → Section) : List Section → List Section
  | [] => []
  | s :: ss => f s :: ss

/-- An option that was there before all others. -/
def withOption (x : Text × Text) (s : Section) : Section := { s with options := x :: s.options }

/-- A change of the first section can be made before or after a change of the last: they may be one
    section, where the order does not matter either. -/
theorem amend_onHead {f g : Section → Section} (h : ∀ s, g (f s) = f (g s)) (ss : List Section) :
    amend g (onHead f ss) = (amend g ss).map (onHead f) := by
  match ss with
  | [] => rfl
  | [s] => exact congrArg (fun s => some [s]) (h s)
  | s :: t :: rest =>
    show (amend g (t :: rest)).map (f s :: ·) = ((amend g (t :: rest)).map (s :: ·)).map (onHead f)
    rw [Option.map_map]
    rfl

/-- To change the last section takes no section away. -/
theorem amend_length {f : Section → Section} : ∀ {ss ss' : List Section},
    amend f ss = some ss' → ss'.length = ss.length
  | [_], ss', h => by
    rw [← Option.some.inj h]
    rfl
  | _ :: t :: rest, ss', h => by
    obtain ⟨rest', hrest, rfl⟩ := Option.map_eq_some_iff.mp h
    rw [List.length_cons, List.length_cons, amend_length hrest]

/-- A line does the same to the other sections, and to the rest of the first. -/
theorem command_onHead (x : Text × Text) {ss : List Section} (hne : ss ≠ []) (words : List Text) :
    command (onHead (withOption x) ss) words = (command ss words).map (onHead (withOption x)) := by
  obtain ⟨s, ss, rfl⟩ := List.exists_cons_of_ne_nil hne
  unfold command
  split
  · -- no words
    rfl
  · -- `config`: the new section goes behind the first
    split
    · split
      · rfl
      · rfl
      · rfl
    · -- `option`: the new pair goes behind the hostname
      split
      · split
        · rename_i name value
          have hcomm : ∀ s : Section,
              { withOption x s with options := (withOption x s).options ++ [(name, value)] } =
                withOption x { s with options := s.options ++ [(name, value)] } := fun _ => rfl
          exact amend_onHead hcomm (s :: ss)
        · rfl
      · split
        · -- `list`
          split
          · rename_i name value
            have hcomm : ∀ s : Section,
                { withOption x s with lists := (withOption x s).lists ++ [(name, value)] } =
                  withOption x { s with lists := s.lists ++ [(name, value)] } := fun _ => rfl
            exact amend_onHead hcomm (s :: ss)
          · rfl
        · rfl

/-- A line takes no section away. -/
theorem command_length {ss ss' : List Section} {words : List Text}
    (h : command ss words = some ss') : ss.length ≤ ss'.length := by
  unfold command at h
  split at h
  · rw [← Option.some.inj h]
  · split at h
    · split at h
      · rw [← Option.some.inj h, List.length_append]
        exact Nat.le_add_right _ _
      · rw [← Option.some.inj h, List.length_append]
        exact Nat.le_add_right _ _
      · exact absurd h (by simp)
    · split at h
      · split at h
        · exact (amend_length h).ge
        · exact absurd h (by simp)
      · split at h
        · split at h
          · exact (amend_length h).ge
          · exact absurd h (by simp)
        · exact absurd h (by simp)

/-- No line of a configuration file takes a section away. -/
theorem command_ne_nil {ss ss' : List Section} (hne : ss ≠ []) {words : List Text}
    (h : command ss words = some ss') : ss' ≠ [] := by
  have hlength := command_length h
  rw [← List.length_pos_iff] at hne ⊢
  omega

/-- An option of the first section can be put there when all lines are read.  The induction is on the
    lines; a section is there from the start. -/
theorem commands_onHead (x : Text × Text) (lines : List (List Text)) : ∀ {ss : List Section},
    ss ≠ [] → lines.foldlM command (onHead (withOption x) ss) =
      (lines.foldlM command ss).map (onHead (withOption x)) := by
  induction lines with
  | nil => exact fun _ => rfl
  | cons words lines ih =>
    intro ss hne
    rw [List.foldlM_cons, List.foldlM_cons, command_onHead x hne]
    cases hwords : command ss words with
    | none => rfl
    | some ss' => exact ih (command_ne_nil hne hwords)

/-! ## The template -/

/-- The line with the hostname. -/
def hostnameLine (hostname : Text) : Line := optionLine "hostname".toList 1 (.value (escape hostname))

theorem hostnameLine_readable {hostname : Text} (h : quote ∉ hostname) :
    (hostnameLine hostname).Readable :=
  optionLine_readable (by decide) Nat.one_pos (value_readable h)

/-- The section as the template begins it. -/
def systemStart : List Section := [⟨"system".toList, none, [], []⟩]

/-- A section called `system` that has no hostname yet. -/
def Section.Unnamed (s : Section) : Prop :=
  s.type = "system".toList ∧ ∀ x ∈ s.options, x.1 ≠ "hostname".toList

instance : DecidablePred Section.Unnamed := fun s =>
  inferInstanceAs (Decidable (s.type = "system".toList ∧ ∀ x ∈ s.options, x.1 ≠ "hostname".toList))

/-- What is read so far ends its lines, and its first section has no hostname. -/
def EndsUnnamed (r : Reader) : Prop :=
  r = ⟨r.lines, [], .blank⟩ ∧ ((r.lines.foldlM command systemStart).any fun ss =>
    ss.head?.any fun s => decide s.Unnamed) = true

instance : DecidablePred EndsUnnamed := fun r =>
  inferInstanceAs (Decidable (r = ⟨r.lines, [], .blank⟩ ∧
    ((r.lines.foldlM command systemStart).any fun ss =>
      ss.head?.any fun s => decide s.Unnamed) = true))

/-- The template around the hostname: it ends its lines, and names nothing. -/
theorem tplConfigSystem_around : ∃ behind,
    (∀ hostname, tplConfigSystem hostname =
      textOf ["config system"] ++ (printLine (hostnameLine hostname) ++ behind)) ∧
    EndsUnnamed (Reader.feed ⟨[], [], .blank⟩ behind) := by
  constructor
  refine ⟨fun hostname => ?_, ?_⟩
  · rw [hostnameLine, printLine_value, ← List.append_assoc]
    exact rfl
  · decide +kernel

/-- **What is read**: the hostname as it is escaped, and besides it the same for every hostname. -/
theorem system_read : ∃ s others, Section.Unnamed s ∧ ∀ hostname, quote ∉ hostname →
    uciRead (tplConfigSystem hostname) =
      some (withOption ("hostname".toList, escape hostname) s :: others) := by
  obtain ⟨behind, htemplate, hbehind, hsections⟩ := tplConfigSystem_around
  generalize (Reader.feed ⟨[], [], .blank⟩ behind).lines = lines at hbehind hsections
  obtain ⟨ss, hss, hhead⟩ := (Option.any_eq_true _ _).mp hsections
  obtain ⟨s, hs, hunnamed⟩ := (Option.any_eq_true _ _).mp hhead
  obtain ⟨others, rfl⟩ : ∃ others, ss = s :: others := by
    cases ss with
    | nil => exact absurd hs (by simp)
    | cons t others =>
      rw [← Option.some.inj hs]
      exact ⟨others, rfl⟩
  refine ⟨s, others, of_decide_eq_true hunnamed, fun hostname hquote => ?_⟩
  have hfirst : Reader.feed ⟨[], [], .blank⟩ (textOf ["config system"]) =
      ⟨[["config".toList, "system".toList]], [], .blank⟩ := by decide
  have hread : readLines (tplConfigSystem hostname) =
      some (["config".toList, "system".toList] ::
        ["option".toList, "hostname".toList, escape hostname] :: lines ++ [[]]) := by
    have hrest := feed_lines [["config".toList, "system".toList],
      ["option".toList, "hostname".toList, escape hostname]] behind ⟨[], [], .blank⟩
    rw [hbehind] at hrest
    rw [readLines, htemplate, feed_append, hfirst, feed_append,
      feed_printLine _ (hostnameLine_readable hquote)]
    exact hrest ▸ rfl
  have hcommands : lines.foldlM command
      (onHead (withOption ("hostname".toList, escape hostname)) systemStart) =
        some (withOption ("hostname".toList, escape hostname) s :: others) := by
    have hne : systemStart ≠ [] := List.cons_ne_nil _ _
    rw [commands_onHead _ _ hne, Option.mem_def.mp hss]
    rfl
  -- the line behind the last line feed is empty
  have hend : (lines ++ [[]]).foldlM command
      (onHead (withOption ("hostname".toList, escape hostname)) systemStart) =
        some (withOption ("hostname".toList, escape hostname) s :: others) := by
    rw [List.foldlM_append, hcommands]
    rfl
  rw [uciRead, hread, Option.bind_some, sectionsOf, ← hend]
  rfl

/-! ## The hostname -/

/-- The hostname of the first section called `system`: of two options the last counts. -/
def hostnameOf (ss : List Section) : Option Text :=
  (ss.find? fun s => s.type == "system".toList).bind fun s =>
    (s.options.reverse.find? fun x => x.1 == "hostname".toList).map Prod.snd

/-- The option is found in front of all others. -/
theorem hostnameOf_named {s : Section} (h : s.Unnamed) (hostname : Text) (others : List Section) :
    hostnameOf (withOption ("hostname".toList, hostname) s :: others) = some hostname := by
  have hnone : s.options.reverse.find? (fun x => x.1 == "hostname".toList) = none := by
    rw [List.find?_eq_none]
    intro x hx
    simpa using h.2 x (List.mem_reverse.mp hx)
  have hsome : (withOption ("hostname".toList, hostname) s).options.reverse.find?
      (fun x => x.1 == "hostname".toList) = some ("hostname".toList, hostname) := by
    show (("hostname".toList, hostname) :: s.options).reverse.find? _ = _
    rw [List.reverse_cons, List.find?_append, hnone]
    rfl
  rw [hostnameOf, List.find?_cons_of_pos (by exact beq_iff_eq.mpr h.1), Option.bind_some, hsome]
  rfl

/-- The hostname that is read is the escaped one. -/
theorem hostname_read {hostname : Text} (h : quote ∉ hostname) :
    (uciRead (tplConfigSystem hostname)).bind hostnameOf = some (escape hostname) := by
  obtain ⟨s, others, hunnamed, hread⟩ := system_read
  rw [hread hostname h, Option.bind_some, hostnameOf_named hunnamed]

/-- uci never reads a hostname with a quote. -/
theorem hostnameOf_unquoted {ss : List Section} (hss : ∀ s ∈ ss, s.Unquoted) {hostname : Text}
    (h : hostnameOf ss = some hostname) : quote ∉ hostname := by
  obtain ⟨s, hs, hoption⟩ := Option.bind_eq_some_iff.mp h
  obtain ⟨x, hx, rfl⟩ := Option.map_eq_some_iff.mp hoption
  exact hss s (List.mem_of_find?_eq_some hs) x (List.mem_reverse.mp (List.mem_of_find?_eq_some hx))

/-- **Exactly the hostnames that survive are read back.** -/
theorem hostname_faithful_iff (hostname : Text) :
    (uciRead (tplConfigSystem hostname)).bind hostnameOf = some hostname ↔ Survives hostname := by
  rw [survives_iff]
  constructor
  · intro h
    obtain ⟨ss, hss, hhostname⟩ := Option.bind_eq_some_iff.mp h
    have hquote := hostnameOf_unquoted (uciRead_unquoted hss) hhostname
    rw [hostname_read hquote, Option.some.injEq] at h
    exact ⟨hquote, h⟩
  · rintro ⟨hquote, hescape⟩
    rw [hostname_read hquote, hescape]

end Safewrt.Genesis
