/-
  THE KERNEL'S COMMAND LINE, IN THE IMAGE (tools/patch-cmdline/patch-cmdline.c).

  The tool maps the image, looks for the marker `CMDLINE:` and writes the command line behind it, in
  a field of 512 bytes with the marker.  How far it looks is an argument, and nothing keeps that, or
  the field, inside the file.

  1. **The mapping** — the file in whole pages, with zeros behind its end; a byte of no page is a
     signal, and what is written behind the end of the file is lost.

  2. `patch` — the scan for the marker, four bytes at a time, and the two stores behind it.

  3. **`patch_found_iff`, `patch_missing_iff`** — when each outcome occurs, for any file, size and
     command line, and the file that is left; every other case is a signal.  The specification
     (`First`, `overlay`) is about the file, not about the mapping: where the first marker is, and
     the file with the field laid over it.

  4. **`runs_last`** — of any number of runs over one file the last alone counts.  A patched file
     has its first marker where it was (`First.overlay_iff`), and a field laid over a field leaves
     no trace of the one before (`overlay_overlay`).
-/
import Safewrt.Lib.Arguments
import Safewrt.Lib.Store
import Safewrt.Lib.Text

namespace Safewrt.PatchCmdline

open Safewrt.Lib

/-- The contents of a file, and an argument without its zero. -/
abbrev Bytes := List UInt8

/-! ## The mapping

  A file is mapped in whole pages, up to its own last page and to the length that was asked for.
  What lies behind is not there, and to touch it ends the process. -/

/-- The pages that `n` bytes take. -/
def pages (n : Nat) : Nat := (n + 4095) / 4096 * 4096

/-- What the pages of the file hold. -/
def mapped (file : Bytes) : Bytes := file ++ List.replicate (pages file.length - file.length) 0

/-- Where the pages of a mapping of `length` bytes end. -/
def limit (file : Bytes) (length : Nat) : Nat := min (pages file.length) (pages length)

/-- A read of the mapping; `none` where a page is missing. -/
def load (mem : Bytes) (limit i k : Nat) : Option Bytes :=
  if i + k ≤ limit then some ((mem.drop i).take k) else none

/-- A store into the mapping. -/
def put (mem : Bytes) (limit i : Nat) (data : Bytes) : Option Bytes :=
  if i + data.length ≤ limit then store mem i data else none

/-! ## The patch

  Offsets are counted from the start of the mapping.  `none` is a signal, `some none` is a scan that
  found nothing. -/

/-- `"CMDLINE:"` -/
def marker : Bytes := [0x43, 0x4d, 0x44, 0x4c, 0x49, 0x4e, 0x45, 0x3a]

/-- `CMDLINE_MAX` -/
def cmdlineMax : Nat := 512

/-- The loop of `main` over `count` places from `p` on. -/
def scan (mem : Bytes) (limit p : Nat) : Nat → Option (Option Nat)
  | 0 => some none
  | count + 1 => do
    let bytes ← load mem limit p 8
    if bytes = marker then some (some p) else scan mem limit (p + 4) count

/-- `main` between `mmap` and `munmap`: whether the marker is found, and the file then. -/
def patch (searchSpace length : Nat) (cmdline file : Bytes) : Option (Option Bytes) := do
  let found ← scan (mapped file) (limit file length) 0 ((searchSpace + 3) / 4)
  match found with
  | none => some none
  | some p =>
    let mem ← put (mapped file) (limit file length) (p + 8) (List.replicate (cmdlineMax - 8) 0)
    let mem ← put mem (limit file length) (p + 8) (cmdline ++ [0])
    some (some (mem.take file.length))

/-! ## What the scan finds

  The scan looks at every fourth byte.  A marker is eight bytes, so it can be found only if all of
  it is in the file, although the mapping goes on: the zeros behind the end hold no letter of it. -/

/-- The marker stands at `p`, where the scan looks for it. -/
def MarkerAt (file : Bytes) (p : Nat) : Prop := 4 ∣ p ∧ (file.drop p).take 8 = marker

/-- The first marker is at `p`. -/
structure First (file : Bytes) (searchSpace p : Nat) : Prop where
  isMarker : MarkerAt file p
  inside : p < searchSpace
  none_before : ∀ q < p, ¬ MarkerAt file q

theorem le_pages (n : Nat) : n ≤ pages n := by
  unfold pages
  omega

theorem length_mapped (file : Bytes) : (mapped file).length = pages file.length := by
  have hle := le_pages file.length
  rw [mapped, List.length_append, List.length_replicate]
  omega

/-- A marker lies in the file, not in the zeros behind it. -/
theorem MarkerAt.inside {file : Bytes} {p : Nat} (h : MarkerAt file p) : p + 8 ≤ file.length := by
  have hlength := congrArg List.length h.2
  rw [List.length_take, List.length_drop] at hlength
  have hmarker : marker.length = 8 := rfl
  omega

/-- There is no marker in the zeros behind the file. -/
theorem markerAt_mapped (file : Bytes) (p : Nat) : MarkerAt (mapped file) p ↔ MarkerAt file p := by
  by_cases hinside : p + 8 ≤ file.length
  · have hroom : 8 ≤ (file.drop p).length := by
      rw [List.length_drop]
      omega
    rw [MarkerAt, mapped, List.drop_append_of_le_length (by omega),
      List.take_append_of_le_length hroom]
    rfl
  · constructor
    · rintro ⟨-, hmarker⟩
      have hlast : (((mapped file).drop p).take 8)[7]? = marker[7]? := by rw [hmarker]
      rw [List.getElem?_take_of_lt (by decide), List.getElem?_drop, mapped,
        List.getElem?_append_right (by omega)] at hlast
      have hmem := List.mem_of_getElem? hlast
      exact absurd (List.eq_of_mem_replicate hmem) (by decide)
    · intro h
      exact absurd h.inside hinside

/-- The scan stops at the first marker on its way.  By induction on the steps that are left. -/
theorem scan_found_iff (mem : Bytes) (limit : Nat) {r : Nat} (count : Nat) : ∀ p,
    scan mem limit p count = some (some r) ↔
      ∃ k < count, r = p + 4 * k ∧ r + 8 ≤ limit ∧ (mem.drop r).take 8 = marker ∧
        ∀ j < k, (mem.drop (p + 4 * j)).take 8 ≠ marker := by
  induction count with
  | zero =>
    intro p
    constructor
    · intro h
      cases h
    · rintro ⟨k, hk, -⟩
      exact absurd hk (Nat.not_lt_zero k)
  | succ count ih =>
    intro p
    rw [scan, load]
    -- the scan looks at `p`: out of the mapping, at the marker, or further on
    by_cases hlimit : p + 8 ≤ limit
    · rw [if_pos hlimit]
      show (if (mem.drop p).take 8 = marker then some (some p) else scan mem limit (p + 4) count) = _
        ↔ _
      by_cases hmarker : (mem.drop p).take 8 = marker
      · rw [if_pos hmarker]
        constructor
        · intro h
          obtain rfl := Option.some.inj (Option.some.inj h)
          exact ⟨0, Nat.succ_pos _, rfl, hlimit, hmarker, fun j hj => absurd hj (Nat.not_lt_zero j)⟩
        · rintro ⟨k, -, rfl, -, -, hbefore⟩
          cases k with
          | zero => rfl
          | succ k => exact absurd hmarker (hbefore 0 (Nat.succ_pos k))
      · rw [if_neg hmarker, ih (p + 4)]
        constructor
        · rintro ⟨k, hk, rfl, hfits, hr, hbefore⟩
          refine ⟨k + 1, by omega, by omega, hfits, hr, fun j hj => ?_⟩
          cases j with
          | zero => exact hmarker
          | succ j =>
            have hj' := hbefore j (by omega)
            rw [show p + 4 + 4 * j = p + 4 * (j + 1) by omega] at hj'
            exact hj'
        · rintro ⟨k, hk, rfl, hfits, hr, hbefore⟩
          cases k with
          | zero => exact absurd hr hmarker
          | succ k =>
            refine ⟨k, by omega, by omega, hfits, hr, fun j hj => ?_⟩
            rw [show p + 4 + 4 * j = p + 4 * (j + 1) by omega]
            exact hbefore (j + 1) (by omega)
    · rw [if_neg hlimit]
      constructor
      · intro h
        cases h
      · rintro ⟨k, -, rfl, hfits, -⟩
        omega

/-- It comes to its end where there is none, and every look stays in the mapping. -/
theorem scan_missing_iff (mem : Bytes) (limit : Nat) (count : Nat) : ∀ p,
    scan mem limit p count = some none ↔
      ∀ k < count, p + 4 * k + 8 ≤ limit ∧ (mem.drop (p + 4 * k)).take 8 ≠ marker := by
  induction count with
  | zero =>
    intro p
    exact iff_of_true rfl fun k hk => absurd hk (Nat.not_lt_zero k)
  | succ count ih =>
    intro p
    rw [scan, load, Nat.forall_lt_succ_left']
    -- the look at `p` has to stay in the mapping, and find no marker
    by_cases hlimit : p + 8 ≤ limit
    · rw [if_pos hlimit]
      show (if (mem.drop p).take 8 = marker then some (some p) else scan mem limit (p + 4) count) = _
        ↔ _
      by_cases hmarker : (mem.drop p).take 8 = marker
      · rw [if_pos hmarker]
        constructor
        · intro h
          cases h
        · rintro ⟨⟨-, hne⟩, -⟩
          exact absurd hmarker hne
      · rw [if_neg hmarker, ih (p + 4)]
        have hshift : ∀ k, p + 4 * (k + 1) = p + 4 + 4 * k := fun k => by omega
        simp only [hshift, Nat.mul_zero, Nat.add_zero]
        exact ⟨fun h => ⟨⟨hlimit, hmarker⟩, h⟩, fun h => h.2⟩
    · rw [if_neg hlimit]
      constructor
      · intro h
        cases h
      · rintro ⟨⟨hfits, -⟩, -⟩
        exact absurd hfits hlimit

/-! ## What the patch leaves

  The first store clears the field, the second one puts the command line in.  Of what is written
  behind the end of the file nothing is kept, which is why `overlay` is cut to its length. -/

/-- The 504 bytes behind the marker. -/
def field (cmdline : Bytes) : Bytes := cmdline ++ List.replicate (cmdlineMax - 8 - cmdline.length) 0

/-- The file with the field behind the marker at `p`, as far as the file goes. -/
def overlay (file : Bytes) (p : Nat) (cmdline : Bytes) : Bytes :=
  (file.take (p + 8) ++ (field cmdline ++ file.drop (p + cmdlineMax))).take file.length

theorem length_field {cmdline : Bytes} (h : cmdline.length ≤ 503) : (field cmdline).length = 504 := by
  rw [field, List.length_append, List.length_replicate]
  show cmdline.length + (504 - cmdline.length) = 504
  omega

/-- The zeros, and the command line with its terminator over them. -/
theorem put_put {mem : Bytes} {limit p : Nat} {cmdline : Bytes} (hlimit : limit ≤ mem.length)
    (hcmdline : cmdline.length ≤ 503) :
    ((put mem limit (p + 8) (List.replicate (cmdlineMax - 8) 0)).bind fun mem =>
      put mem limit (p + 8) (cmdline ++ [0])) =
    if p + cmdlineMax ≤ limit then
      some (mem.take (p + 8) ++ (field cmdline ++ mem.drop (p + cmdlineMax)))
    else none := by
  have hzeros : (List.replicate (cmdlineMax - 8) (0 : UInt8)).length = 504 := List.length_replicate
  have hmax : cmdlineMax = 512 := rfl
  unfold put
  by_cases hfits : p + cmdlineMax ≤ limit
  · have ha : (mem.take (p + 8)).length = p + 8 := by
      rw [List.length_take]
      omega
    have hb : (List.replicate (cmdlineMax - 8) (0 : UInt8)).length =
        ((mem.drop (p + 8)).take 504).length := by
      rw [hzeros, List.length_take, List.length_drop]
      omega
    have hmem : mem = mem.take (p + 8) ++ ((mem.drop (p + 8)).take 504 ++ mem.drop (p + cmdlineMax)) := by
      have hrest : mem.drop (p + cmdlineMax) = (mem.drop (p + 8)).drop 504 := by
        rw [List.drop_drop]
        rfl
      rw [hrest, List.take_append_drop, List.take_append_drop]
    have hfirst := store_exact (mem.take (p + 8)) _ (mem.drop (p + cmdlineMax)) hb
    -- the second store covers the first zeros and leaves the others
    have hsplit : List.replicate (cmdlineMax - 8) (0 : UInt8) =
        List.replicate (cmdline.length + 1) 0 ++ List.replicate (503 - cmdline.length) 0 := by
      rw [List.replicate_append_replicate, hmax,
        show cmdline.length + 1 + (503 - cmdline.length) = 512 - 8 by omega]
    have hdata : (cmdline ++ [(0 : UInt8)]).length =
        (List.replicate (cmdline.length + 1) (0 : UInt8)).length := by
      rw [List.length_append, List.length_replicate]
      rfl
    have hsecond := store_exact (mem.take (p + 8)) _
      (List.replicate (503 - cmdline.length) 0 ++ mem.drop (p + cmdlineMax)) hdata
    have hfield : cmdline ++ [0] ++ List.replicate (503 - cmdline.length) 0 = field cmdline := by
      rw [field, List.append_assoc, List.singleton_append, ← List.replicate_succ, hmax,
        show 503 - cmdline.length + 1 = 512 - 8 - cmdline.length by omega]
    rw [← hmem, ha] at hfirst
    rw [ha] at hsecond
    rw [if_pos (by omega), if_pos hfits, hfirst, Option.bind_some,
      if_pos (by rw [hdata, List.length_replicate]; omega), hsplit,
      List.append_assoc (List.replicate _ _), hsecond, ← hfield, List.append_assoc (cmdline ++ [0])]
  · rw [if_neg hfits, if_neg (by omega)]
    rfl

/-- The marker that the scan finds in the mapping is the first one of the file. -/
theorem scan_first_iff (file : Bytes) (limit searchSpace r : Nat) :
    scan (mapped file) limit 0 ((searchSpace + 3) / 4) = some (some r) ↔
      First file searchSpace r ∧ r + 8 ≤ limit := by
  rw [scan_found_iff]
  constructor
  · rintro ⟨k, hk, rfl, hfits, hmarker, hbefore⟩
    refine ⟨⟨?_, by omega, ?_⟩, hfits⟩
    · exact (markerAt_mapped file _).mp ⟨⟨k, by omega⟩, hmarker⟩
    · intro q hq hmarkerAt
      obtain ⟨⟨j, rfl⟩, hj⟩ := (markerAt_mapped file q).mpr hmarkerAt
      have hne := hbefore j (by omega)
      rw [Nat.zero_add] at hne
      exact hne hj
  · rintro ⟨⟨hmarkerAt, hinside, hnone⟩, hfits⟩
    obtain ⟨⟨k, rfl⟩, hmarker⟩ := (markerAt_mapped file r).mpr hmarkerAt
    refine ⟨k, by omega, by omega, hfits, hmarker, fun j hj hother => ?_⟩
    rw [Nat.zero_add] at hother
    exact hnone (4 * j) (by omega) ((markerAt_mapped file _).mp ⟨⟨j, rfl⟩, hother⟩)

/-- What of the pages goes into the file. -/
theorem take_overlay {file cmdline : Bytes} {p : Nat} (hcmdline : cmdline.length ≤ 503)
    (hp : p + 8 ≤ file.length) :
    ((mapped file).take (p + 8) ++ (field cmdline ++ (mapped file).drop (p + cmdlineMax))).take
      file.length = overlay file p cmdline := by
  have hmax : cmdlineMax = 512 := rfl
  have hfield := length_field hcmdline
  have hhead : (mapped file).take (p + 8) = file.take (p + 8) := by
    rw [mapped, List.take_append_of_le_length hp]
  have hlength : (file.take (p + 8) ++ field cmdline).length = p + cmdlineMax := by
    rw [List.length_append, List.length_take, hfield]
    omega
  have hwhole : (mapped file).take file.length = file := by
    rw [mapped, List.take_left]
  have htail : ((mapped file).drop (p + cmdlineMax)).take (file.length - (p + cmdlineMax)) =
      (file.drop (p + cmdlineMax)).take (file.length - (p + cmdlineMax)) := by
    rw [← List.drop_take, hwhole, ← List.drop_take, List.take_length]
  have hsplit : ∀ tail : Bytes, ((file.take (p + 8) ++ field cmdline) ++ tail).take file.length =
      (file.take (p + 8) ++ field cmdline).take file.length ++
        tail.take (file.length - (p + cmdlineMax)) := by
    intro tail
    rw [List.take_append, hlength]
  rw [overlay, hhead, ← List.append_assoc, ← List.append_assoc, hsplit, hsplit, htail]

section Outcomes

variable {searchSpace length : Nat} {cmdline file : Bytes}

/-- **The marker is found and patched** if and only if there is one and the pages reach to the end
    of the field. -/
theorem patch_found_iff (hcmdline : cmdline.length ≤ 503) {file' : Bytes} :
    patch searchSpace length cmdline file = some (some file') ↔
      ∃ p, First file searchSpace p ∧ p + cmdlineMax ≤ limit file length ∧
        file' = overlay file p cmdline := by
  have hlimit : limit file length ≤ (mapped file).length := by
    rw [length_mapped]
    exact Nat.min_le_left ..
  have hmax : cmdlineMax = 512 := rfl
  unfold patch
  constructor
  · intro h
    obtain ⟨found, hscan, h⟩ := Option.bind_eq_some_iff.mp h
    cases found with
    | none => cases h
    | some p =>
      obtain ⟨hfirst, -⟩ := (scan_first_iff ..).mp hscan
      obtain ⟨mem, hmem, h⟩ := Option.bind_eq_some_iff.mp h
      obtain ⟨mem', hmem', h⟩ := Option.bind_eq_some_iff.mp h
      -- both stores stay in the mapping, or the second is not reached
      have hboth := put_put (p := p) hlimit hcmdline
      rw [hmem, Option.bind_some, hmem'] at hboth
      by_cases hfits : p + cmdlineMax ≤ limit file length
      · rw [if_pos hfits] at hboth
        obtain rfl := Option.some.inj hboth
        refine ⟨p, hfirst, hfits, ?_⟩
        rw [← take_overlay hcmdline hfirst.isMarker.inside]
        exact (Option.some.inj (Option.some.inj h)).symm
      · rw [if_neg hfits] at hboth
        cases hboth
  · rintro ⟨p, hfirst, hfits, rfl⟩
    have hscan := (scan_first_iff file (limit file length) searchSpace p).mpr ⟨hfirst, by omega⟩
    have hboth := put_put (p := p) hlimit hcmdline
    rw [if_pos hfits] at hboth
    obtain ⟨mem, hmem, hmem'⟩ := Option.bind_eq_some_iff.mp hboth
    rw [hscan, Option.bind_eq_bind, Option.bind_some]
    dsimp only
    rw [hmem, Option.bind_eq_bind, Option.bind_some, hmem', Option.bind_some,
      take_overlay hcmdline hfirst.isMarker.inside]

/-- **No marker is found** if and only if there is none and the pages reach as far as the scan. -/
theorem patch_missing_iff :
    patch searchSpace length cmdline file = some none ↔
      ∀ p < searchSpace, 4 ∣ p → p + 8 ≤ limit file length ∧ ¬ MarkerAt file p := by
  -- nothing is stored, so the outcome is that of the scan
  have hscan : patch searchSpace length cmdline file = some none ↔
      scan (mapped file) (limit file length) 0 ((searchSpace + 3) / 4) = some none := by
    unfold patch
    constructor
    · intro h
      obtain ⟨found, hscan, h⟩ := Option.bind_eq_some_iff.mp h
      cases found with
      | none => exact hscan
      | some p =>
        obtain ⟨mem, -, h⟩ := Option.bind_eq_some_iff.mp h
        obtain ⟨mem', -, h⟩ := Option.bind_eq_some_iff.mp h
        cases h
    · intro h
      rw [h]
      rfl
  rw [hscan, scan_missing_iff]
  constructor
  · rintro h p hp ⟨k, rfl⟩
    obtain ⟨hfits, hne⟩ := h k (by omega)
    rw [Nat.zero_add] at hfits hne
    exact ⟨hfits, fun hmarker => hne ((markerAt_mapped file _).mpr hmarker).2⟩
  · intro h k hk
    obtain ⟨hfits, hnone⟩ := h (4 * k) (by omega) ⟨k, rfl⟩
    rw [Nat.zero_add]
    exact ⟨hfits, fun hmarker => hnone ((markerAt_mapped file _).mp ⟨⟨k, rfl⟩, hmarker⟩)⟩

end Outcomes

/-! ## A patched file

  The file is as long as before, differs from it in the field alone, and its first marker is where
  it was; so it can be patched again, and the command line in it is read as a C string. -/

section Patched

variable {file cmdline : Bytes} {p : Nat}

/-- The file keeps its length. -/
theorem length_overlay (hcmdline : cmdline.length ≤ 503) (hp : p + 8 ≤ file.length) :
    (overlay file p cmdline).length = file.length := by
  have hfield := length_field hcmdline
  have hmax : cmdlineMax = 512 := rfl
  rw [overlay, List.length_take, List.length_append, List.length_append, List.length_take,
    List.length_drop, hfield]
  omega

/-- Up to the end of the marker nothing is different. -/
theorem take_overlay_before (cmdline : Bytes) (hp : p + 8 ≤ file.length) :
    (overlay file p cmdline).take (p + 8) = file.take (p + 8) := by
  rw [overlay, List.take_take, Nat.min_eq_left hp, List.take_append_of_le_length (by
    rw [List.length_take]
    omega), List.take_take, Nat.min_self]

/-- Behind the field nothing is different. -/
theorem drop_overlay_behind (hcmdline : cmdline.length ≤ 503) (hp : p + 8 ≤ file.length) :
    (overlay file p cmdline).drop (p + cmdlineMax) = file.drop (p + cmdlineMax) := by
  have hfield := length_field hcmdline
  have hmax : cmdlineMax = 512 := rfl
  have hhead : (file.take (p + 8) ++ field cmdline).length = p + cmdlineMax := by
    rw [List.length_append, List.length_take, hfield]
    omega
  rw [overlay, List.drop_take, ← List.append_assoc, List.drop_left' hhead,
    List.take_of_length_le (by rw [List.length_drop])]

/-- The field, as far as the file goes. -/
theorem drop_overlay_field (cmdline : Bytes) (hp : p + 8 ≤ file.length) :
    (overlay file p cmdline).drop (p + 8) =
      (field cmdline ++ file.drop (p + cmdlineMax)).take (file.length - (p + 8)) := by
  have hhead : (file.take (p + 8)).length = p + 8 := by
    rw [List.length_take]
    omega
  rw [overlay, List.drop_take, List.drop_left' hhead]

/-- A second command line at the same place replaces the first one. -/
theorem overlay_overlay (hcmdline : cmdline.length ≤ 503) (other : Bytes)
    (hp : p + 8 ≤ file.length) :
    overlay (overlay file p cmdline) p other = overlay file p other := by
  rw [overlay, take_overlay_before cmdline hp, drop_overlay_behind hcmdline hp,
    length_overlay hcmdline hp, overlay]

/-- A marker up to the first one is there before and after. -/
theorem markerAt_overlay (cmdline : Bytes) (hp : p + 8 ≤ file.length) {q : Nat} (hq : q ≤ p) :
    MarkerAt (overlay file p cmdline) q ↔ MarkerAt file q := by
  have hwindow : ∀ f : Bytes, (f.drop q).take 8 = ((f.take (p + 8)).drop q).take 8 := by
    intro f
    rw [List.drop_take, List.take_take, Nat.min_eq_left (by omega)]
  rw [MarkerAt, MarkerAt, hwindow, take_overlay_before cmdline hp, ← hwindow]

/-- The first marker stays the first. -/
theorem First.overlay_iff {space space' : Nat} (h : First file space p) (cmdline : Bytes)
    (q : Nat) : First (overlay file p cmdline) space' q ↔ First file space' q := by
  have hp := h.isMarker.inside
  have hsame : ∀ q ≤ p, MarkerAt (overlay file p cmdline) q ↔ MarkerAt file q :=
    fun q hq => markerAt_overlay cmdline hp hq
  constructor
  · rintro ⟨hmarker, hinside, hnone⟩
    have hq : q ≤ p := by
      by_contra hlt
      exact hnone p (by omega) ((hsame p le_rfl).mpr h.isMarker)
    exact ⟨(hsame q hq).mp hmarker, hinside, fun r hr hr' => hnone r hr
      ((hsame r (by omega)).mpr hr')⟩
  · rintro ⟨hmarker, hinside, hnone⟩
    have hq : q ≤ p := by
      by_contra hlt
      exact hnone p (by omega) h.isMarker
    exact ⟨(hsame q hq).mpr hmarker, hinside, fun r hr hr' => hnone r hr
      ((hsame r (by omega)).mp hr')⟩

/-- There is one first marker, however far the scan looks. -/
theorem First.unique {space space' q : Nat} (h : First file space p) (h' : First file space' q) :
    p = q := by
  rcases Nat.lt_trichotomy p q with hlt | heq | hlt
  · exact absurd h.isMarker (h'.none_before p hlt)
  · exact heq
  · exact absurd h'.isMarker (h.none_before q hlt)

/-- **The kernel reads the command line**, as far as the file holds it. -/
theorem cstring_overlay (hzero : (0 : UInt8) ∉ cmdline) (hcmdline : cmdline.length ≤ 503)
    (hp : p + 8 ≤ file.length) :
    ((overlay file p cmdline).drop (p + 8)).takeWhile (· ≠ 0) =
      cmdline.take (file.length - (p + 8)) := by
  have hmax : cmdlineMax = 512 := rfl
  have hfield : field cmdline = cmdline ++ 0 :: List.replicate (503 - cmdline.length) 0 := by
    rw [field, ← List.replicate_succ, hmax,
      show 503 - cmdline.length + 1 = 512 - 8 - cmdline.length by omega]
  have hword : ∀ b ∈ cmdline, (decide (b ≠ 0)) = true := by
    intro b hb
    exact decide_eq_true fun h => hzero (h ▸ hb)
  rw [drop_overlay_field cmdline hp, hfield, List.append_assoc]
  generalize file.length - (p + 8) = n
  by_cases hle : n ≤ cmdline.length
  · rw [List.take_append_of_le_length hle, List.takeWhile_eq_self_iff]
    exact fun b hb => hword b (List.mem_of_mem_take hb)
  · rw [List.take_append, List.take_of_length_le (by omega), List.cons_append]
    obtain ⟨k, hk⟩ : ∃ k, n - cmdline.length = k + 1 := ⟨n - cmdline.length - 1, by omega⟩
    rw [hk, List.take_succ_cons, List.takeWhile_append_of_pos hword,
      List.takeWhile_cons_of_neg (by simp), List.append_nil]

end Patched

/-! ## The program

  Of the arguments the third is optional and is how far the scan goes, as `atoi` reads it. -/

/-- The files by their paths. -/
abbrev Disk := Bytes → Option Bytes

/-- `main` behind its arguments: the status and the files, or a signal.  A mapping of no bytes is
    an error. -/
def patchFile (disk : Disk) (path cmdline : Bytes) (searchSpace : UInt32) : Option (Int × Disk) :=
  if cmdlineMax < cmdline.length + 9 then some (-1, disk)
  else match disk path with
    | none => some (-1, disk)
    | some file =>
      if searchSpace + 512 = 0 then some (-1, disk)
      else (patch searchSpace.toNat (searchSpace + 512).toNat cmdline file).map fun
        | none => (-1, disk)
        | some file => (0, Function.update disk path (some file))

/-- `main`, of the arguments behind `argv[0]` -/
def main (disk : Disk) (args : List Bytes) : Option (Int × Disk) :=
  match args with
  | [path, cmdline] => patchFile disk path cmdline (16 * 1024)
  | [path, cmdline, size] => patchFile disk path cmdline (UInt32.ofInt (strtol10 size))
  | _ => some (-1, disk)

/-- A file and the place of the first marker, with pages up to the end of the field. -/
structure Patchable (file : Bytes) (searchSpace : UInt32) (p : Nat) : Prop where
  first : First file searchSpace.toNat p
  fits : p + cmdlineMax ≤ limit file (searchSpace + 512).toNat

/-- Status 0 means that the image was patched, and says how. -/
theorem patchFile_zero_iff {disk disk' : Disk} {path cmdline : Bytes} {searchSpace : UInt32} :
    patchFile disk path cmdline searchSpace = some (0, disk') ↔ cmdline.length ≤ 503 ∧
      ∃ file p, disk path = some file ∧ Patchable file searchSpace p ∧
        disk' = Function.update disk path (some (overlay file p cmdline)) := by
  have hmax : cmdlineMax = 512 := rfl
  -- all other ends of the function return -1
  have hfail : ∀ d : Disk, ¬ some ((-1 : Int), d) = some (0, disk') := by
    intro d h
    exact absurd (Prod.mk.inj (Option.some.inj h)).1 (by decide)
  unfold patchFile
  by_cases hlong : cmdlineMax < cmdline.length + 9
  · rw [if_pos hlong]
    exact iff_of_false (hfail disk) fun h => absurd h.1 (by omega)
  · rw [if_neg hlong]
    cases hfile : disk path with
    | none =>
      refine iff_of_false (hfail disk) ?_
      rintro ⟨-, file, p, hsome, -⟩
      cases hsome
    | some file =>
      dsimp only
      by_cases hempty : searchSpace + 512 = 0
      · -- a length of zero, where 512 wraps around: `mmap` refuses it
        rw [if_pos hempty]
        refine iff_of_false (hfail disk) ?_
        rintro ⟨-, file, p, -, hpatchable, -⟩
        have hfits := hpatchable.fits
        rw [hempty] at hfits
        have hnone : limit file (0 : UInt32).toNat = 0 := Nat.min_zero _
        omega
      · rw [if_neg hempty, Option.map_eq_some_iff]
        constructor
        · rintro ⟨found, hpatch, hexit⟩
          cases found with
          | none => exact absurd (congrArg some hexit) (hfail disk)
          | some file' =>
            obtain ⟨p, hfirst, hfits, rfl⟩ := (patch_found_iff (by omega)).mp hpatch
            exact ⟨by omega, file, p, rfl, ⟨hfirst, hfits⟩, (Prod.mk.inj hexit).2.symm⟩
        · rintro ⟨hcmdline, _, p, hsome, ⟨hfirst, hfits⟩, rfl⟩
          obtain rfl := Option.some.inj hsome
          exact ⟨_, (patch_found_iff hcmdline).mpr ⟨p, hfirst, hfits, rfl⟩, rfl⟩

/-- The size that a command line searches. -/
def spaceOf : Option Bytes → UInt32
  | none => 16 * 1024
  | some size => UInt32.ofInt (strtol10 size)

/-- The third argument is optional, and only sets how far to look. -/
theorem main_spaceOf (disk : Disk) (path cmdline : Bytes) (size : Option Bytes) :
    main disk (path :: cmdline :: size.toList) = patchFile disk path cmdline (spaceOf size) := by
  cases size with
  | none => rfl
  | some size => rfl

/-- **When the tool ends with 0, and what it leaves**: the first marker is in the space, and the
    pages reach to the end of the field behind it. -/
theorem main_zero_iff (disk disk' : Disk) (args : List Bytes) :
    main disk args = some (0, disk') ↔ ∃ path cmdline size file p,
      args = path :: cmdline :: Option.toList size ∧ cmdline.length ≤ 503 ∧
      disk path = some file ∧ Patchable file (spaceOf size) p ∧
      disk' = Function.update disk path (some (overlay file p cmdline)) := by
  constructor
  · intro h
    have hargs : ∃ path cmdline size, args = path :: cmdline :: Option.toList size := by
      match args with
      | [path, cmdline] => exact ⟨path, cmdline, none, rfl⟩
      | [path, cmdline, size] => exact ⟨path, cmdline, some size, rfl⟩
      | [] => exact absurd (Prod.mk.inj (Option.some.inj h)).1 (by decide)
      | [_] => exact absurd (Prod.mk.inj (Option.some.inj h)).1 (by decide)
      | _ :: _ :: _ :: _ :: _ => exact absurd (Prod.mk.inj (Option.some.inj h)).1 (by decide)
    obtain ⟨path, cmdline, size, rfl⟩ := hargs
    rw [main_spaceOf, patchFile_zero_iff] at h
    obtain ⟨hcmdline, file, p, hfile, hpatchable, hdisk⟩ := h
    exact ⟨path, cmdline, size, file, p, rfl, hcmdline, hfile, hpatchable, hdisk⟩
  · rintro ⟨path, cmdline, size, file, p, rfl, hcmdline, hfile, hpatchable, hdisk⟩
    rw [main_spaceOf, patchFile_zero_iff]
    exact ⟨hcmdline, file, p, hfile, hpatchable, hdisk⟩

/-! ## One run after another -/

/-- What can be mapped depends on the length of the file alone. -/
theorem limit_overlay {file cmdline : Bytes} {p : Nat} (hcmdline : cmdline.length ≤ 503)
    (hp : p + 8 ≤ file.length) (length : Nat) :
    limit (overlay file p cmdline) length = limit file length := by
  rw [limit, length_overlay hcmdline hp, limit]

/-- A patch makes no difference to the next one of the same file. -/
theorem patchFile_again {disk disk₁ disk' : Disk} {path cmdline cmdline' : Bytes}
    {space space' : UInt32} (hfirst : patchFile disk path cmdline space = some (0, disk₁))
    (hsecond : patchFile disk₁ path cmdline' space' = some (0, disk')) :
    patchFile disk path cmdline' space' = some (0, disk') := by
  rw [patchFile_zero_iff] at hfirst hsecond ⊢
  obtain ⟨hcmdline, file, p, hfile, hpatchable, rfl⟩ := hfirst
  obtain ⟨hcmdline', file₁, q, hfile₁, ⟨hq, hfits⟩, rfl⟩ := hsecond
  have hp := hpatchable.first.isMarker.inside
  rw [Function.update_self] at hfile₁
  obtain rfl := Option.some.inj hfile₁
  rw [hpatchable.first.overlay_iff cmdline] at hq
  obtain rfl := hpatchable.first.unique hq
  rw [limit_overlay hcmdline hp] at hfits
  refine ⟨hcmdline', file, p, hfile, ⟨hq, hfits⟩, ?_⟩
  rw [Function.update_idem, overlay_overlay hcmdline cmdline' hp]

/-- One run behind the other over one file, as long as each ends with 0. -/
def runs (disk : Disk) (path : Bytes) : List (Bytes × Option Bytes) → Option Disk
  | [] => some disk
  | (cmdline, size) :: rest =>
    match main disk (path :: cmdline :: size.toList) with
    | some (0, disk) => runs disk path rest
    | _ => none

/-- The first run has to succeed, and the others go on with what it left. -/
theorem runs_cons {disk disk' : Disk} {path cmdline : Bytes} {size : Option Bytes}
    {rest : List (Bytes × Option Bytes)} :
    runs disk path ((cmdline, size) :: rest) = some disk' ↔
      ∃ disk₁, patchFile disk path cmdline (spaceOf size) = some (0, disk₁) ∧
        runs disk₁ path rest = some disk' := by
  rw [runs, main_spaceOf]
  constructor
  · intro h
    split at h
    · rename_i disk₁ hmain
      exact ⟨disk₁, hmain, h⟩
    · cases h
  · rintro ⟨disk₁, hmain, h⟩
    rw [hmain]
    exact h

/-- **Of any number of runs the last alone counts**, and the kernel reads its command line. -/
theorem runs_last {path cmdline : Bytes} {size : Option Bytes} (hzero : (0 : UInt8) ∉ cmdline)
    (before : List (Bytes × Option Bytes)) : ∀ {disk disk' : Disk},
    runs disk path (before ++ [(cmdline, size)]) = some disk' →
      main disk (path :: cmdline :: size.toList) = some (0, disk') ∧
      ∃ file file' p, disk path = some file ∧ disk' path = some file' ∧
        Patchable file (spaceOf size) p ∧ file'.length = file.length ∧
        file'.take (p + 8) = file.take (p + 8) ∧
        file'.drop (p + cmdlineMax) = file.drop (p + cmdlineMax) ∧
        (file'.drop (p + 8)).takeWhile (· ≠ 0) = cmdline.take (file.length - (p + 8)) := by
  -- every later run finds the marker of the first one, and replaces what it wrote
  have hlast : ∀ (before : List (Bytes × Option Bytes)) {disk disk' : Disk},
      runs disk path (before ++ [(cmdline, size)]) = some disk' →
        patchFile disk path cmdline (spaceOf size) = some (0, disk') := by
    intro before
    induction before with
    | nil =>
      intro disk disk' h
      obtain ⟨disk₁, hpatch, hend⟩ := runs_cons.mp h
      obtain rfl := Option.some.inj hend
      exact hpatch
    | cons first before ih =>
      intro disk disk' h
      obtain ⟨disk₁, hpatch, hrest⟩ := runs_cons.mp h
      exact patchFile_again hpatch (ih hrest)
  intro disk disk' h
  have hpatch := hlast before h
  refine ⟨(main_spaceOf ..).trans hpatch, ?_⟩
  obtain ⟨hcmdline, file, p, hfile, hpatchable, rfl⟩ := patchFile_zero_iff.mp hpatch
  have hp := hpatchable.first.isMarker.inside
  exact ⟨file, _, p, hfile, Function.update_self .., hpatchable, length_overlay hcmdline hp,
    take_overlay_before cmdline hp, drop_overlay_behind hcmdline hp,
    cstring_overlay hzero hcmdline hp⟩

/-- A file with its marker in front. -/
def sampleFile : Bytes := marker ++ [1, 2, 3]

/-- One file. -/
def sampleDisk : Disk := fun path => if path = [0x76] then some sampleFile else none

theorem sampleFile_patchable : Patchable sampleFile (spaceOf none) 0 where
  first := ⟨⟨Nat.dvd_zero 4, rfl⟩, by decide, fun q hq => absurd hq (Nat.not_lt_zero q)⟩
  fits := by decide

/-- A file patched twice. -/
theorem runs_last_two : ∃ disk', runs sampleDisk [0x76] ([([0x61], none)] ++ [([0x62], none)]) =
      some disk' ∧ main sampleDisk [[0x76], [0x62]] = some (0, disk') := by
  have hp : 0 + 8 ≤ sampleFile.length := by decide
  have hone : ([0x61] : Bytes).length ≤ 503 := by decide
  have hfirst := patchFile_zero_iff.mpr
    ⟨hone, sampleFile, 0, show sampleDisk [0x76] = _ from rfl, sampleFile_patchable, rfl⟩
  have hagain : Patchable (overlay sampleFile 0 [0x61]) (spaceOf none) 0 := by
    refine ⟨(sampleFile_patchable.first.overlay_iff [0x61] 0).mpr sampleFile_patchable.first, ?_⟩
    rw [limit_overlay hone hp]
    exact sampleFile_patchable.fits
  have hsecond := patchFile_zero_iff.mpr ⟨show ([0x62] : Bytes).length ≤ 503 by decide, _, 0,
    Function.update_self [0x76] (some (overlay sampleFile 0 [0x61])) sampleDisk, hagain, rfl⟩
  have hruns : runs sampleDisk [0x76] ([([0x61], none)] ++ [([0x62], none)]) = some _ :=
    runs_cons.mpr ⟨_, hfirst, runs_cons.mpr ⟨_, hsecond, rfl⟩⟩
  exact ⟨_, hruns, (runs_last (by decide) [([0x61], none)] hruns).1⟩

end Safewrt.PatchCmdline
