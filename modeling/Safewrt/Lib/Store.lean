/-
  COPIES INTO A BUFFER.

  1. `store buf o data` — `memcpy(buf + o, data, ..)`: it answers only where the copy stays inside.
     A copy into one part of a buffer leaves the other part alone (`store_left`, `store_right`).

  2. `storeAll` — one copy after the other.  Copies that follow each other leave their data in a
     row (`storeAll_row`); a byte of the result is that of the last copy over it, or of the
     buffer (`getElem?_storeAll`).

  3. `Apart` — every copy ends before the next one begins.  Then all of them stay
     (`getElem?_storeAll_of_apart`).

  The elements are of any type.  Where a program copies into one buffer in a loop, the loop is a
  list of copies, and what the buffer holds afterwards follows from that list without a second
  induction.
-/
import Mathlib.Data.List.Basic

namespace Safewrt.Lib

variable {α : Type}

/-! ## One copy -/

/-- `buf` with `data` from offset `o` on. -/
def store (buf : List α) (o : Nat) (data : List α) : Option (List α) :=
  if o + data.length ≤ buf.length then
    some (buf.take o ++ data ++ buf.drop (o + data.length))
  else none

/-- A copy over a part of its own length replaces it. -/
theorem store_exact (a b c : List α) {data : List α} (h : data.length = b.length) :
    store (a ++ (b ++ c)) a.length data = some (a ++ (data ++ c)) := by
  have hfits : a.length + data.length ≤ (a ++ (b ++ c)).length := by
    rw [List.length_append, List.length_append]
    omega
  have hdrop : (a ++ (b ++ c)).drop (a.length + data.length) = c := by
    rw [← List.drop_drop, List.drop_left, h, List.drop_left]
  rw [store, if_pos hfits, hdrop, List.take_left, List.append_assoc]

/-- A copy over the end. -/
theorem store_end (a b : List α) {data : List α} (h : data.length = b.length) :
    store (a ++ b) a.length data = some (a ++ data) := by
  have hexact := store_exact a b [] h
  rw [List.append_nil, List.append_nil] at hexact
  exact hexact

/-- A copy is made exactly where it stays inside the buffer. -/
theorem store_isSome_iff (buf : List α) (o : Nat) (data : List α) :
    (store buf o data).isSome ↔ o + data.length ≤ buf.length := by
  unfold store
  split
  · rename_i h
    exact iff_of_true rfl h
  · rename_i h
    exact iff_of_false (by simp) h

/-- What the buffer holds then: its start, the data, and its end from behind the data. -/
theorem store_eq {buf buf' : List α} {o : Nat} {data : List α}
    (h : store buf o data = some buf') :
    o + data.length ≤ buf.length ∧ buf' = buf.take o ++ data ++ buf.drop (o + data.length) := by
  unfold store at h
  split at h
  · rename_i hfits
    exact ⟨hfits, (Option.some.inj h).symm⟩
  · exact absurd h (by simp)

/-- A copy does not change how long the buffer is. -/
theorem length_store {buf buf' : List α} {o : Nat} {data : List α}
    (h : store buf o data = some buf') : buf'.length = buf.length := by
  obtain ⟨hfits, rfl⟩ := store_eq h
  rw [List.length_append, List.length_append, List.length_take, List.length_drop]
  omega

/-- What stands before a copy. -/
theorem take_store {buf buf' : List α} {o : Nat} {data : List α}
    (h : store buf o data = some buf') {k : Nat} (hk : k ≤ o) : buf'.take k = buf.take k := by
  obtain ⟨hfits, rfl⟩ := store_eq h
  have htake : (buf.take o).length = o := by
    rw [List.length_take]
    omega
  rw [List.append_assoc, List.take_append_of_le_length (by omega), List.take_take,
    Nat.min_eq_left hk]

/-- What stands behind a copy. -/
theorem drop_store {buf buf' : List α} {o : Nat} {data : List α}
    (h : store buf o data = some buf') {k : Nat} (hk : o + data.length ≤ k) :
    buf'.drop k = buf.drop k := by
  obtain ⟨hfits, rfl⟩ := store_eq h
  have hlen : (buf.take o ++ data).length = o + data.length := by
    rw [List.length_append, List.length_take]
    omega
  rw [List.drop_append, hlen, List.drop_eq_nil_of_le (by omega), List.nil_append, List.drop_drop]
  congr 1
  omega

/-- A copy into the first part. -/
theorem store_left {a : List α} (b : List α) {o : Nat} {data : List α}
    (h : o + data.length ≤ a.length) :
    store (a ++ b) o data = (store a o data).map (· ++ b) := by
  have hfits : o + data.length ≤ (a ++ b).length := by
    rw [List.length_append]
    omega
  rw [store, store, if_pos h, if_pos hfits, List.take_append_of_le_length (by omega),
    List.drop_append_of_le_length h, Option.map_some, List.append_assoc _ _ b]

/-- A copy into the second part. -/
theorem store_right (a b : List α) (o : Nat) (data : List α) :
    store (a ++ b) (a.length + o) data = (store b o data).map (a ++ ·) := by
  unfold store
  by_cases h : o + data.length ≤ b.length
  · have hfits : a.length + o + data.length ≤ (a ++ b).length := by
      rw [List.length_append]
      omega
    rw [if_pos h, if_pos hfits, List.take_append, List.take_of_length_le (by omega),
      Nat.add_sub_cancel_left, Nat.add_assoc, List.drop_append, List.drop_eq_nil_of_le (by omega),
      Nat.add_sub_cancel_left, List.nil_append, Option.map_some, List.append_assoc,
      List.append_assoc, List.append_assoc]
  · have hfits : ¬ a.length + o + data.length ≤ (a ++ b).length := by
      rw [List.length_append]
      omega
    rw [if_neg h, if_neg hfits, Option.map_none]

/-- A byte after a copy. -/
theorem getElem?_store {buf buf' : List α} {o : Nat} {data : List α}
    (h : store buf o data = some buf') (i : Nat) :
    buf'[i]? = if o ≤ i ∧ i < o + data.length then data[i - o]? else buf[i]? := by
  obtain ⟨hfits, rfl⟩ := store_eq h
  have htake : (buf.take o).length = o := by
    rw [List.length_take]
    omega
  by_cases hlow : i < o
  · rw [if_neg (by omega), List.append_assoc, List.getElem?_append_left (by omega),
      List.getElem?_take_of_lt hlow]
  by_cases hmid : i < o + data.length
  · rw [if_pos ⟨by omega, hmid⟩, List.append_assoc, List.getElem?_append_right (by omega), htake,
      List.getElem?_append_left (by omega)]
  · rw [if_neg (by omega), List.getElem?_append_right (by rw [List.length_append]; omega),
      List.getElem?_drop, List.length_append, htake]
    congr 1
    omega

/-! ## Several copies -/

/-- One copy after the other. -/
def storeAll (buf : List α) (copies : List (Nat × List α)) : Option (List α) :=
  copies.foldlM (fun buf copy => store buf copy.1 copy.2) buf

@[simp] theorem storeAll_nil (buf : List α) : storeAll buf [] = some buf := rfl

theorem storeAll_cons (buf : List α) (copy : Nat × List α) (copies : List (Nat × List α)) :
    storeAll buf (copy :: copies) =
      (store buf copy.1 copy.2).bind fun buf => storeAll buf copies := rfl

/-- No number of copies changes how long the buffer is. -/
theorem length_storeAll (copies : List (Nat × List α)) : ∀ {buf buf' : List α},
    storeAll buf copies = some buf' → buf'.length = buf.length := by
  induction copies with
  | nil =>
    intro buf buf' h
    rw [Option.some.inj h]
  | cons copy copies ih =>
    intro buf buf' h
    obtain ⟨mid, hmid, hrest⟩ := Option.bind_eq_some_iff.mp h
    rw [ih hrest, length_store hmid]

/-- The copies answer if every one of them stays inside. -/
theorem storeAll_isSome_iff (copies : List (Nat × List α)) : ∀ buf : List α,
    (storeAll buf copies).isSome ↔ ∀ copy ∈ copies, copy.1 + copy.2.length ≤ buf.length := by
  induction copies with
  | nil => intro buf; simp
  | cons copy copies ih =>
    intro buf
    rw [storeAll_cons, List.forall_mem_cons, ← store_isSome_iff]
    cases hstore : store buf copy.1 copy.2 with
    | none => simp
    | some mid =>
      rw [Option.bind_some, ih mid, length_store hstore]
      simp

/-- `data`, piece by piece from offset `o` on. -/
def row (o : Nat) : List (List α) → List (Nat × List α)
  | [] => []
  | d :: ds => (o, d) :: row (o + d.length) ds

/-- **Copies in a row leave their data in a row.** -/
theorem storeAll_row (ds : List (List α)) : ∀ a b c : List α, b.length = ds.flatten.length →
    storeAll (a ++ (b ++ c)) (row a.length ds) = some (a ++ (ds.flatten ++ c)) := by
  induction ds with
  | nil =>
    intro a b c h
    rw [List.flatten_nil, List.length_nil, List.length_eq_zero_iff] at h
    rw [h]
    rfl
  | cons d ds ih =>
    intro a b c h
    rw [List.flatten_cons, List.length_append] at h
    have hd : d.length = (b.take d.length).length := by
      rw [List.length_take]
      omega
    have hsplit : b = b.take d.length ++ b.drop d.length := (List.take_append_drop ..).symm
    have hfirst : store (a ++ (b ++ c)) a.length d = some (a ++ (d ++ (b.drop d.length ++ c))) := by
      rw [hsplit, List.append_assoc, store_exact _ _ _ hd, ← hsplit]
    have hrest := ih (a ++ d) (b.drop d.length) c (by rw [List.length_drop]; omega)
    rw [List.length_append, List.append_assoc a d] at hrest
    rw [row, storeAll_cons, hfirst, Option.bind_some, hrest, List.flatten_cons,
      List.append_assoc, List.append_assoc]

/-- A buffer that is written from end to end. -/
theorem storeAll_row_all {buf : List α} {ds : List (List α)}
    (h : buf.length = ds.flatten.length) : storeAll buf (row 0 ds) = some ds.flatten := by
  have hrow := storeAll_row ds [] buf [] h
  rw [List.append_nil, List.append_nil] at hrow
  exact hrow

/-! ### Where a byte comes from -/

section Last

variable {β γ : Type} (size : β → Nat)

/-- The last of the copies that lies over offset `i`. -/
def lastOver (copies : List (Nat × β)) (i : Nat) : Option (Nat × β) :=
  copies.reverse.find? fun copy => copy.1 ≤ i ∧ i < copy.1 + size copy.2

/-- A later copy over the byte hides the first one. -/
theorem lastOver_cons (copy : Nat × β) (copies : List (Nat × β)) (i : Nat) :
    lastOver size (copy :: copies) i = (lastOver size copies i).or
      (if copy.1 ≤ i ∧ i < copy.1 + size copy.2 then some copy else none) := by
  rw [lastOver, List.reverse_cons, List.find?_append, ← lastOver]
  congr 1
  by_cases h : copy.1 ≤ i ∧ i < copy.1 + size copy.2
  · rw [if_pos h, List.find?_cons_of_pos (by simpa using h)]
  · rw [if_neg h, List.find?_cons_of_neg (by simpa using h), List.find?_nil]

/-- The last copy over a byte is one of the copies, and is over it. -/
theorem lastOver_covers {copies : List (Nat × β)} {copy : Nat × β} {i : Nat}
    (h : lastOver size copies i = some copy) :
    copy ∈ copies ∧ copy.1 ≤ i ∧ i < copy.1 + size copy.2 := by
  have hcovers := List.find?_some h
  rw [decide_eq_true_eq] at hcovers
  exact ⟨List.mem_reverse.mp (List.mem_of_find?_eq_some h), hcovers⟩

/-- It is the same one if only the sizes are looked at. -/
theorem lastOver_map (g : γ → β) (copies : List (Nat × γ)) (i : Nat) :
    lastOver size (copies.map fun copy => (copy.1, g copy.2)) i =
      (lastOver (fun c => size (g c)) copies i).map fun copy => (copy.1, g copy.2) := by
  rw [lastOver, ← List.map_reverse, List.find?_map]
  rfl

/-- **A byte of the result** is that of the last copy over it, or of the buffer. -/
theorem getElem?_storeAll (data : β → List α) {i : Nat} (copies : List (Nat × β)) :
    ∀ {buf buf' : List α}, storeAll buf (copies.map fun copy => (copy.1, data copy.2)) = some buf' →
      buf'[i]? = match lastOver (fun b => (data b).length) copies i with
        | some copy => (data copy.2)[i - copy.1]?
        | none => buf[i]? := by
  induction copies with
  | nil =>
    intro buf buf' h
    rw [Option.some.inj h]
    rfl
  | cons copy copies ih =>
    intro buf buf' h
    obtain ⟨mid, hmid, hrest⟩ := Option.bind_eq_some_iff.mp h
    rw [ih hrest, lastOver_cons, getElem?_store hmid]
    cases lastOver (fun b => (data b).length) copies i with
    | some last => rfl
    | none =>
      rw [Option.none_or]
      by_cases hcovers : copy.1 ≤ i ∧ i < copy.1 + (data copy.2).length
      · rw [if_pos hcovers, if_pos hcovers]
      · rw [if_neg hcovers, if_neg hcovers]

/-- A byte that no copy covers is still the buffer's. -/
theorem getElem?_storeAll_uncovered (data : β → List α) {copies : List (Nat × β)} {i : Nat}
    {buf buf' : List α}
    (h : storeAll buf (copies.map fun copy => (copy.1, data copy.2)) = some buf')
    (hcovers : ∀ copy ∈ copies, ¬ (copy.1 ≤ i ∧ i < copy.1 + (data copy.2).length)) :
    buf'[i]? = buf[i]? := by
  have hbyte := getElem?_storeAll (i := i) data copies h
  cases hover : lastOver (fun b => (data b).length) copies i with
  | none =>
    rw [hover] at hbyte
    exact hbyte
  | some copy =>
    obtain ⟨hmem, hcopy⟩ := lastOver_covers _ hover
    exact absurd hcopy (hcovers copy hmem)

/-! ### Copies that do not overlap -/

/-- Every copy ends before the next one begins. -/
def Apart (copies : List (Nat × β)) : Prop :=
  copies.Pairwise fun c d => c.1 + size c.2 ≤ d.1

/-- At most one of them lies over an offset. -/
theorem lastOver_of_apart {copies : List (Nat × β)} {copy : Nat × β} {i : Nat}
    (h : Apart size copies) (hmem : copy ∈ copies)
    (hcopy : copy.1 ≤ i ∧ i < copy.1 + size copy.2) : lastOver size copies i = some copy := by
  induction copies with
  | nil => exact absurd hmem (by simp)
  | cons c copies ih =>
    obtain ⟨hfirst, hrest⟩ := List.pairwise_cons.mp h
    rw [lastOver_cons]
    rcases List.mem_cons.mp hmem with rfl | hmem
    · cases hover : lastOver size copies i with
      | none => rw [Option.none_or, if_pos hcopy]
      | some d =>
        -- a later copy begins behind this one
        obtain ⟨hd, hcovers⟩ := lastOver_covers size hover
        have hle := hfirst d hd
        omega
    · rw [ih hrest hmem, Option.some_or]

/-- **Copies apart stay**, all of them. -/
theorem getElem?_storeAll_of_apart (data : β → List α) {copies : List (Nat × β)}
    {buf buf' : List α}
    (h : storeAll buf (copies.map fun copy => (copy.1, data copy.2)) = some buf')
    (hapart : Apart (fun b => (data b).length) copies) {copy : Nat × β} (hmem : copy ∈ copies)
    {j : Nat} (hj : j < (data copy.2).length) : buf'[copy.1 + j]? = (data copy.2)[j]? := by
  have hover := lastOver_of_apart (fun b => (data b).length) hapart hmem
    ⟨Nat.le_add_right _ j, Nat.add_lt_add_left hj _⟩
  rw [getElem?_storeAll data copies h, hover]
  dsimp only
  rw [Nat.add_sub_cancel_left]

end Last

end Safewrt.Lib
