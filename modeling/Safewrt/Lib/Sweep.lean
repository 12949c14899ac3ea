/-
  SWEEPING A SHARED LIST.

  A sweeper takes a listing of the items, then goes through its listing: an item that is due is
  deleted from the list by value, the first that is equal; a delete that finds none stops it.

  1. **Alone** (`sweepAll`) the sweeper never stops early and leaves exactly the items that are
     not due, duplicates or not (`sweepAll_listing`).

  2. **Two sweepers**, interleaved in any way with each other and the clock (`World.step`).
     Nothing that is not due is deleted (`notDue_kept`).  What was due when the second took its
     listing is gone once both have ended, if one of them came to its end
     (`due_gone_of_ok`); and one of them does, if no due item occurs twice (`not_both_failed`).

  3. **The crux** is the invariant of the second part (`Late`): when the second takes its listing,
     the list is what the first kept, `kept`, and what the first has still to look at, `rest`.
     From then on every deletion is counted against `kept ++ rest`, so a delete of the second that
     finds nothing can only come from `rest` (`Late.second_past_kept`).

  4. A run goes through three phases (`Phase`): nobody has a listing, one of them has (`Early`),
     both have (`Late`).  `Move` says once what a turn can do to the world, and each invariant is
     carried over it by cases.

  Items are compared by equality and nothing else is asked of them; that time only makes more items
  due (`Stays`) is the one assumption on the clock.
-/
import Safewrt.Lib.Run
import Mathlib.Data.List.Count
import Mathlib.Data.List.Infix
import Mathlib.Logic.Function.Basic

namespace Safewrt.Lib

/-! ## One sweeper alone -/

section Alone

variable {α : Type} [DecidableEq α]

/-- Go through `todo`, deleting what is due from `items`; `none` where a delete finds nothing. -/
def sweepAll (due : α → Bool) : List α → List α → Option (List α)
  | [], items => some items
  | x :: todo, items =>
    if due x then
      if x ∈ items then sweepAll due todo (items.erase x) else none
    else sweepAll due todo items

/-- What was kept so far stands before what is still to look at, and is not due. -/
theorem sweepAll_append {due : α → Bool} (todo : List α) :
    ∀ kept : List α, (∀ x ∈ kept, due x = false) →
      sweepAll due todo (kept ++ todo) = some (kept ++ todo.filter fun x => !due x) := by
  induction todo with
  | nil => intro kept _; rfl
  | cons x todo ih =>
    intro kept hkept
    unfold sweepAll
    cases hx : due x with
    -- the first that is equal is this one: nothing that was kept is due
    | true =>
      have hnew : x ∉ kept := fun hmem => by
        rw [hkept x hmem] at hx
        exact absurd hx (by decide)
      rw [if_pos rfl, if_pos (by simp), List.erase_append_right _ hnew, List.erase_cons_head,
        List.filter_cons_of_neg (by simp [hx])]
      exact ih kept hkept
    | false =>
      have hkept' : ∀ y ∈ kept ++ [x], due y = false := by
        intro y hy
        rcases List.mem_append.mp hy with hy | hy
        · exact hkept y hy
        · rw [List.mem_singleton.mp hy]
          exact hx
      have hnext := ih (kept ++ [x]) hkept'
      rw [List.append_assoc, List.append_assoc] at hnext
      rw [if_neg (by decide), List.filter_cons_of_pos (by simp [hx])]
      exact hnext

/-- **A sweep of a listing removes what is due and nothing else**, and does not stop early. -/
theorem sweepAll_listing (due : α → Bool) (items : List α) :
    sweepAll due items items = some (items.filter fun x => !due x) :=
  sweepAll_append items [] nofun

end Alone

/-! ## Two sweepers -/

variable {α : Type}

/-- The two sweepers. -/
inductive Who
  | one
  | two
  deriving Repr, DecidableEq

/-- The one that is not `w`. -/
def Who.other : Who → Who
  | .one => .two
  | .two => .one

@[simp] theorem Who.other_ne (w : Who) : w.other ≠ w := by cases w <;> decide
@[simp] theorem Who.ne_other (w : Who) : w ≠ w.other := by cases w <;> decide

theorem Who.eq_or_other (w v : Who) : v = w ∨ v = w.other := by
  cases w <;> cases v <;> decide

/-- Where a sweeper stands. -/
inductive Point (α : Type)
  | idle
  | looking (todo : List α)
  | deleting (x : α) (todo : List α)
  | ok
  | failed (x : α) (todo : List α)
  deriving Repr, DecidableEq

/-- What the sweeper has still to settle. -/
def Point.rest : Point α → List α
  | .idle => []
  | .looking todo => todo
  | .deleting x todo => x :: todo
  | .ok => []
  | .failed x todo => x :: todo

/-- The sweeper moves no more: it came to the end of its listing, or a delete failed. -/
def Point.ended : Point α → Bool
  | .ok => true
  | .failed _ _ => true
  | _ => false

/-- The list, the clock, the sweepers, and when the last listing was taken. -/
structure World (α : Type) where
  items : List α
  clock : Nat
  point : Who → Point α
  lastListing : Nat

/-- Nobody has started. -/
def World.init (items : List α) (clock : Nat) : World α :=
  ⟨items, clock, fun _ => .idle, clock⟩

/-- Who moves next: the clock, by any amount, or one of the sweepers. -/
inductive Turn
  | tick (n : Nat)
  | move (w : Who)
  deriving Repr, DecidableEq

/-- The sweeper `w` goes to `p`. -/
def World.goto (s : World α) (w : Who) (p : Point α) : World α :=
  { s with point := Function.update s.point w p }

/-- One step: time passes, or a sweeper lists, looks at an item or deletes one. -/
def World.step [DecidableEq α] (due : Nat → α → Bool) (s : World α) : Turn → Option (World α)
  | .tick n => some { s with clock := s.clock + n }
  | .move w =>
    match s.point w with
    | .idle => some { s.goto w (.looking s.items) with lastListing := s.clock }
    | .looking [] => some (s.goto w .ok)
    | .looking (x :: todo) =>
      some (s.goto w (if due s.clock x then .deleting x todo else .looking todo))
    | .deleting x todo =>
      if x ∈ s.items then
        some { s.goto w (.looking todo) with items := s.items.erase x }
      else some (s.goto w (.failed x todo))
    | .ok => none
    | .failed _ _ => none

@[simp] theorem goto_self (s : World α) (w : Who) (p : Point α) : (s.goto w p).point w = p :=
  Function.update_self ..

theorem goto_of_ne (s : World α) {w v : Who} (p : Point α) (h : v ≠ w) :
    (s.goto w p).point v = s.point v :=
  Function.update_of_ne h ..

/-- An item stays due. -/
def Stays (due : Nat → α → Bool) : Prop :=
  ∀ t u x, t ≤ u → due t x = true → due u x = true

/-- What is about to be deleted, or could not be, is due; what is not due is all there. -/
structure Kept (due : Nat → α → Bool) (start : List α) (s : World α) : Prop where
  sublist : s.items.Sublist start
  kept : (s.items.filter fun x => !due s.clock x) = start.filter fun x => !due s.clock x
  flagged : ∀ w x todo, s.point w = .deleting x todo ∨ s.point w = .failed x todo →
    due s.clock x = true

/-- At the start nothing is deleted. -/
theorem kept_init (due : Nat → α → Bool) (start : List α) (clock : Nat) :
    Kept due start (.init start clock) := by
  refine ⟨List.Sublist.refl _, rfl, ?_⟩
  rintro w x todo (h | h)
  · exact absurd h (by simp [World.init])
  · exact absurd h (by simp [World.init])

/-- A move of `w` to `p` leaves the other sweeper's flag alone. -/
theorem Kept.goto {due : Nat → α → Bool} {start : List α} {s : World α} (h : Kept due start s)
    (w : Who) (p : Point α)
    (hp : ∀ x todo, p = .deleting x todo ∨ p = .failed x todo → due s.clock x = true) :
    ∀ v x todo, (s.goto w p).point v = .deleting x todo ∨ (s.goto w p).point v = .failed x todo →
      due s.clock x = true := by
  intro v x todo hv
  by_cases hvw : v = w
  · rw [hvw, goto_self] at hv
    exact hp x todo hv
  · rw [goto_of_ne s p hvw] at hv
    exact h.flagged v x todo hv

/-- Before the second listing: what the first sweeper passed over, then what it has still to
    settle. -/
structure Early (w : Who) (s : World α) : Prop where
  time : s.lastListing ≤ s.clock
  waiting : s.point w.other = .idle
  listed : s.point w ≠ .idle
  sound : ∀ x todo, s.point w ≠ .failed x todo
  items : ∃ kept, s.items = kept ++ (s.point w).rest

/-- The first sweeper moves on without deleting. -/
theorem Early.goto {w : Who} {s : World α} (h : Early w s) {p : Point α} (hidle : p ≠ .idle)
    (hsound : ∀ x todo, p ≠ .failed x todo) (hitems : ∃ kept, s.items = kept ++ p.rest) :
    Early w (s.goto w p) := by
  refine ⟨h.time, ?_, ?_, ?_, ?_⟩
  · rw [goto_of_ne s p w.other_ne]
    exact h.waiting
  · rw [goto_self]
    exact hidle
  · rw [goto_self]
    exact hsound
  · rw [goto_self]
    exact hitems

/-- Only the first sweeper has begun. -/
theorem Early.mover {w v : Who} {s : World α} (h : Early w s) (hv : s.point v ≠ .idle) : v = w := by
  rcases w.eq_or_other v with rfl | rfl
  · rfl
  · exact absurd h.waiting hv

/-- Who has ended has begun. -/
theorem not_idle_of_ended {p : Point α} (h : p.ended = true) : p ≠ .idle := by
  rintro rfl
  exact absurd h (by simp [Point.ended])

/-- A sweeper ends in one of two ways. -/
theorem ended_cases {p : Point α} (h : p.ended = true) :
    p = .ok ∨ ∃ x todo, p = .failed x todo := by
  cases p with
  | idle => exact absurd h (by simp [Point.ended])
  | looking todo => exact absurd h (by simp [Point.ended])
  | deleting x todo => exact absurd h (by simp [Point.ended])
  | ok => exact Or.inl rfl
  | failed x todo => exact Or.inr ⟨x, todo, rfl⟩

/-- Two different splits of one list: one element stands before the other. -/
theorem mem_of_two_splits {l a b : List α} {x y : α} {c d : List α} (hx : l = a ++ x :: c)
    (hy : l = b ++ y :: d) (hya : y ∈ a) (hxb : x ∈ b) : x ∈ a ∨ y ∈ b := by
  have ha : a <+: l := ⟨x :: c, hx.symm⟩
  have hb : b <+: l := ⟨y :: d, hy.symm⟩
  rcases Nat.le_total a.length b.length with hle | hle
  · exact Or.inr ((List.prefix_of_prefix_length_le ha hb hle).subset hya)
  · exact Or.inl ((List.prefix_of_prefix_length_le hb ha hle).subset hxb)

variable [DecidableEq α]

/-- What a step can do. -/
inductive Move (due : Nat → α → Bool) (s : World α) : World α → Prop
  | tick (n : Nat) : Move due s { s with clock := s.clock + n }
  | list (w : Who) (hp : s.point w = .idle) :
    Move due s { s.goto w (.looking s.items) with lastListing := s.clock }
  | finish (w : Who) (hp : s.point w = .looking []) : Move due s (s.goto w .ok)
  | flag (w : Who) (x : α) (todo : List α) (hp : s.point w = .looking (x :: todo))
      (hdue : due s.clock x = true) : Move due s (s.goto w (.deleting x todo))
  | pass (w : Who) (x : α) (todo : List α) (hp : s.point w = .looking (x :: todo))
      (hdue : due s.clock x = false) : Move due s (s.goto w (.looking todo))
  | delete (w : Who) (x : α) (todo : List α) (hp : s.point w = .deleting x todo)
      (hx : x ∈ s.items) :
    Move due s { s.goto w (.looking todo) with items := s.items.erase x }
  | fail (w : Who) (x : α) (todo : List α) (hp : s.point w = .deleting x todo)
      (hx : x ∉ s.items) : Move due s (s.goto w (.failed x todo))

/-- A step of the function is a move of the relation. -/
theorem move_of_step {due : Nat → α → Bool} {s u : World α} {t : Turn}
    (h : s.step due t = some u) : Move due s u := by
  cases t with
  | tick n =>
    rw [← Option.some.inj h]
    exact .tick n
  | move w =>
    -- the arms of the step function, in its order
    simp only [World.step] at h
    split at h
    · rename_i hp
      rw [← Option.some.inj h]
      exact .list w hp
    · rename_i hp
      rw [← Option.some.inj h]
      exact .finish w hp
    · rename_i x todo hp
      rw [← Option.some.inj h]
      cases hdue : due s.clock x with
      | true =>
        rw [if_pos rfl]
        exact .flag w x todo hp hdue
      | false =>
        rw [if_neg (by decide)]
        exact .pass w x todo hp hdue
    · rename_i x todo hp
      split at h
      · rename_i hx
        rw [← Option.some.inj h]
        exact .delete w x todo hp hx
      · rename_i hx
        rw [← Option.some.inj h]
        exact .fail w x todo hp hx
    · exact absurd h (by simp)
    · exact absurd h (by simp)

/-- Each move is a step on some turn, so relation and function are one system. -/
theorem step_of_move {due : Nat → α → Bool} {s u : World α} (h : Move due s u) :
    ∃ t, s.step due t = some u := by
  cases h with
  | tick n => exact ⟨.tick n, rfl⟩
  | list w hp => exact ⟨.move w, by simp only [World.step, hp]⟩
  | finish w hp => exact ⟨.move w, by simp only [World.step, hp]⟩
  | flag w x todo hp hdue => exact ⟨.move w, by simp only [World.step, hp, hdue, if_true]⟩
  | pass w x todo hp hdue => exact ⟨.move w, by simp [World.step, hp, hdue]⟩
  | delete w x todo hp hx => exact ⟨.move w, by simp only [World.step, hp, if_pos hx]⟩
  | fail w x todo hp hx => exact ⟨.move w, by simp only [World.step, hp, if_neg hx]⟩

/-! ### Only what is due is deleted

  The invariant `Kept` is about one item at a time: what is about to be deleted is due by the clock,
  and what is not due is as often in the list as at the start. -/

/-- Deleting an item that is due changes nothing for the others. -/
theorem filter_erase {p : α → Bool} {x : α} (hx : p x = false) (l : List α) :
    (l.erase x).filter p = l.filter p := by
  induction l with
  | nil => rfl
  | cons y l ih =>
    by_cases hy : y = x
    · rw [hy, List.erase_cons_head, List.filter_cons_of_neg (by simp [hx])]
    · rw [List.erase_cons_tail (by simpa using hy), List.filter_cons, List.filter_cons, ih]

/-- One move keeps what is not due: the only one that deletes takes something due, and what was due
    when it was looked at is due ever after. -/
theorem kept_move {due : Nat → α → Bool} (hstays : Stays due) {start : List α} {s u : World α}
    (h : Kept due start s) (hu : Move due s u) : Kept due start u := by
  cases hu with
  | tick n =>
    refine ⟨h.sublist, ?_, fun w x todo hp => ?_⟩
    · -- what is not due later is not due now
      have hsplit : ∀ l : List α, (l.filter fun x => !due (s.clock + n) x) =
          (l.filter fun x => !due s.clock x).filter fun x => !due (s.clock + n) x := by
        intro l
        rw [List.filter_filter]
        apply List.filter_congr
        intro x _
        cases hnow : due s.clock x with
        | true => rw [hstays _ _ x (Nat.le_add_right _ n) hnow]; rfl
        | false => simp
      show (s.items.filter fun x => !due (s.clock + n) x) = _
      rw [hsplit s.items, h.kept, ← hsplit start]
    · exact hstays _ _ x (Nat.le_add_right _ n) (h.flagged w x todo hp)
  | list w hp => exact ⟨h.sublist, h.kept, h.goto w _ (by simp)⟩
  | finish w hp => exact ⟨h.sublist, h.kept, h.goto w _ (by simp)⟩
  | flag w x todo hp hdue =>
    refine ⟨h.sublist, h.kept, h.goto w _ ?_⟩
    rintro y todo' (hy | hy)
    · rw [← (Point.deleting.inj hy).1]
      exact hdue
    · exact absurd hy (by simp)
  | pass w x todo hp hdue => exact ⟨h.sublist, h.kept, h.goto w _ (by simp)⟩
  -- what is erased is due, so the filter does not see it
  | delete w x todo hp hx =>
    refine ⟨List.erase_sublist.trans h.sublist, ?_, h.goto w _ (by simp)⟩
    have hdue := h.flagged w x todo (Or.inl hp)
    show ((s.items.erase x).filter fun y => !due s.clock y) = start.filter fun y => !due s.clock y
    rw [filter_erase (by simp [hdue]), h.kept]
  | fail w x todo hp hx =>
    refine ⟨h.sublist, h.kept, h.goto w _ ?_⟩
    rintro y todo' (hy | hy)
    · exact absurd hy (by simp)
    · rw [← (Point.failed.inj hy).1]
      exact h.flagged w x todo (Or.inl hp)

/-- **Nothing that is not due is deleted**, and what is left stands in its order. -/
theorem notDue_kept {due : Nat → α → Bool} (hstays : Stays due) {start : List α} {clock : Nat} :
    ∀ ts s, run (World.step due) (.init start clock) ts = some s → Kept due start s :=
  run_invariant _ (kept_init due start clock) fun _ _ _ h hu => kept_move hstays h (move_of_step hu)

/-! ### What is left when both have ended

  Every deletion takes one copy of an item away, so an item that is there `n` times is gone only
  when the two sweepers together have deleted it `n` times.  `Late` keeps these accounts. -/

/-- A sweeper that listed `listing` has settled `done` of it and has deleted `deleted`: all that
    was due, and no more than `done` has. -/
def Progress (due : α → Bool) (listing deleted : List α) (p : Point α) : Prop :=
  p ≠ .idle ∧ ∃ done, listing = done ++ p.rest ∧ (∀ x, deleted.count x ≤ done.count x) ∧
    ∀ x, due x = true → deleted.count x = done.count x

section Progress

variable {due : α → Bool} {listing deleted todo : List α} {x : α}

/-- Just behind its listing a sweeper has deleted nothing. -/
theorem progress_list : Progress due listing [] (.looking listing) :=
  ⟨nofun, [], rfl, fun _ => Nat.le_refl _, fun _ _ => rfl⟩

/-- Nothing is settled by a move between two points with the same rest. -/
theorem Progress.goto {p q : Point α} (h : Progress due listing deleted p) (hq : q ≠ .idle)
    (hrest : q.rest = p.rest) : Progress due listing deleted q := by
  obtain ⟨-, done, hlisting, hle, heq⟩ := h
  exact ⟨hq, done, by rw [hrest, hlisting], hle, heq⟩

/-- Something that is not due is passed over, and need not be deleted. -/
theorem Progress.pass (h : Progress due listing deleted (.looking (x :: todo)))
    (hx : due x = false) : Progress due listing deleted (.looking todo) := by
  obtain ⟨-, done, hlisting, hle, heq⟩ := h
  refine ⟨nofun, done ++ [x], by rw [hlisting, List.append_assoc]; rfl, fun y => ?_, fun y hy => ?_⟩
  · rw [List.count_append]
    exact Nat.le_trans (hle y) (Nat.le_add_right _ _)
  · have hne : x ≠ y := by
      rintro rfl
      rw [hx] at hy
      exact absurd hy (by decide)
    rw [List.count_append, List.count_singleton, heq y hy, beq_false_of_ne hne]
    simp

/-- What is deleted is the next in the listing that was due. -/
theorem Progress.delete (h : Progress due listing deleted (.deleting x todo)) :
    Progress due listing (deleted ++ [x]) (.looking todo) := by
  obtain ⟨-, done, hlisting, hle, heq⟩ := h
  refine ⟨nofun, done ++ [x], by rw [hlisting, List.append_assoc]; rfl, fun y => ?_, fun y hy => ?_⟩
  · rw [List.count_append, List.count_append]
    exact Nat.add_le_add_right (hle y) _
  · rw [List.count_append, List.count_append, heq y hy]

end Progress

/-- **After the second listing**: the first sweeper `w` had `rest` to settle, the second found
    `kept ++ rest`, and every deletion since is one of theirs. -/
structure Late (due : Nat → α → Bool) (start : List α) (w : Who) (kept rest : List α)
    (deleted : Who → List α) (s : World α) : Prop where
  time : s.lastListing ≤ s.clock
  within : (kept ++ rest).Sublist start
  first : Progress (due s.lastListing) rest (deleted w) (s.point w)
  second : Progress (due s.lastListing) (kept ++ rest) (deleted w.other) (s.point w.other)
  count : ∀ x, s.items.count x + (deleted w).count x + (deleted w.other).count x =
    (kept ++ rest).count x
  missing : ∀ v x todo, s.point v = .failed x todo → x ∉ s.items

/-- No listing yet, one, or both. -/
def Phase (due : Nat → α → Bool) (start : List α) (s : World α) : Prop :=
  (s.lastListing ≤ s.clock ∧ ∀ w, s.point w = .idle) ∨ (∃ w, Early w s) ∨
    ∃ w kept rest deleted, Late due start w kept rest deleted s

/-- What holds of one and of the other holds of all. -/
theorem Who.forall_iff {p : Who → Prop} (w : Who) : (∀ v, p v) ↔ p w ∧ p w.other := by
  refine ⟨fun h => ⟨h w, h w.other⟩, fun h v => ?_⟩
  rcases w.eq_or_other v with rfl | rfl
  · exact h.1
  · exact h.2

/-- Erasing an element of a list that ends in `x :: rest` takes one `x` and keeps `rest`. -/
theorem erase_append_cons (kept rest : List α) (x : α) :
    ∃ kept', (kept ++ x :: rest).erase x = kept' ++ rest := by
  by_cases hx : x ∈ kept
  · refine ⟨kept.erase x ++ [x], ?_⟩
    rw [List.erase_append_left _ hx, List.append_assoc]
    rfl
  · refine ⟨kept, ?_⟩
    rw [List.erase_append_right _ hx, List.erase_cons_head]

/-- The second listing is taken. -/
theorem Early.list {due : Nat → α → Bool} {start : List α} {w : Who} {s : World α} (h : Early w s)
    (hsub : s.items.Sublist start) : ∃ kept rest deleted, Late due start w kept rest deleted
      { s.goto w.other (.looking s.items) with lastListing := s.clock } := by
  -- `kept` is what the first has passed over, and the rest of its listing is still in the list
  obtain ⟨kept, hitems⟩ := h.items
  have hfirst : (s.goto w.other (.looking s.items)).point w = s.point w :=
    goto_of_ne s _ w.ne_other
  refine ⟨kept, (s.point w).rest, fun _ => [], Nat.le_refl _, hitems ▸ hsub, ?_, ?_,
    fun x => ?_, ?_⟩
  · show Progress _ _ _ ((s.goto w.other (.looking s.items)).point w)
    rw [hfirst]
    exact ⟨h.listed, [], rfl, fun _ => Nat.le_refl _, fun _ _ => rfl⟩
  · show Progress _ _ _ ((s.goto w.other (.looking s.items)).point w.other)
    rw [goto_self, hitems]
    exact progress_list
  · show s.items.count x + 0 + 0 = (kept ++ (s.point w).rest).count x
    rw [hitems]
    rfl
  · intro v x todo hv
    change (s.goto w.other (.looking s.items)).point v = _ at hv
    rcases w.eq_or_other v with rfl | rfl
    · rw [hfirst] at hv
      exact absurd hv (h.sound x todo)
    · rw [goto_self] at hv
      exact absurd hv (by simp)

/-- From the first phase a move stays there, or the second listing is taken: this is where `kept`
    and `rest` of the later phase are fixed. -/
theorem early_move {due : Nat → α → Bool} {start : List α} {w : Who} {s u : World α}
    (h : Early w s) (hsub : s.items.Sublist start) (hu : Move due s u) : Phase due start u := by
  obtain ⟨kept, hitems⟩ := h.items
  cases hu with
  | tick n =>
    exact Or.inr (Or.inl ⟨w, Nat.le_trans h.time (Nat.le_add_right _ _), h.waiting, h.listed,
      h.sound, h.items⟩)
  | list v hp =>
    have hv : v = w.other := by
      rcases w.eq_or_other v with rfl | rfl
      · exact absurd hp h.listed
      · rfl
    rw [hv]
    exact Or.inr (Or.inr ⟨w, h.list hsub⟩)
  | finish v hp =>
    obtain rfl := h.mover (v := v) (by rw [hp]; nofun)
    rw [hp] at hitems
    exact Or.inr (Or.inl ⟨v, h.goto nofun nofun ⟨kept, hitems⟩⟩)
  | flag v x todo hp hdue =>
    obtain rfl := h.mover (v := v) (by rw [hp]; nofun)
    rw [hp] at hitems
    exact Or.inr (Or.inl ⟨v, h.goto nofun nofun ⟨kept, hitems⟩⟩)
  | pass v x todo hp hdue =>
    obtain rfl := h.mover (v := v) (by rw [hp]; nofun)
    rw [hp] at hitems
    refine Or.inr (Or.inl ⟨v, h.goto nofun nofun ⟨kept ++ [x], ?_⟩⟩)
    rw [hitems, List.append_assoc]
    rfl
  | delete v x todo hp hx =>
    obtain rfl := h.mover (v := v) (by rw [hp]; nofun)
    rw [hp] at hitems
    -- one `x` goes, and what is left to settle still ends the list
    obtain ⟨kept', hkept'⟩ := erase_append_cons kept todo x
    have hnew : s.items.erase x = kept' ++ todo := by
      rw [hitems]
      exact hkept'
    refine Or.inr (Or.inl ⟨v, h.time, ?_, ?_, ?_, kept', ?_⟩)
    · show (s.goto v (.looking todo)).point v.other = _
      rw [goto_of_ne s _ v.other_ne]
      exact h.waiting
    · show (s.goto v (.looking todo)).point v ≠ _
      rw [goto_self]
      nofun
    · intro y todo'
      show (s.goto v (.looking todo)).point v ≠ _
      rw [goto_self]
      nofun
    · show s.items.erase x = kept' ++ ((s.goto v (.looking todo)).point v).rest
      rw [goto_self]
      exact hnew
  | fail v x todo hp hx =>
    -- the item to delete is the next of the listing, and still there
    obtain rfl := h.mover (v := v) (by rw [hp]; nofun)
    rw [hp] at hitems
    exact absurd (by rw [hitems]; simp [Point.rest]) hx

/-- A sweeper moves on without deleting. -/
theorem Late.goto {due : Nat → α → Bool} {start : List α} {w : Who} {kept rest : List α}
    {deleted : Who → List α} {s : World α} (h : Late due start w kept rest deleted s) (v : Who)
    {p : Point α}
    (hp : ∀ listing, Progress (due s.lastListing) listing (deleted v) (s.point v) →
      Progress (due s.lastListing) listing (deleted v) p)
    (hmissing : ∀ x todo, p = .failed x todo → x ∉ s.items) :
    Late due start w kept rest deleted (s.goto v p) := by
  have hprogress : ∀ v' listing, Progress (due s.lastListing) listing (deleted v') (s.point v') →
      Progress (due s.lastListing) listing (deleted v') ((s.goto v p).point v') := by
    intro v' listing hv'
    by_cases hv : v' = v
    · subst hv
      rw [goto_self]
      exact hp _ hv'
    · rw [goto_of_ne s p hv]
      exact hv'
  refine ⟨h.time, h.within, hprogress w _ h.first, hprogress w.other _ h.second, h.count, ?_⟩
  intro v' x todo hv'
  by_cases hv : v' = v
  · subst hv
    rw [goto_self] at hv'
    exact hmissing x todo hv'
  · rw [goto_of_ne s p hv] at hv'
    exact h.missing v' x todo hv'

/-- A sweeper deletes `x`. -/
theorem Late.delete {due : Nat → α → Bool} {start : List α} {w : Who} {kept rest : List α}
    {deleted : Who → List α} {s : World α} (h : Late due start w kept rest deleted s) {v : Who}
    {x : α} {todo : List α} (hp : s.point v = .deleting x todo) (hx : x ∈ s.items) :
    Late due start w kept rest (Function.update deleted v (deleted v ++ [x]))
      { s.goto v (.looking todo) with items := s.items.erase x } := by
  -- one more `x` is deleted, and one less is in the list
  have hcount : ∀ y, (s.items.erase x).count y + [x].count y = s.items.count y := by
    intro y
    rw [List.count_erase, List.count_singleton]
    split
    · rename_i heq
      have hpos : 0 < s.items.count y := by
        rw [← beq_iff_eq.mp heq]
        exact List.count_pos_iff.mpr hx
      omega
    · omega
  have hprogress : ∀ v' listing, Progress (due s.lastListing) listing (deleted v') (s.point v') →
      Progress (due s.lastListing) listing (Function.update deleted v (deleted v ++ [x]) v')
        ((s.goto v (.looking todo)).point v') := by
    intro v' listing hv'
    by_cases hv : v' = v
    · subst hv
      rw [hp] at hv'
      rw [goto_self, Function.update_self]
      exact hv'.delete
    · rw [goto_of_ne s _ hv, Function.update_of_ne hv]
      exact hv'
  refine ⟨h.time, h.within, hprogress w _ h.first, hprogress w.other _ h.second, fun y => ?_, ?_⟩
  · have hy := hcount y
    have hall := h.count y
    show (s.items.erase x).count y + _ + _ = _
    rcases w.eq_or_other v with rfl | rfl
    · rw [Function.update_self, Function.update_of_ne v.other_ne, List.count_append]
      omega
    · rw [Function.update_self, Function.update_of_ne w.ne_other, List.count_append]
      omega
  · intro v' y todo' hv'
    change (s.goto v (.looking todo)).point v' = _ at hv'
    by_cases hv : v' = v
    · rw [hv, goto_self] at hv'
      exact absurd hv' (by simp)
    · rw [goto_of_ne s _ hv] at hv'
      exact fun hmem => h.missing v' y todo' hv' (List.mem_of_mem_erase hmem)

/-- In the second phase nobody takes a listing any more, and every move keeps the count of
    deletions. -/
theorem late_move {due : Nat → α → Bool} (hstays : Stays due) {start : List α} {w : Who}
    {kept rest : List α} {deleted : Who → List α} {s u : World α}
    (h : Late due start w kept rest deleted s) (hu : Move due s u) :
    ∃ deleted', Late due start w kept rest deleted' u := by
  cases hu with
  | tick n =>
    exact ⟨deleted, Nat.le_trans h.time (Nat.le_add_right _ _), h.within, h.first, h.second,
      h.count, h.missing⟩
  | list v hp =>
    rcases w.eq_or_other v with rfl | rfl
    · exact absurd hp h.first.1
    · exact absurd hp h.second.1
  | finish v hp =>
    exact ⟨deleted, h.goto v (fun _ hprog => hprog.goto nofun (by rw [hp]; rfl)) nofun⟩
  | flag v x todo hp hdue =>
    exact ⟨deleted, h.goto v (fun _ hprog => hprog.goto nofun (by rw [hp]; rfl)) nofun⟩
  | pass v x todo hp hdue =>
    have hnot : due s.lastListing x = false := by
      cases hthen : due s.lastListing x with
      | false => rfl
      | true =>
        rw [hstays _ _ x h.time hthen] at hdue
        exact absurd hdue (by decide)
    -- what was due at the second listing is never passed over
    exact ⟨deleted, h.goto v (fun _ hprog => (hp ▸ hprog).pass hnot) nofun⟩
  | delete v x todo hp hx => exact ⟨_, h.delete hp hx⟩
  | fail v x todo hp hx =>
    refine ⟨deleted, h.goto v (fun _ hprog => hprog.goto nofun (by rw [hp]; rfl)) ?_⟩
    intro y todo' hy
    rw [← (Point.failed.inj hy).1]
    exact hx

/-- The phases put together: what one move keeps. -/
theorem phase_move {due : Nat → α → Bool} (hstays : Stays due) {start : List α} {s u : World α}
    (h : Phase due start s) (hsub : s.items.Sublist start) (hu : Move due s u) :
    Phase due start u := by
  rcases h with ⟨htime, hidle⟩ | ⟨w, h⟩ | ⟨w, kept, rest, deleted, h⟩
  · -- nobody has begun: the first listing opens the first phase
    cases hu with
    | tick n => exact Or.inl ⟨Nat.le_trans htime (Nat.le_add_right _ _), hidle⟩
    | list w hp =>
      refine Or.inr (Or.inl ⟨w, Nat.le_refl _, ?_, ?_, ?_, [], ?_⟩)
      · show (s.goto w (.looking s.items)).point w.other = _
        rw [goto_of_ne s _ w.other_ne]
        exact hidle w.other
      · show (s.goto w (.looking s.items)).point w ≠ _
        rw [goto_self]
        nofun
      · intro x todo
        show (s.goto w (.looking s.items)).point w ≠ _
        rw [goto_self]
        nofun
      · show s.items = [] ++ ((s.goto w (.looking s.items)).point w).rest
        rw [goto_self]
        rfl
    | finish w hp => exact absurd ((hidle w).symm.trans hp) (by simp)
    | flag w x todo hp _ => exact absurd ((hidle w).symm.trans hp) (by simp)
    | pass w x todo hp _ => exact absurd ((hidle w).symm.trans hp) (by simp)
    | delete w x todo hp _ => exact absurd ((hidle w).symm.trans hp) (by simp)
    | fail w x todo hp _ => exact absurd ((hidle w).symm.trans hp) (by simp)
  · exact early_move h hsub hu
  · obtain ⟨deleted', h'⟩ := late_move hstays h hu
    exact Or.inr (Or.inr ⟨w, kept, rest, deleted', h'⟩)

/-- By induction along the run, together with what is kept. -/
theorem phase_run {due : Nat → α → Bool} (hstays : Stays due) {start : List α} {clock : Nat} :
    ∀ ts s, run (World.step due) (.init start clock) ts = some s →
      Kept due start s ∧ Phase due start s :=
  run_invariant _ ⟨kept_init due start clock, Or.inl ⟨Nat.le_refl _, fun _ => rfl⟩⟩
    fun _ _ _ h hu => ⟨kept_move hstays h.1 (move_of_step hu),
      phase_move hstays h.2 h.1.sublist (move_of_step hu)⟩

/-- A delete of the second sweeper that finds nothing is one of what the first had left to
    settle: each item of `kept` is there when the second comes to it. -/
theorem Late.second_past_kept {due : Nat → α → Bool} {start : List α} {w : Who}
    {kept rest : List α} {deleted : Who → List α} {s : World α}
    (h : Late due start w kept rest deleted s) {x : α}
    {todo : List α} (hp : s.point w.other = .failed x todo) :
    ∃ done, rest = done ++ x :: todo ∧
      (∀ y, (deleted w.other).count y ≤ (kept ++ done).count y) ∧
      ∀ y, due s.lastListing y = true → (deleted w.other).count y = (kept ++ done).count y := by
  obtain ⟨-, doneFirst, hrest, hfirst, -⟩ := h.first
  obtain ⟨-, done, hlisting, hle, heq⟩ := h.second
  rw [hp] at hlisting
  have hlisting' : kept ++ rest = done ++ x :: todo := hlisting
  rcases List.append_eq_append_iff.mp hlisting' with ⟨a, hdone, hrest'⟩ | ⟨a, hkept, htail⟩
  · exact ⟨a, hrest', hdone ▸ hle, hdone ▸ heq⟩
  · cases a with
    | nil =>
      rw [List.append_nil] at hkept
      refine ⟨[], htail.symm, ?_, ?_⟩
      · rw [List.append_nil, hkept]
        exact hle
      · rw [List.append_nil, hkept]
        exact heq
    | cons y a =>
      -- `x` would stand in `kept` once more than it has been deleted from there
      have hxy : x = y := (List.cons.inj htail).1
      have hcount := h.count x
      have h0 : s.items.count x = 0 := List.count_eq_zero.mpr (h.missing _ x todo hp)
      have h1 : (deleted w).count x ≤ rest.count x := by
        refine Nat.le_trans (hfirst x) ?_
        rw [hrest, List.count_append]
        exact Nat.le_add_right _ _
      have h2 := hle x
      have h3 : kept.count x = done.count x + (a.count x + 1) := by
        rw [hkept, List.count_append, ← hxy, List.count_cons_self]
      rw [List.count_append] at hcount
      omega

/-- **What was due at the second listing is gone**, if one of the two came to its end. -/
theorem due_gone_of_ok {due : Nat → α → Bool} (hstays : Stays due) {start : List α} {clock : Nat}
    {ts : List Turn} {s : World α} (hrun : run (World.step due) (.init start clock) ts = some s)
    (hended : ∀ w, (s.point w).ended = true) (hok : ∃ w, s.point w = .ok) {x : α}
    (hx : x ∈ s.items) : due s.lastListing x = false := by
  cases hdue : due s.lastListing x with
  | false => rfl
  | true =>
    -- something due that is left is counted once too often
    have hpos : 0 < s.items.count x := List.count_pos_iff.mpr hx
    rcases (phase_run hstays ts s hrun).2 with ⟨-, hidle⟩ | ⟨w, h⟩ | ⟨w, kept, rest, deleted, h⟩
    · exact absurd (hidle .one) (not_idle_of_ended (hended .one))
    · exact absurd h.waiting (not_idle_of_ended (hended w.other))
    · have hcount := h.count x
      rw [List.count_append] at hcount
      have hsecond : s.point w.other = .ok →
          (deleted w.other).count x = kept.count x + rest.count x := by
        intro hp
        obtain ⟨-, done, hlisting, -, heq⟩ := h.second
        rw [hp] at hlisting
        have hdone : kept ++ rest = done := hlisting.trans (List.append_nil done)
        rw [heq x hdue, ← hdone, List.count_append]
      obtain ⟨v, hv⟩ := hok
      rcases w.eq_or_other v with rfl | rfl
      · -- the first has settled all of `rest`, and the second at least `kept`
        have hfirst : (deleted v).count x = rest.count x := by
          obtain ⟨-, done, hlisting, -, heq⟩ := h.first
          rw [hv] at hlisting
          have hdone : rest = done := hlisting.trans (List.append_nil done)
          rw [heq x hdue, hdone]
        rcases ended_cases (hended v.other) with hp | ⟨y, todo, hp⟩
        · have := hsecond hp
          omega
        · obtain ⟨done, -, -, heq⟩ := h.second_past_kept hp
          have hle := heq x hdue
          rw [List.count_append] at hle
          omega
      · have := hsecond hv
        omega

/-- If both stopped at a delete, the one item was deleted by the other sweeper, so it stands behind
    where that one stopped; and the other way round, which cannot be. -/
theorem Late.not_both_failed {due : Nat → α → Bool} {start : List α} {w : Who}
    {kept rest : List α} {deleted : Who → List α} {s : World α}
    (h : Late due start w kept rest deleted s) {x y : α} {todo todo' : List α}
    (hx : s.point w = .failed x todo) (hy : s.point w.other = .failed y todo')
    (hxonce : start.count x ≤ 1) (hyonce : start.count y ≤ 1) : False := by
  obtain ⟨-, done, hdone, hle, -⟩ := h.first
  obtain ⟨done', hdone', hle', -⟩ := h.second_past_kept hy
  rw [hx] at hdone
  have hdone : rest = done ++ x :: todo := hdone
  -- either item occurs once, and the other sweeper has deleted it
  have hxcount := h.count x
  have hycount := h.count y
  have hx0 : s.items.count x = 0 := List.count_eq_zero.mpr (h.missing w x todo hx)
  have hy0 : s.items.count y = 0 := List.count_eq_zero.mpr (h.missing w.other y todo' hy)
  have hxall := Nat.le_trans (h.within.count_le x) hxonce
  have hyall := Nat.le_trans (h.within.count_le y) hyonce
  have hxrest : rest.count x = done.count x + (todo.count x + 1) := by
    rw [hdone, List.count_append, List.count_cons_self]
  have hyrest : rest.count y = done'.count y + (todo'.count y + 1) := by
    rw [hdone', List.count_append, List.count_cons_self]
  have hxle := hle x
  have hyle := hle y
  have hxle' := hle' x
  have hyle' := hle' y
  rw [List.count_append] at hxcount hycount hxall hyall hxle' hyle'
  have hxmem : x ∈ done' := List.count_pos_iff.mp (by omega)
  have hymem : y ∈ done := List.count_pos_iff.mp (by omega)
  rcases mem_of_two_splits hdone hdone' hymem hxmem with hmem | hmem
  · have := List.count_pos_iff.mpr hmem
    omega
  · have := List.count_pos_iff.mpr hmem
    omega

/-- **One of the two comes to its end**, if no item that is due occurs twice. -/
theorem not_both_failed {due : Nat → α → Bool} (hstays : Stays due) {start : List α}
    {clock : Nat} {ts : List Turn} {s : World α}
    (hrun : run (World.step due) (.init start clock) ts = some s)
    (honce : ∀ x, due s.clock x = true → start.count x ≤ 1)
    (hended : ∀ w, (s.point w).ended = true) : ∃ w, s.point w = .ok := by
  obtain ⟨hkept, hphase⟩ := phase_run hstays ts s hrun
  by_contra hnone
  have hfailed : ∀ w, ∃ x todo, s.point w = .failed x todo := by
    intro w
    rcases ended_cases (hended w) with hp | hp
    · exact absurd ⟨w, hp⟩ hnone
    · exact hp
  have honce' : ∀ w x todo, s.point w = .failed x todo → start.count x ≤ 1 :=
    fun w x todo hp => honce x (hkept.flagged w x todo (Or.inr hp))
  rcases hphase with ⟨-, hidle⟩ | ⟨w, h⟩ | ⟨w, kept, rest, deleted, h⟩
  · exact absurd (hidle .one) (not_idle_of_ended (hended .one))
  · exact absurd h.waiting (not_idle_of_ended (hended w.other))
  · obtain ⟨x, todo, hx⟩ := hfailed w
    obtain ⟨y, todo', hy⟩ := hfailed w.other
    exact h.not_both_failed hx hy (honce' _ _ _ hx) (honce' _ _ _ hy)

end Safewrt.Lib
