/-
  RUNS OF A LABELLED STEP FUNCTION.

  A system is given by one partial function `step : σ → ε → Option σ`: the label says what the
  environment does next (which call returns, what it returns, which party moves), and `none`
  means the label does not fit the state.  A run is a list of labels; `run step s es` is where
  it leads, so a run can be executed, and a theorem over all lists `es` is a theorem over all
  schedules.

  The two rules that follow package the induction every safety proof needs: `run_induction`
  proves a fact about (labels so far, state reached), `run_invariant` a fact about the state.

  The last part is for runs that end.  `run_budget` bounds the length of a run by a measure that
  every step lowers, where some labels pay for raising it; `follow` runs the system against an
  environment that chooses each label, and `follow_rests` says when that comes to rest.
-/
import Mathlib.Algebra.Ring.Nat
import Mathlib.Data.List.Induction

namespace Safewrt.Lib

variable {σ ε : Type}

/-- Where the labels `es` lead from `s`; `none` if one of them does not fit. -/
def run (step : σ → ε → Option σ) (s : σ) : List ε → Option σ
  | [] => some s
  | e :: es => (step s e).bind fun t => run step t es

variable {step : σ → ε → Option σ}

@[simp] theorem run_nil (s : σ) : run step s [] = some s := rfl

@[simp] theorem run_cons (s : σ) (e : ε) (es : List ε) :
    run step s (e :: es) = (step s e).bind fun t => run step t es := rfl

/-- A run can be cut anywhere. -/
theorem run_append (s : σ) (es fs : List ε) :
    run step s (es ++ fs) = (run step s es).bind fun t => run step t fs := by
  induction es generalizing s with
  | nil => rfl
  | cons e es ih =>
    rw [List.cons_append, run_cons, run_cons, Option.bind_assoc]
    congr 1
    funext t
    exact ih t

/-- A run that ends with the label `e` is a run followed by one step. -/
theorem run_concat {s u : σ} {es : List ε} {e : ε} :
    run step s (es ++ [e]) = some u ↔ ∃ t, run step s es = some t ∧ step t e = some u := by
  rw [run_append, Option.bind_eq_some_iff]
  constructor
  · rintro ⟨t, ht, hu⟩
    refine ⟨t, ht, ?_⟩
    rw [run_cons] at hu
    obtain ⟨u', hstep, hnil⟩ := Option.bind_eq_some_iff.mp hu
    rw [run_nil, Option.some.injEq] at hnil
    rw [hstep, hnil]
  · rintro ⟨t, ht, hu⟩
    exact ⟨t, ht, by rw [run_cons, hu]; rfl⟩

/-- **Induction over a run**: what holds before the first label and is kept by one more label
    (taken in a state the run reached) holds after every run. -/
theorem run_induction (I : List ε → σ → Prop) {s : σ} (h0 : I [] s)
    (hstep : ∀ es t e u, run step s es = some t → I es t → step t e = some u → I (es ++ [e]) u) :
    ∀ es t, run step s es = some t → I es t := by
  intro es
  induction es using List.reverseRecOn with
  | nil =>
    intro t ht
    rw [run_nil, Option.some.injEq] at ht
    rw [← ht]; exact h0
  | append_singleton es e ih =>
    intro u hu
    obtain ⟨t, ht, hte⟩ := run_concat.mp hu
    exact hstep es t e u ht (ih t ht) hte

/-- **The invariant rule**: what holds at the start and is kept by every step holds in every
    state a run reaches. -/
theorem run_invariant (I : σ → Prop) {s : σ} (h0 : I s)
    (hstep : ∀ t e u, I t → step t e = some u → I u) :
    ∀ es t, run step s es = some t → I t :=
  run_induction (fun _ t => I t) h0 fun _ t e u _ hI hte => hstep t e u hI hte

/-! ## Runs that end -/

/-- **The budget rule**: where a step lowers the measure by one, or by what its label pays less, a
    run is no longer than the measure it began with and all that was paid. -/
theorem run_budget (I : σ → Prop) (measure : σ → Nat) (pay : ε → Nat)
    (hstep : ∀ s e t, I s → step s e = some t → I t ∧ measure t + 1 ≤ measure s + pay e) :
    ∀ es s t, I s → run step s es = some t →
      es.length + measure t ≤ measure s + (es.map pay).sum := by
  intro es
  induction es with
  | nil =>
    intro s t _ ht
    rw [run_nil, Option.some.injEq] at ht
    rw [ht]
    simp
  | cons e es ih =>
    intro s u hs hu
    obtain ⟨t, hst, htu⟩ := Option.bind_eq_some_iff.mp hu
    obtain ⟨ht, hmeasure⟩ := hstep s e t hs hst
    have hrest := ih t u ht htu
    rw [List.length_cons, List.map_cons, List.sum_cons]
    omega

/-- At most `fuel` steps, with the labels that `next` chooses from those before and the state, until
    the system rests. -/
def follow (step : σ → ε → Option σ) (rest : σ → Bool) (next : List ε → σ → ε) :
    Nat → List ε → σ → Option (List ε × σ)
  | 0, es, s => some (es, s)
  | fuel + 1, es, s =>
    if rest s then some (es, s)
    else (step s (next es s)).bind fun t => follow step rest next fuel (es ++ [next es s]) t

/-- **The rule for runs that come to rest**: where every label chosen fits until then, and no run
    is longer than `bound`, `bound` steps are enough. -/
theorem follow_rests (rest : σ → Bool) (next : List ε → σ → ε) (bound : Nat)
    (I : List ε → σ → Prop)
    (hstep : ∀ es s, I es s → rest s = false →
      ∃ t, step s (next es s) = some t ∧ I (es ++ [next es s]) t)
    (hbound : ∀ es s, I es s → rest s = false → es.length < bound) :
    ∀ fuel es s, I es s → bound ≤ es.length + fuel →
      ∃ fs t, follow step rest next fuel es s = some (fs, t) ∧ I fs t ∧ rest t = true := by
  intro fuel
  induction fuel with
  | zero =>
    intro es s hI hfuel
    cases hrest : rest s with
    | true => exact ⟨es, s, rfl, hI, hrest⟩
    | false =>
      -- out of fuel, but then the run would be longer than it can be
      have hlt := hbound es s hI hrest
      omega
  | succ fuel ih =>
    intro es s hI hfuel
    cases hrest : rest s with
    | true => exact ⟨es, s, by rw [follow, if_pos hrest], hI, hrest⟩
    | false =>
      obtain ⟨t, hst, ht⟩ := hstep es s hI hrest
      have hlen : bound ≤ (es ++ [next es s]).length + fuel := by
        rw [List.length_append, List.length_singleton]
        omega
      obtain ⟨fs, u, hfollow, hu⟩ := ih (es ++ [next es s]) t ht hlen
      refine ⟨fs, u, ?_, hu⟩
      rw [follow, if_neg (by rw [hrest]; decide), hst]
      exact hfollow

end Safewrt.Lib
