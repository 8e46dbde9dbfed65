import Mathlib

/-! Labelled transition systems given by a partial step function, with runs whose steps all
meet a guard. Invariants of such runs are proved one step at a time. -/
namespace Transition

variable {σ α : Type*} {step : α → σ → Option σ}

/-- The states reached from `s₀` by steps that all meet the guard, which sees the state before
the step, its label and the state after it. -/
inductive Reach (step : α → σ → Option σ) (guard : σ → α → σ → Prop) (s₀ : σ) : σ → Prop
  | start : Reach step guard s₀ s₀
  | next {s s' : σ} {a : α} (before : Reach step guard s₀ s) (taken : step a s = some s')
      (ok : guard s a s') : Reach step guard s₀ s'

variable {guard guard' : σ → α → σ → Prop} {s₀ s : σ}

/-- What holds at the start and is kept by every guarded step from a reached state holds of
every reached state. -/
theorem Reach.invariant {I : σ → Prop} (hstart : I s₀)
    (hstep : ∀ s a s', Reach step guard s₀ s → I s → step a s = some s' → guard s a s' → I s')
    (h : Reach step guard s₀ s) : I s := by
  induction h with
  | start => exact hstart
  | next before taken ok ih => exact hstep _ _ _ before ih taken ok

/-- A run that meets a guard meets every weaker one. -/
theorem Reach.mono (hg : ∀ s a s', guard s a s' → guard' s a s') (h : Reach step guard s₀ s) :
    Reach step guard' s₀ s := by
  induction h with
  | start => exact .start
  | next _ taken ok ih => exact ih.next taken (hg _ _ _ ok)

/-- A function of the state that takes each guarded step to one of another system takes runs to
runs. -/
theorem Reach.map {τ β : Type*} {other : β → τ → Option τ} {guard' : τ → β → τ → Prop} (f : σ → τ)
    (hstep : ∀ s a s', step a s = some s' → guard s a s' →
      ∃ b, other b (f s) = some (f s') ∧ guard' (f s) b (f s'))
    (h : Reach step guard s₀ s) : Reach other guard' (f s₀) (f s) := by
  apply h.invariant .start
  intro s a s' _ hs taken ok
  obtain ⟨b, taken', ok'⟩ := hstep s a s' taken ok
  exact hs.next taken' ok'

/-- No run goes on for ever if each guarded step from a reached state decreases a measure. -/
theorem Reach.not_infinite {β : Type*} [LT β] [WellFoundedLT β] (μ : σ → β)
    (hstep : ∀ s a s', Reach step guard s₀ s → step a s = some s' → guard s a s' → μ s' < μ s)
    (path : ℕ → σ) (hstart : path 0 = s₀) :
    ¬∀ i, ∃ a, step a (path i) = some (path (i + 1)) ∧ guard (path i) a (path (i + 1)) := by
  intro hpath
  have hreach : ∀ i, Reach step guard s₀ (path i) := by
    intro i
    induction i with
    | zero => exact hstart ▸ .start
    | succ i ih =>
      obtain ⟨a, taken, ok⟩ := hpath i
      exact ih.next taken ok
  obtain ⟨i, hi⟩ := WellFounded.not_rel_apply_succ (r := (· < ·)) fun i => μ (path i)
  obtain ⟨a, taken, ok⟩ := hpath i
  exact hi (hstep _ _ _ (hreach i) taken ok)

/-- Execute a list of labels, checking the guard at each; a label that is not enabled or fails
the check ends the run without a result. -/
def run (step : α → σ → Option σ) (guard : σ → α → σ → Prop) [∀ s a s', Decidable (guard s a s')] :
    List α → σ → Option σ
  | [], s => some s
  | a :: as, s => (step a s).bind fun t => if guard s a t then run step guard as t else none

theorem run_append [∀ s a s', Decidable (guard s a s')] (as bs : List α) (s : σ) :
    run step guard (as ++ bs) s = (run step guard as s).bind (run step guard bs) := by
  induction as generalizing s with
  | nil => rfl
  | cons a as ih =>
    rw [List.cons_append, run, run, Option.bind_assoc]
    apply Option.bind_congr
    intro t ht
    split
    · exact ih t
    · rfl

/-- An executed list of labels reaches its result. -/
theorem Reach.of_run [∀ s a s', Decidable (guard s a s')] {as : List α} {s s' : σ}
    (h : Reach step guard s₀ s) (hrun : run step guard as s = some s') :
    Reach step guard s₀ s' := by
  induction as generalizing s with
  | nil =>
    cases hrun
    exact h
  | cons a as ih =>
    obtain ⟨t, ht, hrest⟩ := Option.bind_eq_some_iff.mp hrun
    split at hrest
    · exact ih (h.next ht ‹_›) hrest
    · cases hrest

/-- A function of the state that commutes with every step commutes with every run. -/
theorem run_map {τ : Type*} {other : α → τ → Option τ} {f : σ → τ}
    (hstep : ∀ a s, (step a s).map f = other a (f s)) (as : List α) (s : σ) :
    (run step (fun _ _ _ => True) as s).map f = run other (fun _ _ _ => True) as (f s) := by
  induction as generalizing s with
  | nil => rfl
  | cons a as ih =>
    simp only [run, if_true]
    rw [← hstep, Option.map_bind]
    cases step a s with
    | none => rfl
    | some t => exact ih t

theorem Reach.run_get [∀ s a s', Decidable (guard s a s')] (as : List α)
    (h : (run step guard as s₀).isSome) : Reach step guard s₀ ((run step guard as s₀).get h) :=
  Reach.start.of_run (Option.some_get h).symm

end Transition
