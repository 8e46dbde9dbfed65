import Mathlib

/-! Programs whose only access to a state is to call one service, whose replies have type `ρ`. What
the replies of a run are does not depend on who makes the calls. -/
universe u v w

/-- A program that returns, panics, or calls the service and goes on with the reply. -/
inductive Calls (ρ : Type u) (α : Type v)
  | ret (a : α)
  | panic
  | call (next : ρ → Calls ρ α)

namespace Calls
variable {ρ : Type u} {α β : Type v} {σ : Type w}

def bind : Calls ρ α → (α → Calls ρ β) → Calls ρ β
  | ret a, f => f a
  | panic, _ => panic
  | call next, f => call fun r => (next r).bind f

instance : Monad (Calls ρ) where
  pure := ret
  bind := bind

theorem bind_assoc {γ : Type v} (p : Calls ρ α) (f : α → Calls ρ β) (g : β → Calls ρ γ) :
    p >>= f >>= g = p >>= fun a => f a >>= g := by
  change (p.bind f).bind g = p.bind fun a => (f a).bind g
  induction p with
  | ret a => rfl
  | panic => rfl
  | call next ih => exact congrArg call (funext ih)

/-- What a run leaves: the replies in order, the state of the service, and the result, unless
the program or the service panicked. -/
structure Run (σ : Type w) (ρ : Type u) (α : Type v) where
  replies : List ρ
  state : σ
  result : Option α

/-- Run a program against a service, which may panic. -/
def run (serve : σ → Option (ρ × σ)) : Calls ρ α → σ → Run σ ρ α
  | ret a, s => ⟨[], s, some a⟩
  | panic, s => ⟨[], s, none⟩
  | call next, s =>
    match serve s with
    | none => ⟨[], s, none⟩
    | some (r, s') =>
      let rest := (next r).run serve s'
      { rest with replies := r :: rest.replies }

/-- The service gives these replies one after the other. -/
inductive Serves (serve : σ → Option (ρ × σ)) : σ → List ρ → σ → Prop
  | nil {s} : Serves serve s [] s
  | cons {s s' s'' r rs} (first : serve s = some (r, s')) (rest : Serves serve s' rs s'') :
      Serves serve s (r :: rs) s''

variable {serve : σ → Option (ρ × σ)} {s s' s'' : σ} {rs rs' : List ρ}

/-- Every run, of whatever program, is a sequence of calls of the service. -/
theorem run_serves (p : Calls ρ α) (s : σ) :
    Serves serve s (p.run serve s).replies (p.run serve s).state := by
  induction p generalizing s with
  | ret a => exact .nil
  | panic => exact .nil
  | call next ih =>
    rw [run]
    cases first : serve s with
    | none => exact .nil
    | some reply => exact .cons first (ih _ _)

/-- A program that goes on with another one. -/
theorem run_bind (p : Calls ρ α) (f : α → Calls ρ β) (s : σ) :
    (p >>= f).run serve s =
      match (p.run serve s).result with
      | none => ⟨(p.run serve s).replies, (p.run serve s).state, none⟩
      | some a =>
        let rest := (f a).run serve (p.run serve s).state
        { rest with replies := (p.run serve s).replies ++ rest.replies } := by
  change (p.bind f).run serve s = _
  induction p generalizing s with
  | ret a => rfl
  | panic => rfl
  | call next ih =>
    simp only [bind, run]
    cases serve s with
    | none => rfl
    | some reply =>
      simp only [ih]
      cases ((next reply.1).run serve reply.2).result <;> rfl

/-- A run that returns is a run of the first program that returns, and one of what follows. -/
theorem run_bind_some {p : Calls ρ α} {f : α → Calls ρ β} {b : β}
    (h : ((p >>= f).run serve s).result = some b) :
    ∃ a, (p.run serve s).result = some a ∧
      ((f a).run serve (p.run serve s).state).result = some b ∧
      ((p >>= f).run serve s).replies =
        (p.run serve s).replies ++ ((f a).run serve (p.run serve s).state).replies := by
  rw [run_bind] at h ⊢
  cases hp : (p.run serve s).result with
  | none =>
    rw [hp] at h
    cases h
  | some a =>
    rw [hp] at h
    exact ⟨a, rfl, h, rfl⟩

/-- The calls of the first program come first. -/
theorem run_bind_replies {p : Calls ρ α} {a : α} (f : α → Calls ρ β)
    (h : (p.run serve s).result = some a) :
    ((p >>= f).run serve s).replies =
      (p.run serve s).replies ++ ((f a).run serve (p.run serve s).state).replies := by
  rw [run_bind, h]

/-- What comes after a program changes none of its replies. -/
theorem run_bind_reply {p : Calls ρ α} (f : α → Calls ρ β) {i : ℕ} {r : ρ}
    (h : (p.run serve s).replies[i]? = some r) : ((p >>= f).run serve s).replies[i]? = some r := by
  obtain ⟨hi, -⟩ := List.getElem?_eq_some_iff.mp h
  rw [run_bind]
  cases (p.run serve s).result with
  | none => exact h
  | some a => exact (List.getElem?_append_left hi).trans h

/-- An invariant counted by the calls, and what it says of each reply. -/
theorem Serves.counted {I : ℕ → σ → Prop} {P : ℕ → ρ → Prop} {N : ℕ}
    (hstep : ∀ n s r s', n < N → I n s → serve s = some (r, s') → P n r ∧ I (n + 1) s') {n : ℕ}
    (h : Serves serve s rs s') (hI : I n s) (hN : n + rs.length ≤ N) :
    (∀ i r, rs[i]? = some r → P (n + i) r) ∧ I (n + rs.length) s' := by
  induction h generalizing n with
  | nil => exact ⟨fun i r hi => by simp at hi, hI⟩
  | @cons s s' s'' r rs first rest ih =>
    rw [List.length_cons] at hN ⊢
    obtain ⟨hP, hI⟩ := hstep n s r s' (by omega) hI first
    obtain ⟨hrest, hlast⟩ := ih hI (by omega)
    refine ⟨fun i r' hi => ?_, ?_⟩
    · cases i with
      | zero =>
        cases hi
        exact hP
      | succ i =>
        have := hrest i r' (by simpa using hi)
        rwa [Nat.add_right_comm, Nat.add_assoc] at this
    · rwa [Nat.add_right_comm, Nat.add_assoc] at hlast

/-! ## Postconditions -/

/-- Whenever the program returns, whatever the service is in, this holds of the replies that it got
and of its result. -/
def Ensures (serve : σ → Option (ρ × σ)) (p : Calls ρ α) (Q : List ρ → α → Prop) : Prop :=
  ∀ s a, (p.run serve s).result = some a → Q (p.run serve s).replies a

namespace Ensures
variable {p : Calls ρ α} {f : α → Calls ρ β} {Q Q' : List ρ → α → Prop} {R : List ρ → β → Prop}
  {a : α}

lemma ret (h : Q [] a) : Ensures serve (ret a) Q := by
  intro s b hb
  cases hb
  exact h

lemma panic : Ensures serve panic Q := by
  intro s a ha
  cases ha

lemma call {next : ρ → Calls ρ α} (h : ∀ r, Ensures serve (next r) fun rs a => Q (r :: rs) a) :
    Ensures serve (call next) Q := by
  intro s a ha
  rw [run] at ha ⊢
  cases hserve : serve s with
  | none =>
    rw [hserve] at ha
    cases ha
  | some reply =>
    rw [hserve] at ha
    exact h reply.1 reply.2 a ha

lemma always : Ensures serve p fun _ _ => True := fun _ _ _ => trivial

lemma mono (h : Ensures serve p Q) (himp : ∀ rs a, Q rs a → Q' rs a) : Ensures serve p Q' :=
  fun s a ha => himp _ a (h s a ha)

lemma bind (h : Ensures serve p Q)
    (hf : ∀ rs a, Q rs a → Ensures serve (f a) fun rs' b => R (rs ++ rs') b) :
    Ensures serve (p >>= f) R := by
  intro s b hb
  obtain ⟨a, ha, hrest, hreplies⟩ := run_bind_some hb
  rw [hreplies]
  exact hf _ a (h s a ha) _ b hrest

end Ensures

end Calls
