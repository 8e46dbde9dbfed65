import Mathlib

/-! Iterators as lists: stepped ranges, functions that may panic on an element, and iterators whose
elements may panic when they are reached, which are lists of options. -/
namespace Iter

section Map
variable {α β : Type*} {f : α → Option β} {xs : List α} {ys : List β}

/-- A function is defined on a list when it is on each element. -/
theorem mapM_isSome_iff : (xs.mapM f).isSome ↔ ∀ x ∈ xs, (f x).isSome := by
  induction xs with
  | nil => simp
  | cons x xs ih =>
    rw [List.mapM_cons, List.forall_mem_cons, ← ih]
    cases f x <;> cases xs.mapM f <;> simp

theorem length_of_mapM (h : xs.mapM f = some ys) : ys.length = xs.length := by
  induction xs generalizing ys with
  | nil =>
    cases h
    rfl
  | cons x xs ih =>
    rw [List.mapM_cons] at h
    obtain ⟨y, -, hrest⟩ := Option.bind_eq_some_iff.mp h
    obtain ⟨ys, hys, heq⟩ := Option.bind_eq_some_iff.mp hrest
    cases heq
    rw [List.length_cons, List.length_cons, ih hys]

end Map

variable {α : Type} {addr start stop step skip take : ℕ} {it l : List (Option α)} {xs : List α}

/-- `(start..stop).step_by(step)`. -/
def stepBy (start stop step : ℕ) : List ℕ :=
  List.range' start ((stop - start + (step - 1)) / step) step

/-- `it.skip(skip).take(take)`: the skipped elements are reached too. -/
def skipTake (skip take : ℕ) (it : List (Option α)) : Option (List α) :=
  (it.take (skip + take)).allSome.map (List.drop skip)

theorem mem_stepBy (hstep : 0 < step) :
    addr ∈ stepBy start stop step ↔ (∃ i, addr = start + step * i) ∧ addr < stop := by
  simp only [stepBy, List.mem_range']
  constructor
  · rintro ⟨i, hi, rfl⟩
    refine ⟨⟨i, rfl⟩, ?_⟩
    have := (Nat.le_div_iff_mul_le hstep).mp (Nat.succ_le_of_lt hi)
    rw [Nat.succ_mul, Nat.mul_comm] at this
    omega
  · rintro ⟨⟨i, rfl⟩, hlt⟩
    refine ⟨i, Nat.lt_of_succ_le ((Nat.le_div_iff_mul_le hstep).mpr ?_), rfl⟩
    rw [Nat.succ_mul, Nat.mul_comm]
    omega

theorem nodup_stepBy (hstep : 0 < step) : (stepBy start stop step).Nodup :=
  List.nodup_range' step hstep

theorem allSome_eq_some : l.allSome = some xs ↔ l = xs.map some := by
  unfold List.allSome
  induction l generalizing xs with
  | nil => cases xs <;> simp
  | cons x l ih =>
    rw [List.mapM_cons]
    cases x with
    | none => cases xs <;> simp
    | some x => cases xs <;> simp [Option.bind_eq_some_iff, ih, and_comm]

theorem skipTake_eq_some (h : skipTake skip take it = some xs) :
    (it.drop skip).take take = xs.map some := by
  obtain ⟨ys, hys, rfl⟩ := Option.map_eq_some_iff.mp h
  rw [List.map_drop, ← allSome_eq_some.mp hys, List.drop_take, Nat.add_sub_cancel_left]

theorem allSome_isSome (h : ∀ x ∈ l, x.isSome) : l.allSome.isSome := by
  have hsome : ∃ xs : List α, l = xs.map some := by
    induction l with
    | nil => exact ⟨[], rfl⟩
    | cons x l ih =>
      obtain ⟨x, rfl⟩ := Option.isSome_iff_exists.mp (h x (.head _))
      obtain ⟨xs, rfl⟩ := ih fun y hy => h y (.tail _ hy)
      exact ⟨x :: xs, rfl⟩
  obtain ⟨xs, hxs⟩ := hsome
  rw [allSome_eq_some.mpr hxs]
  rfl

/-- An iterator none of whose elements panics can be driven as far as one likes. -/
theorem skipTake_isSome (h : ∀ x ∈ it, x.isSome) (skip take : ℕ) :
    (skipTake skip take it).isSome := by
  rw [skipTake, Option.isSome_map]
  exact allSome_isSome fun x hx => h x (List.mem_of_mem_take hx)

end Iter
