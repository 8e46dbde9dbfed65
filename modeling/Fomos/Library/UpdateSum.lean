import Mathlib

/-! Sums of a weight over the values of a function that is updated at one place. -/
namespace UpdateSum
variable {ι β : Type*} [DecidableEq ι] {s : Finset ι} {i : ι} (f : ι → β) (b : β) (w : β → ℕ)

theorem sum_update_add (hi : i ∈ s) :
    ∑ j ∈ s, w (Function.update f i b j) + w (f i) = ∑ j ∈ s, w (f j) + w b := by
  have hrest : ∑ j ∈ s.erase i, w (Function.update f i b j) = ∑ j ∈ s.erase i, w (f j) :=
    Finset.sum_congr rfl fun j hj => by rw [Function.update_of_ne (Finset.ne_of_mem_erase hj)]
  rw [← Finset.sum_erase_add s _ hi, ← Finset.sum_erase_add s (fun j => w (f j)) hi, hrest,
    Function.update_self]
  omega

theorem sum_update_of_notMem (hi : i ∉ s) :
    ∑ j ∈ s, w (Function.update f i b j) = ∑ j ∈ s, w (f j) :=
  Finset.sum_congr rfl fun j hj => by
    rw [Function.update_of_ne (ne_of_mem_of_not_mem hj hi)]

/-- Updating past the end of a range and taking one more element adds the new weight. -/
theorem sum_range_succ_update (n : ℕ) (f : ℕ → β) :
    ∑ j ∈ Finset.range (n + 1), w (Function.update f n b j) =
      ∑ j ∈ Finset.range n, w (f j) + w b := by
  rw [Finset.sum_range_succ, sum_update_of_notMem _ _ _ (by simp), Function.update_self]

/-- Two places contribute both their weights. -/
theorem add_le_sum {j : ι} (hij : i ≠ j) (hi : i ∈ s) (hj : j ∈ s) :
    w (f i) + w (f j) ≤ ∑ k ∈ s, w (f k) := by
  rw [← Finset.sum_pair (f := fun k => w (f k)) hij]
  exact Finset.sum_le_sum_of_subset (by simp [Finset.insert_subset_iff, hi, hj])

omit [DecidableEq ι] in
theorem le_sum (hi : i ∈ s) : w (f i) ≤ ∑ k ∈ s, w (f k) :=
  Finset.single_le_sum (f := fun k => w (f k)) (fun _ _ => Nat.zero_le _) hi

end UpdateSum
