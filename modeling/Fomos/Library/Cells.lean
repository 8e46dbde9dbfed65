import Mathlib

/-!
# Loads and stores of several cells

A memory is a function on addresses. A store replaces the cells from an address on, and a load
reads a number of them.
-/
namespace Cells
variable {α : Type*} {mem : ℕ → α} {a b n : ℕ} {xs : List α}

def load (mem : ℕ → α) (a n : ℕ) : List α := (List.range n).map fun i => mem (a + i)

def store (a : ℕ) (xs : List α) (mem : ℕ → α) : ℕ → α := fun x =>
  if x < a then mem x else xs[x - a]?.getD (mem x)

/-- Two ranges without a common cell. -/
def Apart (a n b m : ℕ) : Prop := a + n ≤ b ∨ b + m ≤ a

@[simp] theorem length_load (mem : ℕ → α) (a n : ℕ) : (load mem a n).length = n := by simp [load]

theorem load_congr {mem' : ℕ → α} (h : ∀ i < n, mem (a + i) = mem' (a + i)) :
    load mem a n = load mem' a n :=
  List.map_congr_left fun i hi => h i (List.mem_range.mp hi)

theorem take_load {k : ℕ} (h : k ≤ n) (mem : ℕ → α) (a : ℕ) :
    (load mem a n).take k = load mem a k := by
  rw [load, ← List.map_take, List.take_range, Nat.min_eq_left h, load]

theorem store_outside {x : ℕ} (h : x < a ∨ a + xs.length ≤ x) : store a xs mem x = mem x := by
  unfold store
  split
  · rfl
  · rw [List.getElem?_eq_none (by omega)]
    rfl

/-- What was stored is loaded. -/
theorem load_store (a : ℕ) (xs : List α) (mem : ℕ → α) :
    load (store a xs mem) a xs.length = xs := by
  refine List.ext_getElem (length_load ..) fun i hi hi' => ?_
  simp [load, store, hi']

theorem load_store_apart (h : Apart b xs.length a n) :
    load (store b xs mem) a n = load mem a n := by
  unfold Apart at h
  exact load_congr fun i hi => store_outside (by omega)

/-- Parts of ranges that are apart are apart. -/
theorem Apart.mono {m n' m' : ℕ} (h : Apart a n b m) (hn : n' ≤ n) (hm : m' ≤ m) :
    Apart a n' b m' := by
  unfold Apart at h ⊢
  omega

/-- Two pages of one size are apart or the same. -/
theorem apart_of_dvd {p : ℕ} (ha : p ∣ a) (hb : p ∣ b) (hne : a ≠ b) : Apart a p b p := by
  obtain ⟨i, rfl⟩ := ha
  obtain ⟨j, rfl⟩ := hb
  obtain hij | hij := Nat.lt_or_gt_of_ne (fun h : i = j => hne (h ▸ rfl))
  · exact .inl (Nat.mul_succ p i ▸ Nat.mul_le_mul_left p hij)
  · exact .inr (Nat.mul_succ p j ▸ Nat.mul_le_mul_left p hij)

end Cells
