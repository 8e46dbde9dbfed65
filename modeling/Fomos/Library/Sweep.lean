import Mathlib

/-! Sweeps over the cells of a grid that is stored row by row in a list. A sweep writes each cell in
turn and ends without a result at the first cell that is not in the list. -/
namespace Sweep

variable {α : Type*} {wi hi : ℕ} {value : ℕ × ℕ → Option (α → α)} {cs : List (ℕ × ℕ)}
  {dst dst' : List α}

/-- The cells `(x, y)` of a grid, as a loop over `y` around one over `x` visits them. -/
def cells (wi hi : ℕ) : List (ℕ × ℕ) :=
  (List.range hi).flatMap fun y => (List.range wi).map fun x => (x, y)

def index (wi : ℕ) (c : ℕ × ℕ) : ℕ := c.1 + c.2 * wi

/-- Each cell is changed by a function computed for it. -/
def sweep (wi : ℕ) (value : ℕ × ℕ → Option (α → α)) : List (ℕ × ℕ) → List α → Option (List α)
  | [], dst => some dst
  | c :: cs, dst => do
    let f ← value c
    let old ← dst[index wi c]?
    sweep wi value cs (dst.set (index wi c) (f old))

@[simp] theorem mem_cells {c : ℕ × ℕ} : c ∈ cells wi hi ↔ c.1 < wi ∧ c.2 < hi := by
  unfold cells
  constructor
  · intro h
    obtain ⟨y, hy, hc⟩ := List.mem_flatMap.mp h
    obtain ⟨x, hx, rfl⟩ := List.mem_map.mp hc
    exact ⟨List.mem_range.mp hx, List.mem_range.mp hy⟩
  · rintro ⟨hx, hy⟩
    exact List.mem_flatMap.mpr ⟨c.2, List.mem_range.mpr hy,
      List.mem_map.mpr ⟨c.1, List.mem_range.mpr hx, rfl⟩⟩

theorem length_cells (wi hi : ℕ) : (cells wi hi).length = wi * hi := by
  simp [cells, Nat.mul_comm]

theorem index_lt {c : ℕ × ℕ} (hx : c.1 < wi) (hy : c.2 < hi) : index wi c < wi * hi := by
  have hrow : (c.2 + 1) * wi ≤ hi * wi := Nat.mul_le_mul_right wi hy
  rw [Nat.add_mul, Nat.one_mul] at hrow
  rw [index, Nat.mul_comm wi hi]
  omega

/-- The cell in the last corner has the last index. -/
theorem index_last (hw : 0 < wi) (hh : 0 < hi) : index wi (wi - 1, hi - 1) = wi * hi - 1 := by
  obtain ⟨w, rfl⟩ := Nat.exists_eq_add_one.mpr hw
  obtain ⟨h, rfl⟩ := Nat.exists_eq_add_one.mpr hh
  simp only [index, Nat.add_sub_cancel]
  have : (w + 1) * (h + 1) = w + h * (w + 1) + 1 := by ring
  omega

/-- A sweep comes to its end exactly when every cell is computed and within the list. -/
theorem sweep_isSome_iff :
    (sweep wi value cs dst).isSome ↔ ∀ c ∈ cs, (value c).isSome ∧ index wi c < dst.length := by
  induction cs generalizing dst with
  | nil => simp [sweep]
  | cons c cs ih =>
    rw [sweep, List.forall_mem_cons]
    cases hvalue : value c with
    | none => simp
    | some f =>
      by_cases hindex : index wi c < dst.length
      · rw [List.getElem?_eq_getElem hindex]
        simpa [hindex] using @ih (dst.set (index wi c) (f dst[index wi c]))
      · rw [List.getElem?_eq_none (Nat.le_of_not_lt hindex)]
        simp [hindex]

theorem length_of_sweep (h : sweep wi value cs dst = some dst') : dst'.length = dst.length := by
  induction cs generalizing dst with
  | nil =>
    cases h
    rfl
  | cons c cs ih =>
    obtain ⟨f, -, hrest⟩ := Option.bind_eq_some_iff.mp h
    obtain ⟨old, -, hrest⟩ := Option.bind_eq_some_iff.mp hrest
    rw [ih hrest, List.length_set]

/-- A sweep over a whole grid ends exactly when the list is as long as the grid. -/
theorem sweep_cells_isSome_iff (hw : 0 < wi) (hh : 0 < hi)
    (hvalue : ∀ c ∈ cells wi hi, (value c).isSome) :
    (sweep wi value (cells wi hi) dst).isSome ↔ wi * hi ≤ dst.length := by
  have hpos : 0 < wi * hi := Nat.mul_pos hw hh
  rw [sweep_isSome_iff]
  constructor
  · intro h
    have hlast := (h (wi - 1, hi - 1) (by simp; omega)).2
    rw [index_last hw hh] at hlast
    omega
  · intro h c hc
    obtain ⟨hx, hy⟩ := mem_cells.mp hc
    exact ⟨hvalue c hc, (index_lt hx hy).trans_le h⟩

end Sweep
