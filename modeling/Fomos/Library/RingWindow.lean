import Mathlib

/-! Rings of `n` slots addressed by free-running positions modulo `n`. A window states which
sequence the slots hold from a position on; only its last `n` elements are still stored. -/
namespace RingWindow

variable {α : Type*} {n a : ℕ} {mem : ℕ → α} {x : α} {xs : List α}

/-- From position `a` on, the slots of `mem` hold `xs`, as far as `xs` was not overwritten by
its own later elements. -/
def Holds (n : ℕ) (mem : ℕ → α) (a : ℕ) (xs : List α) : Prop :=
  ∀ i (h : i < xs.length), xs.length ≤ i + n → mem ((a + i) % n) = xs[i]

/-- Positions less than one turn apart use different slots. -/
theorem slot_ne {i j : ℕ} (hij : i < j) (hj : j < i + n) : (a + i) % n ≠ (a + j) % n := by
  intro h
  have hd := Nat.sub_mod_eq_zero_of_mod_eq h.symm
  rw [Nat.add_sub_add_left, Nat.mod_eq_of_lt (by omega)] at hd
  omega

theorem holds_nil : Holds n mem a [] := by
  intro i h
  simp at h

/-- Writing the slot after the window extends it by the written element. -/
theorem Holds.push (h : Holds n mem a xs) :
    Holds n (Function.update mem ((a + xs.length) % n) x) a (xs ++ [x]) := by
  intro i hi hw
  rw [List.length_append, List.length_singleton] at hi hw
  obtain hlt | hge := Nat.lt_or_ge i xs.length
  · rw [Function.update_of_ne (slot_ne hlt (by omega)), List.getElem_append_left hlt]
    exact h i hlt (by omega)
  · obtain rfl : i = xs.length := by omega
    simp

/-- The oldest element of a window that fits in the ring is in the slot of its position. -/
theorem Holds.head (hn : xs.length < n) (h : Holds n mem a (x :: xs)) : mem (a % n) = x :=
  h 0 (Nat.zero_lt_succ _) (by rw [Nat.zero_add]; exact hn)

/-- Moving on by one position drops the oldest element. -/
theorem Holds.tail (h : Holds n mem a (x :: xs)) : Holds n mem (a + 1) xs := by
  intro i hi hw
  have := h (i + 1) (by simpa using hi) (by simp only [List.length_cons]; omega)
  simpa [Nat.add_assoc, Nat.add_comm 1 i] using this

/-- Moving on by several positions drops as many elements. -/
theorem Holds.drop {ys : List α} (h : Holds n mem a (xs ++ ys)) :
    Holds n mem (a + xs.length) ys := by
  induction xs generalizing a with
  | nil => exact h
  | cons x xs ih =>
    have := ih h.tail
    rwa [Nat.add_assoc, Nat.add_comm 1] at this

/-- A window that fits in the ring is read back by walking over its positions. -/
theorem Holds.read (hn : xs.length ≤ n) (h : Holds n mem a xs) :
    (List.range xs.length).map (fun i => mem ((a + i) % n)) = xs := by
  apply List.ext_getElem (by simp)
  intro i hi _
  simp only [List.length_map, List.length_range] at hi
  simp [h i hi (by omega)]

/-- A cursor of `m` values addresses the same slots as the free-running position, when the ring
size divides `m`. -/
theorem slot_of_cursor {m : ℕ} (hm : n ∣ m) (a : ℕ) : a % m % n = a % n := Nat.mod_mod_of_dvd a hm

section Overrun
variable {len p j k count : ℕ}

/-- What a position finds of a window of `len` elements: the number of the last one that was
written to its slot. -/
def latest (n a len p : ℕ) : ℕ := Nat.findGreatest (fun k => (a + k) % n = p % n) (len - 1)

theorem latest_eq (hk : k < len) (hwindow : len ≤ k + n) (hslot : (a + k) % n = p % n) :
    latest n a len p = k := by
  refine Nat.findGreatest_eq_iff.mpr ⟨Nat.le_sub_one_of_lt hk, fun _ => hslot, ?_⟩
  intro i hi hlen heq
  exact slot_ne hi (by omega) (hslot.trans heq.symm)

/-- Positions are followed back from the end of the window, one turn of the ring at most. -/
lemma slot_behind (hn : 0 < n) (hlen : n ≤ len) (hp : (p + j + 1) % n = (a + len) % n) :
    (a + (len - 1 - j % n)) % n = p % n := by
  have hj : j % n < n := Nat.mod_lt j hn
  have hturn : a + (len - 1 - j % n) + (j % n + 1) = a + len := by omega
  have hcancel : a + (len - 1 - j % n) + (j + 1) ≡ p + (j + 1) [MOD n] := by
    calc a + (len - 1 - j % n) + (j + 1)
        ≡ a + (len - 1 - j % n) + (j % n + 1) [MOD n] :=
          ((Nat.mod_modEq j n).symm.add_right 1).add_left _
      _ = a + len := hturn
      _ ≡ p + (j + 1) [MOD n] := hp.symm
  exact hcancel.add_right_cancel'

theorem latest_behind (hn : 0 < n) (hlen : n ≤ len) (hp : (p + j + 1) % n = (a + len) % n) :
    latest n a len p = len - 1 - j % n := by
  have hj : j % n < n := Nat.mod_lt j hn
  exact latest_eq (by omega) (by omega) (slot_behind hn hlen hp)

/-- Of `count` positions up to the end of a window, the first `k` find its elements in order, and
none of them twice, exactly when they do not go beyond the first time that the newest element is
found. -/
theorem latest_pairwise_iff {k : ℕ} (hn : 0 < n) (hlen : n ≤ len) (hk : k ≤ count)
    (hend : 0 < count → (p + count) % n = (a + len) % n) :
    ((List.range' p k).map (latest n a len)).Pairwise (· < ·) ↔ k ≤ (count - 1) % n + 1 := by
  have hlatest : ∀ i < count, latest n a len (p + i) = len - 1 - (count - 1 - i) % n := by
    intro i hi
    apply latest_behind hn hlen
    rw [← hend (by omega)]
    congr 1
    omega
  have hr : (count - 1) % n < n := Nat.mod_lt _ hn
  have hturns : count - 1 = n * ((count - 1) / n) + (count - 1) % n := (Nat.div_add_mod _ _).symm
  rw [List.pairwise_iff_getElem]
  simp only [List.length_map, List.length_range', List.getElem_map, List.getElem_range',
    Nat.one_mul]
  constructor
  · intro hpairwise
    by_contra hmany
    -- the newest element comes first at the position `(count - 1) % n`
    have hsame := hpairwise ((count - 1) % n) ((count - 1) % n + 1) (by omega) (by omega) (by omega)
    rw [hlatest _ (by omega), hlatest _ (by omega)] at hsame
    have hfirst : count - 1 - (count - 1) % n = n * ((count - 1) / n) := by omega
    rw [hfirst, Nat.mul_mod_right] at hsame
    omega
  · intro hfew i j hi hj hij
    have hbehind : ∀ l ≤ (count - 1) % n, (count - 1 - l) % n = (count - 1) % n - l := by
      intro l hl
      have hsub : count - 1 - l = (count - 1) % n - l + n * ((count - 1) / n) := by omega
      rw [hsub, Nat.add_mul_mod_self_left, Nat.mod_eq_of_lt (by omega)]
    rw [hlatest i (by omega), hlatest j (by omega), hbehind i (by omega), hbehind j (by omega)]
    omega

/-- What is read from a position before the end of the window. -/
theorem Holds.read_latest (h : Holds n mem a xs) (hn : 0 < n) (hlen : n ≤ xs.length)
    (hp : (p + j + 1) % n = (a + xs.length) % n) :
    xs[latest n a xs.length p]? = some (mem (p % n)) := by
  have hj : j % n < n := Nat.mod_lt j hn
  have hlt : xs.length - 1 - j % n < xs.length := by omega
  rw [latest_behind hn hlen hp, List.getElem?_eq_getElem hlt, ← slot_behind hn hlen hp,
    h _ hlt (by omega)]

end Overrun

section Pending
variable {m i j : ℕ} {P : α → Prop}

/-- What is in the slots from the cursor `i` up to the cursor `j`, which count modulo `m`. -/
def pending (m n : ℕ) (mem : ℕ → α) (i j : ℕ) : List α :=
  (List.range ((j + m - i) % m)).map fun k => mem ((i + k) % m % n)

theorem length_pending : (pending m n mem i j).length = (j + m - i) % m := by
  simp [pending]

theorem pending_self : pending m n mem i i = [] := by
  simp [pending]

/-- The oldest element is in the slot of the first cursor. -/
theorem pending_cons (hi : i < m) (hj : j < m) (hne : i ≠ j) :
    pending m n mem i j = mem (i % n) :: pending m n mem ((i + 1) % m) j := by
  have hcount : (j + m - i) % m = (j + m - (i + 1) % m) % m + 1 := by
    have hnext : (i + 1) % m = if i + 1 = m then 0 else i + 1 := by
      split_ifs with h
      · rw [h, Nat.mod_self]
      · exact Nat.mod_eq_of_lt (by omega)
    rw [hnext]
    obtain hlt | hlt := Nat.lt_or_ge i j
    · have hwrap : j + m - i = j - i + m := by omega
      have hwrap' : j + m - (if i + 1 = m then 0 else i + 1) = j - (i + 1) + m := by
        split_ifs <;> omega
      rw [hwrap, hwrap', Nat.add_mod_right, Nat.add_mod_right, Nat.mod_eq_of_lt (by omega),
        Nat.mod_eq_of_lt (by omega)]
      omega
    · have hhead : (j + m - i) % m = j + m - i := Nat.mod_eq_of_lt (by omega)
      split_ifs with h
      · rw [hhead, Nat.sub_zero, Nat.add_mod_right, Nat.mod_eq_of_lt hj]
        omega
      · rw [hhead, Nat.mod_eq_of_lt (by omega)]
        omega
  rw [pending, hcount, List.range_succ_eq_map, List.map_cons, List.map_map, Nat.add_zero,
    Nat.mod_eq_of_lt hi, pending]
  congr 1
  refine List.map_congr_left fun k _ => ?_
  rw [Function.comp_apply, Nat.mod_add_mod, Nat.add_right_comm, Nat.add_assoc]

/-- Moving the second cursor on by one adds an element, unless the cursors meet. -/
theorem length_pending_push {x : α} (hi : i < m) (hroom : (pending m n mem i j).length + 1 < m) :
    (pending m n (Function.update mem (j % n) x) i ((j + 1) % m)).length =
      (pending m n mem i j).length + 1 := by
  simp only [length_pending] at hroom ⊢
  have hshift : ((j + 1) % m + m - i) % m = ((j + m - i) % m + 1) % m := by
    have hsub : (j + 1) % m + m - i = (j + 1) % m + (m - i) := by omega
    have hsub' : j + m - i + 1 = j + 1 + (m - i) := by omega
    rw [hsub, Nat.mod_add_mod, Nat.mod_add_mod, hsub']
  rw [hshift, Nat.mod_eq_of_lt hroom]

/-- What holds of all pending elements, and of one written at the second cursor, holds then too. -/
theorem forall_pending_push {x : α} (hi : i < m) (hj : j < m)
    (hroom : (pending m n mem i j).length + 1 < m) (hall : ∀ y ∈ pending m n mem i j, P y)
    (hx : P x) :
    ∀ y ∈ pending m n (Function.update mem (j % n) x) i ((j + 1) % m), P y := by
  have hlen : (pending m n (Function.update mem (j % n) x) i ((j + 1) % m)).length =
      (pending m n mem i j).length + 1 := length_pending_push hi hroom
  rw [length_pending, length_pending] at hlen
  intro y hy
  simp only [pending, List.mem_map, List.mem_range, hlen] at hy
  obtain ⟨k, hk, rfl⟩ := hy
  rw [Function.update_apply]
  split_ifs with hslot
  · exact hx
  · refine hall _ (List.mem_map.mpr ⟨k, List.mem_range.mpr ?_, rfl⟩)
    -- the last cursor is `j` itself, whose slot was written
    obtain hlt | rfl := Nat.lt_succ_iff_lt_or_eq.mp hk
    · exact hlt
    · exfalso
      apply hslot
      have hpos : i + (j + m - i) % m ≡ j [MOD m] := by
        have hsub : i + (j + m - i) = j + m := by omega
        calc i + (j + m - i) % m ≡ i + (j + m - i) [MOD m] := (Nat.mod_modEq _ _).add_left i
          _ = j + m := hsub
          _ ≡ j [MOD m] := Nat.add_modEq_right
      rw [hpos, Nat.mod_eq_of_lt hj]

end Pending

end RingWindow
