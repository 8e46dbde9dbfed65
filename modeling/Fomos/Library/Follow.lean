import Mathlib

/-!
# Following a successor

The elements that a successor function leads to from a start, until it has none. On a finite type
this ends exactly when no element comes twice.
-/
namespace Follow
variable {α : Type*}

/-- The element that `k` successors lead to. -/
def nth (next : α → Option α) (a : α) : ℕ → Option α
  | 0 => some a
  | k + 1 => (nth next a k).bind next

/-- No element comes twice. -/
def Acyclic (next : α → Option α) (a : α) : Prop :=
  ∀ i j x, nth next a i = some x → nth next a j = some x → i = j

variable {next : α → Option α} {a b : α}

lemma nth_succ_of_next (h : next a = some b) (k : ℕ) : nth next a (k + 1) = nth next b k := by
  induction k with
  | zero => simpa [nth] using h
  | succ k ih => rw [nth, ih, nth]

lemma nth_of_next_none (h : next a = none) (k : ℕ) : nth next a (k + 1) = none := by
  induction k with
  | zero => simpa [nth] using h
  | succ k ih => rw [nth, ih, Option.bind_none]

lemma nth_none_add {k : ℕ} (h : nth next a k = none) (m : ℕ) : nth next a (k + m) = none := by
  induction m with
  | zero => exact h
  | succ m ih => rw [← Nat.add_assoc, nth, ih, Option.bind_none]

lemma nth_add_eq {i j : ℕ} (h : nth next a i = nth next a j) (m : ℕ) :
    nth next a (i + m) = nth next a (j + m) := by
  induction m with
  | zero => exact h
  | succ m ih => rw [← Nat.add_assoc, ← Nat.add_assoc, nth, nth, ih]

/-- An element that comes again comes for ever. -/
lemma nth_ne_none_of_repeat {i d : ℕ} {x : α} (hi : nth next a i = some x)
    (hrepeat : nth next a (i + (d + 1)) = some x) (k : ℕ) : nth next a k ≠ none := by
  have hperiod : ∀ m, nth next a (i + m * (d + 1)) = some x := by
    intro m
    induction m with
    | zero => simpa using hi
    | succ m ih =>
      have hshift := nth_add_eq (hi.trans hrepeat.symm) (m * (d + 1))
      have harith : i + (m + 1) * (d + 1) = i + (d + 1) + m * (d + 1) := by ring
      rw [harith, ← hshift, ih]
  intro hnone
  have hlater := nth_none_add hnone (i + k * d)
  have harith : k + (i + k * d) = i + k * (d + 1) := by ring
  rw [harith, hperiod] at hlater
  cases hlater

/-- What ends has no repeats. -/
lemma acyclic_of_ends {k : ℕ} (h : nth next a k = none) : Acyclic next a := by
  intro i j x hi hj
  by_contra hne
  obtain hlt | hlt := Nat.lt_or_gt_of_ne hne
  · obtain ⟨d, rfl⟩ := Nat.exists_eq_add_of_lt hlt
    exact nth_ne_none_of_repeat hi hj k h
  · obtain ⟨d, rfl⟩ := Nat.exists_eq_add_of_lt hlt
    exact nth_ne_none_of_repeat hj hi k h

/-- Without repeats there are at most as many elements as the type has. -/
lemma Acyclic.ends [Fintype α] (h : Acyclic next a) : nth next a (Fintype.card α) = none := by
  by_contra hsome
  have hall : ∀ k : Fin (Fintype.card α + 1), ∃ x, nth next a k = some x := by
    intro k
    apply Option.ne_none_iff_exists'.mp
    intro hnone
    obtain ⟨m, hm⟩ := Nat.exists_eq_add_of_le (Nat.le_of_lt_succ k.isLt)
    rw [hm] at hsome
    exact hsome (nth_none_add hnone m)
  choose x hx using hall
  have hinj : Function.Injective x := by
    intro i j hij
    apply Fin.ext
    exact h i j (x i) (hx i) (hij ▸ hx j)
  have hcard := Fintype.card_le_of_injective x hinj
  rw [Fintype.card_fin] at hcard
  omega

/-- A list that holds each element at its place has no repeats, if there are none. -/
lemma Acyclic.nodup {l : List α} (h : Acyclic next a) (hl : ∀ k, l[k]? = nth next a k) :
    l.Nodup := by
  rw [List.nodup_iff_getElem?_ne_getElem?]
  intro i j hij hj heq
  have hx : l[j]? = some l[j] := List.getElem?_eq_getElem hj
  have := h i j l[j] (by rw [← hl, heq, hx]) (by rw [← hl, hx])
  omega

end Follow
