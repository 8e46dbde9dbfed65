import Mathlib

/-! Vectors of bounded capacity, pushed and popped at the end. A push on a full vector panics. -/

/-- A vector of at most `cap` elements. -/
structure ArrayVec (α : Type*) (cap : ℕ) where
  items : List α
  bounded : items.length ≤ cap

namespace ArrayVec
variable {α : Type*} {cap : ℕ} {v v' : ArrayVec α cap} {x : α} {xs : List α}

def new : ArrayVec α cap := ⟨[], Nat.zero_le cap⟩

def push (v : ArrayVec α cap) (x : α) : Option (ArrayVec α cap) :=
  if h : v.items.length < cap then some ⟨v.items ++ [x], by simp; omega⟩ else none

/-- Push the elements one after the other. -/
def extend (v : ArrayVec α cap) (xs : List α) : Option (ArrayVec α cap) := xs.foldlM push v

def reverse (v : ArrayVec α cap) : ArrayVec α cap :=
  ⟨v.items.reverse, by simpa using v.bounded⟩

/-- Remove the last element, if there is one. -/
def pop (v : ArrayVec α cap) : Option α × ArrayVec α cap :=
  (v.items.getLast?, ⟨v.items.dropLast, Nat.le_trans v.items.dropLast_sublist.length_le v.bounded⟩)

@[simp] theorem reverse_items : v.reverse.items = v.items.reverse := rfl

theorem push_eq_some (h : v.push x = some v') : v'.items = v.items ++ [x] := by
  unfold push at h
  split at h
  · cases h
    rfl
  · cases h

theorem push_isSome (h : v.items.length < cap) : (v.push x).isSome := by simp [push, h]

theorem extend_eq_some (h : v.extend xs = some v') : v'.items = v.items ++ xs := by
  unfold extend at h
  induction xs generalizing v with
  | nil =>
    cases h
    exact (List.append_nil _).symm
  | cons x xs ih =>
    rw [List.foldlM_cons] at h
    obtain ⟨w, hpush, hrest⟩ := Option.bind_eq_some_iff.mp h
    rw [ih hrest, push_eq_some hpush, List.append_assoc, List.singleton_append]

theorem extend_isSome (h : v.items.length + xs.length ≤ cap) : (v.extend xs).isSome := by
  unfold extend
  induction xs generalizing v with
  | nil => rfl
  | cons x xs ih =>
    rw [List.length_cons] at h
    obtain ⟨w, hpush⟩ := Option.isSome_iff_exists.mp (push_isSome (v := v) (x := x) (by omega))
    have hlen := congrArg List.length (push_eq_some hpush)
    rw [List.length_append, List.length_singleton] at hlen
    rw [List.foldlM_cons, hpush]
    exact ih (v := w) (by omega)

/-- What is popped from a reversed vector is what was pushed first. -/
theorem pop_reverse (v : ArrayVec α cap) :
    v.items.reverse = v.pop.1.toList ++ v.pop.2.items.reverse := by
  obtain ⟨items, h⟩ := v
  cases items using List.reverseRecOn with
  | nil => rfl
  | append_singleton xs x => simp [pop]

end ArrayVec
