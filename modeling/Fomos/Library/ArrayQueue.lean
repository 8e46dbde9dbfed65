import Mathlib

/-! Bounded FIFO queues: a push on a full queue fails and leaves the element with the caller. -/

/-- A queue of at most `cap` elements, the oldest first. -/
structure ArrayQueue (α : Type*) (cap : ℕ) where
  items : List α
  bounded : items.length ≤ cap

namespace ArrayQueue
variable {α : Type*} {cap : ℕ}

/-- The queue without elements. -/
def empty : ArrayQueue α cap := ⟨[], Nat.zero_le cap⟩

/-- Append an element, unless the queue is full. -/
def push (q : ArrayQueue α cap) (x : α) : Option (ArrayQueue α cap) :=
  if h : q.items.length < cap then some ⟨q.items ++ [x], by simp; omega⟩ else none

/-- A push whose result is ignored: on a full queue the element is lost. -/
def tryPush (q : ArrayQueue α cap) (x : α) : ArrayQueue α cap := (q.push x).getD q

/-- Remove the oldest element. -/
def pop (q : ArrayQueue α cap) : Option (α × ArrayQueue α cap) :=
  match q with
  | ⟨[], _⟩ => none
  | ⟨x :: xs, h⟩ => some (x, ⟨xs, Nat.le_of_succ_le h⟩)

@[ext] theorem ext {q r : ArrayQueue α cap} (h : q.items = r.items) : q = r := by
  cases q
  cases r
  simpa using h

@[simp] theorem empty_items : (empty : ArrayQueue α cap).items = [] := rfl

theorem push_eq_some {q q' : ArrayQueue α cap} {x : α} (h : q.push x = some q') :
    q'.items = q.items ++ [x] := by
  unfold push at h
  split at h
  · cases h
    rfl
  · cases h

theorem push_eq_none {q : ArrayQueue α cap} {x : α} :
    q.push x = none ↔ q.items.length = cap := by
  have hb := q.bounded
  unfold push
  split <;> simp <;> omega

theorem tryPush_items {q : ArrayQueue α cap} {x : α} (h : q.items.length < cap) :
    (q.tryPush x).items = q.items ++ [x] := by
  simp [tryPush, push, h]

theorem tryPush_full {q : ArrayQueue α cap} {x : α} (h : q.items.length = cap) :
    q.tryPush x = q := by
  simp [tryPush, push, h]

/-- A push with ignored result appends the element or changes nothing. -/
theorem tryPush_cases (q : ArrayQueue α cap) (x : α) :
    (q.items.length < cap ∧ (q.tryPush x).items = q.items ++ [x]) ∨
      (q.items.length = cap ∧ (q.tryPush x).items = q.items) := by
  obtain h | h := Nat.lt_or_eq_of_le q.bounded
  · exact .inl ⟨h, tryPush_items h⟩
  · exact .inr ⟨h, by rw [tryPush_full h]⟩

theorem pop_eq_some {q q' : ArrayQueue α cap} {x : α} :
    q.pop = some (x, q') ↔ q.items = x :: q'.items := by
  obtain ⟨items, h⟩ := q
  cases items with
  | nil => simp [pop]
  | cons y ys =>
    simp only [pop, Option.some.injEq, Prod.mk.injEq, List.cons.injEq]
    exact and_congr_right fun _ => ⟨fun hq => by rw [← hq], fun hq => ArrayQueue.ext hq⟩

theorem pop_eq_none {q : ArrayQueue α cap} : q.pop = none ↔ q.items = [] := by
  obtain ⟨items, h⟩ := q
  cases items <;> simp [pop]

end ArrayQueue
