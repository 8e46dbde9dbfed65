import Mathlib
import Fomos.Library.Follow

/-!
# Framed records

A record begins with a header that tells how many elements follow it. Whoever follows the headers
of a buffer of records comes to the start of each of them and then to the end.
-/
namespace Framing
variable {α : Type*} {size : α → ℕ} {records : List (List α)} {k : ℕ}

/-- The position behind the record at `pos`, as its header tells it. -/
def next (size : α → ℕ) (buffer : List α) (pos : ℕ) : Option ℕ :=
  buffer[pos]?.map fun header => pos + 1 + size header

/-- The header tells how long the record is. -/
def Framed (size : α → ℕ) : List α → Prop
  | [] => False
  | header :: payload => size header = payload.length

/-- Where a record starts; there is a start behind the last one. -/
def start (records : List (List α)) (k : ℕ) : ℕ := (records.take k).flatten.length

lemma start_succ (hk : k < records.length) :
    start records (k + 1) = start records k + records[k].length := by
  rw [start, start, List.take_succ_eq_append_getElem hk, List.flatten_append, List.length_append,
    List.flatten_singleton]

lemma drop_start (hk : k < records.length) :
    records.flatten.drop (start records k) = records[k] ++ (records.drop (k + 1)).flatten := by
  have hsplit : records.flatten =
      (records.take k).flatten ++ (records[k] ++ (records.drop (k + 1)).flatten) := by
    rw [← List.flatten_cons, ← List.drop_eq_getElem_cons hk, ← List.flatten_append,
      List.take_append_drop]
  rw [hsplit, start, List.drop_left]

lemma getElem?_start {header : α} {payload : List α} (hk : k < records.length)
    (hrecord : records[k] = header :: payload) :
    records.flatten[start records k]? = some header := by
  have hdrop := drop_start hk
  rw [hrecord] at hdrop
  have hhead := congrArg (fun l => l[0]?) hdrop
  simpa using hhead

lemma next_start (h : ∀ r ∈ records, Framed size r) (hk : k < records.length) :
    next size records.flatten (start records k) = some (start records (k + 1)) := by
  have hframed := h records[k] (List.getElem_mem hk)
  cases hrecord : records[k] with
  | nil =>
    rw [hrecord] at hframed
    exact hframed.elim
  | cons header payload =>
    rw [hrecord] at hframed
    have hsize : size header = payload.length := hframed
    rw [next, getElem?_start hk hrecord, Option.map_some, start_succ hk, hrecord,
      List.length_cons, hsize, Nat.add_assoc, Nat.add_comm 1]

/-- Following the headers leads to the start of every record and then to the end. -/
theorem nth_next (h : ∀ r ∈ records, Framed size r) (hk : k ≤ records.length) :
    Follow.nth (next size records.flatten) 0 k = some (start records k) := by
  induction k with
  | zero => rfl
  | succ k ih =>
    rw [Follow.nth, ih (by omega), Option.bind_some]
    exact next_start h (by omega)

/-- At the end there is no header. -/
lemma next_length (buffer : List α) : next size buffer buffer.length = none := by
  rw [next, List.getElem?_eq_none (Nat.le_refl _), Option.map_none]

end Framing
