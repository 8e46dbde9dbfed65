import Mathlib

/-! Byte offsets in lists of characters, as the slices of a UTF-8 string use them. -/
namespace Utf8
open String

/-- The text from a byte offset on, if the offset is on a character boundary of it. -/
def sliceFrom : ℕ → List Char → Option (List Char)
  | 0, text => some text
  | _ + 1, [] => none
  | n + 1, c :: text => if c.utf8Size ≤ n + 1 then sliceFrom (n + 1 - c.utf8Size) text else none

@[simp] theorem sliceFrom_zero (text : List Char) : sliceFrom 0 text = some text := by
  cases text <;> rfl

/-- The end of any first part is a boundary. -/
theorem sliceFrom_append (start rest : List Char) :
    sliceFrom (utf8Len start) (start ++ rest) = some rest := by
  induction start with
  | nil => exact sliceFrom_zero rest
  | cons c start ih =>
    obtain ⟨n, hn⟩ := Nat.exists_eq_add_one.mpr (Nat.add_pos_right (utf8Len start) c.utf8Size_pos)
    rw [List.cons_append, utf8Len_cons, hn, sliceFrom, ← hn, if_pos (Nat.le_add_left _ _),
      Nat.add_sub_cancel]
    exact ih

end Utf8
