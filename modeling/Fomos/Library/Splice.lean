import Mathlib

/-!
# Writing a run of elements into a list

`splice off bs buf` replaces the elements of `buf` from `off` on by those of `bs`, one after the
other.
-/
namespace Splice
variable {α : Type*}

def splice (off : ℕ) : List α → List α → List α
  | [], buf => buf
  | b :: bs, buf => splice (off + 1) bs (buf.set off b)

@[simp] lemma length_splice (off : ℕ) (bs buf : List α) :
    (splice off bs buf).length = buf.length := by
  induction bs generalizing off buf with
  | nil => rfl
  | cons b bs ih => rw [splice, ih, List.length_set]

/-- Outside the run nothing changes. -/
lemma getElem?_splice_outside {off i : ℕ} {bs : List α} (buf : List α)
    (hi : i < off ∨ off + bs.length ≤ i) : (splice off bs buf)[i]? = buf[i]? := by
  induction bs generalizing off buf with
  | nil => rfl
  | cons b bs ih =>
    rw [List.length_cons] at hi
    rw [splice, ih _ (by omega), List.getElem?_set_ne (by omega)]

/-- Inside the run are its elements, if the list is long enough. -/
lemma getElem?_splice_inside {off k : ℕ} {bs buf : List α} (hk : k < bs.length)
    (hlen : off + bs.length ≤ buf.length) : (splice off bs buf)[off + k]? = bs[k]? := by
  induction bs generalizing off k buf with
  | nil => cases hk
  | cons b bs ih =>
    rw [List.length_cons] at hk hlen
    rw [splice]
    cases k with
    | zero =>
      change (splice (off + 1) bs (buf.set off b))[off]? = some b
      rw [getElem?_splice_outside _ (.inl (Nat.lt_add_one off)),
        List.getElem?_set_self (by omega)]
    | succ k =>
      have harith : off + (k + 1) = off + 1 + k := by omega
      rw [harith, ih (by omega) (by rw [List.length_set]; omega)]
      rfl

end Splice
