import Mathlib

/-!
# Fields of a word

A field of a word is some of its bits from a position on. It is read by a shift and a mask, and
replaced by clearing it and or-ing the new bits in. Words of bytes have the least byte first.
-/
namespace BitField
variable {w n : ℕ}

/-- The word with `x` from position `pos` on and zeros elsewhere. -/
def place (w pos : ℕ) (x : BitVec n) : BitVec w := x.setWidth w <<< pos

/-- The word `v` with `x` in place of its bits from position `pos` on. -/
def replace (v : BitVec w) (pos : ℕ) (x : BitVec n) : BitVec w :=
  v &&& ~~~place w pos (BitVec.allOnes n) ||| place w pos x

lemma getLsbD_place (pos : ℕ) (x : BitVec n) (i : ℕ) :
    (place w pos x).getLsbD i = (decide (i < w) && decide (pos ≤ i) && x.getLsbD (i - pos)) := by
  rw [place, BitVec.getLsbD_shiftLeft, BitVec.getLsbD_setWidth]
  by_cases hi : i < w
  · by_cases hp : pos ≤ i
    · have hlt : i - pos < w := by omega
      simp [hi, hp, hlt]
    · simp [hi, hp]
  · simp [hi]

lemma getLsbD_replace (v : BitVec w) (pos : ℕ) (x : BitVec n) {i : ℕ} (hi : i < w) :
    (replace v pos x).getLsbD i =
      if pos ≤ i ∧ i < pos + n then x.getLsbD (i - pos) else v.getLsbD i := by
  rw [replace, BitVec.getLsbD_or, BitVec.getLsbD_and, BitVec.getLsbD_not, getLsbD_place,
    getLsbD_place, BitVec.getLsbD_allOnes]
  split
  case isTrue h =>
    have hn : i - pos < n := by omega
    simp [hi, h.1, hn]
  case isFalse h =>
    by_cases hp : pos ≤ i
    · have hn : ¬i - pos < n := by omega
      have hx : x.getLsbD (i - pos) = false := BitVec.getLsbD_of_ge x _ (by omega)
      simp [hi, hn, hx]
    · simp [hi, hp]

/-! ## Reading a field -/

/-- A shift and a mask read a field. -/
lemma setWidth_shiftRight_and (v : BitVec w) (pos : ℕ) {mask : BitVec w}
    (hmask : mask = (BitVec.allOnes n).setWidth w) (hn : n ≤ w) :
    (v >>> pos &&& mask).setWidth n = v.extractLsb' pos n := by
  subst hmask
  apply BitVec.eq_of_getLsbD_eq
  intro i hi
  have hw : i < w := by omega
  simp [hi, hw]

variable {start len pos : ℕ}

lemma extract_place_inside (x : BitVec n) {k : ℕ} (hw : pos + k + len ≤ w) :
    (place w pos x).extractLsb' (pos + k) len = x.extractLsb' k len := by
  apply BitVec.eq_of_getLsbD_eq
  intro i hi
  have hlt : pos + k + i < w := by omega
  have hle : pos ≤ pos + k + i := by omega
  have hsub : pos + k + i - pos = k + i := by omega
  rw [BitVec.getLsbD_extractLsb', BitVec.getLsbD_extractLsb', getLsbD_place, hsub]
  simp [hlt, hle]

lemma extract_place_self (x : BitVec n) (hw : pos + n ≤ w) :
    (place w pos x).extractLsb' pos n = x := by
  have h := @extract_place_inside w n n pos x 0 (by omega)
  rwa [Nat.add_zero, BitVec.extractLsb'_eq_self] at h

lemma extract_place_outside (x : BitVec n) (h : start + len ≤ pos ∨ pos + n ≤ start) :
    (place w pos x).extractLsb' start len = BitVec.ofNat len 0 := by
  apply BitVec.eq_of_getLsbD_eq
  intro i hi
  rw [BitVec.getLsbD_extractLsb', getLsbD_place, BitVec.getLsbD_zero]
  obtain h | h := h
  · have hp : ¬pos ≤ start + i := by omega
    simp [hp]
  · have hx : x.getLsbD (start + i - pos) = false := BitVec.getLsbD_of_ge x _ (by omega)
    simp [hx]

lemma extract_replace_inside (v : BitVec w) (x : BitVec n) {k : ℕ} (hn : k + len ≤ n)
    (hw : pos + k + len ≤ w) :
    (replace v pos x).extractLsb' (pos + k) len = x.extractLsb' k len := by
  apply BitVec.eq_of_getLsbD_eq
  intro i hi
  have hsub : pos + k + i - pos = k + i := by omega
  rw [BitVec.getLsbD_extractLsb', BitVec.getLsbD_extractLsb', getLsbD_replace v pos x (by omega),
    if_pos ⟨by omega, by omega⟩, hsub]

lemma extract_replace_outside (v : BitVec w) (x : BitVec n)
    (h : start + len ≤ pos ∨ pos + n ≤ start) (hw : start + len ≤ w) :
    (replace v pos x).extractLsb' start len = v.extractLsb' start len := by
  apply BitVec.eq_of_getLsbD_eq
  intro i hi
  rw [BitVec.getLsbD_extractLsb', BitVec.getLsbD_extractLsb', getLsbD_replace v pos x (by omega),
    if_neg (by omega)]

lemma replace_all (v x : BitVec w) : replace v 0 x = x := by
  apply BitVec.eq_of_getLsbD_eq
  intro i hi
  rw [getLsbD_replace v 0 x hi, if_pos ⟨Nat.zero_le i, by omega⟩, Nat.sub_zero]

/-! ## Masks -/

/-- A mask of the `k` low bits is a remainder. -/
lemma toNat_and_lowMask (v : BitVec w) {mask : BitVec w} {k : ℕ} (hmask : mask.toNat = 2 ^ k - 1) :
    (v &&& mask).toNat = v.toNat % 2 ^ k := by
  rw [BitVec.toNat_and, hmask, Nat.and_two_pow_sub_one_eq_mod]

/-- A mask of all but the `k` low bits rounds down. -/
lemma toNat_and_highMask (v : BitVec w) {mask : BitVec w} {k : ℕ}
    (hmask : mask = BitVec.allOnes w <<< k) : (v &&& mask).toNat = v.toNat / 2 ^ k * 2 ^ k := by
  rw [hmask, ← BitVec.shiftLeft_ushiftRight, BitVec.toNat_shiftLeft, BitVec.toNat_ushiftRight,
    Nat.shiftLeft_eq, Nat.shiftRight_eq_div_pow]
  exact Nat.mod_eq_of_lt ((Nat.div_mul_le_self _ _).trans_lt v.isLt)

/-- A mask of the bit `k`. -/
lemma toNat_and_bit (v : BitVec w) {mask : BitVec w} {k : ℕ} (hmask : mask.toNat = 2 ^ k) :
    (v &&& mask).toNat = v.toNat / 2 ^ k % 2 * 2 ^ k := by
  have hbit := Nat.and_two_pow v.toNat k
  rw [Nat.toNat_testBit] at hbit
  rw [BitVec.toNat_and, hmask, hbit]

/-! ## Words of bytes -/

/-- The word of these bytes, the least first. -/
def littleEndian : (n : ℕ) → (ℕ → BitVec 8) → BitVec (8 * n)
  | 0, _ => 0#0
  | n + 1, byte => (byte n ++ littleEndian n byte).cast (by omega)

lemma getLsbD_littleEndian (byte : ℕ → BitVec 8) {i : ℕ} (hi : i < 8 * n) :
    (littleEndian n byte).getLsbD i = (byte (i / 8)).getLsbD (i % 8) := by
  induction n with
  | zero => omega
  | succ n ih =>
    rw [littleEndian, BitVec.getLsbD_cast, BitVec.getLsbD_append]
    by_cases hlow : i < 8 * n
    · rw [if_pos hlow, ih hlow]
    · have hdiv : i / 8 = n := by omega
      have hmod : i % 8 = i - 8 * n := by omega
      rw [if_neg hlow, hdiv, hmod]

lemma littleEndian_congr {byte byte' : ℕ → BitVec 8} (h : ∀ k < n, byte k = byte' k) :
    littleEndian n byte = littleEndian n byte' := by
  apply BitVec.eq_of_getLsbD_eq
  intro i hi
  rw [getLsbD_littleEndian byte hi, getLsbD_littleEndian byte' hi, h _ (by omega)]

lemma extract_littleEndian (byte : ℕ → BitVec 8) {k : ℕ} (hk : k + len ≤ n) :
    (littleEndian n byte).extractLsb' (8 * k) (8 * len) =
      littleEndian len fun i => byte (k + i) := by
  apply BitVec.eq_of_getLsbD_eq
  intro i hi
  have hdiv : (8 * k + i) / 8 = k + i / 8 := by omega
  have hmod : (8 * k + i) % 8 = i % 8 := by omega
  rw [BitVec.getLsbD_extractLsb', getLsbD_littleEndian byte (by omega),
    getLsbD_littleEndian _ hi, hdiv, hmod]
  simp [hi]

lemma extract_byte (byte : ℕ → BitVec 8) {k : ℕ} (hk : k < n) :
    (littleEndian n byte).extractLsb' (8 * k) 8 = byte k := by
  apply BitVec.eq_of_getLsbD_eq
  intro i hi
  have hdiv : (8 * k + i) / 8 = k := by omega
  have hmod : (8 * k + i) % 8 = i := by omega
  rw [BitVec.getLsbD_extractLsb', getLsbD_littleEndian byte (by omega), hdiv, hmod]
  simp [hi]

end BitField
