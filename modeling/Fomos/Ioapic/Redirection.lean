import Mathlib
import Fomos.Library.BitField

/-!
# The redirection entries of the IOAPIC

`RedTbl` decodes an entry one bit short of the hardware's layout from bit 10 on: its `mask` is the
trigger mode, and the interrupt mask at bit 16 is lost. The boot loop keeps every other bit.
-/
namespace Fomos
open BitField

/-- The register file behind the select register and the window. -/
structure IoApic where
  sel : BitVec 32
  regs : ℕ → BitVec 32

namespace IoApic

def setSel (reg : ℕ) (ioa : IoApic) : IoApic := { ioa with sel := BitVec.ofNat 32 reg }

def read (reg : ℕ) (ioa : IoApic) : BitVec 32 × IoApic :=
  let ioa := ioa.setSel reg
  (ioa.regs ioa.sel.toNat, ioa)

def write (reg : ℕ) (value : BitVec 32) (ioa : IoApic) : IoApic :=
  let ioa := ioa.setSel reg
  { ioa with regs := Function.update ioa.regs ioa.sel.toNat value }

def readRedtlb (index : ℕ) (ioa : IoApic) : BitVec 64 × IoApic :=
  let (low, ioa) := ioa.read (0x10 + 2 * index)
  let (high, ioa) := ioa.read (0x10 + 2 * index + 1)
  (high.setWidth 64 <<< 32 + low.setWidth 64, ioa)

def writeRedtlb (index : ℕ) (redtlb : BitVec 64) (ioa : IoApic) : IoApic :=
  let ioa := ioa.write (0x10 + 2 * index) ((redtlb &&& 0xffff#64).setWidth 32)
  ioa.write (0x10 + 2 * index + 1) ((redtlb >>> 32).setWidth 32)

end IoApic

structure RedTbl where
  vector : BitVec 8
  deliveryMode : BitVec 8
  destinationMode : Bool
  deliveryStatus : Bool
  pinPolarity : Bool
  remoteIrr : Bool
  triggerMode : Bool
  mask : Bool
  destination : BitVec 8
  deriving DecidableEq, Repr

/-- `c & 0b1 != 0` -/
def lowBit (c : BitVec 64) : Bool := c &&& 0b1#64 != 0#64

/-- `if b { 1 } else { 0 } << i` -/
def bitAt (b : Bool) (i : ℕ) : BitVec 64 := (if b then 1#64 else 0#64) <<< i

namespace RedTbl

def new (n : BitVec 64) : RedTbl :=
  let c := n
  let vector := (c &&& 0xff#64).setWidth 8
  let c := c >>> 8
  let deliveryMode := (c &&& 0b11#64).setWidth 8
  let c := c >>> 2
  let destinationMode := lowBit c
  let c := c >>> 1
  let deliveryStatus := lowBit c
  let c := c >>> 1
  let pinPolarity := lowBit c
  let c := c >>> 1
  let remoteIrr := lowBit c
  let c := c >>> 1
  let triggerMode := lowBit c
  let c := c >>> 1
  let mask := lowBit c
  let destination := (n >>> 56).setWidth 8
  { vector, deliveryMode, destinationMode, deliveryStatus, pinPolarity, remoteIrr, triggerMode,
    mask, destination }

def store (red : RedTbl) : BitVec 64 :=
  let r := 0#64
  let r := r + red.destination.setWidth 64 <<< 56
  let r := r + red.vector.setWidth 64
  let r := r + red.deliveryMode.setWidth 64 <<< 8
  let r := r + bitAt red.destinationMode 10
  let r := r + bitAt red.deliveryStatus 11
  let r := r + bitAt red.pinPolarity 12
  let r := r + bitAt red.remoteIrr 13
  let r := r + bitAt red.triggerMode 14
  let r := r + bitAt red.mask 15
  r

end RedTbl

namespace IoApic

/-- One pin of the boot loop. -/
def redirect (i : ℕ) (ioa : IoApic) : IoApic :=
  let (n, ioa) := ioa.readRedtlb i
  let red := { RedTbl.new n with vector := BitVec.ofNat 8 (50 + i) }
  ioa.writeRedtlb i red.store

/-- The pins `0..k` of the boot loop, in order. -/
def redirectTo : ℕ → IoApic → IoApic
  | 0, ioa => ioa
  | k + 1, ioa => (ioa.redirectTo k).redirect k

def numPins : ℕ := 24

/-- `for io_apic in apic.io_apics.iter()`: `IO_APIC_0` is set once, so that each round is on the
first of them. -/
def redirectAll : ℕ → IoApic → IoApic
  | 0, ioa => ioa
  | rounds + 1, ioa => (ioa.redirectAll rounds).redirectTo numPins

/-- `ioapic_handler_2`, without the end of interrupt. -/
def ioapicHandler2 (ioa : IoApic) : IoApic :=
  let (n, ioa) := ioa.readRedtlb 2
  ioa.writeRedtlb 2 (RedTbl.new n).store

/-- The entry that is in the registers of a pin. -/
def entry (ioa : IoApic) (i : ℕ) : BitVec 64 := (ioa.readRedtlb i).1

end IoApic

section Bits

lemma toNat_lowBit (c : BitVec 64) : (lowBit c).toNat = c.toNat % 2 := by
  have hbit : (c &&& 0b1#64).toNat = c.toNat % 2 := toNat_and_lowMask c (k := 1) rfl
  unfold lowBit
  by_cases h : c &&& 0b1#64 = 0#64
  · rw [h] at hbit
    simp [h, ← hbit]
  · have hne : (c &&& 0b1#64).toNat ≠ 0 := fun h0 => h (BitVec.eq_of_toNat_eq h0)
    have htrue : (c &&& 0b1#64 != 0#64) = true := bne_iff_ne.mpr h
    rw [htrue]
    change 1 = _
    omega

lemma toNat_bitAt (b : Bool) {i : ℕ} (hi : i < 64) : (bitAt b i).toNat = b.toNat * 2 ^ i := by
  have hlt : 2 ^ i < 2 ^ 64 := Nat.pow_lt_pow_right Nat.one_lt_two hi
  cases b with
  | false => simp [bitAt]
  | true =>
    simp only [bitAt, if_true, BitVec.toNat_shiftLeft, BitVec.toNat_ofNat, Nat.shiftLeft_eq]
    simpa using hlt

lemma lowBit_congr {c d : BitVec 64} (h : c.toNat % 2 = d.toNat % 2) : lowBit c = lowBit d := by
  rw [← toNat_lowBit, ← toNat_lowBit] at h
  revert h
  cases lowBit c <;> cases lowBit d <;> decide

end Bits

namespace RedTbl

/-- The encoding as a sum: none of its additions overflows. -/
lemma toNat_store (red : RedTbl) : red.store.toNat =
    red.destination.toNat * 2 ^ 56 + red.vector.toNat + red.deliveryMode.toNat * 2 ^ 8 +
      red.destinationMode.toNat * 2 ^ 10 + red.deliveryStatus.toNat * 2 ^ 11 +
      red.pinPolarity.toNat * 2 ^ 12 + red.remoteIrr.toNat * 2 ^ 13 +
      red.triggerMode.toNat * 2 ^ 14 + red.mask.toNat * 2 ^ 15 := by
  have hwiden : ∀ v : BitVec 8, (v.setWidth 64).toNat = v.toNat := by
    intro v
    rw [BitVec.toNat_setWidth]
    apply Nat.mod_eq_of_lt
    exact v.isLt.trans (by decide)
  simp only [store, BitVec.toNat_add, BitVec.toNat_shiftLeft, hwiden, toNat_bitAt,
    Nat.shiftLeft_eq, Nat.reduceLT, Nat.mod_add_mod, Nat.add_mod_mod, BitVec.toNat_ofNat,
    Nat.zero_mod, Nat.zero_add]
  apply Nat.mod_eq_of_lt
  have := red.destination.isLt
  have := red.vector.isLt
  have := red.deliveryMode.isLt
  have := red.destinationMode.toNat_le
  have := red.deliveryStatus.toNat_le
  have := red.pinPolarity.toNat_le
  have := red.remoteIrr.toNat_le
  have := red.triggerMode.toNat_le
  have := red.mask.toNat_le
  omega

/-- What is left of an entry whose vector is set. -/
lemma toNat_store_new (n : BitVec 64) (vector : BitVec 8) :
    ({ new n with vector := vector } : RedTbl).store.toNat =
      n.toNat / 2 ^ 56 * 2 ^ 56 + n.toNat / 2 ^ 8 % 2 ^ 8 * 2 ^ 8 + vector.toNat := by
  have hdelivery : ((n >>> 8 &&& 0b11#64).setWidth 8).toNat = n.toNat / 2 ^ 8 % 2 ^ 2 := by
    rw [BitVec.toNat_setWidth, toNat_and_lowMask _ (show (0b11#64).toNat = 2 ^ 2 - 1 from rfl),
      BitVec.toNat_ushiftRight, Nat.shiftRight_eq_div_pow]
    omega
  have hdestination : ((n >>> 56).setWidth 8).toNat = n.toNat / 2 ^ 56 := by
    rw [BitVec.toNat_setWidth, BitVec.toNat_ushiftRight, Nat.shiftRight_eq_div_pow]
    have := n.isLt
    omega
  rw [toNat_store]
  simp only [new, toNat_lowBit, hdelivery, hdestination, BitVec.toNat_ushiftRight,
    Nat.shiftRight_eq_div_pow, Nat.div_div_eq_div_mul, ← Nat.pow_add, Nat.reduceAdd]
  omega

/-- What is decoded are the low 16 bits and the high 8. -/
lemma new_congr {n m : BitVec 64} (hlow : m.toNat % 2 ^ 16 = n.toNat % 2 ^ 16)
    (hhigh : m.toNat / 2 ^ 56 = n.toNat / 2 ^ 56) : new m = new n := by
  have hbit : ∀ k < 16, m.toNat / 2 ^ k % 2 = n.toNat / 2 ^ k % 2 := by
    intro k hk
    interval_cases k <;> omega
  simp only [new, mk.injEq]
  refine ⟨?_, ?_, ?_, ?_, ?_, ?_, ?_, ?_, ?_⟩
  · apply BitVec.eq_of_toNat_eq
    have hmask : (0xff#64).toNat = 2 ^ 8 - 1 := rfl
    rw [BitVec.toNat_setWidth, BitVec.toNat_setWidth, toNat_and_lowMask _ hmask,
      toNat_and_lowMask _ hmask]
    omega
  · apply BitVec.eq_of_toNat_eq
    have hmask : (0b11#64).toNat = 2 ^ 2 - 1 := rfl
    rw [BitVec.toNat_setWidth, BitVec.toNat_setWidth, toNat_and_lowMask _ hmask,
      toNat_and_lowMask _ hmask, BitVec.toNat_ushiftRight, BitVec.toNat_ushiftRight,
      Nat.shiftRight_eq_div_pow, Nat.shiftRight_eq_div_pow]
    omega
  case refine_9 =>
    apply BitVec.eq_of_toNat_eq
    rw [BitVec.toNat_setWidth, BitVec.toNat_setWidth, BitVec.toNat_ushiftRight,
      BitVec.toNat_ushiftRight, Nat.shiftRight_eq_div_pow, Nat.shiftRight_eq_div_pow, hhigh]
  all_goals
    apply lowBit_congr
    simp only [BitVec.toNat_ushiftRight, Nat.shiftRight_eq_div_pow, Nat.div_div_eq_div_mul,
      ← Nat.pow_add, Nat.reduceAdd]
    exact hbit _ (by decide)

lemma toNat_store_new_self (n : BitVec 64) :
    (new n).store.toNat = n.toNat / 2 ^ 56 * 2 ^ 56 + n.toNat % 2 ^ 16 := by
  have hvector : (new n).vector.toNat = n.toNat % 2 ^ 8 := by
    change ((n &&& 0xff#64).setWidth 8).toNat = _
    rw [BitVec.toNat_setWidth, toNat_and_lowMask _ (show (0xff#64).toNat = 2 ^ 8 - 1 from rfl)]
    omega
  have hstore := toNat_store_new n (new n).vector
  change (new n).store.toNat = _ at hstore
  rw [hstore, hvector]
  omega

/-- Decoding, encoding and decoding again is decoding. -/
lemma new_store_new (n : BitVec 64) : new (new n).store = new n := by
  have hstore := toNat_store_new_self n
  have := n.isLt
  apply new_congr
  · omega
  · omega

end RedTbl

namespace IoApic
variable {ioa : IoApic} {i j : ℕ}

lemma toNat_sel {reg : ℕ} (hreg : reg < 2 ^ 32) : (ioa.setSel reg).sel.toNat = reg := by
  change (BitVec.ofNat 32 reg).toNat = reg
  rw [BitVec.toNat_ofNat, Nat.mod_eq_of_lt hreg]

lemma toNat_entry (hi : i < 2 ^ 30) : (ioa.entry i).toNat =
    (ioa.regs (0x10 + 2 * i + 1)).toNat * 2 ^ 32 + (ioa.regs (0x10 + 2 * i)).toNat := by
  have hlow : (ioa.read (0x10 + 2 * i)).1 = ioa.regs (0x10 + 2 * i) := by
    change ioa.regs _ = _
    rw [toNat_sel (by omega)]
  have hhigh : ((ioa.read (0x10 + 2 * i)).2.read (0x10 + 2 * i + 1)).1 =
      ioa.regs (0x10 + 2 * i + 1) := by
    change ioa.regs _ = _
    rw [toNat_sel (by omega)]
  have := (ioa.regs (0x10 + 2 * i)).isLt
  have := (ioa.regs (0x10 + 2 * i + 1)).isLt
  change (((ioa.read (0x10 + 2 * i)).2.read (0x10 + 2 * i + 1)).1.setWidth 64 <<< 32 +
    (ioa.read (0x10 + 2 * i)).1.setWidth 64).toNat = _
  rw [hlow, hhigh, BitVec.toNat_add, BitVec.toNat_shiftLeft, BitVec.toNat_setWidth,
    BitVec.toNat_setWidth, Nat.shiftLeft_eq]
  omega

lemma regs_writeRedtlb {r : BitVec 64} (hi : i < 2 ^ 30) : (ioa.writeRedtlb i r).regs =
    Function.update
      (Function.update ioa.regs (0x10 + 2 * i) ((r &&& 0xffff#64).setWidth 32))
      (0x10 + 2 * i + 1) ((r >>> 32).setWidth 32) := by
  simp only [writeRedtlb, write]
  rw [toNat_sel (by omega), toNat_sel (by omega)]
  rfl

/-- A pin's registers hold what is written to them, if that has nothing between bit 16 and bit
32. -/
lemma entry_writeRedtlb_self {r : BitVec 64} (hi : i < 2 ^ 30)
    (hr : r.toNat / 2 ^ 16 % 2 ^ 16 = 0) : (ioa.writeRedtlb i r).entry i = r := by
  apply BitVec.eq_of_toNat_eq
  have := r.isLt
  rw [toNat_entry hi, regs_writeRedtlb hi, Function.update_self,
    Function.update_of_ne (by omega), Function.update_self, BitVec.toNat_setWidth,
    BitVec.toNat_setWidth, toNat_and_lowMask _ (show (0xffff#64).toNat = 2 ^ 16 - 1 from rfl),
    BitVec.toNat_ushiftRight, Nat.shiftRight_eq_div_pow]
  omega

lemma entry_writeRedtlb_of_ne {r : BitVec 64} (hi : i < 2 ^ 30) (hj : j < 2 ^ 30) (hne : j ≠ i) :
    (ioa.writeRedtlb i r).entry j = ioa.entry j := by
  apply BitVec.eq_of_toNat_eq
  rw [toNat_entry hj, toNat_entry hj, regs_writeRedtlb hi, Function.update_of_ne (by omega),
    Function.update_of_ne (by omega), Function.update_of_ne (by omega),
    Function.update_of_ne (by omega)]

/-- The entry that the boot loop leaves in place of `n`. -/
def redirected (i : ℕ) (n : BitVec 64) : BitVec 64 :=
  ({ RedTbl.new n with vector := BitVec.ofNat 8 (50 + i) } : RedTbl).store

lemma toNat_redirected (i : ℕ) (n : BitVec 64) : (redirected i n).toNat =
    n.toNat / 2 ^ 56 * 2 ^ 56 + n.toNat / 2 ^ 8 % 2 ^ 8 * 2 ^ 8 + (BitVec.ofNat 8 (50 + i)).toNat :=
  RedTbl.toNat_store_new n _

lemma redirected_redirected (i : ℕ) (n : BitVec 64) :
    redirected i (redirected i n) = redirected i n := by
  apply BitVec.eq_of_toNat_eq
  have hn := toNat_redirected i n
  have := n.isLt
  have := (BitVec.ofNat 8 (50 + i)).isLt
  rw [toNat_redirected]
  omega

lemma entry_redirect_self (hi : i < 2 ^ 30) :
    (ioa.redirect i).entry i = redirected i (ioa.entry i) := by
  apply entry_writeRedtlb_self hi
  have hn := toNat_redirected i (ioa.entry i)
  have := (BitVec.ofNat 8 (50 + i)).isLt
  change (redirected i (ioa.entry i)).toNat / _ % _ = _
  omega

lemma entry_redirect_of_ne (hi : i < 2 ^ 30) (hj : j < 2 ^ 30) (hne : j ≠ i) :
    (ioa.redirect i).entry j = ioa.entry j :=
  entry_writeRedtlb_of_ne hi hj hne

/-- Each pin below `k` is rewritten once, and no other. -/
lemma entry_redirectTo {k : ℕ} (hk : k ≤ 2 ^ 30) (hj : j < 2 ^ 30) :
    (ioa.redirectTo k).entry j = if j < k then redirected j (ioa.entry j) else ioa.entry j := by
  induction k with
  | zero => rfl
  | succ k ih =>
    have ih := ih (by omega)
    rw [redirectTo]
    by_cases hjk : j = k
    · subst hjk
      rw [if_neg (Nat.lt_irrefl j)] at ih
      rw [entry_redirect_self hj, ih, if_pos (Nat.lt_succ_self j)]
    · rw [entry_redirect_of_ne (by omega) hj hjk, ih]
      have hiff : j < k ↔ j < k + 1 := by omega
      simp only [hiff]

/-- The rounds after the first change no entry. -/
lemma entry_redirectAll (rounds : ℕ) (i : Fin numPins) :
    (ioa.redirectAll (rounds + 1)).entry i = redirected i (ioa.entry i) := by
  have hround : ∀ ioa : IoApic, (ioa.redirectTo numPins).entry i = redirected i (ioa.entry i) := by
    intro ioa
    rw [entry_redirectTo (by decide) (i.isLt.trans (by decide)), if_pos i.isLt]
  induction rounds with
  | zero => exact hround ioa
  | succ rounds ih => rw [redirectAll, hround, ih, redirected_redirected]

/-- After the boot loop the handler of pin 2 leaves every entry as it is. -/
theorem entry_ioapicHandler2 (rounds : ℕ) (i : Fin numPins) :
    (ioa.redirectAll (rounds + 1)).ioapicHandler2.entry i =
      (ioa.redirectAll (rounds + 1)).entry i := by
  by_cases hi : i.val = 2
  · have hself : (ioa.redirectAll (rounds + 1)).entry i = redirected i (ioa.entry i) :=
      entry_redirectAll rounds i
    have hn := toNat_redirected i (ioa.entry i)
    have hvector := (BitVec.ofNat 8 (50 + i)).isLt
    rw [hi] at hself hn hvector
    rw [hi]
    have hstore : (RedTbl.new ((ioa.redirectAll (rounds + 1)).entry 2)).store =
        (ioa.redirectAll (rounds + 1)).entry 2 := by
      apply BitVec.eq_of_toNat_eq
      rw [RedTbl.toNat_store_new_self, hself]
      omega
    refine (entry_writeRedtlb_self (by decide) ?_).trans hstore
    change (RedTbl.new ((ioa.redirectAll (rounds + 1)).entry 2)).store.toNat / _ % _ = _
    rw [hstore, hself]
    omega
  · exact entry_writeRedtlb_of_ne (by decide) (i.isLt.trans (by decide)) hi

/-- The bits that the hardware defines in an entry, other than the vector. -/
def Architected (b : ℕ) : Prop := (8 ≤ b ∧ b ≤ 16) ∨ (56 ≤ b ∧ b ≤ 63)

/-- The boot loop keeps what the hardware defines in an entry exactly when the interrupt was not
masked, and decoding undoes encoding on what can be decoded. -/
theorem redirection_kept_iff_unmasked (ioa : IoApic) (rounds : ℕ) (i : Fin numPins) :
    ((∀ b, Architected b →
        ((ioa.redirectAll (rounds + 1)).entry i).getLsbD b = (ioa.entry i).getLsbD b) ↔
      (ioa.entry i).getLsbD 16 = false) ∧
    ∀ n, RedTbl.new (RedTbl.new n).store = RedTbl.new n := by
  refine ⟨?_, RedTbl.new_store_new⟩
  have hn := toNat_redirected i (ioa.entry i)
  have hlt := (ioa.entry i).isLt
  have hvector := (BitVec.ofNat 8 (50 + i)).isLt
  rw [entry_redirectAll]
  simp only [← BitVec.testBit_toNat, Nat.testBit_eq_decide_div_mod_eq, decide_eq_decide,
    decide_eq_false_iff_not]
  constructor
  · intro h
    have := h 16 (.inl ⟨by decide, by decide⟩)
    omega
  · intro hmask b hb
    obtain ⟨h8, h16⟩ | ⟨h56, h63⟩ := hb
    · interval_cases b <;> omega
    · interval_cases b <;> omega

/-- An IOAPIC after a reset: every interrupt is masked. -/
def afterReset : IoApic := ⟨0, fun reg => if reg % 2 = 0 then 0x10000 else 0⟩

/-- The boot loop unmasks pin 0. -/
theorem boot_unmasks : ¬((∀ (ioa : IoApic) (rounds : ℕ) (i : Fin numPins) (b : ℕ),
      Architected b →
        ((ioa.redirectAll (rounds + 1)).entry i).getLsbD b = (ioa.entry i).getLsbD b) ∧
    ∀ n, RedTbl.new (RedTbl.new n).store = RedTbl.new n) := by
  rintro ⟨h, -⟩
  have hmask := h afterReset 0 ⟨0, by decide⟩ 16 (.inl ⟨by decide, by decide⟩)
  rw [entry_redirectAll] at hmask
  revert hmask
  decide

end IoApic
end Fomos
