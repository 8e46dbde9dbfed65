import Mathlib
import Fomos.Library.BitField
import Fomos.Pci.Config

/-!
# The base address registers

`Virtio::init` decodes each of the six registers by itself. The upper half of a 64-bit base address
is taken for a register of its own, so a layout is read as it is meant only where the upper halves
look empty.
-/
namespace Fomos

/-- What `n` registers hold. The base of a memory bar is counted in 16 bytes, and that of an I/O bar
in 4; a 64-bit bar takes two registers. -/
inductive BarLayout : ℕ → Type
  | nil : BarLayout 0
  | absent {n : ℕ} (rest : BarLayout n) : BarLayout (n + 1)
  | io {n : ℕ} (base : Fin (2 ^ 30)) (rest : BarLayout n) : BarLayout (n + 1)
  | mm32 {n : ℕ} (base : Fin (2 ^ 28)) (prefetchable : Bool) (rest : BarLayout n) :
    BarLayout (n + 1)
  | mm64 {n : ℕ} (base : Fin (2 ^ 48)) (prefetchable : Bool) (rest : BarLayout n) :
    BarLayout (n + 2)

namespace BarLayout

/-- The registers, with the bits that give the kind. -/
def registers : {n : ℕ} → BarLayout n → List (BitVec 32)
  | _, nil => []
  | _, absent rest => 0#32 :: rest.registers
  | _, io base rest => BitVec.ofNat 32 (4 * base.val + 1) :: rest.registers
  | _, mm32 base prefetchable rest =>
    BitVec.ofNat 32 (16 * base.val + 8 * prefetchable.toNat) :: rest.registers
  | _, mm64 base prefetchable rest =>
    BitVec.ofNat 32 (16 * (base.val % 2 ^ 28) + 8 * prefetchable.toNat + 4) ::
      BitVec.ofNat 32 (base.val / 2 ^ 28) :: rest.registers

/-- What they stand for: the upper half of a 64-bit bar is no bar. -/
def bars : {n : ℕ} → BarLayout n → List Bar
  | _, nil => []
  | _, absent rest => .none :: rest.bars
  | _, io base rest => .io (BitVec.ofNat 32 (4 * base.val)) :: rest.bars
  | _, mm32 base _ rest => .mm ⟨16 * base.val, by omega⟩ :: rest.bars
  | _, mm64 base _ rest => .mm ⟨16 * base.val, by omega⟩ :: .none :: rest.bars

/-- The upper half of a base looks like an empty bar, before this register. -/
def UpperEmpty (upper : ℕ) (next : BitVec 32) : Prop :=
  upper % 2 = 0 ∧ upper < 16 ∧ (upper / 4 % 2 = 0 ∨ next = 0#32)

/-- The memory bars have a base, and the upper halves look empty. -/
def Plain : {n : ℕ} → BarLayout n → Prop
  | _, nil => True
  | _, absent rest => rest.Plain
  | _, io _ rest => rest.Plain
  | _, mm32 base _ rest => base.val ≠ 0 ∧ rest.Plain
  | _, mm64 base _ rest =>
    base.val ≠ 0 ∧ UpperEmpty (base.val / 2 ^ 28) (rest.registers.headD 0#32) ∧ rest.Plain

end BarLayout

namespace Pci
open BitField PCIConfigRegisters

/-- What `get_bar` makes of a register and the next one. -/
def decodeBar (bar next : ℕ) : Option Bar :=
  if bar = 0 then some .none
  else if bar % 2 = 1 then some (.io (BitVec.ofNat 32 (bar / 4 * 4)))
  else
    let base := (if bar / 4 % 2 = 1 then bar + next * 2 ^ 32 else bar) / 16 * 16
    if base = 0 then some .none else (PhysAddr.new base).map .mm

/-- The registers one by one. -/
def decodeBars : List (BitVec 32) → Option (List Bar)
  | [] => some []
  | bar :: rest => do
    let first ← decodeBar bar.toNat (rest.headD 0#32).toNat
    let others ← decodeBars rest
    return first :: others

lemma and_one_ne_zero (x : BitVec 64) : x &&& 0x1#64 ≠ 0 ↔ x.toNat % 2 = 1 := by
  rw [Ne, ← BitVec.toNat_inj, toNat_and_bit x (k := 0) rfl]
  change ¬_ = 0 ↔ _
  omega

lemma and_four_ne_zero (x : BitVec 64) : x &&& 0x4#64 ≠ 0 ↔ x.toNat / 4 % 2 = 1 := by
  rw [Ne, ← BitVec.toNat_inj, toNat_and_bit x (k := 2) rfl]
  change ¬_ = 0 ↔ _
  omega

lemma toNat_and_mask (x : BitVec 64) : (x &&& 0xFFFFFFFFFFFFFFF0#64).toNat = x.toNat / 16 * 16 :=
  toNat_and_highMask x (k := 4) (by decide)

lemma toNat_and_portMask (x : BitVec 64) :
    (x &&& 0xFFFFFFFFFFFFFFFC#64).toNat = x.toNat / 4 * 4 :=
  toNat_and_highMask x (k := 2) (by decide)

variable {pci : Pci} {space : ConfigSpace}

lemma toNat_or_high (bar next : BitVec 32) :
    (bar.setWidth 64 ||| next.setWidth 64 <<< 32).toNat = bar.toNat + next.toNat * 2 ^ 32 := by
  have hbar := bar.isLt
  have hnext := next.isLt
  have hlow : (bar.setWidth 64).toNat = bar.toNat := by
    rw [BitVec.toNat_setWidth]
    omega
  have hhigh : (next.setWidth 64 <<< 32).toNat = next.toNat <<< 32 := by
    simp only [BitVec.toNat_shiftLeft, BitVec.toNat_setWidth, Nat.shiftLeft_eq]
    omega
  rw [BitVec.toNat_or, hlow, hhigh, Nat.or_comm, ← Nat.shiftLeft_add_eq_or_of_lt hbar,
    Nat.shiftLeft_eq, Nat.add_comm]

/-- The decoding of a register, in the words of `get_bar`. -/
lemma decodeBar_eq (bar next : BitVec 32) (idx : ℕ) :
    (let bar := bar.setWidth 64
      if bar = 0 then some Bar.none
      else if bar &&& 0x1#64 ≠ 0 then some (.io ((bar &&& 0xFFFFFFFFFFFFFFFC#64).setWidth 32))
      else
        let bit64 := bar &&& 0x4#64 ≠ 0
        let notLast := idx < 5
        let bar := if bit64 ∧ notLast then bar ||| next.setWidth 64 <<< 32 else bar
        let masked := bar &&& 0xFFFFFFFFFFFFFFF0#64
        if masked = 0 then some .none else (PhysAddr.new masked.toNat).map .mm) =
      decodeBar bar.toNat (if idx < 5 then next else 0#32).toNat := by
  have hbar : (bar.setWidth 64).toNat = bar.toNat := by
    have := bar.isLt
    rw [BitVec.toNat_setWidth]
    omega
  have hzero : ∀ x : BitVec 64, x = 0 ↔ x.toNat = 0 := fun x => BitVec.toNat_inj.symm
  simp only [hzero, and_one_ne_zero, and_four_ne_zero, toNat_and_mask, hbar]
  unfold decodeBar
  by_cases hnone : bar.toNat = 0
  · rw [if_pos hnone, if_pos hnone]
  · rw [if_neg hnone, if_neg hnone]
    by_cases hio : bar.toNat % 2 = 1
    · rw [if_pos hio, if_pos hio]
      congr 2
      apply BitVec.eq_of_toNat_eq
      rw [BitVec.toNat_setWidth, toNat_and_portMask, hbar, BitVec.toNat_ofNat]
    · rw [if_neg hio, if_neg hio]
      have hbase : (if bar.toNat / 4 % 2 = 1 ∧ idx < 5 then
          bar.setWidth 64 ||| next.setWidth 64 <<< 32 else bar.setWidth 64).toNat =
          if bar.toNat / 4 % 2 = 1 then
            bar.toNat + (if idx < 5 then next else 0#32).toNat * 2 ^ 32 else bar.toNat := by
        by_cases hlast : idx < 5
        · simp only [hlast, and_true, if_true]
          split
          · exact toNat_or_high bar next
          · exact hbar
        · simp [hlast, hbar]
      rw [hbase]

/-- The offset of a register. -/
def barOffset : ℕ → BitVec 8
  | 0 => pciBAR0
  | 1 => pciBAR1
  | 2 => pciBAR2
  | 3 => pciBAR3
  | 4 => pciBAR4
  | _ => pciBAR5

/-- `get_bar` is given by the register and, but for the last one, the register behind it. -/
lemma getBar_eq (pci : Pci) (space : ConfigSpace) (idx : ℕ) (h : idx < 6) :
    pci.getBar space idx = decodeBar (pci.configReadU32 space (barOffset idx)).toNat
      (if idx < 5 then pci.configReadU32 space
        (pciBAR0 + BitVec.ofNat 8 ((idx + 1) * 4)) else 0#32).toNat := by
  rw [← decodeBar_eq]
  interval_cases idx
  all_goals
    unfold getBar
    rfl

/-- The six registers hold this layout. -/
def HasBars (pci : Pci) (space : ConfigSpace) (layout : BarLayout 6) : Prop :=
  layout.registers = [pci.configReadU32 space pciBAR0,
    pci.configReadU32 space pciBAR1,
    pci.configReadU32 space pciBAR2,
    pci.configReadU32 space pciBAR3,
    pci.configReadU32 space pciBAR4,
    pci.configReadU32 space pciBAR5]

/-- The loop decodes the registers one by one. -/
lemma getBars_eq {layout : BarLayout 6} (h : pci.HasBars space layout) :
    (pci.getBars space).map Vector.toList = decodeBars layout.registers := by
  have hbar0 : pci.getBar space 0 = decodeBar (pci.configReadU32 space pciBAR0).toNat
      (pci.configReadU32 space pciBAR1).toNat := getBar_eq pci space 0 (by decide)
  have hbar1 : pci.getBar space 1 = decodeBar (pci.configReadU32 space pciBAR1).toNat
      (pci.configReadU32 space pciBAR2).toNat := getBar_eq pci space 1 (by decide)
  have hbar2 : pci.getBar space 2 = decodeBar (pci.configReadU32 space pciBAR2).toNat
      (pci.configReadU32 space pciBAR3).toNat := getBar_eq pci space 2 (by decide)
  have hbar3 : pci.getBar space 3 = decodeBar (pci.configReadU32 space pciBAR3).toNat
      (pci.configReadU32 space pciBAR4).toNat := getBar_eq pci space 3 (by decide)
  have hbar4 : pci.getBar space 4 = decodeBar (pci.configReadU32 space pciBAR4).toNat
      (pci.configReadU32 space pciBAR5).toNat := getBar_eq pci space 4 (by decide)
  have hbar5 : pci.getBar space 5 = decodeBar (pci.configReadU32 space pciBAR5).toNat
      (0#32).toNat := getBar_eq pci space 5 (by decide)
  rw [h, getBars, hbar0, hbar1, hbar2, hbar3, hbar4, hbar5]
  simp only [decodeBars, List.headD_cons, List.headD_nil]
  -- the loop stops at the first register that panics
  cases decodeBar _ (pci.configReadU32 space pciBAR1).toNat with
  | none => rfl
  | some bar0 =>
  cases decodeBar _ (pci.configReadU32 space pciBAR2).toNat with
  | none => rfl
  | some bar1 =>
  cases decodeBar _ (pci.configReadU32 space pciBAR3).toNat with
  | none => rfl
  | some bar2 =>
  cases decodeBar _ (pci.configReadU32 space pciBAR4).toNat with
  | none => rfl
  | some bar3 =>
  cases decodeBar _ (pci.configReadU32 space pciBAR5).toNat with
  | none => rfl
  | some bar4 =>
  cases decodeBar _ (0#32).toNat with
  | none => rfl
  | some bar5 => rfl

/-- A register that is no memory bar, whatever comes behind it. -/
lemma decodeBar_io (base : Fin (2 ^ 30)) (next : ℕ) :
    decodeBar (BitVec.ofNat 32 (4 * base.val + 1)).toNat next =
      some (.io (BitVec.ofNat 32 (4 * base.val))) := by
  have hbar : (BitVec.ofNat 32 (4 * base.val + 1)).toNat = 4 * base.val + 1 := by
    rw [BitVec.toNat_ofNat]
    omega
  rw [hbar, decodeBar, if_neg (by omega), if_pos (by omega)]
  congr 3
  omega

/-- What a memory bar with this base decodes to. -/
lemma memoryBar_eq (base : ℕ) (hlt : 16 * base < 2 ^ 52) :
    (if 16 * base = 0 then some Bar.none else (PhysAddr.new (16 * base)).map .mm) =
      if base = 0 then some .none else some (.mm ⟨16 * base, hlt⟩) := by
  by_cases hbase : base = 0
  · rw [if_pos hbase, if_pos (by omega)]
  · rw [if_neg hbase, if_neg (by omega), PhysAddr.new, dif_pos hlt]
    rfl

lemma decodeBar_mm32 (base : Fin (2 ^ 28)) (prefetchable : Bool) (next : ℕ) :
    decodeBar (BitVec.ofNat 32 (16 * base.val + 8 * prefetchable.toNat)).toNat next =
      if base.val = 0 then some .none else some (.mm ⟨16 * base.val, by omega⟩) := by
  have hflag := prefetchable.toNat_le
  have hbar : (BitVec.ofNat 32 (16 * base.val + 8 * prefetchable.toNat)).toNat =
      16 * base.val + 8 * prefetchable.toNat := by
    rw [BitVec.toNat_ofNat]
    omega
  have hmask : (16 * base.val + 8 * prefetchable.toNat) / 16 * 16 = 16 * base.val := by omega
  rw [hbar, decodeBar]
  by_cases hzero : 16 * base.val + 8 * prefetchable.toNat = 0
  · rw [if_pos hzero, if_pos (by omega)]
  · have hio : ¬(16 * base.val + 8 * prefetchable.toNat) % 2 = 1 := by omega
    have hbit64 : ¬(16 * base.val + 8 * prefetchable.toNat) / 4 % 2 = 1 := by omega
    rw [if_neg hzero, if_neg hio, if_neg hbit64, hmask]
    exact memoryBar_eq base.val (by omega)

lemma decodeBar_mm64 (base : Fin (2 ^ 48)) (prefetchable : Bool) :
    decodeBar (BitVec.ofNat 32 (16 * (base.val % 2 ^ 28) + 8 * prefetchable.toNat + 4)).toNat
        (BitVec.ofNat 32 (base.val / 2 ^ 28)).toNat =
      if base.val = 0 then some .none else some (.mm ⟨16 * base.val, by omega⟩) := by
  have hflag := prefetchable.toNat_le
  have hlow : (BitVec.ofNat 32 (16 * (base.val % 2 ^ 28) + 8 * prefetchable.toNat + 4)).toNat =
      16 * (base.val % 2 ^ 28) + 8 * prefetchable.toNat + 4 := by
    rw [BitVec.toNat_ofNat]
    omega
  have hhigh : (BitVec.ofNat 32 (base.val / 2 ^ 28)).toNat = base.val / 2 ^ 28 := by
    rw [BitVec.toNat_ofNat]
    omega
  rw [hlow, hhigh]
  generalize hbar : 16 * (base.val % 2 ^ 28) + 8 * prefetchable.toNat + 4 = bar
  have hmask : (bar + base.val / 2 ^ 28 * 2 ^ 32) / 16 * 16 = 16 * base.val := by omega
  rw [decodeBar, if_neg (show ¬bar = 0 by omega), if_neg (show ¬bar % 2 = 1 by omega),
    if_pos (show bar / 4 % 2 = 1 by omega)]
  rw [hmask]
  exact memoryBar_eq base.val (by omega)

/-- An upper half is no bar of its own exactly when it looks empty. -/
lemma decodeBar_upper_iff (upper : ℕ) (next : BitVec 32) :
    decodeBar upper next.toNat = some .none ↔ BarLayout.UpperEmpty upper next := by
  have hphys : ∀ base, (PhysAddr.new base).map Bar.mm ≠ some .none := by
    intro base h
    obtain ⟨phys, -, hmm⟩ := Option.map_eq_some_iff.mp h
    cases hmm
  have hnext : next = 0#32 ↔ next.toNat = 0 := BitVec.toNat_inj.symm
  unfold BarLayout.UpperEmpty
  rw [hnext]
  unfold decodeBar
  by_cases hzero : upper = 0
  · simp [hzero]
  · rw [if_neg hzero]
    by_cases hio : upper % 2 = 1
    · rw [if_pos hio]
      simp [hio]
    · rw [if_neg hio]
      have hempty : ∀ base, ((if base = 0 then some .none else
          (PhysAddr.new base).map Bar.mm) = some .none ↔ base = 0) := by
        intro base
        by_cases hbase : base = 0
        · rw [if_pos hbase]
          exact iff_of_true rfl hbase
        · rw [if_neg hbase]
          exact iff_of_false (hphys base) hbase
      rw [hempty]
      by_cases hbit : upper / 4 % 2 = 1
      · rw [if_pos hbit]
        omega
      · rw [if_neg hbit]
        omega

lemma decodeBars_cons_iff {bar : BitVec 32} {rest : List (BitVec 32)} {b : Bar} {bs : List Bar} :
    decodeBars (bar :: rest) = some (b :: bs) ↔
      decodeBar bar.toNat (rest.headD 0#32).toNat = some b ∧ decodeBars rest = some bs := by
  rw [decodeBars]
  cases decodeBar bar.toNat (rest.headD 0#32).toNat with
  | none => simp
  | some first =>
    cases decodeBars rest with
    | none => simp
    | some others => simp

/-- The registers are decoded to what they stand for exactly when the layout is plain. -/
theorem decodeBars_iff {n : ℕ} (layout : BarLayout n) :
    decodeBars layout.registers = some layout.bars ↔ layout.Plain := by
  induction layout with
  | nil => exact iff_of_true rfl trivial
  | absent rest ih =>
    rw [BarLayout.registers, BarLayout.bars, decodeBars_cons_iff, ih]
    exact and_iff_right rfl
  | io base rest ih =>
    rw [BarLayout.registers, BarLayout.bars, decodeBars_cons_iff, ih]
    exact and_iff_right (decodeBar_io base _)
  | mm32 base prefetchable rest ih =>
    rw [BarLayout.registers, BarLayout.bars, decodeBars_cons_iff, ih, decodeBar_mm32]
    apply and_congr_left'
    by_cases hbase : base.val = 0 <;> simp [hbase]
  | mm64 base prefetchable rest ih =>
    have hupper : (BitVec.ofNat 32 (base.val / 2 ^ 28)).toNat = base.val / 2 ^ 28 := by
      rw [BitVec.toNat_ofNat]
      omega
    rw [BarLayout.registers, BarLayout.bars, decodeBars_cons_iff, decodeBars_cons_iff, ih,
      List.headD_cons, decodeBar_mm64, hupper, decodeBar_upper_iff]
    apply and_congr_left'
    by_cases hbase : base.val = 0 <;> simp [hbase]

/-- `Virtio::init` reads the bars of a layout, and does not panic, exactly when its memory bars have
a base and its upper halves look empty. -/
theorem getBars_iff {layout : BarLayout 6} (h : pci.HasBars space layout) :
    (pci.getBars space).map Vector.toList = some layout.bars ↔ layout.Plain := by
  rw [getBars_eq h]
  exact decodeBars_iff layout

/-- The device 0 with these registers. -/
def spaceOf (registers : List (BitVec 32)) : ConfigSpace := fun address =>
  registers.getD (address.toNat % 256 / 4 - 4) 0#32

/-- A 32-bit bar at `0xFEBD1000`, and a 64-bit bar at `0xFE000000`. -/
def lowBars : BarLayout 6 :=
  .absent (.mm32 0xFEBD100 false (.absent (.absent (.mm64 0xFE00000 true .nil))))

theorem getBars_iff_lowBars :
    (Pci.getBars ⟨0, 0, 0⟩ (spaceOf lowBars.registers)).map Vector.toList = some lowBars.bars := by
  have hbars : HasBars ⟨0, 0, 0⟩ (spaceOf lowBars.registers) lowBars := by
    unfold HasBars
    decide
  apply (getBars_iff hbars).mpr
  exact ⟨by decide, by decide, ⟨by decide, by decide, .inr rfl⟩, trivial⟩

/-- A 64-bit bar at `0x8000000000`, whose upper half is read as a bar at `0x80`. -/
theorem upper_half_is_read : ¬∀ (pci : Pci) (space : ConfigSpace) (layout : BarLayout 6),
    pci.HasBars space layout → (pci.getBars space).map Vector.toList = some layout.bars := by
  intro h
  let layout : BarLayout 6 :=
    .mm64 0x800000000 false (.absent (.absent (.absent (.absent .nil))))
  have hbars : HasBars ⟨0, 0, 0⟩ (spaceOf layout.registers) layout := by
    unfold HasBars
    decide
  have hread := h _ _ layout hbars
  rw [getBars_eq hbars, decodeBars_iff] at hread
  obtain ⟨-, ⟨-, hsmall, -⟩, -⟩ := hread
  exact absurd hsmall (by decide)

end Pci
end Fomos
