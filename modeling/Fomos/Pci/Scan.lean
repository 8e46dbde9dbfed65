import Mathlib
import Fomos.Pci.Accessors

/-!
# The bus scan

`Pcis::new` asks every function of every slot of every bus for its vendor. After function 0 it
goes on to the other functions of a slot only if the header type has bit 7 set, or if there is no
function 0 at all.
-/
namespace Fomos
open BitField

namespace PCIConfigRegisters

def pciVendorID : BitVec 8 := 0x0#8
def pciDeviceID : BitVec 8 := 0x2#8
def pciHeaderType : BitVec 8 := 0xE#8

end PCIConfigRegisters

open PCIConfigRegisters

namespace Ports

/-- `for func in 0..8`, for the functions that are left. -/
def scanFuncs (bus slot : BitVec 8) : List (BitVec 8) → Ports → List Pci × Ports
  | [], p => ([], p)
  | func :: funcs, p =>
    let (vendor, p) := p.configReadU16 ⟨bus, slot, func⟩ pciVendorID
    if vendor ≠ 0xFFFF#16 then
      let (_, p) := p.configReadU16 ⟨bus, slot, func⟩ pciDeviceID
      let (headerType, p) := p.configReadU8 ⟨bus, slot, func⟩ pciHeaderType
      if func = 0#8 ∧ headerType &&& 0x80#8 = 0#8 then ([⟨bus, slot, func⟩], p)
      else
        let (devs, p) := scanFuncs bus slot funcs p
        (⟨bus, slot, func⟩ :: devs, p)
    else scanFuncs bus slot funcs p

/-- `for slot in 0..32`, for the slots that are left. -/
def scanSlots (bus : BitVec 8) : List (BitVec 8) → Ports → List Pci × Ports
  | [], p => ([], p)
  | slot :: slots, p =>
    let (devs, p) := scanFuncs bus slot ((List.range 8).map (BitVec.ofNat 8)) p
    let (devs', p) := scanSlots bus slots p
    (devs ++ devs', p)

/-- `for bus in 0..=255`, for the busses that are left. -/
def scanBusses : List (BitVec 8) → Ports → List Pci × Ports
  | [], p => ([], p)
  | bus :: busses, p =>
    let (devs, p) := scanSlots bus ((List.range 32).map (BitVec.ofNat 8)) p
    let (devs', p) := scanBusses busses p
    (devs ++ devs', p)

end Ports

/-- `Pcis::new` -/
def Pcis.new (p : Ports) : List Pci × Ports :=
  p.scanBusses ((List.range 256).map (BitVec.ofNat 8))

/-- Function 0 of the same device. -/
def Pci.function0 (pci : Pci) : Pci := { pci with func := 0#8 }

/-- The order of the scan. -/
def Pci.number (pci : Pci) : ℕ := (pci.bus.toNat * 32 + pci.slot.toNat) * 8 + pci.func.toNat

namespace Ports
variable {pci : Pci} {p q : Ports} (bus : BitVec 8) {slot : BitVec 8}

/-- The function answers with a vendor. -/
def Present (p : Ports) (pci : Pci) : Prop :=
  littleEndian 2 (fun k => p.byte pci (BitVec.ofNat 8 k)) ≠ 0xFFFF#16

/-- The header of the function says that its device has no other one. -/
def SingleFunction (p : Ports) (pci : Pci) : Prop := p.byte pci pciHeaderType &&& 0x80#8 = 0#8

instance (p : Ports) (pci : Pci) : Decidable (p.Present pci) :=
  inferInstanceAs (Decidable (_ ≠ _))

instance (p : Ports) (pci : Pci) : Decidable (p.SingleFunction pci) :=
  inferInstanceAs (Decidable (_ = _))

/-- What the scan lists. -/
def Listed (p : Ports) (pci : Pci) : Prop :=
  p.Present pci ∧ (pci.func = 0#8 ∨ ¬(p.Present pci.function0 ∧ p.SingleFunction pci.function0))

instance (p : Ports) (pci : Pci) : Decidable (p.Listed pci) :=
  inferInstanceAs (Decidable (_ ∧ _))

@[simp] lemma bytes_configReadU16 (p : Ports) (pci : Pci) (off : BitVec 8) :
    (p.configReadU16 pci off).2.bytes = p.bytes := rfl

@[simp] lemma bytes_configReadU8 (p : Ports) (pci : Pci) (off : BitVec 8) :
    (p.configReadU8 pci off).2.bytes = p.bytes := rfl

lemma byte_congr (h : q.bytes = p.bytes) (pci : Pci) (off : BitVec 8) :
    q.byte pci off = p.byte pci off := by rw [byte, byte, h]

lemma vendor_read (h : pci.Valid) (hq : q.bytes = p.bytes) :
    (q.configReadU16 pci pciVendorID).1 ≠ 0xFFFF#16 ↔ p.Present pci := by
  rw [configReadU16_fst h (by decide), Present]
  simp only [byte_congr hq, pciVendorID, BitVec.zero_add]

lemma header_read (h : pci.Valid) (hq : q.bytes = p.bytes) :
    (q.configReadU8 pci pciHeaderType).1 &&& 0x80#8 = 0#8 ↔ p.SingleFunction pci := by
  rw [configReadU8_fst h, SingleFunction, byte_congr hq]

/-- The other functions of a slot. -/
lemma scanFuncs_rest {funcs : List (BitVec 8)} (hslot : slot.toNat < 32)
    (hfuncs : ∀ f ∈ funcs, f.toNat < 8 ∧ f ≠ 0#8) (hq : q.bytes = p.bytes) :
    (q.scanFuncs bus slot funcs).1 =
        (funcs.map fun f => ⟨bus, slot, f⟩).filter (fun pci => p.Present pci) ∧
      (q.scanFuncs bus slot funcs).2.bytes = p.bytes := by
  induction funcs generalizing q with
  | nil => exact ⟨rfl, hq⟩
  | cons func funcs ih =>
    obtain ⟨⟨hfunc, hne⟩, hfuncs⟩ := List.forall_mem_cons.mp hfuncs
    have hvalid : Pci.Valid ⟨bus, slot, func⟩ := ⟨hslot, hfunc⟩
    simp only [scanFuncs, vendor_read hvalid hq, hne, false_and, if_false, List.map_cons,
      List.filter_cons, decide_eq_true_eq]
    split
    · obtain ⟨hdevs, hbytes⟩ := ih hfuncs (q := ((q.configReadU16 ⟨bus, slot, func⟩
        pciVendorID).2.configReadU16 ⟨bus, slot, func⟩ pciDeviceID).2.configReadU8
          ⟨bus, slot, func⟩ pciHeaderType |>.2) hq
      exact ⟨by rw [hdevs], hbytes⟩
    · exact ih hfuncs hq

lemma listed_of_ne {f : BitVec 8} (hf : f ≠ 0#8) : p.Listed ⟨bus, slot, f⟩ ↔
    p.Present ⟨bus, slot, f⟩ ∧
      ¬(p.Present ⟨bus, slot, 0#8⟩ ∧ p.SingleFunction ⟨bus, slot, 0#8⟩) :=
  and_congr_right fun _ => or_iff_right hf

lemma listed_zero : p.Listed ⟨bus, slot, 0#8⟩ ↔ p.Present ⟨bus, slot, 0#8⟩ :=
  and_iff_left (.inl rfl)

/-- The functions of one slot. -/
def functions (bus slot : BitVec 8) : List Pci :=
  ((List.range 8).map (BitVec.ofNat 8)).map fun f => ⟨bus, slot, f⟩

/-- One slot: function 0 decides whether the others are asked. -/
lemma scanFuncs_all (hslot : slot.toNat < 32) (hq : q.bytes = p.bytes) :
    (q.scanFuncs bus slot ((List.range 8).map (BitVec.ofNat 8))).1 =
        (functions bus slot).filter (fun pci => p.Listed pci) ∧
      (q.scanFuncs bus slot ((List.range 8).map (BitVec.ofNat 8))).2.bytes = p.bytes := by
  have hsplit : (List.range 8).map (BitVec.ofNat 8) =
      0#8 :: (List.range' 1 7).map (BitVec.ofNat 8) := by decide
  have hrest : ∀ f ∈ (List.range' 1 7).map (BitVec.ofNat 8), f.toNat < 8 ∧ f ≠ 0#8 := by decide
  have hvalid : Pci.Valid ⟨bus, slot, 0#8⟩ := ⟨hslot, (by decide : (0#8).toNat < 8)⟩
  rw [functions, hsplit]
  generalize (List.range' 1 7).map (BitVec.ofNat 8) = funcs at hrest
  simp only [scanFuncs, vendor_read hvalid hq, true_and, List.map_cons, List.filter_cons,
    decide_eq_true_eq, listed_zero]
  -- The other functions are listed if they are present, unless function 0 speaks for all.
  have hlisted : ¬(p.Present ⟨bus, slot, 0#8⟩ ∧ p.SingleFunction ⟨bus, slot, 0#8⟩) →
      (funcs.map fun f => (⟨bus, slot, f⟩ : Pci)).filter (fun pci => p.Listed pci) =
        (funcs.map fun f => (⟨bus, slot, f⟩ : Pci)).filter (fun pci => p.Present pci) := by
    intro hother
    refine List.filter_congr fun pci hpci => ?_
    obtain ⟨f, hf, rfl⟩ := List.mem_map.mp hpci
    simp [listed_of_ne bus (hrest f hf).2, hother]
  by_cases hpresent : p.Present ⟨bus, slot, 0#8⟩
  · rw [if_pos hpresent, if_pos hpresent]
    generalize hread : ((q.configReadU16 ⟨bus, slot, 0#8⟩ pciVendorID).2.configReadU16
      ⟨bus, slot, 0#8⟩ pciDeviceID).2 = r
    have hr : r.bytes = p.bytes := by rw [← hread]; exact hq
    simp only [header_read hvalid hr]
    by_cases hsingle : p.SingleFunction ⟨bus, slot, 0#8⟩
    · rw [if_pos hsingle, List.filter_eq_nil_iff.mpr]
      · exact ⟨rfl, hr⟩
      · intro pci hpci
        obtain ⟨f, hf, rfl⟩ := List.mem_map.mp hpci
        simp [listed_of_ne bus (hrest f hf).2, hpresent, hsingle]
    · rw [if_neg hsingle, hlisted fun h => hsingle h.2]
      obtain ⟨hdevs, hbytes⟩ := scanFuncs_rest bus hslot hrest
        (q := (r.configReadU8 ⟨bus, slot, 0#8⟩ pciHeaderType).2) hr
      exact ⟨by rw [hdevs], hbytes⟩
  · rw [if_neg hpresent, if_neg hpresent, hlisted fun h => hpresent h.1]
    exact scanFuncs_rest bus hslot hrest (q := (q.configReadU16 ⟨bus, slot, 0#8⟩ pciVendorID).2) hq

lemma scanSlots_eq {slots : List (BitVec 8)} (hslots : ∀ s ∈ slots, s.toNat < 32)
    (hq : q.bytes = p.bytes) :
    (q.scanSlots bus slots).1 =
        (slots.flatMap (functions bus)).filter (fun pci => p.Listed pci) ∧
      (q.scanSlots bus slots).2.bytes = p.bytes := by
  induction slots generalizing q with
  | nil => exact ⟨rfl, hq⟩
  | cons slot slots ih =>
    obtain ⟨hslot, hslots⟩ := List.forall_mem_cons.mp hslots
    obtain ⟨hdevs, hbytes⟩ := scanFuncs_all bus hslot hq
    obtain ⟨hdevs', hbytes'⟩ := ih hslots hbytes
    simp only [scanSlots, List.flatMap_cons, List.filter_append]
    exact ⟨by rw [hdevs, hdevs'], hbytes'⟩

lemma scanBusses_eq {busses : List (BitVec 8)} (hq : q.bytes = p.bytes) :
    (q.scanBusses busses).1 = (busses.flatMap fun bus =>
        ((List.range 32).map (BitVec.ofNat 8)).flatMap (functions bus)).filter
          (fun pci => p.Listed pci) ∧
      (q.scanBusses busses).2.bytes = p.bytes := by
  induction busses generalizing q with
  | nil => exact ⟨rfl, hq⟩
  | cons bus busses ih =>
    have hslots : ∀ s ∈ (List.range 32).map (BitVec.ofNat 8), s.toNat < 32 := by decide
    obtain ⟨hdevs, hbytes⟩ := scanSlots_eq bus hslots hq
    obtain ⟨hdevs', hbytes'⟩ := ih hbytes
    simp only [scanBusses, List.flatMap_cons, List.filter_append]
    exact ⟨by rw [hdevs, hdevs'], hbytes'⟩

end Ports

namespace Pcis
open Ports
variable {pci : Pci}

/-- Every function that an address can select, in the order of the scan. -/
def addressable : List Pci :=
  ((List.range 256).map (BitVec.ofNat 8)).flatMap fun bus =>
    ((List.range 32).map (BitVec.ofNat 8)).flatMap (functions bus)

lemma mem_numbers {n : ℕ} {x : BitVec 8} : x ∈ (List.range n).map (BitVec.ofNat 8) ↔
    x.toNat < n ∨ 256 ≤ n := by
  constructor
  · intro hx
    obtain ⟨i, hi, rfl⟩ := List.mem_map.mp hx
    rw [BitVec.toNat_ofNat]
    have := List.mem_range.mp hi
    omega
  · intro hx
    refine List.mem_map.mpr ⟨x.toNat, List.mem_range.mpr ?_, BitVec.ofNat_toNat _ _⟩
    have := x.isLt
    omega

lemma pairwise_numbers {n : ℕ} (hn : n ≤ 256) :
    ((List.range n).map (BitVec.ofNat 8)).Pairwise fun x y => x.toNat < y.toNat := by
  rw [List.pairwise_map]
  refine List.pairwise_lt_range.imp_of_mem fun {i j} hi hj hij => ?_
  have := List.mem_range.mp hi
  have := List.mem_range.mp hj
  simp only [BitVec.toNat_ofNat]
  omega

lemma mem_functions {bus slot : BitVec 8} :
    pci ∈ functions bus slot ↔ pci.bus = bus ∧ pci.slot = slot ∧ pci.func.toNat < 8 := by
  rw [functions, List.mem_map]
  constructor
  · rintro ⟨f, hf, rfl⟩
    exact ⟨rfl, rfl, (mem_numbers.mp hf).resolve_right (by decide)⟩
  · rintro ⟨rfl, rfl, hf⟩
    exact ⟨pci.func, mem_numbers.mpr (.inl hf), rfl⟩

lemma mem_addressable : pci ∈ addressable ↔ pci.Valid := by
  simp only [addressable, List.mem_flatMap, mem_functions]
  constructor
  · rintro ⟨bus, -, slot, hslot, rfl, rfl, hfunc⟩
    exact ⟨(mem_numbers.mp hslot).resolve_right (by decide), hfunc⟩
  · rintro ⟨hslot, hfunc⟩
    exact ⟨pci.bus, mem_numbers.mpr (.inr le_rfl), pci.slot, mem_numbers.mpr (.inl hslot), rfl,
      rfl, hfunc⟩

lemma pairwise_addressable : addressable.Pairwise fun a b => a.number < b.number := by
  rw [addressable, List.pairwise_flatMap]
  refine ⟨fun bus _ => ?_, (pairwise_numbers le_rfl).imp fun {b b'} hb x hx y hy => ?_⟩
  · rw [List.pairwise_flatMap]
    refine ⟨fun slot _ => ?_, (pairwise_numbers (by decide)).imp fun {s s'} hs x hx y hy => ?_⟩
    · rw [functions, List.pairwise_map]
      exact (pairwise_numbers (by decide)).imp fun hf => by simpa [Pci.number] using hf
    · obtain ⟨hbx, rfl, hfx⟩ := mem_functions.mp hx
      obtain ⟨hby, rfl, -⟩ := mem_functions.mp hy
      simp only [Pci.number, hbx, hby]
      omega
  · obtain ⟨s, hs, hx⟩ := List.mem_flatMap.mp hx
    obtain ⟨s', -, hy⟩ := List.mem_flatMap.mp hy
    have hslot := (mem_numbers.mp hs).resolve_right (by decide)
    obtain ⟨rfl, rfl, hfx⟩ := mem_functions.mp hx
    obtain ⟨rfl, rfl, -⟩ := mem_functions.mp hy
    simp only [Pci.number]
    omega

/-- Every function whose vendor answers is found, once and in the order of the busses, except
those that share their device with a function 0 that calls itself the only one; the scan changes
no configuration. So it finds all there is exactly when no device has such hidden functions. -/
theorem scan_exact (p : Ports) :
    (∀ pci, pci ∈ (new p).1 ↔ pci.Valid ∧ p.Listed pci) ∧
      (new p).1.Pairwise (fun a b => a.number < b.number) ∧ (new p).2.bytes = p.bytes ∧
      ((∀ pci, pci.Valid → p.Present pci → pci ∈ (new p).1) ↔
        ∀ pci, pci.Valid → p.Present pci → p.Present pci.function0 →
          p.SingleFunction pci.function0 → pci.func = 0#8) := by
  obtain ⟨hdevs, hbytes⟩ : (new p).1 = addressable.filter (fun pci => p.Listed pci) ∧
      (new p).2.bytes = p.bytes := by
    rw [new, addressable]
    exact @scanBusses_eq p p _ rfl
  have hmem : ∀ pci, pci ∈ (new p).1 ↔ pci.Valid ∧ p.Listed pci := by
    intro pci
    rw [hdevs, List.mem_filter, decide_eq_true_eq]
    exact and_congr_left fun _ => mem_addressable
  refine ⟨hmem, ?_, hbytes, ?_⟩
  · rw [hdevs]
    exact pairwise_addressable.filter _
  · simp only [hmem, Listed]
    grind

end Pcis
end Fomos
