import Mathlib
import Fomos.Library.BitField
import Fomos.Pci.Config

/-!
# The configuration accessors

A register is selected through the address port and then read or written a dword at a time; a
narrower write reads the dword first. Behind the two ports stands a plain memory of 256 bytes for
each function of each device.
-/
namespace Fomos
open BitField

/-- A function of a device, as an address selects it. -/
structure BusFunction where
  bus : BitVec 8
  device : BitVec 5
  func : BitVec 3
  deriving DecidableEq, Repr

def BusFunction.ofAddress (address : BitVec 32) : BusFunction where
  bus := address.extractLsb' 16 8
  device := address.extractLsb' 11 5
  func := address.extractLsb' 8 3

/-- The ports `0xCF8` and `0xCFC` and the memory behind them. -/
structure Ports where
  /-- What the address port was last written. -/
  address : BitVec 32
  bytes : BusFunction → BitVec 8 → BitVec 8

namespace Ports

/-- The data port reads the selected dword. Bit 31 of the address enables it; without it the port
floats. -/
def readData (p : Ports) : BitVec 32 :=
  if p.address.getLsbD 31 then
    littleEndian 4 fun k =>
      p.bytes (.ofAddress p.address) (p.address.extractLsb' 2 6 ++ BitVec.ofNat 2 k)
  else BitVec.allOnes 32

/-- The data port writes the four bytes of the selected dword. -/
def writeData (data : BitVec 32) (p : Ports) : Ports :=
  if p.address.getLsbD 31 then
    { p with
      bytes := fun f b =>
        if f = .ofAddress p.address ∧ b.extractLsb' 2 6 = p.address.extractLsb' 2 6 then
          data.extractLsb' (8 * (b.toNat % 4)) 8
        else p.bytes f b }
  else p

variable (pci : Pci) (off : BitVec 8) (p : Ports)

def configAddress : Ports := { p with address := pci.configAddress off }

/-- What the data port answers for each address, while the memory stays as it is. -/
def space : ConfigSpace := fun address => readData { p with address := address }

def configReadU32 : BitVec 32 × Ports := (pci.configReadU32 p.space off, p.configAddress pci off)

def configReadU16 : BitVec 16 × Ports :=
  let p := p.configAddress pci off
  let read := p.readData
  let read := read >>> ((off &&& 2#8) * 8#8).toNat &&& 0xffff#32
  (read.setWidth 16, p)

def configReadU8 : BitVec 8 × Ports := (pci.configReadU8 p.space off, p.configAddress pci off)

def configWriteU32 (data : BitVec 32) : Ports :=
  let p := p.configAddress pci off
  p.writeData data

def configWriteU16 (data : BitVec 16) : Ports :=
  let p := p.configAddress pci off
  let read := p.readData
  let val := read &&& ~~~(0xFFFF#32 <<< ((off &&& 2#8) * 8#8).toNat) |||
    data.setWidth 32 <<< ((off &&& 2#8) * 8#8).toNat
  p.writeData val

def configWriteU8 (data : BitVec 8) : Ports :=
  let p := p.configAddress pci off
  let read := p.readData
  let val := read &&& ~~~(0xFF#32 <<< ((off &&& 3#8) * 8#8).toNat) |||
    data.setWidth 32 <<< ((off &&& 3#8) * 8#8).toNat
  p.writeData val

end Ports

/-! ## The address -/

namespace Pci

/-- The device has a number below 32 and the function one below 8. -/
structure Valid (pci : Pci) : Prop where
  slot : pci.slot.toNat < 32
  func : pci.func.toNat < 8

instance (pci : Pci) : Decidable pci.Valid :=
  decidable_of_iff (pci.slot.toNat < 32 ∧ pci.func.toNat < 8)
    ⟨fun h => ⟨h.1, h.2⟩, fun h => ⟨h.slot, h.func⟩⟩

def busFunction (pci : Pci) : BusFunction where
  bus := pci.bus
  device := pci.slot.setWidth 5
  func := pci.func.setWidth 3

variable {pci pci' : Pci} {off off' : BitVec 8}

lemma setWidth_of_lt {n : ℕ} {x : BitVec 8} (h : x.toNat < 2 ^ n) :
    x.setWidth 32 = (x.setWidth n).setWidth 32 := by
  apply BitVec.eq_of_toNat_eq
  simp only [BitVec.toNat_setWidth, Nat.mod_eq_of_lt h]

lemma and_dwordMask (off : BitVec 8) :
    off.setWidth 32 &&& 0xfc#32 = place 32 2 (off.extractLsb' 2 6) := by
  have hmask : 0xfc#32 = place 32 2 (BitVec.allOnes 6) := by decide
  apply BitVec.eq_of_getLsbD_eq
  intro i hi
  rw [hmask, BitVec.getLsbD_and, getLsbD_place, getLsbD_place, BitVec.getLsbD_setWidth,
    BitVec.getLsbD_extractLsb', BitVec.getLsbD_allOnes]
  by_cases hp : 2 ≤ i
  · have hsub : 2 + (i - 2) = i := by omega
    simp [hi, hp, hsub, Bool.and_comm]
  · simp [hp]

/-- The address is made of fields that do not overlap. -/
lemma configAddress_eq (h : pci.Valid) (off : BitVec 8) :
    pci.configAddress off =
      place 32 16 pci.busFunction.bus ||| place 32 11 pci.busFunction.device |||
        place 32 8 pci.busFunction.func ||| place 32 2 (off.extractLsb' 2 6) |||
          place 32 31 1#1 := by
  have henable : 0x80000000#32 = place 32 31 1#1 := by decide
  rw [configAddress, and_dwordMask, henable, setWidth_of_lt (n := 5) h.slot,
    setWidth_of_lt (n := 3) h.func]
  rfl

lemma ofAddress_configAddress (h : pci.Valid) (off : BitVec 8) :
    BusFunction.ofAddress (pci.configAddress off) = pci.busFunction := by
  rw [configAddress_eq h, BusFunction.ofAddress, BusFunction.mk.injEq]
  refine ⟨?_, ?_, ?_⟩
  all_goals
    simp (disch := omega) only [BitVec.extractLsb'_or, extract_place_self,
      extract_place_outside, BitVec.or_zero, BitVec.zero_or]

lemma dword_configAddress (h : pci.Valid) (off : BitVec 8) :
    (pci.configAddress off).extractLsb' 2 6 = off.extractLsb' 2 6 := by
  rw [configAddress_eq h]
  simp (disch := omega) only [BitVec.extractLsb'_or, extract_place_self,
    extract_place_outside, BitVec.or_zero, BitVec.zero_or]

lemma enabled_configAddress (pci : Pci) (off : BitVec 8) :
    (pci.configAddress off).getLsbD 31 = true := by
  simp [configAddress]

lemma busFunction_inj (h : pci.Valid) (h' : pci'.Valid) :
    pci.busFunction = pci'.busFunction ↔ pci = pci' := by
  obtain ⟨bus, slot, func⟩ := pci
  obtain ⟨bus', slot', func'⟩ := pci'
  obtain ⟨hslot, hfunc⟩ := h
  obtain ⟨hslot', hfunc'⟩ := h'
  simp only [busFunction, BusFunction.mk.injEq, mk.injEq, ← BitVec.toNat_inj,
    BitVec.toNat_setWidth] at *
  omega

lemma dword_inj : off.extractLsb' 2 6 = off'.extractLsb' 2 6 ↔ off.toNat / 4 = off'.toNat / 4 := by
  have h := off.isLt
  have h' := off'.isLt
  rw [← BitVec.toNat_inj, BitVec.extractLsb'_toNat, BitVec.extractLsb'_toNat,
    Nat.shiftRight_eq_div_pow, Nat.shiftRight_eq_div_pow]
  omega

/-- Distinct registers have distinct addresses. -/
lemma configAddress_inj (h : pci.Valid) (h' : pci'.Valid) :
    pci.configAddress off = pci'.configAddress off' ↔
      pci = pci' ∧ off.toNat / 4 = off'.toNat / 4 := by
  rw [← dword_inj, ← busFunction_inj h h']
  constructor
  · intro heq
    rw [← ofAddress_configAddress h off, ← dword_configAddress h off, heq,
      ofAddress_configAddress h', dword_configAddress h']
    exact ⟨rfl, rfl⟩
  · rintro ⟨hfunction, hdword⟩
    rw [configAddress_eq h, configAddress_eq h', hfunction, hdword]

end Pci

/-! ## One access -/

namespace Ports
variable {pci : Pci} {off : BitVec 8} {n : ℕ}

/-- A byte of the configuration space of a function. -/
def byte (pci : Pci) (off : BitVec 8) (p : Ports) : BitVec 8 := p.bytes pci.busFunction off

lemma toNat_halfShift (h : off.toNat % 2 = 0) :
    ((off &&& 2#8) * 8#8).toNat = 8 * (off.toNat % 4) := by
  rw [BitVec.toNat_mul, toNat_and_bit off (k := 1) rfl, BitVec.toNat_ofNat]
  omega

lemma toNat_byteShift (off : BitVec 8) :
    ((off &&& 3#8) * 8#8).toNat = 8 * (off.toNat % 4) := by
  rw [BitVec.toNat_mul, toNat_and_lowMask off (k := 2) rfl, BitVec.toNat_ofNat]
  omega

/-- The bytes of the dword of an offset. -/
lemma dword_append {b : BitVec 8} {k : ℕ} (hb : b.toNat = off.toNat / 4 * 4 + k) (hk : k < 4) :
    off.extractLsb' 2 6 ++ BitVec.ofNat 2 k = b := by
  apply BitVec.eq_of_toNat_eq
  have hoff := off.isLt
  have hlow : (BitVec.ofNat 2 k).toNat = k := by
    rw [BitVec.toNat_ofNat]
    omega
  rw [BitVec.toNat_append, BitVec.extractLsb'_toNat, hlow, hb, Nat.shiftRight_eq_div_pow,
    ← Nat.shiftLeft_add_eq_or_of_lt (by omega : k < 2 ^ 2), Nat.shiftLeft_eq]
  omega

lemma readData_configAddress (h : pci.Valid) (off : BitVec 8) (p : Ports) :
    (p.configAddress pci off).readData =
      littleEndian 4 fun k => p.byte pci (off.extractLsb' 2 6 ++ BitVec.ofNat 2 k) := by
  rw [readData, configAddress, if_pos (Pci.enabled_configAddress pci off)]
  simp only [Pci.ofAddress_configAddress h, Pci.dword_configAddress h]
  rfl

/-- A field of the selected dword is made of the bytes from the offset on. -/
lemma extract_readData (h : pci.Valid) (off : BitVec 8) (hn : off.toNat % 4 + n ≤ 4)
    (p : Ports) :
    (p.configAddress pci off).readData.extractLsb' (8 * (off.toNat % 4)) (8 * n) =
      littleEndian n fun k => p.byte pci (off + BitVec.ofNat 8 k) := by
  rw [readData_configAddress h, extract_littleEndian _ hn]
  apply littleEndian_congr
  intro k hk
  congr 1
  apply dword_append
  · have hoff := off.isLt
    rw [BitVec.toNat_add, BitVec.toNat_ofNat]
    omega
  · omega

/-- Replacing a field of the selected dword changes the bytes from the offset on. -/
lemma byte_writeData (h : pci.Valid) (hn : off.toNat % 4 + n ≤ 4) (data : BitVec (8 * n))
    (p : Ports) {q : Pci} (hq : q.Valid) (b : BitVec 8) :
    ((p.configAddress pci off).writeData
        (replace (p.configAddress pci off).readData (8 * (off.toNat % 4)) data)).byte q b =
      if q = pci ∧ off.toNat ≤ b.toNat ∧ b.toNat < off.toNat + n then
        data.extractLsb' (8 * (b.toNat - off.toNat)) 8
      else p.byte q b := by
  have hsel : (p.configAddress pci off).address = pci.configAddress off := rfl
  rw [writeData, hsel, if_pos (Pci.enabled_configAddress pci off), byte]
  simp only [Pci.ofAddress_configAddress h, Pci.dword_configAddress h, Pci.busFunction_inj hq h,
    Pci.dword_inj]
  by_cases hdword : q = pci ∧ b.toNat / 4 = off.toNat / 4
  · obtain ⟨rfl, hdword⟩ := hdword
    rw [if_pos ⟨rfl, hdword⟩]
    by_cases hin : off.toNat ≤ b.toNat ∧ b.toNat < off.toNat + n
    · have hpos : 8 * (b.toNat % 4) =
          8 * (off.toNat % 4) + 8 * (b.toNat - off.toNat) := by omega
      rw [if_pos ⟨rfl, hin⟩, hpos, extract_replace_inside _ _ (by omega) (by omega)]
    · have hout : 8 * (b.toNat % 4) + 8 ≤ 8 * (off.toNat % 4) ∨
          8 * (off.toNat % 4) + 8 * n ≤ 8 * (b.toNat % 4) := by omega
      rw [if_neg fun hboth => hin hboth.2, extract_replace_outside _ _ hout (by omega),
        readData_configAddress hq, extract_byte _ (by omega),
        dword_append (b := b) (by omega) (by omega)]
  · rw [if_neg hdword, if_neg fun hboth => hdword ⟨hboth.1, by omega⟩]
    rfl

lemma space_configAddress (p : Ports) :
    p.space (pci.configAddress off) = (p.configAddress pci off).readData := rfl

lemma configReadU8_fst (h : pci.Valid) (off : BitVec 8) (p : Ports) :
    (p.configReadU8 pci off).1 = p.byte pci off := by
  have hmask : 0xff#32 = (BitVec.allOnes 8).setWidth 32 := by decide
  rw [configReadU8, Pci.configReadU8, toNat_byteShift, setWidth_shiftRight_and _ _ hmask (by omega),
    space_configAddress, readData_configAddress h, extract_byte _ (by omega),
    dword_append (b := off) (by omega) (by omega)]

lemma configReadU16_fst (h : pci.Valid) (heven : off.toNat % 2 = 0) (p : Ports) :
    (p.configReadU16 pci off).1 =
      littleEndian 2 fun k => p.byte pci (off + BitVec.ofNat 8 k) := by
  have hmask : 0xffff#32 = (BitVec.allOnes 16).setWidth 32 := by decide
  rw [configReadU16, toNat_halfShift heven, setWidth_shiftRight_and _ _ hmask (by omega)]
  exact extract_readData (n := 2) h off (by omega) p

lemma configReadU32_fst (h : pci.Valid) (hdword : off.toNat % 4 = 0) (p : Ports) :
    (p.configReadU32 pci off).1 =
      littleEndian 4 fun k => p.byte pci (off + BitVec.ofNat 8 k) := by
  have hfield := extract_readData (n := 4) h off (by omega) p
  rw [hdword] at hfield
  exact (BitVec.extractLsb'_eq_self (x := (p.configAddress pci off).readData)).symm.trans hfield

end Ports

/-- A call of one of the six accessors. -/
inductive ConfigAccess
  | readU8 (pci : Pci) (off : BitVec 8)
  | readU16 (pci : Pci) (off : BitVec 8)
  | readU32 (pci : Pci) (off : BitVec 8)
  | writeU8 (pci : Pci) (off data : BitVec 8)
  | writeU16 (pci : Pci) (off : BitVec 8) (data : BitVec 16)
  | writeU32 (pci : Pci) (off : BitVec 8) (data : BitVec 32)
  deriving DecidableEq, Repr

namespace ConfigAccess

/-- What the call leaves behind. -/
def exec (p : Ports) : ConfigAccess → Ports
  | readU8 pci off => (p.configReadU8 pci off).2
  | readU16 pci off => (p.configReadU16 pci off).2
  | readU32 pci off => (p.configReadU32 pci off).2
  | writeU8 pci off data => p.configWriteU8 pci off data
  | writeU16 pci off data => p.configWriteU16 pci off data
  | writeU32 pci off data => p.configWriteU32 pci off data

/-- The offset of a register of two bytes is even, and that of one of four a multiple of 4. -/
def Aligned : ConfigAccess → Prop
  | readU8 pci _ | writeU8 pci _ _ => pci.Valid
  | readU16 pci off | writeU16 pci off _ => pci.Valid ∧ off.toNat % 2 = 0
  | readU32 pci off | writeU32 pci off _ => pci.Valid ∧ off.toNat % 4 = 0

instance : (a : ConfigAccess) → Decidable a.Aligned
  | readU8 pci _ | writeU8 pci _ _ => inferInstanceAs (Decidable pci.Valid)
  | readU16 pci off | writeU16 pci off _ =>
    inferInstanceAs (Decidable (pci.Valid ∧ off.toNat % 2 = 0))
  | readU32 pci off | writeU32 pci off _ =>
    inferInstanceAs (Decidable (pci.Valid ∧ off.toNat % 4 = 0))

/-- The value that a write of `n` bytes at `off` gives the byte `b` of `q`. -/
def field (n : ℕ) (pci : Pci) (off : BitVec 8) (data : BitVec (8 * n)) (q : Pci) (b : BitVec 8) :
    Option (BitVec 8) :=
  if q = pci ∧ off.toNat ≤ b.toNat ∧ b.toNat < off.toNat + n then
    some (data.extractLsb' (8 * (b.toNat - off.toNat)) 8)
  else none

/-- The value that the call writes to a byte, if it writes it. -/
def written : ConfigAccess → Pci → BitVec 8 → Option (BitVec 8)
  | writeU8 pci off data => field 1 pci off data
  | writeU16 pci off data => field 2 pci off data
  | writeU32 pci off data => field 4 pci off data
  | _ => fun _ _ => none

/-- The value that the last of the calls to write a byte wrote there. -/
def lastWritten (as : List ConfigAccess) (pci : Pci) (off : BitVec 8) : Option (BitVec 8) :=
  (as.filterMap (·.written pci off)).getLast?

variable {p : Ports} {q : Pci}

lemma byte_replace {n : ℕ} {pci : Pci} {off : BitVec 8} (h : pci.Valid)
    (hn : off.toNat % 4 + n ≤ 4) (data : BitVec (8 * n)) (p : Ports) (hq : q.Valid)
    (b : BitVec 8) :
    ((p.configAddress pci off).writeData
        (replace (p.configAddress pci off).readData (8 * (off.toNat % 4)) data)).byte q b =
      (field n pci off data q b).getD (p.byte q b) := by
  rw [p.byte_writeData h hn data hq b, field]
  split
  · rfl
  · rfl

/-- A call changes the bytes that it writes and no others. -/
lemma byte_exec {a : ConfigAccess} (h : a.Aligned) (p : Ports) (hq : q.Valid) (b : BitVec 8) :
    (a.exec p).byte q b = (a.written q b).getD (p.byte q b) := by
  cases a with
  | readU8 | readU16 | readU32 => rfl
  | writeU8 pci off data =>
    have hval : p.configWriteU8 pci off data = (p.configAddress pci off).writeData
        (replace (p.configAddress pci off).readData (8 * (off.toNat % 4)) data) := by
      rw [Ports.configWriteU8, Ports.toNat_byteShift]
      rfl
    rw [exec, hval]
    exact byte_replace (n := 1) h (by omega) data p hq b
  | writeU16 pci off data =>
    have heven : off.toNat % 2 = 0 := h.2
    have hval : p.configWriteU16 pci off data = (p.configAddress pci off).writeData
        (replace (p.configAddress pci off).readData (8 * (off.toNat % 4)) data) := by
      rw [Ports.configWriteU16, Ports.toNat_halfShift heven]
      rfl
    rw [exec, hval]
    exact byte_replace (n := 2) h.1 (by omega) data p hq b
  | writeU32 pci off data =>
    have hdword : off.toNat % 4 = 0 := h.2
    have hval : p.configWriteU32 pci off data = (p.configAddress pci off).writeData
        (replace (p.configAddress pci off).readData (8 * (off.toNat % 4)) data) := by
      rw [hdword, replace_all]
      rfl
    rw [exec, hval]
    exact byte_replace (n := 4) h.1 (by omega) data p hq b

/-- The calls one after the other. -/
def run (as : List ConfigAccess) (p : Ports) : Ports := as.foldl exec p

lemma lastWritten_append (as : List ConfigAccess) (a : ConfigAccess) (pci : Pci) (off : BitVec 8) :
    lastWritten (as ++ [a]) pci off = (a.written pci off).or (lastWritten as pci off) := by
  rw [lastWritten, lastWritten, List.filterMap_append, List.getLast?_append]
  congr 1
  cases h : a.written pci off <;> simp [h]

theorem byte_run {as : List ConfigAccess} (h : ∀ a ∈ as, a.Aligned) (p : Ports) (hq : q.Valid)
    (b : BitVec 8) : (run as p).byte q b = (lastWritten as q b).getD (p.byte q b) := by
  induction as using List.reverseRecOn with
  | nil => rfl
  | append_singleton as a ih =>
    have has : ∀ a ∈ as, a.Aligned := fun a ha => h a (List.mem_append_left _ ha)
    have ha : a.Aligned := h a (by simp)
    rw [run, List.foldl_append, List.foldl_cons, List.foldl_nil, byte_exec ha _ hq,
      lastWritten_append]
    have hbefore : (as.foldl exec p).byte q b = _ := ih has
    rw [hbefore]
    cases a.written q b with
    | none => rfl
    | some x => rfl

lemma lastWritten_eq_none {as : List ConfigAccess} {off : BitVec 8}
    (h : ∀ a ∈ as, a.written q off = none) : lastWritten as q off = none := by
  rw [lastWritten, List.filterMap_eq_nil_iff.mpr h]
  rfl

/-- The accessors are views of one memory: distinct registers have distinct addresses, a read
returns the bytes of its register, the last value written to each, and a byte that no call writes
is left alone. -/
theorem accessors_coherent {as : List ConfigAccess} (has : ∀ a ∈ as, a.Aligned) (p : Ports) :
    (∀ pci pci' : Pci, pci.Valid → pci'.Valid → ∀ off off',
      pci.configAddress off = pci'.configAddress off' →
        pci = pci' ∧ off.toNat / 4 = off'.toNat / 4) ∧
    ∀ pci : Pci, pci.Valid →
      let now := fun off => (lastWritten as pci off).getD (p.byte pci off)
      (∀ off, ((run as p).configReadU8 pci off).1 = now off) ∧
      (∀ off, off.toNat % 2 = 0 →
        ((run as p).configReadU16 pci off).1 =
          littleEndian 2 fun k => now (off + BitVec.ofNat 8 k)) ∧
      (∀ off, off.toNat % 4 = 0 →
        ((run as p).configReadU32 pci off).1 =
          littleEndian 4 fun k => now (off + BitVec.ofNat 8 k)) ∧
      ∀ off, (∀ a ∈ as, a.written pci off = none) →
        (run as p).byte pci off = p.byte pci off := by
  refine ⟨fun pci pci' h h' off off' => (Pci.configAddress_inj h h').mp, fun pci h => ?_⟩
  have hnow : ∀ off, (run as p).byte pci off = _ := fun off => byte_run has p h off
  refine ⟨fun off => ?_, fun off heven => ?_, fun off hdword => ?_, fun off hfree => ?_⟩
  · rw [Ports.configReadU8_fst h, hnow]
  · simp only [Ports.configReadU16_fst h heven, hnow]
  · simp only [Ports.configReadU32_fst h hdword, hnow]
  · rw [hnow, lastWritten_eq_none hfree]
    rfl

/-- Writes of all three widths to the command and status registers of one function, and accesses to
the same registers of another function and of another bus. -/
def mixed : List ConfigAccess :=
  [writeU32 ⟨0, 3, 0⟩ 4 0x11223344, writeU16 ⟨0, 3, 0⟩ 6 0x5566, writeU8 ⟨0, 3, 0⟩ 5 0x77,
    readU16 ⟨0, 3, 1⟩ 4, writeU32 ⟨0, 3, 1⟩ 4 0, writeU16 ⟨1, 3, 0⟩ 4 0]

theorem accessors_coherent_mixed :
    ((run mixed ⟨0, fun _ _ => 0xff⟩).configReadU32 ⟨0, 3, 0⟩ 4).1 = 0x55667744#32 := by
  have haligned : ∀ a ∈ mixed, a.Aligned := by decide
  have hviews := (accessors_coherent haligned ⟨0, fun _ _ => 0xff⟩).2 ⟨0, 3, 0⟩ (by decide)
  exact (hviews.2.2.1 4 (by decide)).trans (by decide +kernel)

end ConfigAccess
end Fomos
