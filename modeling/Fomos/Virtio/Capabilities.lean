import Mathlib
import Fomos.Library.Follow
import Fomos.Memory.Callers
import Fomos.Pci.Config

/-!
# The capability loop of `Virtio::init`

The loop follows the next bytes of the device's capability list until one is 0. It is bounded by
nothing but the list: it ends exactly when the list does not come back to one of its capabilities
and no virtio capability on it names a bar that the device cannot have.
-/
namespace Fomos

structure VirtioCap (T : Type) where
  cap : T
  bar : Bar
  offset : BitVec 32
  length : BitVec 32

/-- What the loop has found. Configurations that the driver accesses in place are kept as their
address. -/
structure VirtioCaps where
  common : Option (VirtioCap ℕ)
  device : Option (VirtioCap ℕ)
  notify : Option (VirtioCap (BitVec 32))
  pciConf : Option (VirtioCap (List (BitVec 8)))

def virtioPciCapCommonCfg : BitVec 8 := 1#8
def virtioPciCapNotifyCfg : BitVec 8 := 2#8
def virtioPciCapDeviceCfg : BitVec 8 := 4#8
def virtioPciCapPciCfg : BitVec 8 := 5#8

/-- Addition to a `PhysAddr` panics beyond the physical addresses. -/
def PhysAddr.add (phys : PhysAddr) (offset : BitVec 32) : Option PhysAddr :=
  PhysAddr.new (phys.addr + offset.toNat)

/-- `VIRTUAL_MAPPING_OFFSET + addr`, which panics if the sum is not canonical. -/
def physToVirt (virtualMappingOffset : ℕ) (phys : PhysAddr) : Option ℕ :=
  VirtAddr.new ((virtualMappingOffset + phys.addr) % 2 ^ 64)

/-- `if let Bar::Mm(phys) = bars[bar as usize] { phys_to_virt(phys + offset as u64) }`: an index
that is not one of `bars` panics, and so does an address out of range. -/
def barAddress (bars : Vector Bar 6) (virtualMappingOffset : ℕ) (bar : BitVec 8)
    (offset : BitVec 32) : Option (Bar × Option ℕ) :=
  match bars[bar.toNat]? with
  | none => none
  | some (.mm phys) =>
    ((phys.add offset).bind (physToVirt virtualMappingOffset)).map fun ptr => (.mm phys, some ptr)
  | some b => some (b, none)

section Loop
variable (pci : Pci) (space : ConfigSpace) (bars : Vector Bar 6) (virtualMappingOffset : ℕ)

/-- What one round reads, as a change of what has been found. -/
def readCap (currentOff : BitVec 8) : Option (VirtioCaps → VirtioCaps) :=
  let cap := pci.configReadU8 space currentOff
  if cap = 0x9#8 then
    let cfgType := pci.configReadU8 space (currentOff + 3)
    let bar := pci.configReadU8 space (currentOff + 4)
    let offset := pci.configReadU32 space (currentOff + 8)
    let length := pci.configReadU32 space (currentOff + 12)
    if cfgType = virtioPciCapCommonCfg then
      (barAddress bars virtualMappingOffset bar offset).map fun (b, address) caps =>
        address.elim caps fun cfg => { caps with common := some ⟨cfg, b, offset, length⟩ }
    else if cfgType = virtioPciCapNotifyCfg then
      let notifyOffMultiplier := pci.configReadU32 space (currentOff + 16)
      bars[bar.toNat]?.map fun b caps =>
        { caps with notify := some ⟨notifyOffMultiplier, b, offset, length⟩ }
    else if cfgType = virtioPciCapDeviceCfg then
      (barAddress bars virtualMappingOffset bar offset).map fun (b, address) caps =>
        address.elim caps fun cfg => { caps with device := some ⟨cfg, b, offset, length⟩ }
    else if cfgType = virtioPciCapPciCfg then
      let pciCfgData := [16, 17, 18, 19].map fun i => pci.configReadU8 space (currentOff + i)
      bars[bar.toNat]?.map fun b caps =>
        { caps with pciConf := some ⟨pciCfgData, b, offset, length⟩ }
    else some id
  else some id

/-- The offset of the next round, if there is one. -/
def nextOff (currentOff : BitVec 8) : Option (BitVec 8) :=
  let currentOff := pci.configReadU8 space (1 + currentOff)
  if currentOff = 0 then none else some currentOff

/-- How far the loop has come: still going, in a panic, or past it with what it has found. -/
inductive CapLoop
  | running
  | panicked
  | finished (caps : VirtioCaps) (visited : List (BitVec 8))

/-- At most `rounds` rounds of the loop. The offsets that it was at are kept beside its state. -/
def capLoop : (rounds : ℕ) → BitVec 8 → VirtioCaps → List (BitVec 8) → CapLoop
  | 0, _, _, _ => .running
  | rounds + 1, currentOff, caps, visited =>
    match readCap pci space bars virtualMappingOffset currentOff with
    | none => .panicked
    | some found =>
      match nextOff pci space currentOff with
      | none => .finished (found caps) (visited ++ [currentOff])
      | some next => capLoop rounds next (found caps) (visited ++ [currentOff])

/-- The loop of `init`, from the capability pointer. -/
def initCaps (rounds : ℕ) : CapLoop :=
  let capPtr := pci.configReadU8 space PCIConfigRegisters.pciCapabilitiesPointer
  capLoop pci space bars virtualMappingOffset rounds capPtr ⟨none, none, none, none⟩ []

/-- The offset that the list comes to after `k` of its next bytes. -/
def capAt (k : ℕ) : Option (BitVec 8) :=
  Follow.nth (nextOff pci space)
    (pci.configReadU8 space PCIConfigRegisters.pciCapabilitiesPointer) k

/-- A virtio capability that `init` looks at names one of the six bars, and a configuration in a
memory bar has an address. -/
def ValidCap (off : BitVec 8) : Prop :=
  let cfgType := pci.configReadU8 space (off + 3)
  let bar := pci.configReadU8 space (off + 4)
  let offset := pci.configReadU32 space (off + 8)
  pci.configReadU8 space off = 0x9#8 →
    (cfgType ∈ [virtioPciCapCommonCfg, virtioPciCapNotifyCfg, virtioPciCapDeviceCfg,
      virtioPciCapPciCfg] → bar.toNat < 6) ∧
    (cfgType ∈ [virtioPciCapCommonCfg, virtioPciCapDeviceCfg] →
      ∀ phys, bars[bar.toNat]? = some (.mm phys) →
        ∃ p, phys.add offset = some p ∧ (physToVirt virtualMappingOffset p).isSome)

end Loop

section
variable {pci : Pci} {space : ConfigSpace} {bars : Vector Bar 6} {virtualMappingOffset : ℕ}

lemma barAddress_isSome_iff {bar : BitVec 8} {offset : BitVec 32} :
    (barAddress bars virtualMappingOffset bar offset).isSome ↔
      bar.toNat < 6 ∧ ∀ phys, bars[bar.toNat]? = some (.mm phys) →
        ∃ p, phys.add offset = some p ∧ (physToVirt virtualMappingOffset p).isSome := by
  unfold barAddress
  by_cases hbar : bar.toNat < 6
  · rw [Vector.getElem?_eq_getElem hbar]
    cases bars[bar.toNat] with
    | none => simp [hbar]
    | io port => simp [hbar]
    | mm phys =>
      simp only [Option.isSome_map, Option.isSome_bind, Option.any_eq_true, hbar,
        true_and]
      constructor
      · rintro ⟨p, hp, hvirt⟩ phys' hphys
        cases hphys
        exact ⟨p, hp, hvirt⟩
      · intro h
        exact h phys rfl
  · rw [Vector.getElem?_eq_none (Nat.le_of_not_lt hbar)]
    simp [hbar]

/-- A round does not panic exactly when its capability is valid. -/
lemma readCap_isSome_iff (off : BitVec 8) :
    (readCap pci space bars virtualMappingOffset off).isSome ↔
      ValidCap pci space bars virtualMappingOffset off := by
  unfold readCap ValidCap
  have hbars : ∀ bar : BitVec 8, bars[bar.toNat]?.isSome ↔ bar.toNat < 6 := by
    intro bar
    simp
  by_cases hcap : pci.configReadU8 space off = 0x9#8
  · simp only [hcap, if_true, true_imp_iff]
    generalize pci.configReadU8 space (off + 3) = cfgType
    by_cases hcommon : cfgType = virtioPciCapCommonCfg
    · subst hcommon
      simp [barAddress_isSome_iff]
    · by_cases hdevice : cfgType = virtioPciCapDeviceCfg
      · subst hdevice
        have hnotify : virtioPciCapDeviceCfg ≠ virtioPciCapNotifyCfg := by decide
        simp [hcommon, hnotify, barAddress_isSome_iff]
      · by_cases hnotify : cfgType = virtioPciCapNotifyCfg
        · subst hnotify
          simp [hcommon, hdevice, hbars]
        · by_cases hpciCfg : cfgType = virtioPciCapPciCfg
          · subst hpciCfg
            simp [hcommon, hdevice, hnotify, hbars]
          · simp [hcommon, hdevice, hnotify, hpciCfg]
  · simp [hcap]

/-- A loop that finishes was at each offset of the list in turn, and each capability was valid. -/
lemma capLoop_finished {rounds : ℕ} {off : BitVec 8} {caps caps' : VirtioCaps}
    {visited visited' : List (BitVec 8)}
    (h : capLoop pci space bars virtualMappingOffset rounds off caps visited =
      .finished caps' visited') :
    ∃ offs, visited' = visited ++ offs ∧
      (∀ k : ℕ, offs[k]? = Follow.nth (nextOff pci space) off k) ∧
      ∀ x ∈ offs, ValidCap pci space bars virtualMappingOffset x := by
  induction rounds generalizing off caps visited with
  | zero => cases h
  | succ rounds ih =>
    rw [capLoop] at h
    cases hread : readCap pci space bars virtualMappingOffset off with
    | none =>
      rw [hread] at h
      cases h
    | some found =>
      have hvalid : ValidCap pci space bars virtualMappingOffset off := by
        rw [← readCap_isSome_iff, hread]
        rfl
      simp only [hread] at h
      cases hnext : nextOff pci space off with
      | none =>
        simp only [hnext] at h
        cases h
        refine ⟨[off], rfl, fun k => ?_, by simpa using hvalid⟩
        cases k with
        | zero => rfl
        | succ k => simp [Follow.nth_of_next_none hnext]
      | some next =>
        simp only [hnext] at h
        obtain ⟨offs, rfl, hoffs, hvalids⟩ := ih h
        refine ⟨off :: offs, by simp, fun k => ?_, by simpa using ⟨hvalid, hvalids⟩⟩
        cases k with
        | zero => rfl
        | succ k => rw [Follow.nth_succ_of_next hnext, List.getElem?_cons_succ, hoffs]

/-- A list that ends, with valid capabilities, is gone through in as many rounds. -/
lemma capLoop_of_ends {k : ℕ} {off : BitVec 8} {caps : VirtioCaps} {visited : List (BitVec 8)}
    (hk : Follow.nth (nextOff pci space) off k = none)
    (hvalid : ∀ j x, Follow.nth (nextOff pci space) off j = some x →
      ValidCap pci space bars virtualMappingOffset x) :
    ∃ caps' visited', capLoop pci space bars virtualMappingOffset k off caps visited =
      .finished caps' visited' := by
  induction k generalizing off caps visited with
  | zero => cases hk
  | succ k ih =>
    obtain ⟨found, hread⟩ :=
      Option.isSome_iff_exists.mp ((readCap_isSome_iff off).mpr (hvalid 0 off rfl))
    rw [capLoop, hread]
    cases hnext : nextOff pci space off with
    | none => exact ⟨_, _, rfl⟩
    | some next =>
      rw [Follow.nth_succ_of_next hnext] at hk
      apply ih hk
      intro j x hx
      apply hvalid (j + 1)
      rw [Follow.nth_succ_of_next hnext, hx]

end

/-- A device whose only capability, at 0x40, names itself as the next. -/
def selfLoop : ConfigSpace := fun address =>
  if address = 0x80000034#32 then 0x40#32 else if address = 0x80000040#32 then 0x4011#32 else 0#32

lemma capLoop_selfLoop (bars : Vector Bar 6) (virtualMappingOffset rounds : ℕ) (caps : VirtioCaps)
    (visited : List (BitVec 8)) :
    capLoop ⟨0, 0, 0⟩ selfLoop bars virtualMappingOffset rounds 0x40#8 caps visited = .running := by
  have hread : readCap ⟨0, 0, 0⟩ selfLoop bars virtualMappingOffset 0x40#8 = some id := by
    have hcap : Pci.configReadU8 ⟨0, 0, 0⟩ selfLoop 0x40#8 ≠ 0x9#8 := by decide
    unfold readCap
    rw [if_neg hcap]
  have hnext : nextOff ⟨0, 0, 0⟩ selfLoop 0x40#8 = some 0x40#8 := by decide
  induction rounds generalizing caps visited with
  | zero => rfl
  | succ rounds ih =>
    rw [capLoop, hread]
    simp only [hnext]
    exact ih _ _

end Fomos
