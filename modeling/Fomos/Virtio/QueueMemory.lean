import Mathlib
import Fomos.Kernel.State

/-!
# The pages of a virtqueue

`Virtio::init` gives the descriptor table, the avail ring and the used ring of a queue one page
each, whatever queue size the device reports. The rings fit up to larger sizes than the descriptor
table, which is the first to leave its page.
-/
namespace Fomos

/-- The start of the page that `init` allocated for each structure. -/
structure QueuePages where
  queueDesc : ℕ
  queueDriver : ℕ
  queueDevice : ℕ

/-- `len` bytes at `addr`, meant for the page that starts at `page`. -/
structure Access where
  page : ℕ
  addr : ℕ
  len : ℕ
  deriving DecidableEq, Repr

def pageSize : ℕ := 4096

def Access.InPage (a : Access) : Prop := a.page ≤ a.addr ∧ a.addr + a.len ≤ a.page + pageSize

def sizeOfDesc : ℕ := 16
def sizeOfUsedElem : ℕ := 8

namespace QueuePages
variable (p : QueuePages)

/-- `descs.offset(desc_id)` -/
def descs (descId : ℕ) : Access := ⟨p.queueDesc, p.queueDesc + sizeOfDesc * descId, sizeOfDesc⟩

/-- The flags of the avail ring. -/
def driverFlags : Access := ⟨p.queueDriver, p.queueDriver, 2⟩

def driverIdx : Access := ⟨p.queueDriver, p.queueDriver + 2, 2⟩

/-- `driver_ring_start.offset(slot)` -/
def driverRing (slot : ℕ) : Access := ⟨p.queueDriver, p.queueDriver + 4 + 2 * slot, 2⟩

def deviceIdx : Access := ⟨p.queueDevice, p.queueDevice + 2, 2⟩

/-- `device_ring_start.offset(slot)` -/
def deviceRing (slot : ℕ) : Access :=
  ⟨p.queueDevice, p.queueDevice + 4 + sizeOfUsedElem * slot, sizeOfUsedElem⟩

/-- What the set-up of a queue writes in its pages. -/
def init (queueSize : ℕ) : List Access := (List.range queueSize).map p.descs ++ [p.driverFlags]

def setAvailable (v : Virtio) : List Access :=
  [p.driverIdx, p.driverRing (v.rings.driverIdx % v.rings.queueSize), p.driverIdx]

def setWritable (descId : ℕ) : List Access := [p.descs descId, p.descs descId]

def addRequest (v : Virtio) (descId descNextId : ℕ) : List Access :=
  [p.descs descId, p.descs descId] ++ p.setWritable descNextId ++ p.setAvailable v

def readDesc (descId : ℕ) : List Access := [p.descs descId]

def nextUsed (v : Virtio) : List Access :=
  if wrappingAdd v.rings.lastUsedIdx 1 ≠ v.rings.deviceIdx then
    [p.deviceIdx, p.deviceRing (wrappingAdd v.rings.lastUsedIdx 1 % v.rings.queueSize)]
  else [p.deviceIdx]

end QueuePages

/-- An operation of the driver, with the descriptor ids it is given. -/
inductive QueueOp
  | setAvailable (descId : ℕ)
  | setWritable (descId : ℕ)
  | addRequest (descId descNextId : ℕ)
  | readDesc (descId : ℕ)
  | nextUsed
  deriving DecidableEq, Repr

namespace QueueOp

def ids : QueueOp → List ℕ
  | setAvailable descId => [descId]
  | setWritable descId => [descId]
  | addRequest descId descNextId => [descId, descNextId]
  | readDesc descId => [descId]
  | nextUsed => []

def accesses (p : QueuePages) (v : Virtio) : QueueOp → List Access
  | setAvailable _ => p.setAvailable v
  | setWritable descId => p.setWritable descId
  | addRequest descId descNextId => p.addRequest v descId descNextId
  | readDesc descId => p.readDesc descId
  | nextUsed => p.nextUsed v

end QueueOp

/-- Every access of the set-up, and of every operation on ids of the queue in any state of its
rings, is in its page, and the ids index the wakers. -/
def MemoryFits (queueSize : ℕ) : Prop :=
  ∀ (p : QueuePages) (v : Virtio), v.rings.queueSize = queueSize →
    (∀ a ∈ p.init queueSize, a.InPage) ∧
    (∀ op : QueueOp, (∀ id ∈ op.ids, id < queueSize) → ∀ a ∈ op.accesses p v, a.InPage) ∧
    ∀ id < queueSize, id < Kernel.numWakers

section InPage
variable {p : QueuePages} {i : ℕ}

lemma inPage_descs_iff : (p.descs i).InPage ↔ i < 256 := by
  unfold Access.InPage QueuePages.descs sizeOfDesc pageSize
  dsimp only
  omega

lemma inPage_driverFlags : p.driverFlags.InPage := by
  unfold Access.InPage QueuePages.driverFlags pageSize
  dsimp only
  omega

lemma inPage_driverIdx : p.driverIdx.InPage := by
  unfold Access.InPage QueuePages.driverIdx pageSize
  dsimp only
  omega

lemma inPage_driverRing_iff : (p.driverRing i).InPage ↔ i < 2046 := by
  unfold Access.InPage QueuePages.driverRing pageSize
  dsimp only
  omega

lemma inPage_deviceIdx : p.deviceIdx.InPage := by
  unfold Access.InPage QueuePages.deviceIdx pageSize
  dsimp only
  omega

lemma inPage_deviceRing_iff : (p.deviceRing i).InPage ↔ i < 511 := by
  unfold Access.InPage QueuePages.deviceRing sizeOfUsedElem pageSize
  dsimp only
  omega

end InPage

/-- The pages hold a queue of up to 256 entries. -/
lemma inPage_accesses {p : QueuePages} {v : Virtio} {op : QueueOp} {a : Access}
    (hpos : 0 < v.rings.queueSize) (hle : v.rings.queueSize ≤ 256)
    (hids : ∀ id ∈ op.ids, id < v.rings.queueSize) (ha : a ∈ op.accesses p v) : a.InPage := by
  have hdescs : ∀ id ∈ op.ids, (p.descs id).InPage := by
    intro id hid
    exact inPage_descs_iff.mpr ((hids id hid).trans_le hle)
  have hdriver : (p.driverRing (v.rings.driverIdx % v.rings.queueSize)).InPage := by
    have := Nat.mod_lt v.rings.driverIdx hpos
    exact inPage_driverRing_iff.mpr (by omega)
  have hdevice : (p.deviceRing (wrappingAdd v.rings.lastUsedIdx 1 % v.rings.queueSize)).InPage := by
    have := Nat.mod_lt (wrappingAdd v.rings.lastUsedIdx 1) hpos
    exact inPage_deviceRing_iff.mpr (by omega)
  have havailable : ∀ b ∈ p.setAvailable v, b.InPage := by
    simp only [QueuePages.setAvailable, List.forall_mem_cons]
    exact ⟨inPage_driverIdx, hdriver, inPage_driverIdx, List.forall_mem_nil _⟩
  cases op with
  | setAvailable descId => exact havailable a ha
  | setWritable descId =>
    simp only [QueueOp.accesses, QueuePages.setWritable, List.mem_cons, List.not_mem_nil,
      or_false, or_self] at ha
    rw [ha]
    exact hdescs _ (.head _)
  | addRequest descId descNextId =>
    simp only [QueueOp.accesses, QueuePages.addRequest, QueuePages.setWritable, List.mem_append,
      List.mem_cons, List.not_mem_nil, or_false, or_self] at ha
    obtain (rfl | rfl) | ha := ha
    · exact hdescs _ (.head _)
    · exact hdescs _ (.tail _ (.head _))
    · exact havailable a ha
  | readDesc descId =>
    simp only [QueueOp.accesses, QueuePages.readDesc, List.mem_singleton] at ha
    rw [ha]
    exact hdescs _ (.head _)
  | nextUsed =>
    simp only [QueueOp.accesses, QueuePages.nextUsed] at ha
    split at ha
    · obtain rfl | rfl : a = _ ∨ a = _ := by simpa using ha
      · exact inPage_deviceIdx
      · exact hdevice
    · obtain rfl := List.mem_singleton.mp ha
      exact inPage_deviceIdx

/-- The memory of a queue fits exactly when the device reports at most 256 entries. -/
theorem memoryFits_iff (k : ℕ) : MemoryFits (2 ^ k) ↔ 2 ^ k ≤ 256 := by
  constructor
  · intro h
    let p : QueuePages := ⟨0, 0, 0⟩
    let v : Virtio := .init (2 ^ k) (fun _ => 0) (fun _ => 0) fun _ => ⟨0, 0⟩
    have hpos := Nat.two_pow_pos k
    have hlast : p.descs (2 ^ k - 1) ∈ p.init (2 ^ k) := by
      rw [QueuePages.init, List.mem_append, List.mem_map]
      exact .inl ⟨_, List.mem_range.mpr (by omega), rfl⟩
    have := inPage_descs_iff.mp ((h p v rfl).1 _ hlast)
    omega
  · intro hle p v hv
    refine ⟨fun a ha => ?_, fun op hids a ha => ?_, fun id hid => hid.trans_le hle⟩
    · rw [QueuePages.init, List.mem_append, List.mem_map, List.mem_singleton] at ha
      obtain ⟨id, hid, rfl⟩ | rfl := ha
      · exact inPage_descs_iff.mpr ((List.mem_range.mp hid).trans_le hle)
      · exact inPage_driverFlags
    · rw [← hv] at hids hle
      exact inPage_accesses (hv ▸ Nat.two_pow_pos k) hle hids ha

/-- On a queue of 512 entries the set-up already writes past the page of the descriptors. -/
theorem memory_overflows : ¬∀ k ≤ 15, MemoryFits (2 ^ k) := by
  intro h
  let p : QueuePages := ⟨0, 0, 0⟩
  let v : Virtio := .init (2 ^ 9) (fun _ => 0) (fun _ => 0) fun _ => ⟨0, 0⟩
  have hmem : p.descs 256 ∈ p.init (2 ^ 9) := by
    rw [QueuePages.init, List.mem_append, List.mem_map]
    exact .inl ⟨256, List.mem_range.mpr (by decide), rfl⟩
  have := inPage_descs_iff.mp ((h 9 (by decide) p v rfl).1 _ hmem)
  omega

end Fomos
