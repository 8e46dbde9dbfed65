import Mathlib
import Fomos.Library.RingWindow

/-!
# The virtqueue of a `Virtio`

The queue that `queue_select` points at: its descriptor table, the two rings it shares with the
device, and the list of free descriptors. Ring indices and cursors are `u16` and wrap; ids are
kept as numbers. The device's half of the rings follows the split-virtqueue layout that
`set_available` and `next_used` assume.
-/
namespace Fomos

/-- An entry of the descriptor table. -/
structure Desc where
  addr : ℕ
  len : ℕ
  flags : ℕ
  next : ℕ
  deriving DecidableEq, Repr

/-- What the device writes when it returns a chain. -/
structure UsedElem where
  id : ℕ
  len : ℕ
  deriving DecidableEq, Repr

def virtqDescFNext : ℕ := 1
def virtqDescFWrite : ℕ := 2

/-- Addition of `u16` values. -/
def wrappingAdd (x y : ℕ) : ℕ := (x + y) % 2^16

/-- The free descriptor ids of a queue. The head of the list is the end of the source's `Vec`,
where it pushes and pops. -/
structure QueueFreeDescs where
  free : List ℕ
  deriving DecidableEq, Repr

namespace QueueFreeDescs

def new (queueSize : ℕ) : QueueFreeDescs := ⟨(List.range queueSize).reverse⟩

def getFree : QueueFreeDescs → Option (ℕ × QueueFreeDescs)
  | ⟨[]⟩ => none
  | ⟨d :: ds⟩ => some (d, ⟨ds⟩)

def getFreeTwice : QueueFreeDescs → Option ((ℕ × ℕ) × QueueFreeDescs)
  | ⟨d :: e :: ds⟩ => some ((d, e), ⟨ds⟩)
  | _ => none

def setFree (q : QueueFreeDescs) (descId : ℕ) : QueueFreeDescs := ⟨descId :: q.free⟩

@[simp] theorem setFree_free (q : QueueFreeDescs) (d : ℕ) : (q.setFree d).free = d :: q.free := rfl

theorem getFree_eq_some {q q' : QueueFreeDescs} {d : ℕ} :
    q.getFree = some (d, q') ↔ q.free = d :: q'.free := by
  obtain ⟨ds⟩ := q
  obtain ⟨ds'⟩ := q'
  cases ds <;> simp [getFree]

theorem getFree_eq_none {q : QueueFreeDescs} : q.getFree = none ↔ q.free = [] := by
  obtain ⟨ds⟩ := q
  cases ds <;> simp [getFree]

theorem getFreeTwice_eq_some {q q' : QueueFreeDescs} {d e : ℕ} :
    q.getFreeTwice = some ((d, e), q') ↔ q.free = d :: e :: q'.free := by
  obtain ⟨ds⟩ := q
  obtain ⟨ds'⟩ := q'
  obtain - | ⟨a, - | ⟨b, ds⟩⟩ := ds <;> simp [getFreeTwice, and_assoc]

theorem getFreeTwice_eq_none {q : QueueFreeDescs} :
    q.getFreeTwice = none ↔ q.free.length < 2 := by
  obtain ⟨ds⟩ := q
  obtain - | ⟨a, - | ⟨b, ds⟩⟩ := ds <;> simp [getFreeTwice]

end QueueFreeDescs

/-- The two rings shared with the device, and the driver's cursor in the used ring. -/
structure Rings where
  queueSize : ℕ
  driverIdx : ℕ
  driverRing : ℕ → ℕ
  deviceIdx : ℕ
  deviceRing : ℕ → UsedElem
  lastUsedIdx : ℕ

namespace Rings

/-- Empty rings over pages with any slot contents. -/
def init (queueSize : ℕ) (driverRing : ℕ → ℕ) (deviceRing : ℕ → UsedElem) : Rings where
  queueSize := queueSize
  driverIdx := 0
  driverRing := driverRing
  deviceIdx := 0
  deviceRing := deviceRing
  lastUsedIdx := 2^16 - 1

def setAvailable (descId : ℕ) (r : Rings) : Rings :=
  { r with
    driverRing := Function.update r.driverRing (r.driverIdx % r.queueSize) descId
    driverIdx := wrappingAdd r.driverIdx 1 }

def nextUsed (r : Rings) : Option (UsedElem × Rings) :=
  if wrappingAdd r.lastUsedIdx 1 ≠ r.deviceIdx then
    let last := wrappingAdd r.lastUsedIdx 1
    some (r.deviceRing (last % r.queueSize), { r with lastUsedIdx := last })
  else none

/-- The device looks at the next entry of the avail ring, at its own cursor. -/
def deviceRead (cursor : ℕ) (r : Rings) : Option ℕ :=
  if cursor ≠ r.driverIdx then some (r.driverRing (cursor % r.queueSize)) else none

/-- The device returns a chain on the used ring. -/
def devicePush (e : UsedElem) (r : Rings) : Rings :=
  { r with
    deviceRing := Function.update r.deviceRing (r.deviceIdx % r.queueSize) e
    deviceIdx := wrappingAdd r.deviceIdx 1 }

end Rings

/-- The driver's side of a device. -/
structure Virtio where
  descs : ℕ → Desc
  rings : Rings
  queuesFree : QueueFreeDescs

namespace Virtio

/-- The queue as `Virtio::init` leaves it, with the frame behind each descriptor. -/
def init (queueSize : ℕ) (addr : ℕ → ℕ) (driverRing : ℕ → ℕ) (deviceRing : ℕ → UsedElem) :
    Virtio where
  descs i := ⟨addr i, 4096, virtqDescFWrite, 0xffff⟩
  rings := Rings.init queueSize driverRing deviceRing
  queuesFree := QueueFreeDescs.new queueSize

def getFreeDescId (v : Virtio) : Option (ℕ × Virtio) :=
  v.queuesFree.getFree.map fun (d, q) => (d, { v with queuesFree := q })

def getFreeTwiceDescId (v : Virtio) : Option ((ℕ × ℕ) × Virtio) :=
  v.queuesFree.getFreeTwice.map fun (d, q) => (d, { v with queuesFree := q })

def setFreeDescId (descId : ℕ) (v : Virtio) : Virtio :=
  { v with queuesFree := v.queuesFree.setFree descId }

def setAvailable (descId : ℕ) (v : Virtio) : Virtio :=
  { v with rings := v.rings.setAvailable descId }

def setWritable (descId : ℕ) (v : Virtio) : Virtio :=
  let desc := { v.descs descId with flags := virtqDescFWrite, len := 4096 }
  { v with descs := Function.update v.descs descId desc }

def setWritableAvailable (descId : ℕ) (v : Virtio) : Virtio :=
  (v.setWritable descId).setAvailable descId

/-- `add_request` for data of `len` bytes; the bytes themselves go to the buffer of `descId`. -/
def addRequest (descId descNextId len : ℕ) (v : Virtio) : Virtio :=
  let desc := { v.descs descId with len := len, flags := virtqDescFNext, next := descNextId }
  (({ v with descs := Function.update v.descs descId desc }).setWritable descNextId).setAvailable
    descId

def nextUsed (v : Virtio) : Option (UsedElem × Virtio) :=
  v.rings.nextUsed.map fun (e, r) => (e, { v with rings := r })

def readDesc (descId : ℕ) (v : Virtio) : Desc := v.descs descId

variable {v v' : Virtio}

theorem getFreeTwiceDescId_eq_some {d e : ℕ} (h : v.getFreeTwiceDescId = some ((d, e), v')) :
    v.queuesFree.free = d :: e :: v'.queuesFree.free ∧
      v' = { v with queuesFree := v'.queuesFree } := by
  obtain ⟨⟨x, q⟩, hq, hv⟩ := Option.map_eq_some_iff.mp h
  cases hv
  exact ⟨QueueFreeDescs.getFreeTwice_eq_some.mp hq, rfl⟩

theorem nextUsed_eq_some {e : UsedElem} (h : v.nextUsed = some (e, v')) :
    v.rings.nextUsed = some (e, v'.rings) ∧ v' = { v with rings := v'.rings } := by
  obtain ⟨⟨x, q⟩, hq, hv⟩ := Option.map_eq_some_iff.mp h
  cases hv
  exact ⟨hq, rfl⟩

@[simp] theorem addRequest_queuesFree (d e len : ℕ) :
    (v.addRequest d e len).queuesFree = v.queuesFree := rfl

@[simp] theorem addRequest_rings (d e len : ℕ) :
    (v.addRequest d e len).rings = v.rings.setAvailable d := rfl

theorem addRequest_addr (d e len i : ℕ) :
    ((v.addRequest d e len).descs i).addr = (v.descs i).addr := by
  simp only [addRequest, setWritable, setAvailable, Function.update_apply]
  split_ifs <;> simp_all

theorem addRequest_head {d e : ℕ} (hne : d ≠ e) (len : ℕ) :
    (v.addRequest d e len).descs d = ⟨(v.descs d).addr, len, virtqDescFNext, e⟩ := by
  simp [addRequest, setWritable, setAvailable, hne]

theorem addRequest_tail (d e len : ℕ) :
    ((v.addRequest d e len).descs e).flags = virtqDescFWrite ∧
      ((v.addRequest d e len).descs e).len = 4096 := by
  simp [addRequest, setWritable, setAvailable]

theorem addRequest_descs {d e i : ℕ} (hd : i ≠ d) (he : i ≠ e) (len : ℕ) :
    (v.addRequest d e len).descs i = v.descs i := by
  simp [addRequest, setWritable, setAvailable, hd, he]

end Virtio
end Fomos
