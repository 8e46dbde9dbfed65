import Mathlib
import Fomos.Virtio.Queue

/-!
# The tasks that the executor runs

A future is kept as the operations it still has to do and the future it awaits. `virtio_gpu::drive`,
the poller and the transfer loop it spawns are scripts; every other task is a client, which may
do any of the operations open to it in any order, and reaches a device only with a clone of the
device's `Arc<Mutex<Virtio>>`. The input drivers and the app loop are clients without a device.
-/
namespace Fomos

abbrev TaskId := ℕ
abbrev DevId := ℕ

/-- What a spawned future runs. -/
inductive Routine
  | drive (g : DevId)
  | poller (g : DevId)
  | transfer (g : DevId)
  | client (gpu : Option DevId)
  deriving DecidableEq, Repr

/-- The calls that a future makes between two awaits, and the futures it awaits. -/
inductive Op
  | spawn (r : Routine)
  | yieldOnce
  | startUp (g : DevId)
  | dropGuard (g : DevId)
  | readConfig (g : DevId)
  | request (g : DevId) (len : ℕ)
  | checkall (g : DevId)
  deriving DecidableEq, Repr

/-! `size_of_val` of the request structures (`repr(C)`). -/

def virtioGpuCtrlHdr : ℕ := 4 + 4 + 8 + 4 + 1 + 3
def virtioGpuRect : ℕ := 4 * 4
def virtioGpuCmdGetCapsetInfo : ℕ := virtioGpuCtrlHdr + 4 + 4
def virtioGpuCmdResourceCreate2d : ℕ := virtioGpuCtrlHdr + 4 + 4 + 4 + 4
def virtioGpuCmdResourceAttachBacking : ℕ := virtioGpuCtrlHdr + 4 + 4 + 8 + 4 + 4
def virtioGpuCmdSetScanout : ℕ := virtioGpuCtrlHdr + virtioGpuRect + 4 + 4
def virtioGpuCmdTransferToHost2d : ℕ := virtioGpuCtrlHdr + virtioGpuRect + 8 + 4 + 4
def virtioGpuCmdResourceFlush : ℕ := virtioGpuCtrlHdr + virtioGpuRect + 4 + 4
def virtioGpuCmdCtxCreate : ℕ := virtioGpuCtrlHdr + 4 + 4 + 64 * 4
def virtioGpuCmdResourceCreate3d : ℕ := virtioGpuCtrlHdr + 11 * 4 + 4
def virtioGpuCmdCtxAttachResource : ℕ := virtioGpuCtrlHdr + 4 + 4
/-- The four bytes at the end are padding, since the header is aligned to 8. -/
def virtioGpuCmdSubmit3d : ℕ := virtioGpuCtrlHdr + 4 + 512 * 4 + 4

/-- `virtio_gpu::drive` up to its last loop. -/
def driveBody (g : DevId) (numCapsets : ℕ) : List Op :=
  ([.spawn (.poller g), .startUp g, .yieldOnce, .dropGuard g, .request g virtioGpuCtrlHdr,
    .readConfig g] : List Op) ++
  List.replicate numCapsets (.request g virtioGpuCmdGetCapsetInfo) ++
  ([.yieldOnce, .request g virtioGpuCtrlHdr, .request g virtioGpuCmdResourceCreate2d,
    .request g virtioGpuCmdResourceAttachBacking, .request g virtioGpuCmdSetScanout,
    .request g virtioGpuCmdTransferToHost2d, .request g virtioGpuCmdResourceFlush,
    .request g virtioGpuCmdCtxCreate, .request g virtioGpuCmdResourceCreate3d,
    .request g virtioGpuCmdCtxAttachResource, .request g virtioGpuCmdResourceAttachBacking,
    .request g virtioGpuCmdSubmit3d, .spawn (.transfer g)] : List Op)

namespace Routine

/-- The operations before the routine's loop, on devices that report `numCapsets`. -/
def body (numCapsets : DevId → ℕ) : Routine → List Op
  | drive g => driveBody g (numCapsets g)
  | _ => []

/-- The loop at the end of a script. -/
def loop : Routine → List Op
  | drive g => [.request g virtioGpuCmdResourceFlush]
  | poller g => [.checkall g, .yieldOnce]
  | transfer g => [.request g virtioGpuCmdTransferToHost2d]
  | client _ => []

/-- The device that a routine's future has a handle of. -/
def gpu : Routine → Option DevId
  | drive g | poller g | transfer g => some g
  | client gpu => gpu

end Routine

/-- The device whose lock an operation takes. -/
def Op.locks : Op → Option DevId
  | .startUp g | .readConfig g | .request g _ | .checkall g => some g
  | _ => none

/-- The operations open to a client. -/
def Op.allowed (gpu : Option DevId) : Op → Prop
  | .spawn (.client gpu') => gpu' = none ∨ gpu' = gpu
  | .yieldOnce => True
  | .request g _ => gpu = some g
  | _ => False

instance (gpu : Option DevId) (o : Op) : Decidable (o.allowed gpu) := by
  unfold Op.allowed
  split <;> infer_instance

/-- The futures a task awaits. `request` waits in `IdWait` for its head descriptor and then frees
its pair; `len` is the size of its data. -/
inductive Await
  | yieldOnce (polled : Bool)
  | idWait (g : DevId) (head tail len : ℕ)
  | setFree (g : DevId) (head tail len : ℕ)
  deriving DecidableEq, Repr

structure Fut where
  routine : Routine
  todo : List Op
  await : Option Await
  deriving Repr

namespace Fut

def new (numCapsets : DevId → ℕ) (r : Routine) : Fut := ⟨r, r.body numCapsets, none⟩

/-- Whether the future may do `o` next, with what a script has to do after it. -/
def takes (f : Fut) (o : Op) : Option (List Op) :=
  match f.routine with
  | .client gpu => if o.allowed gpu then some [] else none
  | r =>
    match if f.todo = [] then r.loop else f.todo with
    | [] => none
    | next :: rest => if o = next then some rest else none

/-- The head and tail descriptors of the request in flight. -/
def ids (g : DevId) (f : Fut) : List ℕ :=
  match f.await with
  | some (.idWait g' head tail _) => if g' = g then [head, tail] else []
  | some (.setFree g' head tail _) => if g' = g then [head, tail] else []
  | _ => []

theorem ids_of_none {f : Fut} {g : DevId} (h : f.await = none) : f.ids g = [] := by
  rw [ids, h]

theorem ids_of_idWait {f : Fut} {g g' : DevId} {head tail len : ℕ}
    (h : f.await = some (.idWait g' head tail len)) :
    f.ids g = if g' = g then [head, tail] else [] := by
  rw [ids, h]

theorem ids_of_setFree {f : Fut} {g g' : DevId} {head tail len : ℕ}
    (h : f.await = some (.setFree g' head tail len)) :
    f.ids g = if g' = g then [head, tail] else [] := by
  rw [ids, h]

theorem ids_of_yieldOnce {f : Fut} {g : DevId} {polled : Bool}
    (h : f.await = some (.yieldOnce polled)) : f.ids g = [] := by
  rw [ids, h]

end Fut
end Fomos
