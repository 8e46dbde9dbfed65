import Mathlib
import Fomos.Kernel.Tasks
import Fomos.Library.ArrayQueue

/-!
# The executor, the GPU driver and its devices in one state

A state stands between two steps of the single core or of a device. The boxed futures are kept by
task id; `tasks`, `spawn_queue` and the other containers hold ids. A `Virtio` is the device's
queue together with the owner of its spin lock. The log is a history that no step reads.
-/
namespace Fomos

/-- The completion slot of a descriptor id. -/
inductive IdWaker
  | none
  | done
  | waker (t : TaskId)
  deriving DecidableEq, Repr

/-- A GPU device and the driver's half of it. -/
structure Gpu where
  virtio : Virtio
  /-- The owner of the guard of `Mutex<Virtio>`. -/
  lock : Option TaskId
  numCapsets : ℕ
  /-- The device's own position in the avail ring. -/
  cursor : ℕ
  /-- The head ids that the device has read and not returned. -/
  held : List ℕ

/-- What is fixed about a device before the kernel runs: what it reports and the pages that
`Virtio::init` gives it. -/
structure GpuConfig where
  queueSize : ℕ
  numCapsets : ℕ
  addr : ℕ → ℕ
  driverRing : ℕ → ℕ
  deviceRing : ℕ → UsedElem

def Gpu.init (c : GpuConfig) : Gpu where
  virtio := Virtio.init c.queueSize c.addr c.driverRing c.deviceRing
  lock := none
  numCapsets := c.numCapsets
  cursor := 0
  held := []

/-- The panics on the modelled paths. -/
inductive Panic
  /-- "task with same ID already in tasks" -/
  | sameId
  /-- "queue full" -/
  | queueFull
  /-- "task_queue full" -/
  | taskQueueFull
  /-- "No more desc available" -/
  | noMoreDesc
  /-- An index past the end of `WAKERS`. -/
  | outOfBounds
  deriving DecidableEq, Repr

/-- Where the core stands in `Executor::run`. A panic and a spin on a held lock are final. -/
inductive Pc
  | spawning
  | ready
  | polling (t : TaskId)
  | idle
  | halted
  | yielders
  | panicked (during : Option TaskId) (why : Panic)
  | spinning (t : TaskId) (g : DevId)
  deriving DecidableEq, Repr

/-- The task whose poll has begun and not returned. -/
def Pc.current : Pc → Option TaskId
  | .polling t => some t
  | .panicked t _ => t
  | .spinning t _ => some t
  | _ => none

inductive Event
  /-- `request` made a chain with this head available. -/
  | add (t : TaskId) (g : DevId) (head : ℕ)
  /-- `drive` made a start-up descriptor available. -/
  | startUp (g : DevId) (id : ℕ)
  /-- The device returned an id on the used ring. -/
  | ret (g : DevId) (id : ℕ)
  /-- The poller consumed an id from the used ring. -/
  | use (g : DevId) (id : ℕ)
  /-- `request` resolved with the response descriptor. -/
  | resolve (t : TaskId) (g : DevId) (head : ℕ) (response : Desc)
  /-- The task's future returned. -/
  | done (t : TaskId)
  deriving DecidableEq, Repr

structure Kernel where
  pc : Pc
  tasks : Finset TaskId
  taskQueue : ArrayQueue TaskId 100
  spawnQueue : ArrayQueue TaskId 100
  wakerCache : Finset TaskId
  yielders : ArrayQueue TaskId 100
  fut : TaskId → Fut
  nextId : TaskId
  wakers : ℕ → IdWaker
  dev : DevId → Gpu
  log : List Event

namespace Kernel

/-- The length of `WAKERS`. -/
def numWakers : ℕ := 256

def setFut (t : TaskId) (f : Fut) (k : Kernel) : Kernel :=
  { k with fut := Function.update k.fut t f }

def setDev (g : DevId) (d : Gpu) (k : Kernel) : Kernel :=
  { k with dev := Function.update k.dev g d }

def panic (why : Panic) (k : Kernel) : Kernel := { k with pc := .panicked k.pc.current why }

/-- `Spawner::run`: a push on a full queue drops the task, and the result is ignored. -/
def spawnerRun (r : Routine) (k : Kernel) : Kernel :=
  { k with
    fut := Function.update k.fut k.nextId (Fut.new (fun g => (k.dev g).numCapsets) r)
    nextId := k.nextId + 1
    spawnQueue := k.spawnQueue.tryPush k.nextId }

/-- `Executor::spawn`. -/
def spawn (task : TaskId) (k : Kernel) : Kernel :=
  let k' := { k with tasks := insert task k.tasks }
  if task ∈ k.tasks then k'.panic .sameId
  else
    match k.taskQueue.push task with
    | some q => { k' with taskQueue := q }
    | none => k'.panic .queueFull

/-- `TaskWaker::wake_task`. -/
def wakeTask (t : TaskId) (k : Kernel) : Kernel :=
  match k.taskQueue.push t with
  | some q => { k with taskQueue := q }
  | none => k.panic .taskQueueFull

/-- `WAKERS.lock()[id].wake()`: without a waker it only logs that there is nothing to wake. -/
def wake (id : ℕ) (k : Kernel) : Kernel :=
  if id < numWakers then
    let k' := { k with wakers := Function.update k.wakers id .done }
    match k.wakers id with
    | .waker t => k'.wakeTask t
    | _ => k'
  else k.panic .outOfBounds

/-- The start-up loop of `drive`: up to `n` free descriptors are made writable and available. -/
def startUpDescs : ℕ → Virtio → Virtio × List ℕ
  | 0, v => (v, [])
  | n + 1, v =>
    match v.getFreeDescId with
    | none => startUpDescs n v
    | some (id, v) =>
      let (v, ids) := startUpDescs n (v.setWritableAvailable id)
      (v, id :: ids)

/-- One pass through a loop of `Executor::run` or of `run_ready_tasks`. -/
def exec (k : Kernel) : Option Kernel :=
  match k.pc with
  | .spawning =>
    match k.spawnQueue.pop with
    | some (task, q) => some (({ k with spawnQueue := q }).spawn task)
    | none => some { k with pc := .ready }
  | .ready =>
    match k.taskQueue.pop with
    | some (t, q) =>
      if t ∈ k.tasks then
        some { k with taskQueue := q, wakerCache := insert t k.wakerCache, pc := .polling t }
      else some { k with taskQueue := q }
    | none => some { k with pc := .idle }
  | .idle =>
    if k.taskQueue.items = [] ∧ k.spawnQueue.items = [] then some { k with pc := .halted }
    else some { k with pc := .yielders }
  | .yielders =>
    match k.yielders.pop with
    | some (t, q) => some (({ k with yielders := q }).wakeTask t)
    | none => some { k with pc := .spawning }
  | _ => none

/-- `virtio.lock()` by task `t`: on a held lock the core spins for ever. -/
def locking (g : DevId) (t : TaskId) (k : Kernel) (locked : Kernel) : Kernel :=
  if (k.dev g).lock = none then locked else { k with pc := .spinning t g }

/-- The running task `t` does `o`, after which its script has `rest` to do. -/
def op (t : TaskId) (f : Fut) (rest : List Op) (k : Kernel) : Op → Kernel
  | .spawn r => (k.setFut t { f with todo := rest }).spawnerRun r
  | .yieldOnce => k.setFut t { f with todo := rest, await := some (.yieldOnce false) }
  | .startUp g =>
    locking g t k
      (let (v, ids) := startUpDescs 10 (k.dev g).virtio
      let k := k.setDev g { k.dev g with virtio := v, lock := some t }
      { k.setFut t { f with todo := rest } with log := (ids.map (.startUp g)).reverse ++ k.log })
  | .dropGuard g =>
    (k.setDev g { k.dev g with lock := none }).setFut t { f with todo := rest }
  | .readConfig g => locking g t k (k.setFut t { f with todo := rest })
  | .request g len =>
    locking g t k
      (match (k.dev g).virtio.getFreeTwiceDescId with
      | some ((descId, descNextId), v) =>
        let k := k.setDev g { k.dev g with virtio := v.addRequest descId descNextId len }
        let await := Await.idWait g descId descNextId len
        { k.setFut t { f with todo := rest, await := some await } with
          log := .add t g descId :: k.log }
      | none => k.panic .noMoreDesc)
  | .checkall g =>
    locking g t k
      (match (k.dev g).virtio.nextUsed with
      | some (used, v) =>
        let k := k.setDev g { k.dev g with virtio := v }
        ({ k with log := .use g used.id :: k.log }).wake used.id
      | none => k.setFut t { f with todo := rest })

/-- The running task `t` polls the future it awaits. -/
def poll (t : TaskId) (f : Fut) (k : Kernel) : Await → Kernel
  | .yieldOnce false =>
    { k.setFut t { f with await := some (.yieldOnce true) } with
      pc := .ready, yielders := k.yielders.tryPush t }
  | .yieldOnce true => k.setFut t { f with await := none }
  | .idWait g head tail len =>
    if head < numWakers then
      match k.wakers head with
      | .done =>
        let k := { k with wakers := Function.update k.wakers head .none }
        k.setFut t { f with await := some (.setFree g head tail len) }
      | _ => { k with wakers := Function.update k.wakers head (.waker t), pc := .ready }
    else k.panic .outOfBounds
  | .setFree g head tail _ =>
    locking g t k
      (let v := ((k.dev g).virtio.setFreeDescId head).setFreeDescId tail
      let k := (k.setDev g { k.dev g with virtio := v }).setFut t { f with await := none }
      { k with log := .resolve t g head (v.readDesc tail) :: k.log })

/-- The running task `t` returns: it and its cached waker are removed. -/
def finish (t : TaskId) (k : Kernel) : Kernel :=
  { k with
    tasks := k.tasks.erase t, wakerCache := k.wakerCache.erase t, pc := .ready
    log := .done t :: k.log }

/-- A step of the executor, of the running task, of the interrupt that ends a halt, or of a
device, which reads the avail ring and returns each chain it has read once. -/
inductive Label
  | exec
  | interrupt
  | op (o : Op)
  | poll
  | finish
  | devRead (g : DevId)
  | devPush (g : DevId) (id len : ℕ)
  deriving DecidableEq, Repr

def step : Label → Kernel → Option Kernel
  | .exec, k => k.exec
  | .interrupt, k => if k.pc = .halted then some { k with pc := .yielders } else none
  | .op o, k =>
    match k.pc with
    | .polling t =>
      if (k.fut t).await = none then ((k.fut t).takes o).map fun rest => k.op t (k.fut t) rest o
      else none
    | _ => none
  | .poll, k =>
    match k.pc with
    | .polling t => (k.fut t).await.map (k.poll t (k.fut t))
    | _ => none
  | .finish, k =>
    match k.pc with
    | .polling t =>
      match (k.fut t).await, (k.fut t).routine with
      | none, .client _ => some (k.finish t)
      | _, _ => none
    | _ => none
  | .devRead g, k =>
    let d := k.dev g
    (d.virtio.rings.deviceRead d.cursor).map fun id =>
      k.setDev g { d with cursor := wrappingAdd d.cursor 1, held := d.held ++ [id] }
  | .devPush g id len, k =>
    let d := k.dev g
    if id ∈ d.held then
      let v := { d.virtio with rings := d.virtio.rings.devicePush ⟨id, len⟩ }
      let k := k.setDev g { d with virtio := v, held := d.held.erase id }
      some { k with log := .ret g id :: k.log }
    else none

/-- `Executor::new`, before anything is spawned. -/
def new (config : DevId → GpuConfig) : Kernel where
  pc := .spawning
  tasks := ∅
  taskQueue := .empty
  spawnQueue := .empty
  wakerCache := ∅
  yielders := .empty
  fut _ := ⟨.client none, [], none⟩
  nextId := 0
  wakers _ := .none
  dev g := Gpu.init (config g)
  log := []

/-- `kernel_main` spawns the given futures and enters `Executor::run`. -/
def boot (config : DevId → GpuConfig) (rs : List Routine) : Kernel :=
  rs.foldl (fun k r => k.spawnerRun r) (new config)

end Kernel
end Fomos
