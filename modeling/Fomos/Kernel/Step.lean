import Mathlib
import Fomos.Kernel.State

/-!
# What one step can do

`Steps` lists the outcomes of a step once, with the guards under which each happens and the state
after it. Every invariant is proved by cases on it.
-/
namespace Fomos
namespace Kernel

/-- Task `t` is running and may do `o`. -/
structure Running (k : Kernel) (t : TaskId) (o : Op) (rest : List Op) : Prop where
  pc : k.pc = .polling t
  await : (k.fut t).await = none
  takes : (k.fut t).takes o = some rest

/-- Task `t` is running and polls the future it awaits. -/
structure Polling (k : Kernel) (t : TaskId) (a : Await) : Prop where
  pc : k.pc = .polling t
  await : (k.fut t).await = some a

theorem Running.current {k : Kernel} {t : TaskId} {o : Op} {rest : List Op}
    (run : Running k t o rest) : k.pc.current = some t := by rw [run.pc]; rfl

theorem Polling.current {k : Kernel} {t : TaskId} {a : Await} (run : Polling k t a) :
    k.pc.current = some t := by rw [run.pc]; rfl

/-- The steps that only move the core. -/
inductive Control (k : Kernel) : Label → Pc → Prop
  | spawned (pc : k.pc = .spawning) (empty : k.spawnQueue.items = []) : Control k .exec .ready
  | drained (pc : k.pc = .ready) (empty : k.taskQueue.items = []) : Control k .exec .idle
  | halt (pc : k.pc = .idle) (empty : k.taskQueue.items = [] ∧ k.spawnQueue.items = []) :
      Control k .exec .halted
  | busy (pc : k.pc = .idle) (busy : ¬(k.taskQueue.items = [] ∧ k.spawnQueue.items = [])) :
      Control k .exec .yielders
  | awake (pc : k.pc = .halted) : Control k .interrupt .yielders
  | yielded (pc : k.pc = .yielders) (empty : k.yielders.items = []) : Control k .exec .spawning
  | spinOp {t o rest g} (run : Running k t o rest) (locks : o.locks = some g)
      (held : (k.dev g).lock ≠ none) : Control k (.op o) (.spinning t g)
  | spinPoll {t g head tail len} (poll : Polling k t (.setFree g head tail len))
      (held : (k.dev g).lock ≠ none) : Control k .poll (.spinning t g)
  | noMoreDesc {t g len rest} (run : Running k t (.request g len) rest)
      (unlocked : (k.dev g).lock = none) (short : (k.dev g).virtio.queuesFree.free.length < 2) :
      Control k (.op (.request g len)) (.panicked (some t) .noMoreDesc)
  | outOfBounds {t g head tail len} (poll : Polling k t (.idWait g head tail len))
      (past : numWakers ≤ head) : Control k .poll (.panicked (some t) .outOfBounds)

/-- Device `g` after its oldest used element was consumed. -/
def consumed (g : DevId) (v : Virtio) (id : ℕ) (k : Kernel) : Kernel :=
  { k with dev := Function.update k.dev g { k.dev g with virtio := v }, log := .use g id :: k.log }

/-- Moving the core keeps the running task. -/
theorem Control.current {k : Kernel} {l : Label} {p : Pc} (move : Control k l p) :
    p.current = k.pc.current := by
  cases move with
  | spinOp run | noMoreDesc run | spinPoll run | outOfBounds run => exact run.current.symm
  | spawned pc | drained pc | halt pc | busy pc | awake pc | yielded pc => rw [pc]; rfl

inductive Steps (k : Kernel) : Label → Kernel → Prop
  | control {l p} (move : Control k l p) : Steps k l { k with pc := p }
  | spawnTask {task sq tq} (pc : k.pc = .spawning) (pop : k.spawnQueue.items = task :: sq.items)
      (fresh : task ∉ k.tasks) (push : tq.items = k.taskQueue.items ++ [task]) :
      Steps k .exec { k with spawnQueue := sq, tasks := insert task k.tasks, taskQueue := tq }
  | spawnPanic {task sq why} (pc : k.pc = .spawning)
      (pop : k.spawnQueue.items = task :: sq.items)
      (full : task ∈ k.tasks ∧ why = .sameId ∨
        k.taskQueue.items.length = 100 ∧ why = .queueFull) :
      Steps k .exec { k with
        spawnQueue := sq, tasks := insert task k.tasks, pc := .panicked none why }
  | popTask {t tq} (pc : k.pc = .ready) (pop : k.taskQueue.items = t :: tq.items)
      (live : t ∈ k.tasks) :
      Steps k .exec { k with
        taskQueue := tq, wakerCache := insert t k.wakerCache, pc := .polling t }
  | popGone {t tq} (pc : k.pc = .ready) (pop : k.taskQueue.items = t :: tq.items)
      (gone : t ∉ k.tasks) : Steps k .exec { k with taskQueue := tq }
  | wakeYielder {t yq tq} (pc : k.pc = .yielders) (pop : k.yielders.items = t :: yq.items)
      (push : tq.items = k.taskQueue.items ++ [t]) :
      Steps k .exec { k with yielders := yq, taskQueue := tq }
  | wakeYielderPanic {t yq} (pc : k.pc = .yielders) (pop : k.yielders.items = t :: yq.items)
      (full : k.taskQueue.items.length = 100) :
      Steps k .exec { k with yielders := yq, pc := .panicked none .taskQueueFull }
  | spawnOp {t r rest} (run : Running k t (.spawn r) rest) :
      Steps k (.op (.spawn r)) { k with
        fut := Function.update (Function.update k.fut t { k.fut t with todo := rest }) k.nextId
          (Fut.new (fun g => (k.dev g).numCapsets) r)
        nextId := k.nextId + 1
        spawnQueue := k.spawnQueue.tryPush k.nextId }
  | yieldOp {t rest} (run : Running k t .yieldOnce rest) :
      Steps k (.op .yieldOnce)
        (k.setFut t { k.fut t with todo := rest, await := some (.yieldOnce false) })
  | startUp {t g rest v ids} (run : Running k t (.startUp g) rest)
      (unlocked : (k.dev g).lock = none) (descs : startUpDescs 10 (k.dev g).virtio = (v, ids)) :
      Steps k (.op (.startUp g)) { k with
        dev := Function.update k.dev g { k.dev g with virtio := v, lock := some t }
        fut := Function.update k.fut t { k.fut t with todo := rest }
        log := (ids.map (.startUp g)).reverse ++ k.log }
  | dropGuard {t g rest} (run : Running k t (.dropGuard g) rest) :
      Steps k (.op (.dropGuard g)) { k with
        dev := Function.update k.dev g { k.dev g with lock := none }
        fut := Function.update k.fut t { k.fut t with todo := rest } }
  | readConfig {t g rest} (run : Running k t (.readConfig g) rest)
      (unlocked : (k.dev g).lock = none) :
      Steps k (.op (.readConfig g)) (k.setFut t { k.fut t with todo := rest })
  | request {t g len rest descId descNextId v} (run : Running k t (.request g len) rest)
      (unlocked : (k.dev g).lock = none)
      (free : (k.dev g).virtio.getFreeTwiceDescId = some ((descId, descNextId), v)) :
      Steps k (.op (.request g len)) { k with
        dev := Function.update k.dev g
          { k.dev g with virtio := v.addRequest descId descNextId len }
        fut := Function.update k.fut t
          { k.fut t with todo := rest, await := some (.idWait g descId descNextId len) }
        log := .add t g descId :: k.log }
  | checkallNone {t g rest} (run : Running k t (.checkall g) rest)
      (unlocked : (k.dev g).lock = none) (empty : (k.dev g).virtio.nextUsed = none) :
      Steps k (.op (.checkall g)) (k.setFut t { k.fut t with todo := rest })
  | checkallPast {t g rest used v} (run : Running k t (.checkall g) rest)
      (unlocked : (k.dev g).lock = none) (next : (k.dev g).virtio.nextUsed = some (used, v))
      (past : numWakers ≤ used.id) :
      Steps k (.op (.checkall g))
        { k.consumed g v used.id with pc := .panicked (some t) .outOfBounds }
  | checkallNothing {t g rest used v} (run : Running k t (.checkall g) rest)
      (unlocked : (k.dev g).lock = none) (next : (k.dev g).virtio.nextUsed = some (used, v))
      (bound : used.id < numWakers) (nothing : ∀ u, k.wakers used.id ≠ .waker u) :
      Steps k (.op (.checkall g))
        { k.consumed g v used.id with wakers := Function.update k.wakers used.id .done }
  | checkallWake {t g rest used v u tq} (run : Running k t (.checkall g) rest)
      (unlocked : (k.dev g).lock = none) (next : (k.dev g).virtio.nextUsed = some (used, v))
      (bound : used.id < numWakers) (waker : k.wakers used.id = .waker u)
      (push : tq.items = k.taskQueue.items ++ [u]) :
      Steps k (.op (.checkall g)) { k.consumed g v used.id with
        wakers := Function.update k.wakers used.id .done, taskQueue := tq }
  | checkallPanic {t g rest used v u} (run : Running k t (.checkall g) rest)
      (unlocked : (k.dev g).lock = none) (next : (k.dev g).virtio.nextUsed = some (used, v))
      (bound : used.id < numWakers) (waker : k.wakers used.id = .waker u)
      (full : k.taskQueue.items.length = 100) :
      Steps k (.op (.checkall g)) { k.consumed g v used.id with
        wakers := Function.update k.wakers used.id .done
        pc := .panicked (some t) .taskQueueFull }
  | yieldFirst {t} (poll : Polling k t (.yieldOnce false)) :
      Steps k .poll { k with
        fut := Function.update k.fut t { k.fut t with await := some (.yieldOnce true) }
        pc := .ready, yielders := k.yielders.tryPush t }
  | yieldAgain {t} (poll : Polling k t (.yieldOnce true)) :
      Steps k .poll (k.setFut t { k.fut t with await := none })
  | register {t g head tail len} (poll : Polling k t (.idWait g head tail len))
      (bound : head < numWakers) (pending : k.wakers head ≠ .done) :
      Steps k .poll { k with wakers := Function.update k.wakers head (.waker t), pc := .ready }
  | ready {t g head tail len} (poll : Polling k t (.idWait g head tail len))
      (bound : head < numWakers) (done : k.wakers head = .done) :
      Steps k .poll { k with
        wakers := Function.update k.wakers head .none
        fut := Function.update k.fut t
          { k.fut t with await := some (.setFree g head tail len) } }
  | release {t g head tail len} (poll : Polling k t (.setFree g head tail len))
      (unlocked : (k.dev g).lock = none) :
      Steps k .poll { k with
        dev := Function.update k.dev g { k.dev g with
          virtio := ((k.dev g).virtio.setFreeDescId head).setFreeDescId tail }
        fut := Function.update k.fut t { k.fut t with await := none }
        log := .resolve t g head ((k.dev g).virtio.descs tail) :: k.log }
  | finish {t gpu} (pc : k.pc = .polling t) (await : (k.fut t).await = none)
      (client : (k.fut t).routine = .client gpu) : Steps k .finish (k.finish t)
  | devRead {g id} (read : (k.dev g).virtio.rings.deviceRead (k.dev g).cursor = some id) :
      Steps k (.devRead g) (k.setDev g { k.dev g with
        cursor := wrappingAdd (k.dev g).cursor 1, held := (k.dev g).held ++ [id] })
  | devPush {g id len} (held : id ∈ (k.dev g).held) :
      Steps k (.devPush g id len) { k with
        dev := Function.update k.dev g { k.dev g with
          virtio := { (k.dev g).virtio with
            rings := (k.dev g).virtio.rings.devicePush ⟨id, len⟩ }
          held := (k.dev g).held.erase id }
        log := .ret g id :: k.log }

section Inversion
variable {k k' : Kernel} {t : TaskId}

theorem panic_eq {c : Option TaskId} (h : k.pc.current = c) (why : Panic) :
    k.panic why = { k with pc := .panicked c why } := by
  rw [panic, h]

theorem steps_exec (h : k.exec = some k') : Steps k .exec k' := by
  unfold exec at h
  split at h
  · rename_i pc
    split at h
    · rename_i task sq hpop
      have pop := ArrayQueue.pop_eq_some.mp hpop
      cases h
      simp only [spawn]
      split
      · rw [panic_eq (c := none) (by simp [pc, Pc.current])]
        exact .spawnPanic pc pop (.inl ⟨‹_›, rfl⟩)
      · split
        · exact .spawnTask pc pop ‹_› (ArrayQueue.push_eq_some ‹_›)
        · rw [panic_eq (c := none) (by simp [pc, Pc.current])]
          exact .spawnPanic pc pop (.inr ⟨ArrayQueue.push_eq_none.mp ‹_›, rfl⟩)
    · cases h
      exact .control (.spawned pc (ArrayQueue.pop_eq_none.mp ‹_›))
  · rename_i pc
    split at h
    · rename_i t tq hpop
      have pop := ArrayQueue.pop_eq_some.mp hpop
      split at h
      · cases h
        exact .popTask pc pop ‹_›
      · cases h
        exact .popGone pc pop ‹_›
    · cases h
      exact .control (.drained pc (ArrayQueue.pop_eq_none.mp ‹_›))
  · rename_i pc
    split at h
    · cases h
      exact .control (.halt pc ‹_›)
    · cases h
      exact .control (.busy pc ‹_›)
  · rename_i pc
    split at h
    · rename_i t yq hpop
      have pop := ArrayQueue.pop_eq_some.mp hpop
      cases h
      simp only [wakeTask]
      split
      · exact .wakeYielder pc pop (ArrayQueue.push_eq_some ‹_›)
      · rw [panic_eq (c := none) (by simp [pc, Pc.current])]
        exact .wakeYielderPanic pc pop (ArrayQueue.push_eq_none.mp ‹_›)
    · cases h
      exact .control (.yielded pc (ArrayQueue.pop_eq_none.mp ‹_›))
  · cases h

theorem steps_checkall {g : DevId} {rest : List Op} (run : Running k t (.checkall g) rest) :
    Steps k (.op (.checkall g)) (k.op t (k.fut t) rest (.checkall g)) := by
  simp only [op, locking]
  split
  · rename_i unlocked
    split
    · rename_i used v next
      simp only [wake]
      split
      · rename_i bound
        split
        · rename_i u waker
          simp only [wakeTask]
          split
          · exact .checkallWake run unlocked next bound waker (ArrayQueue.push_eq_some ‹_›)
          · rw [panic_eq (c := some t) (by simp [setDev, run.pc, Pc.current])]
            exact .checkallPanic run unlocked next bound waker (ArrayQueue.push_eq_none.mp ‹_›)
        · exact .checkallNothing run unlocked next bound ‹_›
      · rw [panic_eq (c := some t) (by simp [setDev, run.pc, Pc.current])]
        exact .checkallPast run unlocked next (Nat.le_of_not_lt ‹_›)
    · exact .checkallNone run unlocked ‹_›
  · exact .control (.spinOp run rfl ‹_›)

theorem steps_op {o : Op} {rest : List Op} (run : Running k t o rest) :
    Steps k (.op o) (k.op t (k.fut t) rest o) := by
  cases o with
  | spawn r => exact .spawnOp run
  | yieldOnce => exact .yieldOp run
  | startUp g =>
    simp only [op, locking]
    split
    · exact .startUp run ‹_› rfl
    · exact .control (.spinOp run rfl ‹_›)
  | dropGuard g => exact .dropGuard run
  | readConfig g =>
    simp only [op, locking]
    split
    · exact .readConfig run ‹_›
    · exact .control (.spinOp run rfl ‹_›)
  | request g len =>
    simp only [op, locking]
    split
    · rename_i unlocked
      split
      · exact .request run unlocked ‹_›
      · rename_i hnone
        have short := QueueFreeDescs.getFreeTwice_eq_none.mp (Option.map_eq_none_iff.mp hnone)
        rw [panic_eq (c := some t) (by simp [run.pc, Pc.current])]
        exact .control (.noMoreDesc run unlocked short)
    · exact .control (.spinOp run rfl ‹_›)
  | checkall g => exact steps_checkall run

theorem steps_poll {a : Await} (run : Polling k t a) : Steps k .poll (k.poll t (k.fut t) a) := by
  match a with
  | .yieldOnce false => exact .yieldFirst run
  | .yieldOnce true => exact .yieldAgain run
  | .idWait g head tail len =>
    simp only [poll]
    split
    · split
      · exact .ready run ‹_› ‹_›
      · exact .register run ‹_› ‹_›
    · rw [panic_eq (c := some t) (by simp [run.pc, Pc.current])]
      exact .control (.outOfBounds run (Nat.le_of_not_lt ‹_›))
  | .setFree g head tail len =>
    simp only [poll, locking]
    split
    · exact .release run ‹_›
    · exact .control (.spinPoll run ‹_›)

/-- Every step has one of the listed outcomes. -/
theorem steps_of_step {l : Label} (h : step l k = some k') : Steps k l k' := by
  cases l with
  | exec => exact steps_exec h
  | interrupt =>
    simp only [step] at h
    split at h
    · cases h
      exact .control (.awake ‹_›)
    · cases h
  | op o =>
    simp only [step] at h
    split at h
    · split at h
      · obtain ⟨rest, htakes, rfl⟩ := Option.map_eq_some_iff.mp h
        exact steps_op ⟨‹_›, ‹_›, htakes⟩
      · cases h
    · cases h
  | poll =>
    simp only [step] at h
    split at h
    · obtain ⟨a, hawait, rfl⟩ := Option.map_eq_some_iff.mp h
      exact steps_poll ⟨‹_›, hawait⟩
    · cases h
  | finish =>
    simp only [step] at h
    split at h
    · split at h
      · cases h
        exact .finish ‹_› ‹_› ‹_›
      · cases h
    · cases h
  | devRead g =>
    obtain ⟨id, hread, rfl⟩ := Option.map_eq_some_iff.mp h
    exact .devRead hread
  | devPush g id len =>
    simp only [step] at h
    split at h
    · cases h
      exact .devPush ‹_›
    · cases h

end Inversion

/-- Only a running task does an operation. -/
theorem Steps.running {k k' : Kernel} {o : Op} (hstep : Steps k (.op o) k') :
    ∃ t rest, Running k t o rest := by
  cases hstep with
  | control move =>
    cases move with
    | spinOp run | noMoreDesc run => exact ⟨_, _, run⟩
  | spawnOp run | yieldOp run | startUp run | dropGuard run | readConfig run | request run
  | checkallNone run | checkallPast run | checkallNothing run | checkallWake run
  | checkallPanic run => exact ⟨_, _, run⟩

/-- After a panic the core does nothing more. -/
theorem Steps.pc_of_panicked {k k' : Kernel} {l : Label} {during : Option TaskId} {why : Panic}
    (hpc : k.pc = .panicked during why) (hstep : Steps k l k') : k'.pc = k.pc := by
  cases hstep with
  | control move =>
    cases move with
    | spinOp run | noMoreDesc run | spinPoll run | outOfBounds run => cases hpc ▸ run.pc
    | spawned pc | drained pc | halt pc | busy pc | awake pc | yielded pc => cases hpc ▸ pc
  | devRead | devPush => rfl
  | spawnTask pc | spawnPanic pc | popTask pc | popGone pc | wakeYielder pc
  | wakeYielderPanic pc | finish pc => cases hpc ▸ pc
  | spawnOp run | yieldOp run | startUp run | dropGuard run | readConfig run | request run
  | checkallNone run | checkallPast run | checkallNothing run | checkallWake run
  | checkallPanic run => cases hpc ▸ run.pc
  | yieldFirst run | yieldAgain run | register run | ready run | release run =>
    cases hpc ▸ run.pc

/-- What holds of the new executor and is kept by the spawning of each future holds at boot. -/
theorem boot_induction {P : Kernel → Prop} {config : DevId → GpuConfig} {rs : List Routine}
    (hnew : P (new config)) (hrun : ∀ k, ∀ r ∈ rs, P k → P (k.spawnerRun r)) :
    P (boot config rs) :=
  List.foldlRecOn rs _ hnew fun k hk r hr => hrun k r hr hk

@[simp] theorem boot_tasks (config : DevId → GpuConfig) (rs : List Routine) :
    (boot config rs).tasks = ∅ :=
  boot_induction (P := fun k => k.tasks = ∅) rfl fun _ _ _ h => h

@[simp] theorem boot_pc (config : DevId → GpuConfig) (rs : List Routine) :
    (boot config rs).pc = .spawning :=
  boot_induction (P := fun k => k.pc = .spawning) rfl fun _ _ _ h => h

/-- Devices with 16 descriptors and empty pages. -/
def blankConfig (_ : DevId) : GpuConfig := ⟨16, 0, fun _ => 0, fun _ => 0, fun _ => ⟨0, 0⟩⟩

/-- A run of `drive` on one device through its first request. -/
def firstRequest : List Label :=
  ([.exec, .exec, .exec, .op (.spawn (.poller 0)), .op (.startUp 0), .op .yieldOnce, .poll,
    .exec, .exec, .exec, .exec, .exec, .exec, .exec, .poll, .op (.dropGuard 0),
    .op (.request 0 virtioGpuCtrlHdr), .poll, .exec, .op (.checkall 0), .op .yieldOnce,
    .poll] : List Label) ++
  List.replicate 11 (.devRead 0) ++
  ([.devPush 0 5 24, .exec, .exec, .interrupt, .exec, .exec, .exec, .exec, .poll,
    .op (.checkall 0), .op (.checkall 0), .op .yieldOnce, .poll, .exec, .poll, .poll] :
    List Label)

end Kernel
end Fomos
