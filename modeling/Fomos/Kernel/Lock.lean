import Mathlib
import Fomos.Kernel.Descriptors
import Fomos.Kernel.WakeTokens

/-!
# The guard held over an await

`drive` suspends once with the guard of its device's lock, after it has spawned the poller. The
poller is in `spawn_queue` then, and `YIELDERS` is drained before `spawn_queue`: so the drive
is ahead of the poller in `task_queue`, and drops the guard before the poller runs.
-/
namespace Fomos
namespace Kernel
variable {k k' : Kernel} {l : Label} {t u : TaskId} {g : DevId}

/-- The other tasks of the device have not been handed to the executor. -/
def OthersUnspawned (k : Kernel) (g : DevId) (t : TaskId) : Prop :=
  ∀ u < k.nextId, u ≠ t → (k.fut u).routine.gpu = some g → u ∈ k.spawnQueue.items

/-- Task `t` will be polled before any other task of the device. -/
def Ahead (k : Kernel) (g : DevId) (t : TaskId) : Prop :=
  (t ∈ k.yielders.items ∧ k.pc ≠ .spawning ∧ k.OthersUnspawned g t) ∨
    ∃ pre post, k.taskQueue.items = pre ++ t :: post ∧
      ∀ u < k.nextId, u ≠ t → (k.fut u).routine.gpu = some g →
        u ∈ k.spawnQueue.items ∨ u ∈ post

/-- The operations left after the guard was dropped. -/
def Dropped (g : DevId) (ops : List Op) : Prop :=
  .startUp g ∉ ops ∧ .dropGuard g ∉ ops ∧ .spawn (.poller g) ∉ ops

theorem Dropped.tail {o : Op} {rest : List Op} (h : Dropped g (o :: rest)) : Dropped g rest := by
  obtain ⟨hstart, hdrop, hspawn⟩ := h
  exact ⟨fun hm => hstart (.tail _ hm), fun hm => hdrop (.tail _ hm),
    fun hm => hspawn (.tail _ hm)⟩

/-- How far `drive` is with its guard, and who else may run. -/
inductive Stage (k : Kernel) (g : DevId) (t : TaskId) : Prop
  | start {c} (todo : (k.fut t).todo = driveBody g c) (await : (k.fut t).await = none)
      (lock : (k.dev g).lock = none)
      (alone : ∀ u < k.nextId, u ≠ t → (k.fut u).routine.gpu ≠ some g)
  | spawned {ops} (todo : (k.fut t).todo = .startUp g :: .yieldOnce :: .dropGuard g :: ops)
      (dropped : Dropped g ops) (await : (k.fut t).await = none) (lock : (k.dev g).lock = none)
      (running : k.pc.current = some t) (others : k.OthersUnspawned g t)
  | locked {ops} (todo : (k.fut t).todo = .yieldOnce :: .dropGuard g :: ops)
      (dropped : Dropped g ops) (await : (k.fut t).await = none)
      (running : k.pc.current = some t) (others : k.OthersUnspawned g t)
  | yielding {ops} (todo : (k.fut t).todo = .dropGuard g :: ops) (dropped : Dropped g ops)
      (await : (k.fut t).await = some (.yieldOnce false))
      (running : k.pc.current = some t) (others : k.OthersUnspawned g t)
  | suspended {ops} (todo : (k.fut t).todo = .dropGuard g :: ops) (dropped : Dropped g ops)
      (await : (k.fut t).await = some (.yieldOnce true))
      (ahead : k.pc.current = some t ∨ k.Ahead g t)
  | resumed {ops} (todo : (k.fut t).todo = .dropGuard g :: ops) (dropped : Dropped g ops)
      (await : (k.fut t).await = none) (running : k.pc.current = some t)
  | free (dropped : Dropped g (k.fut t).todo) (lock : (k.dev g).lock = none)

theorem routine_update {f : Fut} (hf : f.routine = (k.fut t).routine) (u : TaskId) :
    (Function.update k.fut t f u).routine = (k.fut u).routine := by
  obtain rfl | hne := eq_or_ne u t
  · rw [Function.update_self, hf]
  · rw [Function.update_of_ne hne]

theorem lock_update {g' : DevId} {d : Gpu} (hd : d.lock = (k.dev g').lock) (g : DevId) :
    (Function.update k.dev g' d g).lock = (k.dev g).lock := by
  obtain rfl | hne := eq_or_ne g g'
  · rw [Function.update_self, hd]
  · rw [Function.update_of_ne hne]

theorem OthersUnspawned.update {f : Fut} (h : k.OthersUnspawned g t)
    (hf : f.routine = (k.fut t).routine) (u : TaskId) (hu : u < k.nextId) (hne : u ≠ t)
    (hgpu : (Function.update k.fut t f u).routine.gpu = some g) : u ∈ k.spawnQueue.items :=
  h u hu hne (by rwa [routine_update hf] at hgpu)

/-- A step leaves the futures of the tasks that are not running. -/
theorem fut_of_ne (hstep : Steps k l k') (ht : t < k.nextId) (hrun : k.pc.current ≠ some t) :
    k'.fut t = k.fut t := by
  have hne : ∀ {u}, k.pc.current = some u → t ≠ u := fun hu e => hrun (e ▸ hu)
  cases hstep with
  | @spawnOp u r rest run =>
    exact (Function.update_of_ne ht.ne _ _).trans (Function.update_of_ne (hne run.current) _ _)
  | yieldOp run | startUp run | dropGuard run | readConfig run | request run | checkallNone run
  | yieldFirst run | yieldAgain run | ready run | release run =>
    exact Function.update_of_ne (hne run.current) _ _
  | _ => rfl

/-- A step changes no routine. -/
theorem routine_kept (hstep : Steps k l k') (hu : u < k.nextId) :
    u < k'.nextId ∧ (k'.fut u).routine = (k.fut u).routine := by
  cases hstep with
  | spawnOp run =>
    refine ⟨Nat.lt_succ_of_lt hu, ?_⟩
    simp only [Function.update_of_ne hu.ne]
    exact routine_update (by rfl) u
  | yieldOp | startUp | dropGuard | readConfig | request | checkallNone | yieldFirst | yieldAgain
  | ready | release => exact ⟨hu, routine_update (by rfl) u⟩
  | _ => exact ⟨hu, rfl⟩

/-- The only new routine is the one that a step spawns. -/
theorem spawn_cases (hstep : Steps k l k') (hu : u < k'.nextId) :
    u < k.nextId ∨ ∃ t r rest, Running k t (.spawn r) rest ∧ (k'.fut u).routine = r := by
  cases hstep with
  | @spawnOp t r rest run =>
    obtain rfl | hnew := eq_or_ne u k.nextId
    · refine .inr ⟨t, r, rest, run, ?_⟩
      simp [Fut.new]
    · exact .inl (Nat.lt_of_le_of_ne (Nat.lt_succ_iff.mp hu) hnew)
  | _ => exact .inl hu

/-- Only the start-up loop takes a guard over an await, and only its end returns it. -/
theorem lock_cases (hstep : Steps k l k') (g : DevId) :
    (k'.dev g).lock = (k.dev g).lock ∨
      ∃ u rest, Running k u (.startUp g) rest ∨ Running k u (.dropGuard g) rest := by
  cases hstep with
  | @startUp u g' rest v ids run =>
    obtain rfl | hne := eq_or_ne g g'
    · exact .inr ⟨u, rest, .inl run⟩
    · exact .inl (by simp only [Function.update_of_ne hne])
  | @dropGuard u g' rest run =>
    obtain rfl | hne := eq_or_ne g g'
    · exact .inr ⟨u, rest, .inr run⟩
    · exact .inl (by simp only [Function.update_of_ne hne])
  | request | checkallPast | checkallNothing | checkallWake | checkallPanic | release | devRead
  | devPush => exact .inl (lock_update (by rfl) g)
  | _ => exact .inl rfl

namespace Ahead

/-- A step that only appends to the queues. -/
theorem frame {tail : List TaskId} (h : k.Ahead g t)
    (hothers : ∀ u < k'.nextId, u ≠ t → (k'.fut u).routine.gpu = some g →
      u ∈ k'.spawnQueue.items ∨ u < k.nextId ∧ (k.fut u).routine.gpu = some g)
    (hspawn : ∀ u ∈ k.spawnQueue.items, u ∈ k'.spawnQueue.items)
    (hyield : t ∈ k.yielders.items → k.pc ≠ .spawning →
      t ∈ k'.yielders.items ∧ k'.pc ≠ .spawning)
    (hqueue : k'.taskQueue.items = k.taskQueue.items ++ tail) : k'.Ahead g t := by
  obtain ⟨hmem, hpc, hunspawned⟩ | ⟨pre, post, hitems, hpost⟩ := h
  · refine .inl ⟨(hyield hmem hpc).1, (hyield hmem hpc).2, fun u hu hne hgpu => ?_⟩
    obtain hnew | ⟨hlt, hold⟩ := hothers u hu hne hgpu
    · exact hnew
    · exact hspawn u (hunspawned u hlt hne hold)
  · refine .inr ⟨pre, post ++ tail, ?_, fun u hu hne hgpu => ?_⟩
    · rw [hqueue, hitems, List.append_assoc, List.cons_append]
    · obtain hnew | ⟨hlt, hold⟩ := hothers u hu hne hgpu
      · exact .inl hnew
      · exact (hpost u hlt hne hold).imp (hspawn u) (List.mem_append_left _)

/-- What is handed to the executor goes behind the drive. -/
theorem handOver {task : TaskId} {sq tq : ArrayQueue TaskId 100} {tasks : Finset TaskId}
    (h : k.Ahead g t) (hpc : k.pc = .spawning) (hpop : k.spawnQueue.items = task :: sq.items)
    (hpush : tq.items = k.taskQueue.items ++ [task]) :
    Ahead { k with spawnQueue := sq, tasks := tasks, taskQueue := tq } g t := by
  obtain ⟨-, hspawning, -⟩ | ⟨pre, post, hitems, hpost⟩ := h
  · exact absurd hpc hspawning
  · refine .inr ⟨pre, post ++ [task], ?_, fun u hu hne hgpu => ?_⟩
    · rw [hpush, hitems, List.append_assoc, List.cons_append]
    · obtain hmem | hmem := hpost u hu hne hgpu
      · obtain rfl | hmem := List.mem_cons.mp (hpop ▸ hmem)
        · exact .inr (List.mem_append_right _ (.head _))
        · exact .inl hmem
      · exact .inr (List.mem_append_left _ hmem)

/-- The executor pops the drive, or a task before it. -/
theorem pop {t' : TaskId} {tq : ArrayQueue TaskId 100} {cache : Finset TaskId} {p : Pc}
    (h : k.Ahead g t) (hpop : k.taskQueue.items = t' :: tq.items)
    (hpc : k.pc ≠ .spawning → p ≠ .spawning) :
    t' = t ∨ Ahead { k with taskQueue := tq, wakerCache := cache, pc := p } g t := by
  obtain ⟨hmem, hspawning, hunspawned⟩ | ⟨pre, post, hitems, hpost⟩ := h
  · exact .inr (.inl ⟨hmem, hpc hspawning, hunspawned⟩)
  · rw [hpop] at hitems
    cases pre with
    | nil => exact .inl (List.cons.inj hitems).1
    | cons a pre => exact .inr (.inr ⟨pre, post, (List.cons.inj hitems).2, hpost⟩)

/-- A yielder that is woken is the drive, or goes behind it. -/
theorem wake {t' : TaskId} {yq tq : ArrayQueue TaskId 100} (h : k.Ahead g t)
    (hpop : k.yielders.items = t' :: yq.items) (hpush : tq.items = k.taskQueue.items ++ [t']) :
    Ahead { k with yielders := yq, taskQueue := tq } g t := by
  obtain ⟨hmem, hspawning, hunspawned⟩ | ⟨pre, post, hitems, hpost⟩ := h
  · obtain rfl | hmem := List.mem_cons.mp (hpop ▸ hmem)
    · exact .inr ⟨_, [], hpush, fun u hu hne hgpu => .inl (hunspawned u hu hne hgpu)⟩
    · exact .inl ⟨hmem, hspawning, hunspawned⟩
  · refine .inr ⟨pre, post ++ [t'], ?_, fun u hu hne hgpu => ?_⟩
    · rw [hpush, hitems, List.append_assoc, List.cons_append]
    · exact (hpost u hu hne hgpu).imp_right (List.mem_append_left _)

/-- A new task of another device. -/
theorem spawn {t' : TaskId} {f f' : Fut} (h : k.Ahead g t) (hf : f.routine = (k.fut t').routine)
    (hnew : f'.routine.gpu ≠ some g) :
    Ahead { k with
      fut := Function.update (Function.update k.fut t' f) k.nextId f'
      nextId := k.nextId + 1
      spawnQueue := k.spawnQueue.tryPush k.nextId } g t := by
  have hkeep : ∀ u ∈ k.spawnQueue.items, u ∈ (k.spawnQueue.tryPush k.nextId).items := by
    intro u hu
    obtain ⟨-, hitems⟩ | ⟨-, hitems⟩ := k.spawnQueue.tryPush_cases k.nextId <;> simp [hitems, hu]
  refine h.frame (fun u hu hne hgpu => ?_) hkeep (fun hmem hpc => ⟨hmem, hpc⟩)
    (List.append_nil _).symm
  obtain rfl | hold := eq_or_ne u k.nextId
  · simp only [Function.update_self] at hgpu
    exact absurd hgpu hnew
  · simp only [Function.update_of_ne hold, routine_update hf] at hgpu
    exact .inr ⟨Nat.lt_of_le_of_ne (Nat.lt_succ_iff.mp hu) hold, hgpu⟩

/-- A step that leaves the queues alone, and changes one future but not its routine. -/
theorem update {t' : TaskId} {f : Fut} {wakers : ℕ → IdWaker} {dev : DevId → Gpu}
    {log : List Event} (h : k.Ahead g t) (hf : f.routine = (k.fut t').routine) :
    Ahead { k with
      fut := Function.update k.fut t' f, wakers := wakers, dev := dev, log := log } g t :=
  h.frame (fun u hu _ hgpu => .inr ⟨hu, routine_update hf u ▸ hgpu⟩) (fun _ hu => hu)
    (fun hmem hpc => ⟨hmem, hpc⟩) (List.append_nil _).symm

/-- No step of others lets another task of the device overtake. -/
theorem step (h : k.Ahead g t) (hw : WellFormed k) (ht : t ∈ k.tasks) (hstep : Steps k l k')
    (hpushed : ¬Overflowed k')
    (hspawn : ∀ u r rest, Running k u (.spawn r) rest → r.gpu ≠ some g) :
    k'.pc.current = some t ∨ k'.Ahead g t := by
  have hsame : ∀ u < k.nextId, u ≠ t → (k.fut u).routine.gpu = some g →
      u ∈ k.spawnQueue.items ∨ u < k.nextId ∧ (k.fut u).routine.gpu = some g :=
    fun u hu _ hgpu => .inr ⟨hu, hgpu⟩
  cases hstep with
  | control move =>
    refine .inr (h.frame hsame (fun _ hu => hu) (fun hmem hpc => ⟨hmem, ?_⟩)
      (List.append_nil _).symm)
    cases move with
    | yielded pc empty => simp [empty] at hmem
    | _ => simp
  | spawnTask pc pop fresh push => exact .inr (h.handOver pc pop push)
  | spawnPanic pc pop full =>
    obtain ⟨hmem, -⟩ | ⟨-, rfl⟩ := full
    · exact absurd hmem (hw.spawn_fresh _ (by rw [pop]; exact .head _))
    · exact absurd ⟨_, .inl rfl⟩ hpushed
  | popTask pc pop live =>
    obtain rfl | hahead := h.pop pop (p := .polling _) (by simp)
    · exact .inl rfl
    · exact .inr hahead
  | popGone pc pop gone =>
    obtain rfl | hahead := h.pop pop id
    · exact absurd ht gone
    · exact .inr hahead
  | wakeYielder pc pop push => exact .inr (h.wake pop push)
  | wakeYielderPanic | checkallPanic => exact absurd ⟨_, .inr rfl⟩ hpushed
  | spawnOp run => exact .inr (h.spawn rfl (hspawn _ _ _ run))
  | yieldOp | readConfig | checkallNone | yieldAgain | startUp | dropGuard | request | release
  | ready => exact .inr (h.update rfl)
  | checkallPast =>
    exact .inr (h.frame hsame (fun _ hu => hu) (fun hmem _ => ⟨hmem, by simp⟩)
      (List.append_nil _).symm)
  | checkallNothing | devRead | devPush =>
    exact .inr (h.frame hsame (fun _ hu => hu) (fun hmem hpc => ⟨hmem, hpc⟩)
      (List.append_nil _).symm)
  | checkallWake run _ _ _ _ push =>
    exact .inr (h.frame hsame (fun _ hu => hu) (fun hmem hpc => ⟨hmem, hpc⟩) push)
  | @yieldFirst t' poll =>
    have hkeep : t ∈ k.yielders.items → t ∈ (k.yielders.tryPush t').items := by
      intro hmem
      obtain ⟨-, hitems⟩ | ⟨-, hitems⟩ := k.yielders.tryPush_cases t' <;> simp [hitems, hmem]
    have hroutine := routine_update (f := { k.fut t' with await := some (.yieldOnce true) }) rfl
    exact .inr (h.frame (fun u hu _ hgpu => .inr ⟨hu, hroutine u ▸ hgpu⟩)
      (fun _ hu => hu) (fun hmem _ => ⟨hkeep hmem, by simp⟩) (List.append_nil _).symm)
  | register =>
    exact .inr (h.frame hsame (fun _ hu => hu) (fun hmem _ => ⟨hmem, by simp⟩)
      (List.append_nil _).symm)
  | finish =>
    exact .inr (h.frame hsame (fun _ hu => hu) (fun hmem _ => ⟨hmem, by simp [finish]⟩)
      (List.append_nil _).symm)

end Ahead

namespace Stage

/-- A step of others, which leaves the drive's future and its lock alone, spawns nothing for the
device and keeps the drive ahead. -/
theorem frame (h : Stage k g t) (hfut : k'.fut t = k.fut t)
    (hlock : (k'.dev g).lock = (k.dev g).lock)
    (hrunning : k.pc.current = some t → k'.pc.current = some t)
    (hunspawned : k.pc.current = some t → k.OthersUnspawned g t → k'.OthersUnspawned g t)
    (hothers : ∀ u < k'.nextId, u ≠ t → (k'.fut u).routine.gpu = some g →
      u < k.nextId ∧ (k.fut u).routine.gpu = some g)
    (hahead : (k.fut t).await ≠ none → k.Ahead g t → k'.pc.current = some t ∨ k'.Ahead g t) :
    Stage k' g t := by
  cases h with
  | start todo await lock alone =>
    refine .start (hfut ▸ todo) (hfut ▸ await) (hlock.trans lock) fun u hu hne hgpu => ?_
    obtain ⟨hu, hgpu⟩ := hothers u hu hne hgpu
    exact alone u hu hne hgpu
  | spawned todo dropped await lock running others =>
    exact .spawned (hfut ▸ todo) dropped (hfut ▸ await) (hlock.trans lock) (hrunning running)
      (hunspawned running others)
  | locked todo dropped await running others =>
    exact .locked (hfut ▸ todo) dropped (hfut ▸ await) (hrunning running)
      (hunspawned running others)
  | yielding todo dropped await running others =>
    exact .yielding (hfut ▸ todo) dropped (hfut ▸ await) (hrunning running)
      (hunspawned running others)
  | suspended todo dropped await ahead =>
    exact .suspended (hfut ▸ todo) dropped (hfut ▸ await)
      (ahead.elim (fun hrun => .inl (hrunning hrun)) (hahead (by simp [await])))
  | resumed todo dropped await running =>
    exact .resumed (hfut ▸ todo) dropped (hfut ▸ await) (hrunning running)
  | free dropped lock => exact .free (hfut ▸ dropped) (hlock.trans lock)

/-- What the drive may do next, and what is left after it. -/
theorem next {o : Op} {rest : List Op} (h : Stage k g t) (hr : (k.fut t).routine = .drive g)
    (run : Running k t o rest) :
    (o = .spawn (.poller g) ∧ (k.dev g).lock = none ∧
      (∀ u < k.nextId, u ≠ t → (k.fut u).routine.gpu ≠ some g) ∧
      ∃ ops, rest = .startUp g :: .yieldOnce :: .dropGuard g :: ops ∧ Dropped g ops) ∨
    (o = .startUp g ∧ (k.dev g).lock = none ∧ k.OthersUnspawned g t ∧
      ∃ ops, rest = .yieldOnce :: .dropGuard g :: ops ∧ Dropped g ops) ∨
    (o = .yieldOnce ∧ k.OthersUnspawned g t ∧ ∃ ops, rest = .dropGuard g :: ops ∧ Dropped g ops) ∨
    (o = .dropGuard g ∧ Dropped g rest) ∨ (Dropped g (o :: rest) ∧ (k.dev g).lock = none) := by
  have hcases : ∀ {o' ops}, (k.fut t).todo = o' :: ops → o = o' ∧ rest = ops := by
    intro o' ops htodo
    obtain ⟨gpu, hclient, -⟩ | hnext | ⟨hnil, -⟩ := Fut.takes_cases run.takes
    · cases hr.symm.trans hclient
    · cases htodo.symm.trans hnext
      exact ⟨rfl, rfl⟩
    · cases htodo.symm.trans hnil
  cases h with
  | start todo await lock alone =>
    obtain ⟨rfl, rfl⟩ := hcases todo
    exact .inl ⟨rfl, lock, alone, _, rfl, by simp [Dropped]⟩
  | spawned todo dropped await lock running others =>
    obtain ⟨rfl, rfl⟩ := hcases todo
    exact .inr (.inl ⟨rfl, lock, others, _, rfl, dropped⟩)
  | locked todo dropped await running others =>
    obtain ⟨rfl, rfl⟩ := hcases todo
    exact .inr (.inr (.inl ⟨rfl, others, _, rfl, dropped⟩))
  | yielding todo dropped await | suspended todo dropped await =>
    cases run.await.symm.trans await
  | resumed todo dropped await running =>
    obtain ⟨rfl, rfl⟩ := hcases todo
    exact .inr (.inr (.inr (.inl ⟨rfl, dropped⟩)))
  | free dropped lock =>
    refine .inr (.inr (.inr (.inr ⟨?_, lock⟩)))
    obtain ⟨gpu, hclient, -⟩ | hnext | ⟨-, hloop⟩ := Fut.takes_cases run.takes
    · cases hr.symm.trans hclient
    · exact hnext ▸ dropped
    · rw [hr] at hloop
      rw [← hloop]
      simp [Dropped, Routine.loop]

/-- Any other operation comes after the guard was dropped. -/
theorem next_dropped {o : Op} {rest : List Op} (h : Stage k g t)
    (hr : (k.fut t).routine = .drive g) (run : Running k t o rest)
    (hother : o ≠ .spawn (.poller g) ∧ o ≠ .startUp g ∧ o ≠ .yieldOnce ∧ o ≠ .dropGuard g) :
    Dropped g rest ∧ (k.dev g).lock = none := by
  obtain ⟨ho, -⟩ | ⟨ho, -⟩ | ⟨ho, -⟩ | ⟨ho, -⟩ | ⟨hdropped, hlock⟩ := h.next hr run
  · exact absurd ho hother.1
  · exact absurd ho hother.2.1
  · exact absurd ho hother.2.2.1
  · exact absurd ho hother.2.2.2
  · exact ⟨hdropped.tail, hlock⟩

/-- What the drive may be polling. -/
theorem polls {a : Await} (h : Stage k g t) (poll : Polling k t a) :
    (a = .yieldOnce false ∧ k.OthersUnspawned g t ∧
      ∃ ops, (k.fut t).todo = .dropGuard g :: ops ∧ Dropped g ops) ∨
    (a = .yieldOnce true ∧ ∃ ops, (k.fut t).todo = .dropGuard g :: ops ∧ Dropped g ops) ∨
    (Dropped g (k.fut t).todo ∧ (k.dev g).lock = none) := by
  cases h with
  | start _ await | spawned _ _ await | locked _ _ await | resumed _ _ await =>
    cases poll.await.symm.trans await
  | yielding todo dropped await _ others =>
    cases poll.await.symm.trans await
    exact .inl ⟨rfl, others, _, todo, dropped⟩
  | suspended todo dropped await =>
    cases poll.await.symm.trans await
    exact .inr (.inl ⟨rfl, _, todo, dropped⟩)
  | free dropped lock => exact .inr (.inr ⟨dropped, lock⟩)

/-- A request is polled after the guard was dropped. -/
theorem polls_dropped {a : Await} (h : Stage k g t) (poll : Polling k t a)
    (hother : ∀ polled, a ≠ .yieldOnce polled) :
    Dropped g (k.fut t).todo ∧ (k.dev g).lock = none := by
  obtain ⟨ha, -⟩ | ⟨ha, -⟩ | hdropped := h.polls poll
  · exact absurd ha (hother _)
  · exact absurd ha (hother _)
  · exact hdropped

/-- An operation that comes after the guard was dropped, and keeps the lock. -/
theorem takes_dropped {o : Op} {rest : List Op} (h : Stage k g t)
    (hr : (k.fut t).routine = .drive g) (run : Running k t o rest)
    (hother : o ≠ .spawn (.poller g) ∧ o ≠ .startUp g ∧ o ≠ .yieldOnce ∧ o ≠ .dropGuard g)
    (htodo : (k'.fut t).todo = rest) (hlock : (k'.dev g).lock = (k.dev g).lock) :
    Stage k' g t := by
  obtain ⟨hdropped, hfree⟩ := h.next_dropped hr run hother
  exact .free (htodo ▸ hdropped) (hlock.trans hfree)

/-- A poll of a request, which comes after the guard was dropped, and keeps the lock. -/
theorem polls_request {a : Await} (h : Stage k g t) (poll : Polling k t a)
    (hother : ∀ polled, a ≠ .yieldOnce polled) (htodo : (k'.fut t).todo = (k.fut t).todo)
    (hlock : (k'.dev g).lock = (k.dev g).lock) : Stage k' g t := by
  obtain ⟨hdropped, hfree⟩ := h.polls_dropped poll hother
  exact .free (htodo ▸ hdropped) (hlock.trans hfree)

/-- A step that leaves the drive running with the same future, and the queue of new tasks. -/
theorem still (h : Stage k g t) (hfut : k'.fut = k.fut) (hlock : (k'.dev g).lock = (k.dev g).lock)
    (hrun : k'.pc.current = some t) (hnext : k'.nextId = k.nextId)
    (hqueue : k'.spawnQueue = k.spawnQueue) : Stage k' g t := by
  refine h.frame (congrFun hfut t) hlock (fun _ => hrun) (fun _ hothers => ?_)
    (fun u hu _ hgpu => ⟨hnext ▸ hu, hfut ▸ hgpu⟩) fun _ _ => .inl hrun
  unfold OthersUnspawned at hothers ⊢
  rwa [hfut, hnext, hqueue]

/-- The drive spawns its poller. -/
theorem spawns {r : Routine} {rest : List Op} {f : Fut} (h : Stage k g t)
    (hr : (k.fut t).routine = .drive g) (run : Running k t (.spawn r) rest) (ht : t < k.nextId)
    (hroom : k.spawnQueue.items.length < 100) :
    Stage { k with
      fut := Function.update (Function.update k.fut t { k.fut t with todo := rest }) k.nextId f
      nextId := k.nextId + 1
      spawnQueue := k.spawnQueue.tryPush k.nextId } g t := by
  obtain ⟨-, hlock, halone, ops, rfl, hdropped⟩ | ⟨ho, -⟩ | ⟨ho, -⟩ | ⟨ho, -⟩ |
    ⟨hdropped, hlock⟩ := h.next hr run
  · refine .spawned (by simp [ht.ne]) hdropped (by simpa [ht.ne] using run.await) hlock run.current
      fun u hu hne hgpu => ?_
    simp only [ArrayQueue.tryPush_items hroom, List.mem_append, List.mem_singleton]
    refine .inr (by_contra fun hnew => ?_)
    have hu : u < k.nextId := Nat.lt_of_le_of_ne (Nat.lt_succ_iff.mp hu) hnew
    simp only [Function.update_of_ne hnew, Function.update_of_ne hne] at hgpu
    exact halone u hu hne hgpu
  · cases ho
  · cases ho
  · cases ho
  · exact .free (by simpa [ht.ne] using hdropped.tail) hlock

/-- The drive comes to an await of `yield_once`. -/
theorem yields {rest : List Op} (h : Stage k g t) (hr : (k.fut t).routine = .drive g)
    (run : Running k t .yieldOnce rest) :
    Stage (k.setFut t { k.fut t with todo := rest, await := some (.yieldOnce false) }) g t := by
  obtain ⟨ho, -⟩ | ⟨ho, -⟩ | ⟨-, hothers, ops, rfl, hdropped⟩ | ⟨ho, -⟩ | ⟨hdropped, hlock⟩ :=
    h.next hr run
  · cases ho
  · cases ho
  · exact .yielding (by simp [setFut]) hdropped (by simp [setFut]) run.current
      (hothers.update rfl)
  · cases ho
  · exact .free (by simpa [setFut] using hdropped.tail) hlock

/-- The drive takes the guard of its device. -/
theorem startsUp {g' : DevId} {rest : List Op} {d : Gpu} {log : List Event} (h : Stage k g t)
    (hr : (k.fut t).routine = .drive g) (run : Running k t (.startUp g') rest) :
    Stage { k with
      dev := Function.update k.dev g' d
      fut := Function.update k.fut t { k.fut t with todo := rest }
      log := log } g t := by
  obtain ⟨ho, -⟩ | ⟨ho, -, hothers, ops, rfl, hdropped⟩ | ⟨ho, -⟩ | ⟨ho, -⟩ | ⟨hdropped, hlock⟩ :=
    h.next hr run
  · cases ho
  · exact .locked (by simp) hdropped (by simpa using run.await) run.current (hothers.update rfl)
  · cases ho
  · cases ho
  · have hne : g ≠ g' := fun e => hdropped.1 (e ▸ .head _)
    exact .free (by simpa using hdropped.tail) (by simpa [Function.update_of_ne hne] using hlock)

/-- The drive drops the guard of its device. -/
theorem drops {g' : DevId} {rest : List Op} (h : Stage k g t)
    (hr : (k.fut t).routine = .drive g) (run : Running k t (.dropGuard g') rest) :
    Stage { k with
      dev := Function.update k.dev g' { k.dev g' with lock := none }
      fut := Function.update k.fut t { k.fut t with todo := rest } } g t := by
  obtain ⟨ho, -⟩ | ⟨ho, -⟩ | ⟨ho, -⟩ | ⟨ho, hdropped⟩ | ⟨hdropped, hlock⟩ := h.next hr run
  · cases ho
  · cases ho
  · cases ho
  · cases ho
    exact .free (by simpa using hdropped) (by simp)
  · have hne : g ≠ g' := fun e => hdropped.2.1 (e ▸ .head _)
    exact .free (by simpa using hdropped.tail) (by simpa [Function.update_of_ne hne] using hlock)

/-- The first poll of `yield_once` puts the drive in `YIELDERS`, ahead of its poller. -/
theorem suspends (h : Stage k g t) (poll : Polling k t (.yieldOnce false))
    (hroom : k.yielders.items.length < 100) :
    Stage { k with
      yielders := k.yielders.tryPush t
      fut := Function.update k.fut t { k.fut t with await := some (.yieldOnce true) }
      pc := .ready } g t := by
  obtain ⟨-, hothers, ops, htodo, hdropped⟩ | ⟨ho, -⟩ | ⟨hdropped, hlock⟩ := h.polls poll
  · refine .suspended (by simpa using htodo) hdropped (by simp)
      (.inr (.inl ⟨?_, ?_, hothers.update rfl⟩))
    · simp [ArrayQueue.tryPush_items hroom]
    · simp
  · cases ho
  · exact .free (by simpa using hdropped) hlock

/-- The second poll of `yield_once` resumes the drive. -/
theorem resumes (h : Stage k g t) (poll : Polling k t (.yieldOnce true)) :
    Stage (k.setFut t { k.fut t with await := none }) g t := by
  obtain ⟨ho, -⟩ | ⟨-, ops, htodo, hdropped⟩ | ⟨hdropped, hlock⟩ := h.polls poll
  · cases ho
  · exact .resumed (by simpa [setFut] using htodo) hdropped (by simp [setFut]) poll.current
  · exact .free (by simpa [setFut] using hdropped) hlock

/-- A step of the drive itself. -/
theorem own (h : Stage k g t) (hr : (k.fut t).routine = .drive g) (hw : WellFormed k)
    (hroom : k.spawnQueue.items.length < 100 ∧ k.yielders.items.length < 100)
    (hrun : k.pc.current = some t) (hstep : Steps k l k') : Stage k' g t := by
  have hself : ∀ {t'}, k.pc.current = some t' → t' = t := fun ht' =>
    Option.some.inj (ht'.symm.trans hrun)
  cases hstep with
  | control move => exact h.still rfl rfl (move.current.trans hrun) rfl rfl
  | spawnTask pc | spawnPanic pc | popTask pc | popGone pc | wakeYielder pc
  | wakeYielderPanic pc => simp [pc, Pc.current] at hrun
  | checkallPast run | checkallPanic run =>
    exact h.still rfl (lock_update (by rfl) g) (run.current ▸ hrun) rfl rfl
  | devRead | devPush | checkallNothing | checkallWake =>
    exact h.still rfl (lock_update (by rfl) g) hrun rfl rfl
  | finish pc await client =>
    cases hself (by rw [pc]; rfl)
    cases hr.symm.trans client
  | spawnOp run =>
    cases hself run.current
    exact h.spawns hr run (hw.running_lt run.pc) hroom.1
  | yieldOp run =>
    cases hself run.current
    exact h.yields hr run
  | startUp run =>
    cases hself run.current
    exact h.startsUp hr run
  | dropGuard run =>
    cases hself run.current
    exact h.drops hr run
  | readConfig run | checkallNone run =>
    cases hself run.current
    exact h.takes_dropped hr run (by simp) (by simp [setFut]) rfl
  | request run =>
    cases hself run.current
    exact h.takes_dropped hr run (by simp) (by simp) (lock_update (by rfl) g)
  | yieldFirst poll =>
    cases hself poll.current
    exact h.suspends poll hroom.2
  | yieldAgain poll =>
    cases hself poll.current
    exact h.resumes poll
  | register poll =>
    cases hself poll.current
    exact h.polls_request poll (by simp) rfl rfl
  | ready poll =>
    cases hself poll.current
    exact h.polls_request poll (by simp) (by simp) rfl
  | release poll =>
    cases hself poll.current
    exact h.polls_request poll (by simp) (by simp) (lock_update (by rfl) g)

/-- While another task of the device runs, the guard is free. -/
theorem unlocked (h : Stage k g t) (hw : WellFormed k) (hone : OneHolder k)
    (hu : k.pc.current = some u) (hgpu : (k.fut u).routine.gpu = some g) (hne : u ≠ t) :
    (k.dev g).lock = none := by
  have hmem := hw.current u hu
  have hlt := hw.live_lt u (.inl hmem)
  have hqueued : u ∉ k.spawnQueue.items := fun hq => hw.spawn_fresh u hq hmem
  have hrun : k.pc.current ≠ some t := fun ht => hne (Option.some.inj (hu.symm.trans ht))
  cases h with
  | start todo await lock | spawned todo dropped await lock | free dropped lock => exact lock
  | locked todo dropped await running | yielding todo dropped await running
  | resumed todo dropped await running => exact absurd running hrun
  | suspended todo dropped await ahead =>
    obtain ⟨-, -, hothers⟩ | ⟨pre, post, hitems, hpost⟩ := ahead.resolve_left hrun
    · exact absurd (hothers u hlt hne hgpu) hqueued
    · have hpolled := hone.current u hu
      have hpos : 0 < k.taskQueue.items.count u := by
        rw [List.count_pos_iff, hitems]
        exact List.mem_append_right _ (.tail _ ((hpost u hlt hne hgpu).resolve_left hqueued))
      unfold tokens at hpolled
      omega

end Stage

/-- A routine that at most one task can have. -/
theorem routine_unique {r : Routine} (h : k.total (Fut.makes r) ≤ 1) (ht : t < k.nextId)
    (hu : u < k.nextId) (hr : (k.fut t).routine = r) (hr' : (k.fut u).routine = r) : t = u := by
  by_contra hne
  have hone : ∀ {v}, (k.fut v).routine = r → 1 ≤ Fut.makes r (k.fut v) := by
    intro v hv
    rw [Fut.makes, if_pos hv]
    exact Nat.le_add_right 1 _
  have hsum := UpdateSum.add_le_sum k.fut (Fut.makes r) hne (Finset.mem_range.mpr ht)
    (Finset.mem_range.mpr hu)
  have := (Nat.add_le_add (hone hr) (hone hr')).trans (hsum.trans h)
  omega

/-- The guard of a device is held by its drive at most. -/
structure LockLaw (g : DevId) (k : Kernel) : Prop where
  stage : ∀ t < k.nextId, (k.fut t).routine = .drive g → Stage k g t
  unheld : (∀ t < k.nextId, (k.fut t).routine ≠ .drive g) → (k.dev g).lock = none

/-- No task that runs takes the lock of a device while its guard is held. -/
structure NoDeadlock (k : Kernel) : Prop where
  op : ∀ t o rest g, Running k t o rest → o.locks = some g → (k.dev g).lock = none
  poll : ∀ t g head tail len, Polling k t (.setFree g head tail len) → (k.dev g).lock = none
  spin : ∀ t g, k.pc ≠ .spinning t g

/-- The invariant of a run with one drive a device and at most 100 live tasks. -/
structure Guarded (k : Kernel) : Prop where
  wellFormed : WellFormed k
  holder : OneHolder k
  scripts : Scripts DriverTask k
  drives : ∀ g, k.total (Fut.makes (.drive g)) ≤ 1
  pushed : ¬Overflowed k
  numLive : k.numLive ≤ 100
  law : ∀ g, LockLaw g k
  spin : ∀ t g, k.pc ≠ .spinning t g

namespace Guarded

/-- A running task finds the lock of its device free, unless it is about to give it back. -/
theorem unlocked (h : Guarded k) (ht : k.pc.current = some t)
    (hgpu : (k.fut t).routine.gpu = some g)
    (hown : (k.fut t).routine = .drive g → Stage k g t → (k.dev g).lock = none) :
    (k.dev g).lock = none := by
  by_cases hdrive : ∃ u < k.nextId, (k.fut u).routine = .drive g
  · obtain ⟨u, hu, hdrive⟩ := hdrive
    have hstage := (h.law g).stage u hu hdrive
    obtain rfl | hne := eq_or_ne t u
    · exact hown hdrive hstage
    · exact hstage.unlocked h.wellFormed h.holder ht hgpu hne
  · exact (h.law g).unheld fun u hu hd => hdrive ⟨u, hu, hd⟩

theorem noDeadlock (h : Guarded k) : NoDeadlock k where
  op t o rest g run hlocks := by
    have hgpu : (k.fut t).routine.gpu = some g :=
      (h.scripts t).1.takes_gpu run.takes (by cases o <;> simp_all [Op.locks, Op.gpu])
    refine h.unlocked run.current hgpu fun hdrive hstage => ?_
    obtain ⟨rfl, -⟩ | ⟨-, hlock, -⟩ | ⟨rfl, -⟩ | ⟨rfl, -⟩ | ⟨-, hlock⟩ := hstage.next hdrive run
    · cases hlocks
    · exact hlock
    · cases hlocks
    · cases hlocks
    · exact hlock
  poll t g head tail len poll := by
    have hgpu : (k.fut t).routine.gpu = some g :=
      h.scripts.gpu_of_ids (Fut.InFlight.head_mem (.inr poll.await))
    refine h.unlocked poll.current hgpu fun _ hstage => ?_
    exact (hstage.polls_dropped poll (by simp)).2
  spin := h.spin

/-- Only the drive of a device spawns tasks of it. -/
theorem spawns_gpu {r : Routine} {rest : List Op} (h : Guarded k)
    (run : Running k u (.spawn r) rest)
    (hr : r.gpu = some g) : (k.fut u).routine = .drive g := by
  obtain ⟨hscript, hdriver⟩ := h.scripts u
  have hspawns := hscript.takes_spawn run.takes
  cases hroutine : (k.fut u).routine with
  | drive g' =>
    rw [hroutine] at hspawns
    obtain rfl | rfl := hspawns <;> cases hr <;> rfl
  | client gpu =>
    rw [hroutine] at hspawns
    obtain rfl | rfl := hspawns
    · cases hr
    · cases hr
      exact absurd hroutine (hdriver g)
  | poller | transfer =>
    rw [hroutine] at hspawns
    exact hspawns.elim

/-- No task spawns a drive. -/
theorem drive_old (h : Guarded k) (hstep : Steps k l k') (ht : t < k'.nextId)
    (hdrive : (k'.fut t).routine = .drive g) :
    t < k.nextId ∧ (k.fut t).routine = .drive g := by
  obtain hlt | ⟨u, r, rest, run, hr⟩ := spawn_cases hstep ht
  · exact ⟨hlt, (routine_kept hstep hlt).2.symm.trans hdrive⟩
  · have hnew := (Fut.new_todo ((h.scripts u).1.takes_spawn run.takes) fun _ => 0).2 g
    exact absurd (hr.symm.trans hdrive) hnew

theorem lock_kept (h : Guarded k) (hstep : Steps k l k')
    (hnone : ∀ u, k.pc.current = some u → (k.fut u).routine ≠ .drive g) :
    (k'.dev g).lock = (k.dev g).lock := by
  refine (lock_cases hstep g).resolve_right fun ⟨u, rest, run⟩ => ?_
  obtain run | run := run
  · exact hnone u run.current ((h.scripts u).1.takes_startUp run.takes)
  · exact hnone u run.current ((h.scripts u).1.takes_dropGuard run.takes)

/-- The stage of a drive after a step of another task, of the executor or of a device. -/
theorem stage_others (h : Guarded k) (hstep : Steps k l k') (hpushed : ¬Overflowed k')
    (ht : t < k.nextId) (hdrive : (k.fut t).routine = .drive g) (hrun : k.pc.current ≠ some t) :
    Stage k' g t := by
  have hother : ∀ u, k.pc.current = some u → (k.fut u).routine ≠ .drive g := by
    intro u hu hr
    have hlt := h.wellFormed.live_lt u (.inl (h.wellFormed.current u hu))
    exact hrun (routine_unique (h.drives g) hlt ht hr hdrive ▸ hu)
  have hspawn : ∀ u r rest, Running k u (.spawn r) rest → r.gpu ≠ some g :=
    fun u r rest run hr => hother u run.current (h.spawns_gpu run hr)
  have hstage := (h.law g).stage t ht hdrive
  refine hstage.frame (fut_of_ne hstep ht hrun) (h.lock_kept hstep hother)
    (fun hcurrent => absurd hcurrent hrun) (fun hcurrent => absurd hcurrent hrun)
    (fun u hu _ hgpu => ?_) fun hawait hahead => ?_
  · obtain hlt | ⟨v, r, rest, run, hr⟩ := spawn_cases hstep hu
    · exact ⟨hlt, (routine_kept hstep hlt).2 ▸ hgpu⟩
    · exact absurd (hr ▸ hgpu) (hspawn v r rest run)
  · exact hahead.step h.wellFormed (h.wellFormed.await t hawait) hstep hpushed hspawn

theorem lockLaw_step (h : Guarded k) (hstep : Steps k l k') (hpushed : ¬Overflowed k')
    (g : DevId) : LockLaw g k' := by
  constructor
  · intro t ht hdrive
    obtain ⟨hlt, hdrive⟩ := h.drive_old hstep ht hdrive
    by_cases hrun : k.pc.current = some t
    · exact ((h.law g).stage t hlt hdrive).own hdrive h.wellFormed
        (room_of_current h.wellFormed h.holder h.numLive hrun) hrun hstep
    · exact h.stage_others hstep hpushed hlt hdrive hrun
  · intro hnone
    have hnone : ∀ t < k.nextId, (k.fut t).routine ≠ .drive g := fun t ht hdrive =>
      hnone t (routine_kept hstep ht).1 ((routine_kept hstep ht).2.trans hdrive)
    refine (h.lock_kept hstep fun u hu => hnone u ?_).trans ((h.law g).unheld hnone)
    exact h.wellFormed.live_lt u (.inl (h.wellFormed.current u hu))

/-- At boot every drive is at its start and every lock is free. -/
theorem lockLaw_boot {config : DevId → GpuConfig} {rs : List Routine}
    (hrs : ∀ r ∈ rs, r = .client none ∨ ∃ g, r = .drive g)
    (hdrives : (Kernel.boot config rs).total (Fut.makes (.drive g)) ≤ 1) :
    LockLaw g (Kernel.boot config rs) := by
  have hfut : ∀ u < (Kernel.boot config rs).nextId, ∃ r ∈ rs, ∃ c,
      (Kernel.boot config rs).fut u = Fut.new c r := by
    refine boot_induction (P := fun k => ∀ u < k.nextId, ∃ r ∈ rs, ∃ c, k.fut u = Fut.new c r)
      (by simp [Kernel.new]) fun k r hr hk u hu => ?_
    obtain rfl | hne := eq_or_ne u k.nextId
    · exact ⟨r, hr, _, Function.update_self ..⟩
    · simp only [spawnerRun, Function.update_of_ne hne]
      exact hk u (Nat.lt_of_le_of_ne (Nat.lt_succ_iff.mp hu) hne)
  have hlock : ((Kernel.boot config rs).dev g).lock = none :=
    boot_induction (P := fun k => (k.dev g).lock = none) rfl fun _ _ _ h => h
  refine ⟨fun t ht hdrive => ?_, fun _ => hlock⟩
  obtain ⟨r, hr, c, hnew⟩ := hfut t ht
  obtain rfl : r = .drive g := by rw [hnew] at hdrive; exact hdrive
  refine .start (congrArg Fut.todo hnew) (congrArg Fut.await hnew) hlock fun u hu hne hgpu => ?_
  obtain ⟨s, hs, c', hnew'⟩ := hfut u hu
  obtain rfl | ⟨g', rfl⟩ := hrs s hs
  · simp [hnew', Fut.new, Routine.gpu] at hgpu
  · obtain rfl : g' = g := by simpa [hnew', Fut.new, Routine.gpu] using hgpu
    exact hne (routine_unique hdrives hu ht (congrArg Fut.routine hnew') hdrive)

theorem boot {config : DevId → GpuConfig} {rs : List Routine}
    (hrs : ∀ r ∈ rs, r = .client none ∨ ∃ g, r = .drive g) (honce : ∀ g, rs.count (.drive g) ≤ 1) :
    Guarded (Kernel.boot config rs) where
  wellFormed := .boot config rs
  holder := .boot config rs
  scripts := .boot (by simp [DriverTask]) fun r hr => by
    obtain rfl | ⟨g, rfl⟩ := hrs r hr <;> simp [DriverTask]
  drives g := (Budget.boot hrs g).drives.trans (honce g)
  pushed := by simp [Overflowed]
  numLive := by simpa [Kernel.numLive] using (Kernel.boot config rs).spawnQueue.bounded
  law g := lockLaw_boot hrs ((Budget.boot hrs g).drives.trans (honce g))
  spin := by simp

/-- No lock is taken while it is held, so no task spins. -/
theorem spin_step (h : Guarded k) (hstep : Steps k l k') (t : TaskId) (g : DevId) :
    k'.pc ≠ .spinning t g := by
  intro hpc
  cases hstep with
  | control move =>
    cases move with
    | spinOp run locks held => exact held (h.noDeadlock.op _ _ _ _ run locks)
    | spinPoll poll held => exact held (h.noDeadlock.poll _ _ _ _ _ poll)
    | _ => simp at hpc
  | spawnPanic | popTask | wakeYielderPanic | checkallPast | checkallPanic | yieldFirst | register
  | finish => simp [finish] at hpc
  | _ => exact h.spin t g hpc

theorem step (h : Guarded k) (hstep : Steps k l k') (hlive : k'.numLive ≤ 100) : Guarded k' := by
  have hpushed : ¬Overflowed k' := fun ho =>
    (overflow_cases hstep ho h.wellFormed h.holder).elim h.pushed h.numLive.not_gt
  exact {
    wellFormed := h.wellFormed.step hstep
    holder := h.holder.step h.wellFormed hstep
    scripts := h.scripts.step DriverTask.spawns hstep
    drives := fun g =>
      (total_step (Fut.makes_credit (by simp [Op.Once])) h.wellFormed h.scripts hstep).trans
        (h.drives g)
    pushed := hpushed
    numLive := hlive
    law := h.lockLaw_step hstep hpushed
    spin := h.spin_step hstep }

end Guarded

/-- With one drive a device and at most 100 live tasks, no task takes the lock of a device whose
guard is held. -/
theorem gpu_no_deadlock {config : DevId → GpuConfig} {rs : List Routine}
    (hrs : ∀ r ∈ rs, r = .client none ∨ ∃ g, r = .drive g) (honce : ∀ g, rs.count (.drive g) ≤ 1)
    (h : Transition.Reach step (fun _ _ k' => k'.numLive ≤ 100) (boot config rs) k) :
    NoDeadlock k :=
  (h.invariant (Guarded.boot hrs honce) fun _ _ _ _ hk hstep hlive =>
    hk.step (steps_of_step hstep) hlive).noDeadlock

theorem gpu_no_deadlock_firstRequest : NoDeadlock ((Transition.run step
    (fun _ _ k' => k'.numLive ≤ 100) firstRequest (boot blankConfig [.drive 0])).get
      (by decide)) :=
  @gpu_no_deadlock _ blankConfig [.drive 0] (by simp) (fun _ => List.count_le_length)
    (Transition.Reach.run_get _ _)

end Kernel
end Fomos
