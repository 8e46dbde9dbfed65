import Mathlib
import Fomos.Kernel.WellFormed

/-!
# No task is lost while the queues have room

`Spawner::run` and `YieldOnce::poll` ignore the result of their push, so that a full
`spawn_queue` loses a future and a full `YIELDERS` leaves a task without a token. In a run where
both have room whenever they are pushed to, every future that was spawned is kept until it is
done, and every suspended task that does not wait for a device is queued; the other two queues
report an overflow by a panic.
-/
namespace Fomos

/-- Whether the future waits in `IdWait` for a completion. -/
def Fut.AwaitsGpu (f : Fut) : Prop := ∃ g head tail len, f.await = some (.idWait g head tail len)

namespace Kernel
variable {k k' : Kernel} {l : Label} {t m : TaskId}

/-- `wake_task` has found `task_queue` full. -/
def TaskQueueFull (k : Kernel) : Prop := ∃ during, k.pc = .panicked during .taskQueueFull

/-- One of the two pushes with a checked result has failed. -/
def Overflowed (k : Kernel) : Prop :=
  ∃ during, k.pc = .panicked during .queueFull ∨ k.pc = .panicked during .taskQueueFull

/-- What was passed to `Spawner::run` from the task `m` on is not lost, and what `yield_once`
suspended has a token. -/
structure Scheduled (m : TaskId) (k : Kernel) : Prop where
  kept : ∀ t, m ≤ t → t < k.nextId → k.Live t ∨ .done t ∈ k.log
  queued : ∀ t ∈ k.tasks, k.pc.current ≠ some t → ¬(k.fut t).AwaitsGpu →
    t ∈ k.taskQueue.items ∨ t ∈ k.yielders.items

/-- Whether the step finds room in the queue that it pushes to without looking at the result. -/
def Room (k : Kernel) : Label → Prop
  | .op (.spawn _) => k.spawnQueue.items.length < 100
  | .poll => ∀ t ∈ k.pc.current, (k.fut t).await = some (.yieldOnce false) →
      k.yielders.items.length < 100
  | _ => True

instance (k : Kernel) (l : Label) : Decidable (k.Room l) := by
  unfold Room
  split <;> infer_instance

namespace Scheduled

/-- A step that keeps the ids of tasks where they are has to keep the suspended tasks queued. -/
theorem frame (h : Scheduled m k) (htasks : k'.tasks = k.tasks)
    (hspawn : k'.spawnQueue = k.spawnQueue) (hnext : k'.nextId = k.nextId)
    (hlog : ∀ t, .done t ∈ k.log → .done t ∈ k'.log)
    (hqueued : ∀ t ∈ k.tasks, k'.pc.current ≠ some t → ¬(k'.fut t).AwaitsGpu →
      t ∈ k'.taskQueue.items ∨ t ∈ k'.yielders.items) : Scheduled m k' where
  kept t hm ht := by
    rw [hnext] at ht
    rw [Live, htasks, hspawn]
    exact (h.kept t hm ht).imp_right (hlog t)
  queued := htasks ▸ hqueued

/-- The running task may change its own future. -/
theorem own (h : Scheduled m k) (hpc : k.pc = .polling t) (hcurrent : k'.pc.current = some t)
    {f : Fut} (hfut : k'.fut = Function.update k.fut t f) (hqueue : k'.taskQueue = k.taskQueue)
    (hyielders : k'.yielders = k.yielders) :
    ∀ u ∈ k.tasks, k'.pc.current ≠ some u → ¬(k'.fut u).AwaitsGpu →
      u ∈ k'.taskQueue.items ∨ u ∈ k'.yielders.items := by
  intro u hu hrun hgpu
  have hne : u ≠ t := fun e => hrun (e ▸ hcurrent)
  rw [hfut, Function.update_of_ne hne] at hgpu
  rw [hqueue, hyielders]
  exact h.queued u hu (by simpa [hpc, Pc.current] using hne.symm) hgpu

theorem spawnOp {fut : TaskId → Fut} {f : Fut} (h : Scheduled m k) (hw : WellFormed k)
    (hroom : k.spawnQueue.items.length < 100)
    (hfut : ∀ u, k.pc.current ≠ some u → fut u = k.fut u) : Scheduled m { k with
      fut := Function.update fut k.nextId f
      nextId := k.nextId + 1
      spawnQueue := k.spawnQueue.tryPush k.nextId } where
  kept t hm ht := by
    simp only [Live, ArrayQueue.tryPush_items hroom, List.mem_append, List.mem_singleton]
    obtain ht | rfl := Nat.lt_succ_iff_lt_or_eq.mp ht
    · exact (h.kept t hm ht).imp_left (Or.imp_right .inl)
    · exact .inl (.inr (.inr rfl))
  queued t ht hrun hgpu := by
    have hne : t ≠ k.nextId := fun e => hw.next_notLive (.inl (e ▸ ht))
    have hgpu : ¬(Function.update fut k.nextId f t).AwaitsGpu := hgpu
    rw [Function.update_of_ne hne, hfut t hrun] at hgpu
    exact h.queued t ht hrun hgpu

/-- A step keeps every task scheduled or ends in a panic about the overflow. -/
theorem step (h : Scheduled m k) (hw : WellFormed k) (hroom : k.Room l) (hstep : Steps k l k') :
    Scheduled m k' ∨ Overflowed k' := by
  cases hstep with
  | control move =>
    exact .inl (h.frame rfl rfl rfl (fun _ ht => ht) fun u hu hrun =>
      h.queued u hu (move.current ▸ hrun))
  | @spawnTask task sq tq pc pop fresh push =>
    refine .inl ⟨fun u hm hu => ?_, fun u hu hrun hgpu => ?_⟩
    · exact (h.kept u hm hu).imp_left (live_moved pop).mpr
    · simp only [push, List.mem_append, List.mem_singleton]
      obtain rfl | hu := Finset.mem_insert.mp hu
      · exact .inl (.inr rfl)
      · exact (h.queued u hu hrun hgpu).imp_left .inl
  | spawnPanic pc pop full =>
    obtain ⟨hmem, -⟩ | ⟨-, rfl⟩ := full
    · exact absurd hmem (hw.spawn_fresh _ (by rw [pop]; exact .head _))
    · exact .inr ⟨_, .inl rfl⟩
  | @popTask t tq pc pop live =>
    refine .inl (h.frame rfl rfl rfl (fun _ ht => ht) fun u hu hrun hgpu => ?_)
    have hne : t ≠ u := fun e => hrun (e ▸ rfl)
    simpa [pop, hne.symm] using h.queued u hu (by simp [pc, Pc.current]) hgpu
  | @popGone t tq pc pop gone =>
    refine .inl (h.frame rfl rfl rfl (fun _ ht => ht) fun u hu hrun hgpu => ?_)
    have hne : u ≠ t := fun e => gone (e ▸ hu)
    simpa [pop, hne] using h.queued u hu hrun hgpu
  | wakeYielder pc pop push =>
    refine .inl (h.frame rfl rfl rfl (fun _ ht => ht) fun u hu hrun hgpu => ?_)
    have := h.queued u hu hrun hgpu
    simp only [pop, push, List.mem_append, List.mem_cons, List.not_mem_nil, or_false] at this ⊢
    exact or_assoc.mpr this
  | wakeYielderPanic | checkallPanic => exact .inr ⟨_, .inr rfl⟩
  | spawnOp run =>
    refine .inl (h.spawnOp hw hroom fun u hu => Function.update_of_ne ?_ _ _)
    rintro rfl
    exact hu run.current
  | yieldOp run | readConfig run | checkallNone run | yieldAgain run | dropGuard run | ready run =>
    exact .inl (h.frame rfl rfl rfl (fun _ ht => ht) (h.own run.pc run.current rfl rfl rfl))
  | startUp run | request run | release run =>
    exact .inl (h.frame rfl rfl rfl (fun _ ht => by simp [ht])
      (h.own run.pc run.current rfl rfl rfl))
  | checkallPast run =>
    exact .inl (h.frame rfl rfl rfl (fun _ ht => .tail _ ht) fun u hu hrun =>
      h.queued u hu (run.current ▸ hrun))
  | checkallNothing => exact .inl (h.frame rfl rfl rfl (fun _ ht => .tail _ ht) h.queued)
  | checkallWake _ _ _ _ _ push =>
    refine .inl (h.frame rfl rfl rfl (fun _ ht => .tail _ ht) fun u hu hrun hgpu => ?_)
    exact (h.queued u hu hrun hgpu).imp_left fun hu => by simp [push, hu]
  | @yieldFirst t run =>
    refine .inl (h.frame rfl rfl rfl (fun _ ht => ht) fun u hu hrun hgpu => ?_)
    have hyielders := ArrayQueue.tryPush_items (x := t) (hroom t run.current run.await)
    simp only [hyielders, List.mem_append, List.mem_singleton]
    obtain rfl | hne := eq_or_ne u t
    · exact .inr (.inr rfl)
    · have hgpu : ¬(Function.update k.fut t _ u).AwaitsGpu := hgpu
      rw [Function.update_of_ne hne] at hgpu
      exact (h.queued u hu (by simp [run.pc, Pc.current, hne.symm]) hgpu).imp_right .inl
  | @register t _ _ _ _ run =>
    refine .inl (h.frame rfl rfl rfl (fun _ ht => ht) fun u hu hrun hgpu => ?_)
    obtain rfl | hne := eq_or_ne u t
    · exact absurd ⟨_, _, _, _, run.await⟩ hgpu
    · exact h.queued u hu (by simp [run.pc, Pc.current, hne.symm]) hgpu
  | @finish t gpu pc await =>
    refine .inl ⟨fun u hm hu => ?_, fun u hu hrun hgpu => ?_⟩
    · obtain rfl | hne := eq_or_ne u t
      · exact .inr (.head _)
      · exact (h.kept u hm hu).imp (Or.imp_left fun hu => Finset.mem_erase.mpr ⟨hne, hu⟩) (.tail _)
    · obtain ⟨hne, hu⟩ := Finset.mem_erase.mp hu
      exact h.queued u hu (by simp [pc, Pc.current, hne.symm]) hgpu
  | devRead => exact .inl (h.frame rfl rfl rfl (fun _ ht => ht) h.queued)
  | devPush => exact .inl (h.frame rfl rfl rfl (fun _ ht => .tail _ ht) h.queued)

theorem spawnAll {rs : List Routine} (h : Scheduled m k) (hw : WellFormed k)
    (hlen : k.spawnQueue.items.length + rs.length ≤ 100) :
    Scheduled m (rs.foldl (fun k r => k.spawnerRun r) k) := by
  induction rs generalizing k with
  | nil => exact h
  | cons r rs ih =>
    rw [List.length_cons] at hlen
    refine ih (h.spawnOp hw (by omega) fun _ _ => rfl) (hw.spawnOp rfl hw.await) ?_
    simp only [spawnerRun]
    rw [ArrayQueue.tryPush_items (by omega), List.length_append, List.length_singleton]
    omega

/-- Whatever was lost before the executor runs, nothing is lost of what is spawned later. -/
theorem boot_later (config : DevId → GpuConfig) (rs : List Routine) :
    Scheduled (Kernel.boot config rs).nextId (Kernel.boot config rs) :=
  ⟨fun _ hm ht => absurd ht hm.not_gt, by simp [boot_tasks]⟩

theorem boot (config : DevId → GpuConfig) {rs : List Routine} (hlen : rs.length ≤ 100) :
    Scheduled 0 (Kernel.boot config rs) := by
  refine spawnAll ⟨?_, ?_⟩ (.new config) (by simpa [Kernel.new] using hlen) <;> simp [Kernel.new]

end Scheduled

theorem TaskQueueFull.overflowed (h : TaskQueueFull k) : Overflowed k := h.imp fun _ => .inr

theorem TaskQueueFull.step (h : TaskQueueFull k) (hstep : Steps k l k') : TaskQueueFull k' := by
  obtain ⟨during, h⟩ := h
  exact ⟨during, (hstep.pc_of_panicked h).trans h⟩

theorem Overflowed.step (h : Overflowed k) (hstep : Steps k l k') : Overflowed k' := by
  obtain ⟨during, h | h⟩ := h
  · exact ⟨during, .inl ((hstep.pc_of_panicked h).trans h)⟩
  · exact ⟨during, .inr ((hstep.pc_of_panicked h).trans h)⟩

/-- No future and no wake token is lost without a panic. -/
def NoSilentLoss (k : Kernel) : Prop := Scheduled 0 k ∨ Overflowed k

/-- When at most 100 futures are spawned before the executor runs, and the spawn queue and the
queue of yielders have room at each later push, nothing is lost silently. -/
theorem noSilentLoss_of_room {config : DevId → GpuConfig} {rs : List Routine}
    (hlen : rs.length ≤ 100)
    (h : Transition.Reach step (fun k l _ => k.Room l) (boot config rs) k) : k.NoSilentLoss := by
  refine (h.invariant (I := fun k => WellFormed k ∧ k.NoSilentLoss)
    ⟨.boot config rs, .inl (.boot config hlen)⟩ ?_).2
  intro k l k' _ ⟨hw, hk⟩ hstep hroom
  have hsteps := steps_of_step hstep
  refine ⟨hw.step hsteps, ?_⟩
  obtain hk | hk := hk
  · exact hk.step hw hroom hsteps
  · exact .inr (hk.step hsteps)

theorem noSilentLoss_of_room_two_clients : NoSilentLoss ((Transition.run step
    (fun k l _ => k.Room l) [.exec, .exec, .exec, .exec, .op .yieldOnce, .poll, .exec, .finish]
    (boot blankConfig [.client none, .client none])).get (by decide)) :=
  noSilentLoss_of_room (by decide) (Transition.Reach.run_get _ _)

/-- The last of 101 futures spawned at once is lost. -/
theorem spawnerRun_silent_loss : ¬∀ config rs k,
    Transition.Reach step (fun _ _ _ => True) (boot config rs) k → k.NoSilentLoss := by
  intro h
  have hpc : (boot blankConfig (List.replicate 101 (.client none))).pc = .spawning := by decide
  obtain hs | ⟨during, ho | ho⟩ := h blankConfig (List.replicate 101 (.client none)) _ .start
  · have hlost := hs.kept 100 (Nat.zero_le _) (by decide)
    revert hlost
    decide +kernel
  · rw [hpc] at ho
    cases ho
  · rw [hpc] at ho
    cases ho

end Kernel
end Fomos
