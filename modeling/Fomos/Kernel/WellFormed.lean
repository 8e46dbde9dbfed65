import Mathlib
import Fomos.Kernel.Step
import Fomos.Library.Transition

/-!
# Task ids

Where the ids of tasks may stand: in `spawn_queue` before the task is known to the executor, in
`tasks` until it is done, and in the waker cache only while the task exists.
-/
namespace Fomos
namespace Kernel
variable {k k' : Kernel} {l : Label} {t : TaskId}

/-- A live task is in `tasks` or still in the spawn queue. -/
def Live (k : Kernel) (t : TaskId) : Prop := t ∈ k.tasks ∨ t ∈ k.spawnQueue.items

instance (k : Kernel) (t : TaskId) : Decidable (k.Live t) :=
  inferInstanceAs (Decidable (t ∈ k.tasks ∨ t ∈ k.spawnQueue.items))

/-- The number of live tasks. -/
def numLive (k : Kernel) : ℕ := k.tasks.card + k.spawnQueue.items.length

/-- Whether a task is live does not change when it moves from the spawn queue to `tasks`. -/
theorem live_moved {task : TaskId} {sq : ArrayQueue TaskId 100}
    (pop : k.spawnQueue.items = task :: sq.items) :
    t ∈ insert task k.tasks ∨ t ∈ sq.items ↔ k.Live t := by
  simp only [Live, pop, Finset.mem_insert, List.mem_cons]
  exact or_assoc.trans or_left_comm

structure WellFormed (k : Kernel) : Prop where
  spawn_nodup : k.spawnQueue.items.Nodup
  spawn_fresh : ∀ t ∈ k.spawnQueue.items, t ∉ k.tasks
  live_lt : ∀ t, k.Live t → t < k.nextId
  current : ∀ t, k.pc.current = some t → t ∈ k.tasks
  await : ∀ t, (k.fut t).await ≠ none → t ∈ k.tasks
  cache : k.wakerCache ⊆ k.tasks

namespace WellFormed

/-- A step that leaves the containers of tasks alone has to keep the running task and the tasks
that await something among `tasks`. -/
theorem frame (h : WellFormed k) (htasks : k'.tasks = k.tasks)
    (hspawn : k'.spawnQueue = k.spawnQueue) (hnext : k'.nextId = k.nextId)
    (hcache : k'.wakerCache ⊆ k.tasks) (hcurrent : ∀ t, k'.pc.current = some t → t ∈ k.tasks)
    (hawait : ∀ t, (k'.fut t).await ≠ none → t ∈ k.tasks) : WellFormed k' where
  spawn_nodup := hspawn ▸ h.spawn_nodup
  spawn_fresh := by rw [htasks, hspawn]; exact h.spawn_fresh
  live_lt := by unfold Live; rw [htasks, hspawn, hnext]; exact h.live_lt
  current := htasks ▸ hcurrent
  await := htasks ▸ hawait
  cache := htasks ▸ hcache

theorem running (h : WellFormed k) (hpc : k.pc = .polling t) : t ∈ k.tasks :=
  h.current t (by rw [hpc]; rfl)

theorem running_lt (h : WellFormed k) (hpc : k.pc = .polling t) : t < k.nextId :=
  h.live_lt t (.inl (h.running hpc))

/-- Only the running task changes what it awaits. -/
theorem await_update (h : WellFormed k) (ht : t ∈ k.tasks) (f : Fut) (u : TaskId)
    (hu : (Function.update k.fut t f u).await ≠ none) : u ∈ k.tasks := by
  obtain rfl | hne := eq_or_ne u t
  · exact ht
  · rw [Function.update_of_ne hne] at hu
    exact h.await u hu

/-- The next id is not in use. -/
theorem next_notLive (h : WellFormed k) : ¬k.Live k.nextId :=
  fun hlive => Nat.lt_irrefl _ (h.live_lt _ hlive)

theorem spawn_await (h : WellFormed k) (ht : t ∈ k.spawnQueue.items) : (k.fut t).await = none :=
  by_contra fun ha => h.spawn_fresh t ht (h.await t ha)

/-- Moving the oldest task of the spawn queue to `tasks`. -/
theorem spawned {task : TaskId} {sq : ArrayQueue TaskId 100} (h : WellFormed k)
    (pop : k.spawnQueue.items = task :: sq.items) (hcurrent : k'.pc.current = none)
    (htasks : k'.tasks = insert task k.tasks) (hspawn : k'.spawnQueue = sq)
    (hnext : k'.nextId = k.nextId) (hcache : k'.wakerCache = k.wakerCache)
    (hfut : k'.fut = k.fut) : WellFormed k' := by
  have hnodup := h.spawn_nodup
  rw [pop, List.nodup_cons] at hnodup
  refine ⟨hspawn ▸ hnodup.2, ?_, ?_, ?_, ?_, ?_⟩
  · rw [htasks, hspawn]
    intro t ht hmem
    obtain rfl | hmem := Finset.mem_insert.mp hmem
    · exact hnodup.1 ht
    · exact h.spawn_fresh t (by rw [pop]; exact .tail _ ht) hmem
  · intro t ht
    rw [Live, htasks, hspawn, live_moved pop] at ht
    exact hnext ▸ h.live_lt t ht
  · rw [hcurrent]
    simp
  · rw [htasks, hfut]
    exact fun t ht => Finset.mem_insert_of_mem (h.await t ht)
  · rw [htasks, hcache]
    exact h.cache.trans (Finset.subset_insert _ _)

/-- A spawned task gets an id of its own. -/
theorem spawnOp {fut : TaskId → Fut} {f : Fut} (h : WellFormed k) (hf : f.await = none)
    (hfut : ∀ t, (fut t).await ≠ none → t ∈ k.tasks) : WellFormed { k with
      fut := Function.update fut k.nextId f
      nextId := k.nextId + 1
      spawnQueue := k.spawnQueue.tryPush k.nextId } := by
  have hnew := h.next_notLive
  simp only [Live, not_or] at hnew
  have hitems := k.spawnQueue.tryPush_cases k.nextId
  refine ⟨?_, ?_, ?_, h.current, ?_, h.cache⟩
  · obtain ⟨-, hitems⟩ | ⟨-, hitems⟩ := hitems <;> simp only [hitems]
    · rw [← List.concat_eq_append]
      exact h.spawn_nodup.concat hnew.2
    · exact h.spawn_nodup
  · intro t ht
    obtain ⟨-, hitems⟩ | ⟨-, hitems⟩ := hitems <;> simp only [hitems] at ht
    · obtain ht | ht := List.mem_append.mp ht
      · exact h.spawn_fresh t ht
      · rw [List.mem_singleton.mp ht]
        exact hnew.1
    · exact h.spawn_fresh t ht
  · intro t ht
    have hlt := h.live_lt t
    simp only [Live] at ht hlt ⊢
    obtain ⟨-, hitems⟩ | ⟨-, hitems⟩ := hitems <;> simp only [hitems] at ht
    · rw [List.mem_append, List.mem_singleton, ← or_assoc] at ht
      obtain ht | rfl := ht
      · exact Nat.lt_succ_of_lt (hlt ht)
      · exact Nat.lt_succ_self _
    · exact Nat.lt_succ_of_lt (hlt ht)
  · intro t ht
    obtain rfl | hne := eq_or_ne t k.nextId
    · simp [hf] at ht
    · simp only [Function.update_of_ne hne] at ht
      exact hfut t ht

theorem finish (h : WellFormed k) (hpc : k.pc = .polling t) (hawait : (k.fut t).await = none) :
    WellFormed (k.finish t) := by
  have ht := h.running hpc
  refine ⟨h.spawn_nodup, ?_, ?_, by simp [Kernel.finish, Pc.current], ?_, ?_⟩
  · exact fun u hu hmem => h.spawn_fresh u hu (Finset.mem_of_mem_erase hmem)
  · exact fun u hu => h.live_lt u (hu.imp_left Finset.mem_of_mem_erase)
  · intro u hu
    refine Finset.mem_erase.mpr ⟨?_, h.await u hu⟩
    rintro rfl
    exact hu hawait
  · exact Finset.erase_subset_erase t h.cache

theorem new (config : DevId → GpuConfig) : WellFormed (Kernel.new config) where
  spawn_nodup := List.nodup_nil
  spawn_fresh := by simp [Kernel.new]
  live_lt := by simp [Kernel.new, Live]
  current := by simp [Kernel.new, Pc.current]
  await := by simp [Kernel.new]
  cache := by simp [Kernel.new]

theorem boot (config : DevId → GpuConfig) (rs : List Routine) :
    WellFormed (Kernel.boot config rs) :=
  boot_induction (new config) fun _ _ _ h => h.spawnOp rfl h.await

theorem step (h : WellFormed k) (hstep : Steps k l k') : WellFormed k' := by
  cases hstep with
  | control move =>
    exact h.frame rfl rfl rfl h.cache (fun t ht => h.current t (move.current ▸ ht)) h.await
  | spawnTask pc pop => exact h.spawned pop (by simp [pc, Pc.current]) rfl rfl rfl rfl rfl
  | spawnPanic pc pop => exact h.spawned pop rfl rfl rfl rfl rfl rfl
  | popTask pc pop live =>
    exact h.frame rfl rfl rfl (Finset.insert_subset live h.cache) (by simpa [Pc.current]) h.await
  | popGone pc => exact h.frame rfl rfl rfl h.cache h.current h.await
  | wakeYielder pc => exact h.frame rfl rfl rfl h.cache h.current h.await
  | wakeYielderPanic pc => exact h.frame rfl rfl rfl h.cache (by simp [Pc.current]) h.await
  | spawnOp run => exact h.spawnOp rfl (h.await_update (h.running run.pc) _)
  | yieldOp run | readConfig run | checkallNone run =>
    exact h.frame rfl rfl rfl h.cache h.current (h.await_update (h.running run.pc) _)
  | startUp run | dropGuard run | request run =>
    exact h.frame rfl rfl rfl h.cache h.current (h.await_update (h.running run.pc) _)
  | checkallPast run | checkallPanic run =>
    exact h.frame rfl rfl rfl h.cache (by simpa [Pc.current] using h.running run.pc) h.await
  | checkallNothing run | checkallWake run => exact h.frame rfl rfl rfl h.cache h.current h.await
  | yieldFirst run =>
    exact h.frame rfl rfl rfl h.cache (by simp [Pc.current])
      (h.await_update (h.running run.pc) _)
  | yieldAgain run | ready run | release run =>
    exact h.frame rfl rfl rfl h.cache h.current (h.await_update (h.running run.pc) _)
  | register run => exact h.frame rfl rfl rfl h.cache (by simp [Pc.current]) h.await
  | finish pc await => exact h.finish pc await
  | devRead read => exact h.frame rfl rfl rfl h.cache h.current h.await
  | devPush held => exact h.frame rfl rfl rfl h.cache h.current h.await

end WellFormed
end Kernel
end Fomos
