import Mathlib
import Fomos.Kernel.Ownership
import Fomos.Kernel.Scheduled
import Fomos.Kernel.Scripts

/-!
# The wakers of suspended requests

While the heads of the requests in flight differ, a waker in `WAKERS` is never replaced by that of
another task, so a suspended request has its waker in its slot until it is woken. On one device
the heads differ because each has one owner.
-/
namespace Fomos
namespace Kernel
variable {k k' : Kernel} {l : Label} {t u : TaskId} {g : DevId}

/-- A suspended request has its waker in the slot of its head, or was woken. -/
def Registered (k : Kernel) : Prop :=
  ∀ t ∈ k.tasks, k.pc.current ≠ some t → ∀ g head tail len,
    (k.fut t).await = some (.idWait g head tail len) →
      head < numWakers ∧ k.wakers head = .waker t ∨ t ∈ k.taskQueue.items

/-- No two requests wait on the same slot. -/
def HeadsDiffer (k : Kernel) : Prop :=
  ∀ t u g g' head tail tail' len len', (k.fut t).await = some (.idWait g head tail len) →
    (k.fut u).await = some (.idWait g' head tail' len') → t = u

namespace Registered

/-- A step that suspends no further request and takes no waker from a suspended one. -/
theorem frame (h : Registered k)
    (hstay : ∀ u ∈ k'.tasks, k'.pc.current ≠ some u → ∀ g head tail len,
      (k'.fut u).await = some (.idWait g head tail len) →
        u ∈ k.tasks ∧ k.pc.current ≠ some u ∧ (k.fut u).await = some (.idWait g head tail len))
    (hmove : ∀ u ∈ k'.tasks, k'.pc.current ≠ some u → ∀ head,
      head < numWakers ∧ k.wakers head = .waker u ∨ u ∈ k.taskQueue.items →
        head < numWakers ∧ k'.wakers head = .waker u ∨ u ∈ k'.taskQueue.items) :
    Registered k' := by
  intro u hu hrun g head tail len hawait
  obtain ⟨hu', hrun', hawait'⟩ := hstay u hu hrun g head tail len hawait
  exact hmove u hu hrun head (h u hu' hrun' g head tail len hawait')

/-- A step of the running task, which changes only its own future and goes on running. -/
theorem own {f : Fut} (h : Registered k) (hpc : k.pc = .polling t)
    (hcurrent : k'.pc.current = some t) (htasks : k'.tasks = k.tasks)
    (hfut : k'.fut = Function.update k.fut t f)
    (hmove : ∀ u head, head < numWakers ∧ k.wakers head = .waker u ∨ u ∈ k.taskQueue.items →
        head < numWakers ∧ k'.wakers head = .waker u ∨ u ∈ k'.taskQueue.items) :
    Registered k' := by
  refine h.frame (fun u hu hrun g head tail len hawait => ?_) fun u _ _ => hmove u
  have hne : u ≠ t := fun e => hrun (e ▸ hcurrent)
  rw [hfut, Function.update_of_ne hne] at hawait
  exact ⟨htasks ▸ hu, by simp [hpc, Pc.current, hne.symm], hawait⟩

/-- A slot without a waker may change. -/
theorem update_slot {w : IdWaker} {id : ℕ} (hw : ∀ u, k.wakers id ≠ .waker u) (u : TaskId)
    (head : ℕ) (h : head < numWakers ∧ k.wakers head = .waker u ∨ u ∈ k.taskQueue.items) :
    head < numWakers ∧ Function.update k.wakers id w head = .waker u ∨
      u ∈ k.taskQueue.items := by
  refine h.imp_left fun ⟨hlt, hwaker⟩ => ⟨hlt, ?_⟩
  have hne : head ≠ id := by
    rintro rfl
    exact hw u hwaker
  rwa [Function.update_of_ne hne]

/-- A task that is handed to the executor has not been polled: a suspended one is another. -/
theorem mem_tasks_of_insert {task u : TaskId} {queued : List TaskId} {a : Await}
    (hw : WellFormed k) (hpop : k.spawnQueue.items = task :: queued)
    (hu : u ∈ insert task k.tasks) (ha : (k.fut u).await = some a) : u ∈ k.tasks := by
  refine (Finset.mem_insert.mp hu).resolve_left ?_
  rintro rfl
  have hnone := hw.spawn_await (t := u) (by rw [hpop]; exact .head _)
  exact absurd (hnone.symm.trans ha) (by simp)

theorem boot (config : DevId → GpuConfig) (rs : List Routine) :
    Registered (Kernel.boot config rs) := by
  simp [Registered]

theorem step (h : Registered k) (hw : WellFormed k) (hheads : HeadsDiffer k)
    (hstep : Steps k l k') : Registered k' ∨ TaskQueueFull k' := by
  cases hstep with
  | control move =>
    exact .inl (h.frame (fun u hu hrun _ _ _ _ ha => ⟨hu, move.current ▸ hrun, ha⟩)
      fun _ _ _ _ hm => hm)
  | @spawnTask task sq tq pc pop fresh push =>
    refine .inl (h.frame (fun u hu hrun _ _ _ _ ha => ?_) fun _ _ _ _ hm => hm.imp_right ?_)
    · exact ⟨mem_tasks_of_insert hw pop hu ha, hrun, ha⟩
    · exact fun hm => by simp [push, hm]
  | @spawnPanic task sq why pc pop =>
    refine .inl (h.frame (fun u hu _ _ _ _ _ ha => ?_) fun _ _ _ _ hm => hm)
    exact ⟨mem_tasks_of_insert hw pop hu ha, by simp [pc, Pc.current], ha⟩
  | @popTask t tq pc pop live =>
    refine .inl (h.frame (fun u hu _ _ _ _ _ ha => ⟨hu, by simp [pc, Pc.current], ha⟩)
      fun u _ hrun _ hm => hm.imp_right fun hm => ?_)
    have hne : u ≠ t := fun e => hrun (e ▸ rfl)
    simpa [pop, hne] using hm
  | @popGone t tq pc pop gone =>
    refine .inl (h.frame (fun u hu hrun _ _ _ _ ha => ⟨hu, hrun, ha⟩)
      fun u hu _ _ hm => hm.imp_right fun hm => ?_)
    have hne : u ≠ t := fun e => gone (e ▸ hu)
    simpa [pop, hne] using hm
  | wakeYielder pc pop push =>
    exact .inl (h.frame (fun u hu hrun _ _ _ _ ha => ⟨hu, hrun, ha⟩)
      fun u _ _ _ hm => hm.imp_right fun hm => by simp [push, hm])
  | wakeYielderPanic pc =>
    exact .inl (h.frame (fun u hu _ _ _ _ _ ha => ⟨hu, by simp [pc, Pc.current], ha⟩)
      fun _ _ _ _ hm => hm)
  | @spawnOp t r rest run =>
    refine .inl (h.frame (fun u hu hrun _ _ _ _ ha => ?_) fun _ _ _ _ hm => hm)
    have hnew : u ≠ k.nextId := fun e => hw.next_notLive (.inl (e ▸ hu))
    have hne : u ≠ t := fun e => hrun (e ▸ run.current)
    simp only [Function.update_of_ne hnew, Function.update_of_ne hne] at ha
    exact ⟨hu, hrun, ha⟩
  | yieldOp run | readConfig run | checkallNone run | yieldAgain run | startUp run
  | dropGuard run | request run | release run =>
    exact .inl (h.own run.pc run.current rfl rfl fun _ _ hm => hm)
  | checkallPast run =>
    exact .inl (h.frame (fun u hu hrun _ _ _ _ ha => ⟨hu, run.current ▸ hrun, ha⟩)
      fun _ _ _ _ hm => hm)
  | checkallNothing run _ _ _ nothing =>
    exact .inl (h.frame (fun u hu hrun _ _ _ _ ha => ⟨hu, hrun, ha⟩)
      fun u _ _ => update_slot nothing u)
  | @checkallWake _ _ _ used _ v _ run _ _ _ waker push =>
    refine .inl (h.frame (fun u hu hrun _ _ _ _ ha => ⟨hu, hrun, ha⟩) fun u _ _ head hm => ?_)
    obtain ⟨hlt, hwaker⟩ | hm := hm
    · obtain rfl | hne := eq_or_ne head used.id
      · obtain rfl : v = u := by simpa using waker.symm.trans hwaker
        exact .inr (by simp [push])
      · exact .inl ⟨hlt, by simpa [consumed, hne] using hwaker⟩
    · exact .inr (by simp [push, hm])
  | checkallPanic => exact .inr ⟨_, rfl⟩
  | @yieldFirst t run =>
    refine .inl (h.frame (fun u hu hrun _ _ _ _ ha => ?_) fun _ _ _ _ hm => hm)
    obtain rfl | hne := eq_or_ne u t
    · simp at ha
    · simp only [Function.update_of_ne hne] at ha
      exact ⟨hu, by simp [run.pc, Pc.current, hne.symm], ha⟩
  | @register t g head tail len run bound pending =>
    refine .inl fun u hu hrun g' head' tail' len' ha => ?_
    obtain rfl | hne := eq_or_ne u t
    · obtain ⟨-, rfl, -⟩ : g = g' ∧ head = head' ∧ tail = tail' ∧ len = len' := by
        simpa using run.await.symm.trans ha
      exact .inl ⟨bound, Function.update_self ..⟩
    · have hhead : head' ≠ head := fun e =>
        hne (hheads _ _ _ _ _ _ _ _ _ (e ▸ ha) run.await)
      have := h u hu (by simp [run.pc, Pc.current, hne.symm]) _ _ _ _ ha
      simpa only [Function.update_of_ne hhead] using this
  | @ready t g head tail len run bound done =>
    exact .inl (h.own run.pc run.current rfl rfl
      (update_slot fun u hu => by simp [done] at hu))
  | @finish t gpu pc await =>
    refine .inl (h.frame (fun u hu _ _ _ _ _ ha => ?_) fun _ _ _ _ hm => hm)
    obtain ⟨hne, hu⟩ := Finset.mem_erase.mp hu
    exact ⟨hu, by simp [pc, Pc.current, hne.symm], ha⟩
  | devRead | devPush =>
    exact .inl (h.frame (fun u hu hrun _ _ _ _ ha => ⟨hu, hrun, ha⟩) fun _ _ _ _ hm => hm)

end Registered

/-- A routine without a device other than `d`. -/
def OnDevice (d : DevId) (r : Routine) : Prop := r.gpu = none ∨ r.gpu = some d

theorem OnDevice.spawns {d : DevId} (r r' : Routine) (h : OnDevice d r) (hr : r.spawns r') :
    OnDevice d r' := by
  cases r with
  | drive g => rcases hr with rfl | rfl <;> exact h
  | client gpu =>
    obtain rfl | rfl := hr
    · exact .inl rfl
    · exact h
  | poller | transfer => exact hr.elim

/-- The device of a task is the one that the run is about. -/
theorem Scripts.device_eq {d : DevId} (hs : Scripts (OnDevice d) k)
    (hg : (k.fut t).routine.gpu = some g) : g = d := by
  obtain hnone | hd := (hs t).2
  · cases hnone.symm.trans hg
  · exact Option.some.inj (hg.symm.trans hd)

/-- On one device the heads in flight differ, since they have one owner each. -/
theorem headsDiffer {n : DevId → ℕ} {d : DevId} (hw : WellFormed k) (ho : Owned n k)
    (hs : Scripts (OnDevice d) k) : HeadsDiffer k := by
  have hown : ∀ t g head tail len, (k.fut t).await = some (.idWait g head tail len) →
      t < k.nextId ∧ head ∈ (k.fut t).ids d := by
    intro t g head tail len ha
    have hmem : head ∈ (k.fut t).ids g := by simp [Fut.ids_of_idWait ha]
    obtain rfl := hs.device_eq (hs.gpu_of_ids hmem)
    exact ⟨hw.live_lt t (.inl (hw.await t (by simp [ha]))), hmem⟩
  intro t u g g' head tail tail' len len' ht hu
  obtain ⟨htlt, hti⟩ := hown _ _ _ _ _ ht
  obtain ⟨hult, hui⟩ := hown _ _ _ _ _ hu
  exact ho.ids_unique htlt hult hti hui

end Kernel
end Fomos
