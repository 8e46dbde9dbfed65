import Mathlib
import Fomos.Kernel.Scripts
import Fomos.Library.UpdateSum

/-!
# What is done at most once

A credit weighs a future by what is left of its script. No step raises the credits of all tasks
together, since a spawned task gets no more than the spawning gives up. The credits used here
bound the tasks of each script and the start-up loops by the number of `drive`s at boot.
-/
namespace Fomos
open UpdateSum

/-- Whether an operation is neither repeated by a loop nor open to a client. -/
def Op.Once : Op → Prop
  | .spawn (.client _) | .yieldOnce | .request _ _ | .checkall _ => False
  | _ => True

namespace Fut
variable {f : Fut} {o o' : Op} {rest : List Op} {r : Routine} {g : DevId}

/-- Doing an operation uses it up. -/
theorem takes_once (o' : Op) (ho : o'.Once) (h : f.takes o = some rest) :
    rest.count o' + (if o = o' then 1 else 0) ≤ f.todo.count o' := by
  obtain ⟨gpu, -, hallowed, rfl⟩ | htodo | ⟨-, hloop⟩ := takes_cases h
  · have hne : o ≠ o' := by
      rintro rfl
      cases o with
      | spawn r => cases r <;> simp_all [Op.Once, Op.allowed]
      | _ => simp_all [Op.Once, Op.allowed]
    simp [hne]
  · rw [htodo, List.count_cons]
    simp
  · have hnone : (o :: rest).count o' = 0 := by
      rw [List.count_eq_zero]
      intro hmem
      rw [← hloop] at hmem
      cases hr : f.routine <;> simp only [hr, Routine.loop, List.mem_cons, List.not_mem_nil,
        or_false] at hmem
      · exact absurd (hmem ▸ ho) (by simp [Op.Once])
      · obtain rfl | rfl := hmem <;> exact absurd ho (by simp [Op.Once])
      · exact absurd (hmem ▸ ho) (by simp [Op.Once])
    rw [List.count_cons] at hnone
    simp only [beq_iff_eq] at hnone
    omega

/-- A task that is spawned by another one starts with nothing but a loop. -/
theorem new_todo (hr : f.routine.spawns r) (numCapsets : DevId → ℕ) :
    (Fut.new numCapsets r).todo = [] ∧ ∀ g, r ≠ .drive g := by
  cases hf : f.routine <;> simp only [hf, Routine.spawns] at hr <;>
    obtain rfl | rfl := hr <;> simp [Fut.new, Routine.body]

/-- A weight of futures that no operation raises and that pays for every spawned future. -/
structure Credit (w : Fut → ℕ) : Prop where
  await : ∀ f a, w { f with await := a } = w f
  spend : ∀ f o rest, f.takes o = some rest → w { f with todo := rest } ≤ w f
  spawn : ∀ f r rest numCapsets, f.Scripted → f.takes (.spawn r) = some rest →
    w { f with todo := rest } + w (Fut.new numCapsets r) ≤ w f

/-- How often the operation is left in the script. -/
def left (o : Op) (f : Fut) : ℕ := f.todo.count o

/-- One for a task of the routine, and one for each time it is still to be spawned. -/
def makes (r : Routine) (f : Fut) : ℕ := (if f.routine = r then 1 else 0) + left (.spawn r) f

theorem left_credit (ho : o.Once) : Credit (left o) where
  await _ _ := rfl
  spend f o' rest h := (Nat.le_add_right _ _).trans (takes_once _ ho h)
  spawn f r rest c hf h := by
    rw [left, left, (new_todo (hf.takes_spawn h) c).1, List.count_nil]
    exact (Nat.le_add_right _ _).trans (takes_once _ ho h)

theorem makes_credit (hr : (Op.spawn r).Once) : Credit (makes r) where
  await _ _ := rfl
  spend f o rest h := Nat.add_le_add_left ((left_credit hr).spend f o rest h) _
  spawn f r' rest c hf h := by
    have honce := takes_once _ hr h
    have hnew : makes r (Fut.new c r') = if r' = r then 1 else 0 := by
      rw [makes, left, (new_todo (hf.takes_spawn h) c).1]
      rfl
    simp only [Op.spawn.injEq] at honce
    rw [hnew]
    simp only [makes, left]
    omega

end Fut

namespace Kernel
variable {k k' : Kernel} {l : Label} {t : TaskId} {w : Fut → ℕ} {P : Routine → Prop}

/-- The weight of all tasks together. -/
def total (w : Fut → ℕ) (k : Kernel) : ℕ := ∑ t ∈ Finset.range k.nextId, w (k.fut t)

theorem total_update {f : Fut} (ht : t < k.nextId) (hfut : k'.fut = Function.update k.fut t f)
    (hnext : k'.nextId = k.nextId) : k'.total w + w (k.fut t) = k.total w + w f := by
  unfold total
  rw [hfut, hnext]
  exact sum_update_add k.fut f w (Finset.mem_range.mpr ht)

theorem total_le {f : Fut} (ht : t < k.nextId) (hfut : k'.fut = Function.update k.fut t f)
    (hnext : k'.nextId = k.nextId) (hf : w f ≤ w (k.fut t)) : k'.total w ≤ k.total w := by
  have := total_update (w := w) ht hfut hnext
  omega

theorem total_spawn_le {f f' : Fut} {q : ArrayQueue TaskId 100} (ht : t < k.nextId)
    (hpay : w f + w f' ≤ w (k.fut t)) :
    total w { k with
      fut := Function.update (Function.update k.fut t f) k.nextId f'
      nextId := k.nextId + 1
      spawnQueue := q } ≤ k.total w := by
  have hown : ∑ j ∈ Finset.range k.nextId, w (Function.update k.fut t f j) + w (k.fut t) =
      k.total w + w f := sum_update_add k.fut f w (Finset.mem_range.mpr ht)
  rw [total, sum_range_succ_update]
  omega

theorem le_total (ht : t < k.nextId) : w (k.fut t) ≤ k.total w :=
  le_sum k.fut w (Finset.mem_range.mpr ht)

/-- No step raises the credits. -/
theorem total_step (hc : Fut.Credit w) (hw : WellFormed k) (hs : Scripts P k)
    (hstep : Steps k l k') : k'.total w ≤ k.total w := by
  cases hstep with
  | control | spawnTask | spawnPanic | popTask | popGone | wakeYielder | wakeYielderPanic
  | checkallPast | checkallNothing | checkallWake | checkallPanic | register | finish | devRead
  | devPush => exact le_rfl
  | @spawnOp t r rest run =>
    exact total_spawn_le (hw.running_lt run.pc) (hc.spawn _ r rest _ (hs t).1 run.takes)
  | yieldOp run | request run =>
    refine total_le (hw.running_lt run.pc) rfl rfl ?_
    exact (hc.await _ _).trans_le (hc.spend _ _ _ run.takes)
  | startUp run | dropGuard run | readConfig run | checkallNone run =>
    exact total_le (hw.running_lt run.pc) rfl rfl (hc.spend _ _ _ run.takes)
  | yieldFirst poll | yieldAgain poll | ready poll | release poll =>
    exact total_le (hw.running_lt poll.pc) rfl rfl (hc.await _ _).le

/-- At boot each future contributes the weight of its script. -/
theorem total_boot (config : DevId → GpuConfig) (rs : List Routine) :
    (boot config rs).total w =
      (rs.map fun r => w (Fut.new (fun g => (config g).numCapsets) r)).sum := by
  have hdev : ∀ rs, (boot config rs).dev = fun g => Gpu.init (config g) := fun _ =>
    boot_induction (P := fun k => k.dev = fun g => Gpu.init (config g)) rfl fun _ _ _ h => h
  induction rs using List.reverseRecOn with
  | nil => rfl
  | append_singleton rs r ih =>
    have hboot : boot config (rs ++ [r]) = (boot config rs).spawnerRun r := by simp [boot]
    rw [hboot, List.map_append, List.sum_append, ← ih]
    simp only [total, spawnerRun, sum_range_succ_update, hdev, List.map_singleton,
      List.sum_singleton]
    rfl

/-- A weight that only the routine `r` starts with is at boot at most the number of these. -/
theorem total_boot_le {config : DevId → GpuConfig} {rs : List Routine} {r : Routine}
    (hw : ∀ s ∈ rs, ∀ numCapsets, w (Fut.new numCapsets s) ≤ if s = r then 1 else 0) :
    (boot config rs).total w ≤ rs.count r := by
  rw [total_boot]
  induction rs with
  | nil => rfl
  | cons s rs ih =>
    have hs := hw s (.head _) fun g => (config g).numCapsets
    have hrest := ih fun s' hs' => hw s' (.tail _ hs')
    simp only [List.map_cons, List.sum_cons, List.count_cons, beq_iff_eq]
    omega

end Kernel
end Fomos
