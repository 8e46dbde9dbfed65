import Mathlib
import Fomos.Kernel.Lock
import Fomos.Kernel.Outstanding

/-!
# Runs on one device neither panic nor spin

With one drive of a device whose queue has between 14 and 256 entries, and at most 100 live tasks,
every push has room, every request finds descriptors, every id is within `WAKERS` and every lock is
free when it is taken.
-/
namespace Fomos

/-- What one GPU device and the tasks given to `kernel_main` have to be. -/
structure OneGpu (d : DevId) (config : DevId → GpuConfig) (rs : List Routine) : Prop where
  tasks : ∀ r ∈ rs, r = .client none ∨ r = .drive d
  once : rs.count (.drive d) ≤ 1
  enough : 14 ≤ (config d).queueSize
  slots : (config d).queueSize ≤ Kernel.numWakers

namespace OneGpu
variable {d : DevId} {config : DevId → GpuConfig} {rs : List Routine}

lemma drives (h : OneGpu d config rs) (r : Routine) (hr : r ∈ rs) :
    r = .client none ∨ ∃ g, r = .drive g :=
  (h.tasks r hr).imp_right fun e => ⟨d, e⟩

lemma eq_of_drive {g : DevId} (h : OneGpu d config rs) (hg : .drive g ∈ rs) : g = d := by
  obtain hr | hr := h.tasks _ hg <;> cases hr
  rfl

lemma count_le (h : OneGpu d config rs) (g : DevId) : rs.count (.drive g) ≤ 1 := by
  by_cases hg : .drive g ∈ rs
  · exact h.eq_of_drive hg ▸ h.once
  · exact (List.count_eq_zero.mpr hg).trans_le (Nat.zero_le _)

lemma fourteen_le (h : OneGpu d config rs) (g : DevId) (hg : .drive g ∈ rs) :
    14 ≤ (config g).queueSize := h.eq_of_drive hg ▸ h.enough

end OneGpu

namespace Kernel
variable {k k' : Kernel} {l : Label} {t u : TaskId} {d g : DevId} {config : DevId → GpuConfig}
  {rs : List Routine}

/-- The invariant of a run on one device with at most 100 live tasks. -/
structure Healthy (d : DevId) (config : DevId → GpuConfig) (rs : List Routine) (k : Kernel) :
    Prop where
  guarded : Guarded k
  driven : Driven rs (fun g => (config g).queueSize) (fun g => (config g).addr) k
  device : Scripts (OnDevice d) k
  outstanding : Outstanding (fun g => (config g).queueSize) d k
  pollers : k.total (Fut.makes (.poller d)) ≤ 1
  noPanic : ∀ during why, k.pc ≠ .panicked during why

namespace Healthy

lemma wellFormed (h : Healthy d config rs k) : WellFormed k := h.guarded.wellFormed

lemma holder (h : Healthy d config rs k) : OneHolder k := h.guarded.holder

/-- Every push, every request and every id of a step is within bounds. -/
lemma noPanic_step (h : Healthy d config rs k) (hone : OneGpu d config rs) (hstep : Steps k l k')
    (hpushed : ¬Overflowed k') (henough : ∀ during, k'.pc ≠ .panicked during .noMoreDesc)
    (during : Option TaskId) (why : Panic) : k'.pc ≠ .panicked during why := by
  intro hpc
  cases hstep with
  | control move =>
    cases move with
    | noMoreDesc => exact henough _ rfl
    | @outOfBounds t g head tail len poll past =>
      have hmem : head ∈ (k.fut t).ids g := Fut.InFlight.head_mem (.inl poll.await)
      obtain rfl := h.device.device_eq (h.device.gpu_of_ids hmem)
      have hlt := h.driven.owned.lt_of_ids (h.wellFormed.running_lt poll.pc) hmem
      have := hone.slots
      omega
    | _ => simp at hpc
  | spawnPanic pc pop full =>
    obtain ⟨hmem, -⟩ | ⟨-, rfl⟩ := full
    · exact h.wellFormed.spawn_fresh _ (by rw [pop]; exact .head _) hmem
    · exact hpushed ⟨_, .inl rfl⟩
  | wakeYielderPanic | checkallPanic => exact hpushed ⟨_, .inr rfl⟩
  | checkallPast run unlocked next past =>
    obtain rfl := h.device.device_eq ((h.device _).1.takes_gpu run.takes rfl)
    have hlt := (h.outstanding.ids.nextUsed next).1
    have := hone.slots
    omega
  | popTask | yieldFirst | register | finish => simp [finish] at hpc
  | _ => exact h.noPanic during why hpc

lemma boot (hone : OneGpu d config rs) : Healthy d config rs (Kernel.boot config rs) where
  guarded := .boot hone.drives hone.count_le
  driven := .boot hone.drives
  device := .boot (.inl rfl) fun r hr => by
    obtain rfl | rfl := hone.tasks r hr <;> simp [OnDevice, Routine.gpu]
  outstanding := .boot d
  pollers := by
    refine (total_boot_le (r := .drive d) fun s hs c => ?_).trans hone.once
    obtain rfl | rfl := hone.tasks s hs
    · simp [Fut.makes, Fut.left, Fut.new, Routine.body]
    · simp [Fut.makes, Fut.left, Fut.new, Routine.body, driveBody, List.count_append,
        List.count_replicate]
  noPanic := by simp

lemma step (h : Healthy d config rs k) (hone : OneGpu d config rs) (hstep : Steps k l k')
    (hlive : k'.numLive ≤ 100) : Healthy d config rs k' := by
  have hguarded := h.guarded.step hstep hlive
  have hdriven := h.driven.step hone.count_le hone.fourteen_le hstep
  exact {
    guarded := hguarded
    driven := hdriven
    device := h.device.step OnDevice.spawns hstep
    outstanding := h.outstanding.step hone.slots h.wellFormed h.driven.owned h.device hstep
    pollers := (total_step (Fut.makes_credit (r := .poller d) trivial) h.wellFormed h.device
      hstep).trans h.pollers
    noPanic := h.noPanic_step hone hstep hguarded.pushed hdriven.enough }

/-- Every state of a run on one device. -/
lemma of_reach (hone : OneGpu d config rs)
    (h : Transition.Reach Kernel.step (fun _ _ k' => k'.numLive ≤ 100) (Kernel.boot config rs) k) :
    Healthy d config rs k :=
  h.invariant (boot hone) fun _ _ _ _ hk hstep hlive =>
    hk.step hone (steps_of_step hstep) hlive

end Healthy
end Kernel
end Fomos
