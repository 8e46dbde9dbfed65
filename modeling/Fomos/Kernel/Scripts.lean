import Mathlib
import Fomos.Kernel.WellFormed

/-!
# What the tasks may do

The scripts of a device's tasks touch no other device and spawn only each other, and a client
hands no handle on that it does not have. So a set of routines that is closed under spawning is
never left, and an operation that no loop repeats is done at most as often as it was written.
-/
namespace Fomos

/-- The routines that a task may spawn. -/
def Routine.spawns : Routine → Routine → Prop
  | .drive g, r => r = .poller g ∨ r = .transfer g
  | .client gpu, r => r = .client none ∨ r = .client gpu
  | _, _ => False

/-- The device that an operation is about. -/
def Op.gpu : Op → Option DevId
  | .startUp g | .dropGuard g | .readConfig g | .request g _ | .checkall g => some g
  | _ => none

/-- The device that a task may make requests to. -/
def Routine.requester : Routine → Option DevId
  | .drive g | .transfer g => some g
  | .client gpu => gpu
  | .poller _ => none

theorem Routine.gpu_of_requester {r : Routine} {g : DevId} (h : r.requester = some g) :
    r.gpu = some g := by
  cases r <;> simp_all [requester, gpu]

/-- A future is within its script, and its request is to its own device. -/
structure Fut.Scripted (f : Fut) : Prop where
  todo : (∃ numCapsets, f.todo <:+ f.routine.body numCapsets) ∨ f.todo <:+ f.routine.loop
  own : ∀ g, f.ids g ≠ [] → f.routine.requester = some g

namespace Fut
variable {f : Fut} {o : Op} {rest : List Op} {r : Routine} {g : DevId}

/-- A future does the next operation of its script, starts its loop again, or is a client. -/
theorem takes_cases (h : f.takes o = some rest) :
    (∃ gpu, f.routine = .client gpu ∧ o.allowed gpu ∧ rest = []) ∨ f.todo = o :: rest ∨
      (f.todo = [] ∧ f.routine.loop = o :: rest) := by
  unfold takes at h
  split at h
  · split at h
    · cases h
      exact .inl ⟨_, ‹_›, ‹_›, rfl⟩
    · cases h
  · split at h
    · cases h
    · rename_i next rest' heq
      split at h
      · rename_i ho
        subst ho
        cases h
        split at heq
        · exact .inr (.inr ⟨‹_›, heq⟩)
        · exact .inr (.inl heq)
      · cases h

/-- The operations of a script. -/
theorem Scripted.mem (h : f.Scripted) (htakes : f.takes o = some rest) :
    (∃ gpu, f.routine = .client gpu ∧ o.allowed gpu) ∨
      (∃ numCapsets, o ∈ f.routine.body numCapsets) ∨ o ∈ f.routine.loop := by
  obtain ⟨gpu, hr, ho, -⟩ | htodo | ⟨-, hloop⟩ := takes_cases htakes
  · exact .inl ⟨gpu, hr, ho⟩
  · have ho : o ∈ f.todo := by rw [htodo]; exact .head _
    exact .inr (h.todo.imp (fun ⟨c, hc⟩ => ⟨c, hc.subset ho⟩) fun hl => hl.subset ho)
  · exact .inr (.inr (by rw [hloop]; exact .head _))

theorem mem_driveBody {numCapsets : ℕ} (h : o ∈ driveBody g numCapsets) :
    o = .spawn (.poller g) ∨ o = .spawn (.transfer g) ∨ o = .yieldOnce ∨ o = .startUp g ∨
      o = .dropGuard g ∨ o = .readConfig g ∨ ∃ len, o = .request g len := by
  simp only [driveBody, List.mem_append, List.mem_cons, List.not_mem_nil, or_false,
    List.mem_replicate] at h
  obtain (h | h) | h := h
  · obtain h | h | h | h | h | h := h <;> simp [h]
  · simp [h.2]
  · obtain h | h | h | h | h | h | h | h | h | h | h | h | h := h <;> simp [h]

theorem Scripted.takes_gpu (h : f.Scripted) (htakes : f.takes o = some rest) (hg : o.gpu = some g) :
    f.routine.gpu = some g := by
  obtain ⟨gpu, hr, ho⟩ | ⟨c, ho⟩ | ho := h.mem htakes
  · rw [hr]
    cases o <;> simp_all [Op.gpu, Op.allowed, Routine.gpu]
  · cases hr : f.routine with
    | drive g' =>
      rw [hr] at ho
      obtain rfl | rfl | rfl | rfl | rfl | rfl | ⟨len, rfl⟩ := mem_driveBody ho <;>
        simp_all [Op.gpu, Routine.gpu]
    | _ => simp [hr, Routine.body] at ho
  · cases hr : f.routine <;> simp_all [Routine.loop, Routine.gpu, Op.gpu]
    obtain rfl | rfl := ho <;> simp_all

theorem Scripted.takes_request {len : ℕ} (h : f.Scripted)
    (htakes : f.takes (.request g len) = some rest) : f.routine.requester = some g := by
  have hgpu := h.takes_gpu htakes rfl
  obtain ⟨gpu, hr, ho⟩ | ⟨c, ho⟩ | ho := h.mem htakes <;>
    cases hr' : f.routine <;>
      simp_all [Routine.gpu, Routine.requester, Routine.body, Routine.loop]

/-- Only `drive` starts a device up. -/
theorem Scripted.takes_startUp (h : f.Scripted) (htakes : f.takes (.startUp g) = some rest) :
    f.routine = .drive g := by
  have hgpu := h.takes_gpu htakes rfl
  obtain ⟨gpu, hr, ho⟩ | ⟨c, ho⟩ | ho := h.mem htakes <;>
    cases hr' : f.routine <;>
      simp_all [Routine.gpu, Routine.body, Routine.loop, Op.allowed]

/-- Only `drive` holds a guard over an await. -/
theorem Scripted.takes_dropGuard (h : f.Scripted) (htakes : f.takes (.dropGuard g) = some rest) :
    f.routine = .drive g := by
  have hgpu := h.takes_gpu htakes rfl
  obtain ⟨gpu, hr, ho⟩ | ⟨c, ho⟩ | ho := h.mem htakes <;>
    cases hr' : f.routine <;>
      simp_all [Routine.gpu, Routine.body, Routine.loop, Op.allowed]

/-- Only the poller looks for used elements. -/
theorem Scripted.takes_checkall (h : f.Scripted) (htakes : f.takes (.checkall g) = some rest) :
    f.routine = .poller g := by
  have hgpu := h.takes_gpu htakes rfl
  obtain ⟨gpu, hr, ho⟩ | ⟨c, ho⟩ | ho := h.mem htakes
  · simp [Op.allowed] at ho
  · cases hr : f.routine with
    | drive g' =>
      rw [hr] at ho
      simpa using mem_driveBody ho
    | _ => simp [hr, Routine.body] at ho
  · cases hr : f.routine <;> simp_all [Routine.gpu, Routine.loop]

theorem Scripted.takes_spawn (h : f.Scripted) (htakes : f.takes (.spawn r) = some rest) :
    f.routine.spawns r := by
  obtain ⟨gpu, hr, ho⟩ | ⟨c, ho⟩ | ho := h.mem htakes
  · rw [hr]
    cases r <;> simp_all [Op.allowed, Routine.spawns]
  · cases hr : f.routine with
    | drive g' =>
      rw [hr] at ho
      simpa [Routine.spawns] using mem_driveBody ho
    | _ => simp [hr, Routine.body] at ho
  · cases hr : f.routine <;> simp [Routine.loop, hr] at ho

theorem Scripted.takes_rest (h : f.Scripted) (htakes : f.takes o = some rest) :
    (∃ numCapsets, rest <:+ f.routine.body numCapsets) ∨ rest <:+ f.routine.loop := by
  obtain ⟨gpu, hr, ho, rfl⟩ | htodo | ⟨-, hloop⟩ := takes_cases htakes
  · exact .inr (List.nil_suffix)
  · have hrest : rest <:+ f.todo := by rw [htodo]; exact List.suffix_cons _ _
    exact h.todo.imp (fun ⟨c, hc⟩ => ⟨c, hrest.trans hc⟩) hrest.trans
  · exact .inr (by rw [hloop]; exact List.suffix_cons _ _)

theorem Scripted.new (numCapsets : DevId → ℕ) (r : Routine) : (Fut.new numCapsets r).Scripted :=
  ⟨.inl ⟨numCapsets, List.suffix_refl _⟩, fun _ h => absurd rfl h⟩

/-- A future that goes on with its script stays within it, whatever it awaits of its device. -/
theorem Scripted.goOn {await : Option Await} (h : f.Scripted) (htakes : f.takes o = some rest)
    (hawait : ∀ g, Fut.ids g { f with todo := rest, await := await } ≠ [] →
      f.routine.requester = some g) : Fut.Scripted { f with todo := rest, await := await } :=
  ⟨h.takes_rest htakes, hawait⟩

theorem Scripted.goOn_own (h : f.Scripted) (htakes : f.takes o = some rest) :
    Fut.Scripted { f with todo := rest } :=
  h.goOn htakes h.own

theorem Scripted.awaits {await : Option Await} (h : f.Scripted)
    (hawait : ∀ g, Fut.ids g { f with await := await } ≠ [] → f.ids g ≠ []) :
    Fut.Scripted { f with await := await } :=
  ⟨h.todo, fun g hg => h.own g (hawait g hg)⟩

end Fut

namespace Kernel
variable {k k' : Kernel} {l : Label} {t : TaskId} {P : Routine → Prop}

/-- Every future is within its script, and its routine is one of `P`. -/
def Scripts (P : Routine → Prop) (k : Kernel) : Prop :=
  ∀ t, (k.fut t).Scripted ∧ P (k.fut t).routine

namespace Scripts

theorem mono {Q : Routine → Prop} (h : Scripts P k) (hPQ : ∀ r, P r → Q r) : Scripts Q k :=
  fun t => ⟨(h t).1, hPQ _ (h t).2⟩

theorem update {f : Fut} (h : Scripts P k) (hf : f.Scripted)
    (hr : f.routine = (k.fut t).routine) (u : TaskId) :
    (Function.update k.fut t f u).Scripted ∧ P (Function.update k.fut t f u).routine := by
  obtain rfl | hne := eq_or_ne u t
  · rw [Function.update_self]
    exact ⟨hf, hr ▸ (h u).2⟩
  · rw [Function.update_of_ne hne]
    exact h u

theorem spawned {fut : TaskId → Fut} {t : TaskId} {numCapsets : DevId → ℕ} {r : Routine}
    (h : ∀ u, (fut u).Scripted ∧ P (fut u).routine) (hr : P r) (u : TaskId) :
    (Function.update fut t (Fut.new numCapsets r) u).Scripted ∧
      P (Function.update fut t (Fut.new numCapsets r) u).routine := by
  obtain rfl | hne := eq_or_ne u t
  · rw [Function.update_self]
    exact ⟨.new numCapsets r, hr⟩
  · rw [Function.update_of_ne hne]
    exact h u

theorem boot {config : DevId → GpuConfig} {rs : List Routine} (hclient : P (.client none))
    (hrs : ∀ r ∈ rs, P r) : Scripts P (Kernel.boot config rs) := by
  refine boot_induction (fun t => ⟨⟨.inr List.nil_suffix, fun g hg => absurd rfl hg⟩, hclient⟩) ?_
  exact fun k r hr hk => spawned hk (hrs r hr)

theorem step (h : Scripts P k) (hclosed : ∀ r r', P r → r.spawns r' → P r')
    (hstep : Steps k l k') : Scripts P k' := by
  cases hstep with
  | control | spawnTask | spawnPanic | popTask | popGone | wakeYielder | wakeYielderPanic
  | checkallPast | checkallNothing | checkallWake | checkallPanic | register | finish | devRead
  | devPush => exact h
  | spawnOp run =>
    exact spawned (h.update ((h _).1.goOn_own run.takes) rfl)
      (hclosed _ _ (h _).2 ((h _).1.takes_spawn run.takes))
  | yieldOp run => exact h.update ((h _).1.goOn run.takes fun g hg => absurd rfl hg) rfl
  | startUp run | dropGuard run | readConfig run | checkallNone run =>
    exact h.update ((h _).1.goOn_own run.takes) rfl
  | request run =>
    refine h.update ((h _).1.goOn run.takes fun g' hg' => ?_) rfl
    rw [Fut.ids_of_idWait rfl, ne_eq, ite_eq_right_iff, Classical.not_imp] at hg'
    exact hg'.1 ▸ (h _).1.takes_request run.takes
  | yieldFirst | yieldAgain | release =>
    exact h.update ((h _).1.awaits fun g hg => absurd rfl hg) rfl
  | ready poll =>
    refine h.update ((h _).1.awaits fun g hg => ?_) rfl
    rw [Fut.ids_of_setFree rfl] at hg
    rwa [Fut.ids_of_idWait poll.await]

/-- A pair in flight is a request to the device of its task. -/
theorem gpu_of_ids {g : DevId} {i : ℕ} (h : Scripts P k) (hi : i ∈ (k.fut t).ids g) :
    (k.fut t).routine.gpu = some g :=
  Routine.gpu_of_requester ((h t).1.own g (List.ne_nil_of_mem hi))

end Scripts
end Kernel
end Fomos
