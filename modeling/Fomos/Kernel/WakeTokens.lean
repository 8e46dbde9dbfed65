import Mathlib
import Fomos.Kernel.Registered
import Fomos.Kernel.Tokens

/-!
# One wake token for each live task

While at most 100 tasks are live every queue has room, because the tasks in it are live and
different. So every live task that is not running has exactly one token.
-/
namespace Fomos
namespace Kernel
variable {k k' : Kernel} {l : Label} {t u : TaskId} {g : DevId}

section Room
variable {q : List TaskId}

/-- A queue of tokens that misses a live task is shorter than the number of live tasks. -/
theorem length_lt_numLive (hw : WellFormed k) (h : OneHolder k)
    (hq : ∀ u, q.count u ≤ k.tokens u) (ht : k.Live t) (hmiss : t ∉ q) :
    q.length < k.numLive := by
  have hnodup : q.Nodup := List.nodup_iff_count_le_one.mpr fun u => (hq u).trans (h.le_one u)
  have hsub : q.toFinset ⊆ (k.tasks ∪ k.spawnQueue.items.toFinset).erase t := by
    intro u hu
    rw [List.mem_toFinset] at hu
    refine Finset.mem_erase.mpr ⟨fun e => hmiss (e ▸ hu), ?_⟩
    rw [Finset.mem_union, List.mem_toFinset]
    by_contra hdead
    have := h.dead u hdead
    have := hq u
    have := List.count_pos_iff.mpr hu
    omega
  have hmem : t ∈ k.tasks ∪ k.spawnQueue.items.toFinset := by
    rwa [Finset.mem_union, List.mem_toFinset]
  have hdisjoint : Disjoint k.tasks k.spawnQueue.items.toFinset :=
    Finset.disjoint_right.mpr fun u hu => hw.spawn_fresh u (List.mem_toFinset.mp hu)
  calc q.length = q.toFinset.card := (List.toFinset_card_of_nodup hnodup).symm
    _ ≤ _ := Finset.card_le_card hsub
    _ < (k.tasks ∪ k.spawnQueue.items.toFinset).card := Finset.card_erase_lt_of_mem hmem
    _ = k.numLive := by
      rw [Finset.card_union_of_disjoint hdisjoint, List.toFinset_card_of_nodup hw.spawn_nodup]
      rfl

theorem taskQueue_lt (hw : WellFormed k) (h : OneHolder k) (ht : k.Live t)
    (htoken : k.taskQueue.items.count t < k.tokens t) :
    k.taskQueue.items.length < k.numLive := by
  refine length_lt_numLive hw h (fun u => by unfold tokens; omega) ht fun hmem => ?_
  have := List.count_pos_iff.mpr hmem
  have := h.le_one t
  omega

/-- While a task runs, the two queues with unchecked pushes have room. -/
theorem room_of_current (hw : WellFormed k) (h : OneHolder k) (hlive : k.numLive ≤ 100)
    (ht : k.pc.current = some t) :
    k.spawnQueue.items.length < 100 ∧ k.yielders.items.length < 100 := by
  have hnone := h.current t ht
  unfold tokens at hnone
  refine ⟨?_, ?_⟩
  · refine (length_lt_numLive hw h (fun u => ?_) (.inl (hw.current t ht)) ?_).trans_le hlive
    · unfold tokens
      omega
    · exact List.count_eq_zero.mp (by omega)
  · refine (length_lt_numLive hw h (fun u => ?_) (.inl (hw.current t ht)) ?_).trans_le hlive
    · unfold tokens
      omega
    · exact List.count_eq_zero.mp (by omega)

end Room

/-- Where the task whose push overflowed had its token. -/
theorem overflow_cases (hstep : Steps k l k') (ho : Overflowed k') (hw : WellFormed k)
    (h : OneHolder k) : Overflowed k ∨ 100 < k.numLive := by
  obtain ⟨during, hpc⟩ := ho
  cases hstep with
  | control move => cases move <;> simp at hpc
  | @spawnPanic task sq why pc pop full =>
    have hmem : task ∈ k.spawnQueue.items := by rw [pop]; exact .head _
    obtain ⟨hmem', -⟩ | ⟨hfull, -⟩ := full
    · exact absurd hmem' (hw.spawn_fresh _ hmem)
    · have := List.count_pos_iff.mpr hmem
      exact .inr (hfull ▸ taskQueue_lt hw h (.inr hmem) (by unfold tokens; omega))
  | @wakeYielderPanic t yq pc pop full =>
    have hmem : t ∈ k.yielders.items := by rw [pop]; exact .head _
    have htoken : k.taskQueue.items.count t < k.tokens t := by
      have := List.count_pos_iff.mpr hmem
      unfold tokens
      omega
    have hlive : k.Live t := by
      by_contra hdead
      have := h.dead t hdead
      omega
    exact .inr (full ▸ taskQueue_lt hw h hlive htoken)
  | @checkallPanic t g rest used v u run unlocked next bound waker full =>
    have htoken : k.taskQueue.items.count u < k.tokens u := by
      have hslot : IdWaker.tokens u (k.wakers used.id) ≤ slotTokens k.wakers u :=
        UpdateSum.le_sum k.wakers (IdWaker.tokens u) (Finset.mem_range.mpr bound)
      rw [waker, IdWaker.tokens_waker, if_pos rfl] at hslot
      unfold tokens
      omega
    have hlive : k.Live u := by
      by_contra hdead
      have := h.dead u hdead
      omega
    exact .inr (full ▸ taskQueue_lt hw h hlive htoken)
  | popTask | yieldFirst | register | finish | checkallPast => simp [finish] at hpc
  | _ => exact .inl ⟨during, hpc⟩

/-- A poll of another task begins by taking that task from `task_queue`. -/
theorem polling_cases (hstep : Steps k l k') (hpc : k'.pc = .polling t) :
    k.pc = .polling t ∨ t ∈ k.taskQueue.items := by
  cases hstep with
  | control move => cases move <;> simp at hpc
  | popTask pc pop =>
    cases hpc
    exact .inr (by rw [pop]; exact .head _)
  | spawnPanic | wakeYielderPanic | checkallPast | checkallPanic | yieldFirst | register
  | finish => simp [finish] at hpc
  | _ => exact .inl hpc

/-- A task enters `task_queue` when it is spawned, or by the wake-up of a yielder or of a slot. -/
theorem taskQueue_cases (hstep : Steps k l k') (ht : t ∈ k'.taskQueue.items) :
    t ∈ k.taskQueue.items ∨ t ∈ k.spawnQueue.items ∨ t ∈ k.yielders.items ∨
      ∃ h < numWakers, k.wakers h = .waker t := by
  cases hstep with
  | spawnTask pc pop fresh push =>
    rw [push, List.mem_append, List.mem_singleton] at ht
    obtain ht | rfl := ht
    · exact .inl ht
    · exact .inr (.inl (by rw [pop]; exact .head _))
  | popTask pc pop | popGone pc pop => exact .inl (by rw [pop]; exact .tail _ ht)
  | wakeYielder pc pop push =>
    rw [push, List.mem_append, List.mem_singleton] at ht
    obtain ht | rfl := ht
    · exact .inl ht
    · exact .inr (.inr (.inl (by rw [pop]; exact .head _)))
  | checkallWake _ _ _ bound waker push =>
    rw [push, List.mem_append, List.mem_singleton] at ht
    obtain ht | rfl := ht
    · exact .inl ht
    · exact .inr (.inr (.inr ⟨_, bound, waker⟩))
  | _ => exact .inl ht

/-- Each live task has one token, or none while it is polled, and no push fails. -/
structure OneToken (k : Kernel) : Prop where
  suspended : ∀ t, k.Live t → k.pc.current ≠ some t → k.tokens t = 1
  polled : ∀ t, k.pc.current = some t → k.tokens t = 0
  cache : k.wakerCache ⊆ k.tasks
  pushed : ¬Overflowed k
  room : ∀ t, k.pc.current = some t →
    k.spawnQueue.items.length < 100 ∧ k.yielders.items.length < 100
  polls : ∀ l k' t, step l k = some k' → k'.pc = .polling t →
    k.pc = .polling t ∨ t ∈ k.taskQueue.items
  wakes : ∀ l k' t, step l k = some k' → t ∈ k'.taskQueue.items →
    t ∈ k.taskQueue.items ∨ t ∈ k.spawnQueue.items ∨ t ∈ k.yielders.items ∨
      ∃ h < numWakers, k.wakers h = .waker t

/-- The invariant of a run on the one device `d` with at most 100 live tasks. -/
structure Tracked (n : DevId → ℕ) (d : DevId) (m : TaskId) (k : Kernel) : Prop where
  wellFormed : WellFormed k
  holder : OneHolder k
  owned : Owned n k
  scripts : Scripts (OnDevice d) k
  scheduled : Scheduled m k
  registered : Registered k
  pushed : ¬Overflowed k
  numLive : k.numLive ≤ 100

namespace Tracked
variable {n : DevId → ℕ} {d : DevId} {m : TaskId}

theorem boot {config : DevId → GpuConfig} {rs : List Routine} (hrs : ∀ r ∈ rs, OnDevice d r) :
    Tracked (fun g => (config g).queueSize) d (Kernel.boot config rs).nextId
      (Kernel.boot config rs) where
  wellFormed := .boot config rs
  holder := .boot config rs
  owned := .boot config rs
  scripts := .boot (.inl rfl) hrs
  scheduled := .boot_later config rs
  registered := .boot config rs
  pushed := by simp [Overflowed]
  numLive := by simpa [Kernel.numLive] using (Kernel.boot config rs).spawnQueue.bounded

theorem room (h : Tracked n d m k) (ht : k.pc.current = some t) :
    k.spawnQueue.items.length < 100 ∧ k.yielders.items.length < 100 :=
  room_of_current h.wellFormed h.holder h.numLive ht

theorem room_step (h : Tracked n d m k) (hstep : Steps k l k') : k.Room l := by
  cases hstep with
  | spawnOp run => exact (h.room run.current).1
  | yieldFirst | yieldAgain | register | ready | release =>
    exact fun t ht _ => (h.room ht).2
  | control move =>
    cases move with
    | spinPoll | outOfBounds => exact fun t ht _ => (h.room ht).2
    | @spinOp t o rest g run =>
      cases o with
      | spawn => exact (h.room run.current).1
      | _ => trivial
    | _ => trivial
  | _ => trivial

theorem step (h : Tracked n d m k) (hstep : Steps k l k') (hlive : k'.numLive ≤ 100) :
    Tracked n d m k' := by
  have hpushed : ¬Overflowed k' := fun ho =>
    (overflow_cases hstep ho h.wellFormed h.holder).elim h.pushed h.numLive.not_gt
  exact {
    wellFormed := h.wellFormed.step hstep
    holder := h.holder.step h.wellFormed hstep
    owned := h.owned.step h.wellFormed hstep
    scripts := h.scripts.step OnDevice.spawns hstep
    scheduled := (h.scheduled.step h.wellFormed (h.room_step hstep) hstep).resolve_right hpushed
    registered := (h.registered.step h.wellFormed
      (headsDiffer h.wellFormed h.owned h.scripts) hstep).resolve_right
        fun hfull => hpushed hfull.overflowed
    pushed := hpushed
    numLive := hlive }

/-- Every suspended live task has a token. -/
theorem one_le_tokens (h : Tracked n d m k) (ht : k.Live t) (hrun : k.pc.current ≠ some t) :
    1 ≤ k.tokens t := by
  have hpos : ∀ {q : List TaskId}, t ∈ q → 0 < q.count t := List.count_pos_iff.mpr
  obtain ht | ht := ht
  · have hqueued : ¬(k.fut t).AwaitsGpu → 1 ≤ k.tokens t := by
      intro hgpu
      obtain hmem | hmem := h.scheduled.queued t ht hrun hgpu <;>
        have := hpos hmem <;> unfold tokens <;> omega
    by_cases hgpu : (k.fut t).AwaitsGpu
    · obtain ⟨g, head, tail, len, ha⟩ := hgpu
      obtain ⟨hlt, hwaker⟩ | hmem := h.registered t ht hrun _ _ _ _ ha
      · have hslot : IdWaker.tokens t (k.wakers head) ≤ slotTokens k.wakers t :=
          UpdateSum.le_sum k.wakers (IdWaker.tokens t) (Finset.mem_range.mpr hlt)
        rw [hwaker, IdWaker.tokens_waker, if_pos rfl] at hslot
        unfold tokens
        omega
      · have := hpos hmem
        unfold tokens
        omega
    · exact hqueued hgpu
  · have := hpos ht
    unfold tokens
    omega

theorem oneToken (h : Tracked n d m k) : OneToken k where
  suspended t ht hrun := Nat.le_antisymm (h.holder.le_one t) (h.one_le_tokens ht hrun)
  polled := h.holder.current
  cache := h.wellFormed.cache
  pushed := h.pushed
  room _ := h.room
  polls _ _ _ hstep := polling_cases (steps_of_step hstep)
  wakes _ _ _ hstep := taskQueue_cases (steps_of_step hstep)

end Tracked

/-- On one device, while at most 100 tasks are live, every live task has exactly one wake token
when it is not being polled. -/
theorem executor_one_token {config : DevId → GpuConfig} {rs : List Routine} {d : DevId}
    (hrs : ∀ r ∈ rs, OnDevice d r)
    (h : Transition.Reach step (fun _ _ k' => k'.numLive ≤ 100) (boot config rs) k) :
    OneToken k :=
  (h.invariant (Tracked.boot hrs) fun _ _ _ _ hk hstep hlive =>
    hk.step (steps_of_step hstep) hlive).oneToken

theorem executor_one_token_firstRequest : OneToken ((Transition.run step
    (fun _ _ k' => k'.numLive ≤ 100) firstRequest (boot blankConfig [.drive 0])).get
      (by decide)) :=
  executor_one_token (d := 0) (by simp [OnDevice, Routine.gpu]) (Transition.Reach.run_get _ _)

end Kernel
end Fomos
