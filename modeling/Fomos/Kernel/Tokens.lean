import Mathlib
import Fomos.Kernel.WellFormed
import Fomos.Library.UpdateSum

/-!
# Wake tokens

A wake token of a task is an occurrence of its id in `spawn_queue`, `task_queue` or `YIELDERS`, or
a waker for it in a slot of `WAKERS`. Whatever is spawned and however descriptor ids meet in
`WAKERS`, no task ever has two tokens, and a task that is being polled has none.
-/
namespace Fomos
namespace Kernel
open UpdateSum
variable {k k' : Kernel} {l : Label} {t u : TaskId}

/-- One for a waker of the task. -/
def IdWaker.tokens (t : TaskId) : IdWaker → ℕ
  | .waker u => if u = t then 1 else 0
  | _ => 0

/-- The slots that hold a waker of the task. -/
def slotTokens (wakers : ℕ → IdWaker) (t : TaskId) : ℕ :=
  ∑ h ∈ Finset.range numWakers, IdWaker.tokens t (wakers h)

def tokens (k : Kernel) (t : TaskId) : ℕ :=
  k.spawnQueue.items.count t + k.taskQueue.items.count t + k.yielders.items.count t +
    slotTokens k.wakers t

@[simp] theorem IdWaker.tokens_waker : IdWaker.tokens t (.waker u) = if u = t then 1 else 0 := rfl
@[simp] theorem IdWaker.tokens_done : IdWaker.tokens t .done = 0 := rfl
@[simp] theorem IdWaker.tokens_none : IdWaker.tokens t .none = 0 := rfl

theorem IdWaker.tokens_eq_zero {w : IdWaker} (hw : ∀ u, w ≠ .waker u) :
    IdWaker.tokens t w = 0 := by
  cases w with
  | waker u => exact absurd rfl (hw u)
  | _ => rfl

theorem slotTokens_update (wakers : ℕ → IdWaker) {h : ℕ} (hh : h < numWakers) (w : IdWaker) :
    slotTokens (Function.update wakers h w) t + IdWaker.tokens t (wakers h) =
      slotTokens wakers t + IdWaker.tokens t w :=
  sum_update_add wakers w (IdWaker.tokens t) (Finset.mem_range.mpr hh)

/-- No task has two tokens, the running task has none, and neither has a task that is not live. -/
structure OneHolder (k : Kernel) : Prop where
  le_one : ∀ t, k.tokens t ≤ 1
  current : ∀ t, k.pc.current = some t → k.tokens t = 0
  dead : ∀ t, ¬k.Live t → k.tokens t = 0

namespace OneHolder

/-- A step that gives no task a token. -/
theorem mono (h : OneHolder k) (hle : ∀ t, k'.tokens t ≤ k.tokens t)
    (hcurrent : ∀ t, k'.pc.current = some t → k.pc.current = some t ∨ k'.tokens t = 0)
    (hlive : ∀ t, k.Live t → k'.Live t ∨ k'.tokens t = 0) : OneHolder k' where
  le_one t := (hle t).trans (h.le_one t)
  current t ht := by
    obtain ht | ht := hcurrent t ht
    · exact Nat.le_zero.mp ((hle t).trans (h.current t ht).le)
    · exact ht
  dead t ht := by
    by_cases hk : k.Live t
    · exact (hlive t hk).resolve_left ht
    · exact Nat.le_zero.mp ((hle t).trans (h.dead t hk).le)

/-- A step that gives at most one token, to a live task that is not running and has none. -/
theorem gain (h : OneHolder k) (ht : k.tokens t = 0) (hgain : k'.tokens t ≤ 1)
    (hle : ∀ u, u ≠ t → k'.tokens u ≤ k.tokens u)
    (hcurrent : ∀ u, k'.pc.current = some u → u ≠ t ∧ k.pc.current = some u)
    (hlive : ∀ u, u = t ∨ k.Live u → k'.Live u ∨ k'.tokens u = 0) : OneHolder k' where
  le_one u := by
    obtain rfl | hne := eq_or_ne u t
    · exact hgain
    · exact (hle u hne).trans (h.le_one u)
  current u hu := by
    obtain ⟨hne, hcur⟩ := hcurrent u hu
    exact Nat.le_zero.mp ((hle u hne).trans (h.current u hcur).le)
  dead u hu := by
    by_cases hk : u = t ∨ k.Live u
    · exact (hlive u hk).resolve_left hu
    · rw [not_or] at hk
      exact Nat.le_zero.mp ((hle u hk.1).trans (h.dead u hk.2).le)

/-- A poll of the running task that ends with at most one token for it. -/
theorem park (h : OneHolder k) (hcurrent : k.pc.current = some t) (hlive : k.Live t)
    (hle : ∀ u, k'.tokens u ≤ k.tokens u + if t = u then 1 else 0)
    (hidle : k'.pc.current = none) (hkept : ∀ u, k.Live u → k'.Live u) : OneHolder k' := by
  have hnone := h.current t hcurrent
  refine h.gain hnone ?_ (fun u hu => ?_) (by simp [hidle]) ?_
  · have hself : k'.tokens t ≤ k.tokens t + 1 := (hle t).trans_eq (by rw [if_pos rfl])
    exact hself.trans_eq (by rw [hnone])
  · exact (hle u).trans_eq (by rw [if_neg hu.symm, Nat.add_zero])
  · rintro u (rfl | hu)
    · exact .inl (hkept u hlive)
    · exact .inl (hkept u hu)

/-- A step that touches none of the containers. -/
theorem frame (h : OneHolder k) (htokens : k'.tokens = k.tokens)
    (hcurrent : k'.pc.current = k.pc.current) (hlive : ∀ t, k.Live t → k'.Live t) :
    OneHolder k' :=
  h.mono (fun t => (congrFun htokens t).le) (fun _ ht => .inl (hcurrent ▸ ht))
    (fun t ht => .inl (hlive t ht))

theorem spawnOp {fut : TaskId → Fut} (h : OneHolder k) (hw : WellFormed k) : OneHolder { k with
      fut := fut
      nextId := k.nextId + 1
      spawnQueue := k.spawnQueue.tryPush k.nextId } := by
  have hnone := h.dead _ hw.next_notLive
  have hrunning : ∀ u, k.pc.current = some u → u ≠ k.nextId := by
    rintro u hu rfl
    exact hw.next_notLive (.inl (hw.current _ hu))
  obtain ⟨-, hitems⟩ | ⟨-, hitems⟩ := k.spawnQueue.tryPush_cases k.nextId
  · refine h.gain hnone ?_ ?_ (fun u hu => ⟨hrunning u hu, hu⟩) ?_
    · simp only [tokens, hitems, List.count_append, List.count_singleton_self] at hnone ⊢
      omega
    · intro u hu
      simp [tokens, hitems, hu.symm]
    · rintro u (rfl | hu)
      · simp [Live, hitems]
      · exact .inl (by simpa [Live, hitems] using hu.elim .inl fun hu => .inr (.inl hu))
  · refine h.frame ?_ rfl fun t ht => ?_
    · funext t
      simp [tokens, hitems]
    · simpa [Live, hitems] using ht

theorem new (config : DevId → GpuConfig) : OneHolder (Kernel.new config) := by
  have hnone : ∀ t, (Kernel.new config).tokens t = 0 := by
    simp [tokens, Kernel.new, slotTokens, IdWaker.tokens]
  exact ⟨fun t => (hnone t).le.trans (Nat.zero_le _), fun t _ => hnone t, fun t _ => hnone t⟩

theorem boot (config : DevId → GpuConfig) (rs : List Routine) :
    OneHolder (Kernel.boot config rs) :=
  (boot_induction (P := fun k => OneHolder k ∧ WellFormed k) ⟨new config, .new config⟩
    fun _ _ _ h => ⟨h.1.spawnOp h.2, h.2.spawnOp rfl h.2.await⟩).1

theorem step (h : OneHolder k) (hw : WellFormed k) (hstep : Steps k l k') : OneHolder k' := by
  cases hstep with
  | control move => exact h.frame rfl move.current fun _ ht => ht
  | spawnTask pc pop fresh push =>
    refine h.frame ?_ rfl fun u hu => (live_moved pop).mpr hu
    funext u
    simp only [tokens, pop, push, List.count_cons, List.count_append, List.count_nil]
    omega
  | spawnPanic pc pop =>
    refine h.mono (fun u => ?_) (by simp [Pc.current]) fun u hu => .inl ((live_moved pop).mpr hu)
    simp only [tokens, pop, List.count_cons]
    omega
  | @popTask t tq pc pop live =>
    refine h.mono (fun u => ?_) (fun u hu => .inr ?_) fun u hu => .inl hu
    · simp only [tokens, pop, List.count_cons]
      omega
    · obtain rfl : t = u := by simpa [Pc.current] using hu
      have := h.le_one t
      simp only [tokens, pop, List.count_cons_self] at this ⊢
      omega
  | popGone pc pop =>
    refine h.mono (fun u => ?_) (fun u hu => .inl hu) fun u hu => .inl hu
    simp only [tokens, pop, List.count_cons]
    omega
  | wakeYielder pc pop push =>
    refine h.frame ?_ rfl fun u hu => hu
    funext u
    simp only [tokens, pop, push, List.count_cons, List.count_append, List.count_nil]
    omega
  | wakeYielderPanic pc pop =>
    refine h.mono (fun u => ?_) (by simp [Pc.current]) fun u hu => .inl hu
    simp only [tokens, pop, List.count_cons]
    omega
  | spawnOp run => exact h.spawnOp hw
  | yieldOp | startUp | dropGuard | readConfig | request | checkallNone | yieldAgain | release
  | devRead | devPush => exact h.frame rfl rfl fun _ ht => ht
  | checkallPast run => exact h.frame rfl (by simp [run.pc, Pc.current]) fun _ ht => ht
  | checkallNothing run unlocked next bound nothing =>
    refine h.frame ?_ rfl fun _ ht => ht
    funext u
    have hslots := slotTokens_update (t := u) k.wakers bound .done
    rw [IdWaker.tokens_eq_zero nothing, IdWaker.tokens_done] at hslots
    simp only [tokens, consumed]
    omega
  | checkallWake run unlocked next bound waker push =>
    refine h.frame ?_ rfl fun _ ht => ht
    funext u
    have hslots := slotTokens_update (t := u) k.wakers bound .done
    rw [waker, IdWaker.tokens_waker, IdWaker.tokens_done] at hslots
    simp only [tokens, consumed, push, List.count_append, List.count_singleton, beq_iff_eq]
    omega
  | checkallPanic run unlocked next bound waker =>
    refine h.mono (fun u => ?_) (by simp [run.pc, Pc.current]) fun u hu => .inl hu
    have hslots := slotTokens_update (t := u) k.wakers bound .done
    rw [IdWaker.tokens_done] at hslots
    simp only [tokens, consumed]
    omega
  | @yieldFirst t run =>
    refine h.park run.current (.inl (hw.running run.pc)) (fun u => ?_) rfl fun _ hu => hu
    have hcount : (k.yielders.tryPush t).items.count u ≤
        k.yielders.items.count u + if t = u then 1 else 0 := by
      obtain ⟨-, hitems⟩ | ⟨-, hitems⟩ := k.yielders.tryPush_cases t <;> rw [hitems]
      · simp [List.count_singleton]
      · exact Nat.le_add_right _ _
    simp only [tokens]
    omega
  | @register t g head tail len run bound =>
    refine h.park run.current (.inl (hw.running run.pc)) (fun u => ?_) rfl fun _ hu => hu
    have hslots := slotTokens_update (t := u) k.wakers bound (.waker t)
    rw [IdWaker.tokens_waker] at hslots
    simp only [tokens]
    omega
  | ready run bound done =>
    refine h.frame ?_ rfl fun _ ht => ht
    funext u
    have hslots := slotTokens_update (t := u) k.wakers bound .none
    rw [done, IdWaker.tokens_done, IdWaker.tokens_none] at hslots
    simp only [tokens]
    omega
  | @finish t gpu pc await =>
    refine h.mono (fun u => le_rfl) (by simp [Kernel.finish, Pc.current]) fun u hu => ?_
    obtain rfl | hne := eq_or_ne u t
    · exact .inr (h.current u (by rw [pc]; rfl))
    · exact .inl (hu.imp_left fun hu => Finset.mem_erase.mpr ⟨hne, hu⟩)

end OneHolder
end Kernel
end Fomos
