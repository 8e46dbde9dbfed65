import Mathlib
import Fomos.Kernel.WellFormed
import Fomos.Library.UpdateSum

/-!
# Who owns a descriptor

Every id of a device's queue is in its free list, in the pair of one request in flight, or was
made available at start-up. The owners of an id are counted, so that the law is kept by the
recycling of ids in any order; that a free list hands out two different ids, and that two requests
in flight share none, follows from the count.
-/
namespace Fomos
namespace Kernel
open UpdateSum
variable {k k' : Kernel} {l : Label} {t u : TaskId} {g : DevId} {n : DevId → ℕ}

/-- What the start-up loop did: it took `ids` from the free list, and made them writable and
available one after the other. -/
structure StartedUp (m : ℕ) (v v' : Virtio) (ids : List ℕ) : Prop where
  free : v.queuesFree.free = ids ++ v'.queuesFree.free
  length : ids.length ≤ m
  filled : ids.length = m ∨ v'.queuesFree.free = []
  rings : v'.rings = ids.foldl (fun r d => r.setAvailable d) v.rings
  addr : ∀ i, (v'.descs i).addr = (v.descs i).addr
  descs : ∀ i, i ∉ ids → v'.descs i = v.descs i

theorem startUpDescs_startedUp {m : ℕ} {v v' : Virtio} {ids : List ℕ}
    (h : startUpDescs m v = (v', ids)) : StartedUp m v v' ids := by
  induction m generalizing v ids with
  | zero =>
    cases h
    exact ⟨rfl, le_rfl, .inl rfl, rfl, fun _ => rfl, fun _ _ => rfl⟩
  | succ m ih =>
    unfold startUpDescs at h
    split at h
    · rename_i hnone
      have hempty : v.queuesFree.free = [] :=
        QueueFreeDescs.getFree_eq_none.mp (Option.map_eq_none_iff.mp hnone)
      have hrest := ih h
      have hfree := hrest.free
      rw [hempty, List.nil_eq_append_iff] at hfree
      exact ⟨hrest.free, Nat.le_succ_of_le hrest.length, .inr hfree.2, hrest.rings, hrest.addr,
        hrest.descs⟩
    · rename_i id w hfree
      obtain ⟨q, hq, hw⟩ := Option.map_eq_some_iff.mp hfree
      obtain ⟨rfl, rfl⟩ := Prod.mk.inj hw
      cases h
      have hrest := ih (v := Virtio.setWritableAvailable q.1 { v with queuesFree := q.2 }) rfl
      refine ⟨?_, Nat.succ_le_succ hrest.length, hrest.filled.imp_left (congrArg _), hrest.rings,
        fun i => ?_, fun i hi => ?_⟩
      · rw [QueueFreeDescs.getFree_eq_some.mp hq, List.cons_append]
        exact congrArg _ hrest.free
      · rw [hrest.addr]
        obtain rfl | hne := eq_or_ne i q.1
        · simp [Virtio.setWritableAvailable, Virtio.setWritable, Virtio.setAvailable]
        · simp [Virtio.setWritableAvailable, Virtio.setWritable, Virtio.setAvailable, hne]
      · rw [List.mem_cons, not_or] at hi
        rw [hrest.descs i hi.2]
        simp [Virtio.setWritableAvailable, Virtio.setWritable, Virtio.setAvailable, hi.1]

/-- The ids of the device that were made available at start-up. -/
def startUps (g : DevId) (log : List Event) : List ℕ :=
  log.filterMap fun
    | .startUp g' id => if g' = g then some id else none
    | _ => none

theorem startUps_started (g g' : DevId) (ids : List ℕ) (log : List Event) :
    startUps g' ((ids.map (.startUp g)).reverse ++ log) =
      (if g = g' then ids.reverse else []) ++ startUps g' log := by
  rw [startUps, List.filterMap_append, List.filterMap_reverse, List.filterMap_map]
  split <;> simp [startUps, *]

/-- In how many pairs of requests in flight the id is. -/
def inflight (k : Kernel) (g : DevId) (i : ℕ) : ℕ :=
  ∑ t ∈ Finset.range k.nextId, ((k.fut t).ids g).count i

theorem inflight_update {f : Fut} (ht : t < k.nextId)
    (hfut : k'.fut = Function.update k.fut t f) (hnext : k'.nextId = k.nextId) (g : DevId) (i : ℕ) :
    k'.inflight g i + ((k.fut t).ids g).count i = k.inflight g i + (f.ids g).count i := by
  unfold inflight
  rw [hfut, hnext]
  exact sum_update_add k.fut f (fun f => (f.ids g).count i) (Finset.mem_range.mpr ht)

/-- Each of the `n g` ids of a device has one owner. -/
def Owned (n : DevId → ℕ) (k : Kernel) : Prop :=
  ∀ g i, (k.dev g).virtio.queuesFree.free.count i + k.inflight g i + (startUps g k.log).count i =
    if i < n g then 1 else 0

namespace Owned

/-- A step that moves no id. -/
theorem frame (h : Owned n k)
    (hfree : ∀ g, (k'.dev g).virtio.queuesFree = (k.dev g).virtio.queuesFree)
    (hids : ∀ t g, (k'.fut t).ids g = (k.fut t).ids g) (hnext : k'.nextId = k.nextId)
    (hlog : ∀ g, startUps g k'.log = startUps g k.log) : Owned n k' := by
  intro g i
  simpa only [inflight, hfree, hids, hnext, hlog] using h g i

/-- The ids of a future that is replaced move between the free list, the future and the
start-up descriptors of one device. -/
theorem exchange {f : Fut} {d : Gpu} (h : Owned n k) (ht : t < k.nextId)
    (hdev : k'.dev = Function.update k.dev g d) (hfut : k'.fut = Function.update k.fut t f)
    (hnext : k'.nextId = k.nextId)
    (hlog : ∀ g', g' ≠ g → startUps g' k'.log = startUps g' k.log)
    (hids : ∀ g', g' ≠ g → f.ids g' = (k.fut t).ids g')
    (hmove : ∀ i, d.virtio.queuesFree.free.count i + (f.ids g).count i +
        (startUps g k'.log).count i = (k.dev g).virtio.queuesFree.free.count i +
        ((k.fut t).ids g).count i + (startUps g k.log).count i) : Owned n k' := by
  intro g' i
  have hsum := inflight_update ht hfut hnext g' i
  rw [← h g' i]
  obtain rfl | hne := eq_or_ne g' g
  · have := hmove i
    rw [hdev, Function.update_self]
    omega
  · rw [hids g' hne] at hsum
    rw [hdev, Function.update_of_ne hne, hlog g' hne]
    omega

theorem spawnOp {fut : TaskId → Fut} {f : Fut} {q : ArrayQueue TaskId 100} (h : Owned n k)
    (hf : f.await = none) (hids : ∀ t g, (fut t).ids g = (k.fut t).ids g) : Owned n { k with
      fut := Function.update fut k.nextId f
      nextId := k.nextId + 1
      spawnQueue := q } := by
  intro g i
  rw [← h g i]
  have hsum := sum_range_succ_update f (fun f => (f.ids g).count i) k.nextId fut
  simp only [hids, Fut.ids_of_none hf, List.count_nil, Nat.add_zero] at hsum
  simp only [inflight, hsum]

theorem new (config : DevId → GpuConfig) :
    Owned (fun g => (config g).queueSize) (Kernel.new config) := by
  intro g i
  simp [Kernel.new, inflight, startUps, Gpu.init, Virtio.init, QueueFreeDescs.new,
    List.nodup_range.count]

theorem boot (config : DevId → GpuConfig) (rs : List Routine) :
    Owned (fun g => (config g).queueSize) (Kernel.boot config rs) :=
  boot_induction (new config) fun _ _ _ h => h.spawnOp rfl fun _ _ => rfl

theorem ids_update {f : Fut} (hf : ∀ g, f.ids g = (k.fut t).ids g) (u : TaskId) (g : DevId) :
    (Function.update k.fut t f u).ids g = (k.fut u).ids g := by
  obtain rfl | hne := eq_or_ne u t
  · rw [Function.update_self, hf]
  · rw [Function.update_of_ne hne]

theorem queuesFree_update {d : Gpu} (hd : d.virtio.queuesFree = (k.dev g).virtio.queuesFree)
    (g' : DevId) :
    (Function.update k.dev g d g').virtio.queuesFree = (k.dev g').virtio.queuesFree := by
  obtain rfl | hne := eq_or_ne g' g
  · rw [Function.update_self, hd]
  · rw [Function.update_of_ne hne]

theorem step (h : Owned n k) (hw : WellFormed k) (hstep : Steps k l k') : Owned n k' := by
  cases hstep with
  | control | spawnTask | spawnPanic | popTask | popGone | wakeYielder | wakeYielderPanic
  | register | finish =>
    exact h.frame (fun _ => rfl) (fun _ _ => rfl) rfl fun _ => rfl
  | spawnOp run => exact h.spawnOp rfl (ids_update fun _ => rfl)
  | yieldOp run =>
    refine h.frame (fun _ => rfl) (ids_update fun g => ?_) rfl fun _ => rfl
    rw [Fut.ids_of_none run.await]
    rfl
  | @startUp t g rest v ids run unlocked descs =>
    have hfree := (startUpDescs_startedUp descs).free
    refine h.exchange (hw.running_lt run.pc) rfl rfl rfl (fun g' hne => ?_) (fun _ _ => rfl)
      fun i => ?_
    · simp [startUps_started, hne.symm]
    · simp only [startUps_started, if_true, hfree, List.count_append, List.count_reverse]
      simp only [Fut.ids]
      omega
  | dropGuard run =>
    exact h.frame (queuesFree_update rfl) (ids_update fun _ => rfl) rfl fun _ => rfl
  | readConfig | checkallNone =>
    exact h.frame (fun _ => rfl) (ids_update fun _ => rfl) rfl fun _ => rfl
  | @request t g len rest descId descNextId v run unlocked free =>
    have hfree := (Virtio.getFreeTwiceDescId_eq_some free).1
    refine h.exchange (hw.running_lt run.pc) rfl rfl rfl (fun _ _ => rfl) (fun g' hne => ?_)
      fun i => ?_
    · rw [Fut.ids_of_none run.await, Fut.ids_of_idWait rfl, if_neg hne.symm]
    · rw [Fut.ids_of_none run.await, Fut.ids_of_idWait rfl, if_pos rfl, hfree]
      simp only [Virtio.addRequest_queuesFree, List.count_cons, List.count_nil, startUps,
        List.filterMap_cons]
      omega
  | checkallPast _ _ next | checkallNothing _ _ next | checkallWake _ _ next
  | checkallPanic _ _ next =>
    refine h.frame (queuesFree_update ?_) (fun _ _ => rfl) rfl fun _ => rfl
    rw [(Virtio.nextUsed_eq_some next).2]
  | yieldFirst poll =>
    refine h.frame (fun _ => rfl) (ids_update fun g => ?_) rfl fun _ => rfl
    rw [Fut.ids_of_yieldOnce poll.await]
    rfl
  | yieldAgain poll =>
    refine h.frame (fun _ => rfl) (ids_update fun g => ?_) rfl fun _ => rfl
    rw [Fut.ids_of_yieldOnce poll.await]
    rfl
  | ready poll =>
    refine h.frame (fun _ => rfl) (ids_update fun g => ?_) rfl fun _ => rfl
    rw [Fut.ids_of_idWait poll.await]
    rfl
  | @release t g head tail len poll unlocked =>
    refine h.exchange (hw.running_lt poll.pc) rfl rfl rfl (fun _ _ => rfl) (fun g' hne => ?_)
      fun i => ?_
    · rw [Fut.ids_of_none rfl, Fut.ids_of_setFree poll.await, if_neg hne.symm]
    · rw [Fut.ids_of_none rfl, Fut.ids_of_setFree poll.await, if_pos rfl]
      simp only [Virtio.setFreeDescId, QueueFreeDescs.setFree_free, List.count_cons,
        List.count_nil, startUps, List.filterMap_cons]
      omega
  | devRead | devPush => exact h.frame (queuesFree_update rfl) (fun _ _ => rfl) rfl fun _ => rfl

theorem count_le (h : Owned n k) (g : DevId) (i : ℕ) :
    (k.dev g).virtio.queuesFree.free.count i + k.inflight g i + (startUps g k.log).count i ≤ 1 := by
  have := h g i
  split at this <;> omega

theorem free_nodup (h : Owned n k) (g : DevId) : (k.dev g).virtio.queuesFree.free.Nodup := by
  refine List.nodup_iff_count_le_one.mpr fun i => ?_
  have := h.count_le g i
  omega

theorem one_le_inflight {i : ℕ} (ht : t < k.nextId) (hi : i ∈ (k.fut t).ids g) :
    1 ≤ k.inflight g i :=
  (List.count_pos_iff.mpr hi).trans_le
    (le_sum k.fut (fun f => (f.ids g).count i) (Finset.mem_range.mpr ht))

theorem lt_of_ids {i : ℕ} (h : Owned n k) (ht : t < k.nextId) (hi : i ∈ (k.fut t).ids g) :
    i < n g := by
  have howners := h g i
  have := one_le_inflight ht hi
  split at howners <;> omega

/-- An id in flight is not in the free list. -/
theorem not_free_of_ids {i : ℕ} (h : Owned n k) (ht : t < k.nextId)
    (hi : i ∈ (k.fut t).ids g) : i ∉ (k.dev g).virtio.queuesFree.free := by
  intro hfree
  have := h.count_le g i
  have := one_le_inflight ht hi
  have := List.count_pos_iff.mpr hfree
  omega

/-- A start-up descriptor is not in the free list. -/
theorem not_free_of_startUps {i : ℕ} (h : Owned n k) (hi : i ∈ startUps g k.log) :
    i ∉ (k.dev g).virtio.queuesFree.free := by
  intro hfree
  have := h.count_le g i
  have := List.count_pos_iff.mpr hi
  have := List.count_pos_iff.mpr hfree
  omega

theorem lt_of_startUps {i : ℕ} (h : Owned n k) (hi : i ∈ startUps g k.log) : i < n g := by
  have howners := h g i
  have := List.count_pos_iff.mpr hi
  split at howners <;> omega

theorem lt_of_free {i : ℕ} (h : Owned n k) (hi : i ∈ (k.dev g).virtio.queuesFree.free) :
    i < n g := by
  have howners := h g i
  have := List.count_pos_iff.mpr hi
  split at howners <;> omega

/-- Two requests to one device share no id. -/
theorem ids_unique {i : ℕ} (h : Owned n k) (ht : t < k.nextId) (hu : u < k.nextId)
    (hti : i ∈ (k.fut t).ids g) (hui : i ∈ (k.fut u).ids g) : t = u := by
  by_contra hne
  have hsum : ((k.fut t).ids g).count i + ((k.fut u).ids g).count i ≤ k.inflight g i :=
    add_le_sum k.fut (fun f => (f.ids g).count i) hne (Finset.mem_range.mpr ht)
      (Finset.mem_range.mpr hu)
  have := h.count_le g i
  have := List.count_pos_iff.mpr hti
  have := List.count_pos_iff.mpr hui
  omega

end Owned
end Kernel
end Fomos
