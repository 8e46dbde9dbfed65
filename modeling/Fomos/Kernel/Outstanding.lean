import Mathlib
import Fomos.Kernel.Descriptors
import Fomos.Kernel.Registered
import Fomos.Virtio.RingFifo

/-!
# What the device still has to do

The chains that a device may still complete are counted on the cursors of the rings, whatever the
queue size. Each of them, and each completed slot that no request has taken, stands for a request
that waits or for a start-up descriptor, so there are never more than the queue has entries.
-/
namespace Fomos
open UpdateSum

namespace Gpu
variable {n id : ℕ} {d : Gpu}

/-- The chains that wait in the avail ring, with the device, or in the used ring. -/
def outstanding (d : Gpu) : ℕ :=
  (d.virtio.rings.availPending d.cursor).length + d.held.length +
    d.virtio.rings.usedPending.length

/-- The steps that the device can still take. -/
def deviceWork (d : Gpu) : ℕ :=
  2 * (d.virtio.rings.availPending d.cursor).length + d.held.length

/-- The cursors are `u16` values and every pending id is one of the queue. -/
structure RingIds (n : ℕ) (d : Gpu) : Prop where
  cursor : d.cursor < 2^16
  driverIdx : d.virtio.rings.driverIdx < 2^16
  deviceIdx : d.virtio.rings.deviceIdx < 2^16
  avail : ∀ i ∈ d.virtio.rings.availPending d.cursor, i < n
  held : ∀ i ∈ d.held, i < n
  used : ∀ e ∈ d.virtio.rings.usedPending, e.id < n

lemma wrappingAdd_lt (x y : ℕ) : wrappingAdd x y < 2^16 := Nat.mod_lt _ (by decide)

lemma RingIds.init (c : GpuConfig) : RingIds c.queueSize (Gpu.init c) where
  cursor := Nat.two_pow_pos 16
  driverIdx := Nat.two_pow_pos 16
  deviceIdx := Nat.two_pow_pos 16
  avail := by simp [Gpu.init, Virtio.init, Rings.init, Rings.availPending, RingWindow.pending_self]
  held := nofun
  used := by
    simp [Gpu.init, Virtio.init, Rings.init, Rings.usedPending, wrappingAdd,
      RingWindow.pending_self]

/-- A device that changes neither its rings nor what it holds. -/
lemma RingIds.frame {d' : Gpu} (h : RingIds n d) (hrings : d'.virtio.rings = d.virtio.rings)
    (hcursor : d'.cursor = d.cursor) (hheld : d'.held = d.held) : RingIds n d' := by
  obtain ⟨h₁, h₂, h₃, h₄, h₅, h₆⟩ := h
  rw [← hrings] at h₂ h₃ h₄ h₆
  rw [← hcursor] at h₁ h₄
  rw [← hheld] at h₅
  exact ⟨h₁, h₂, h₃, h₄, h₅, h₆⟩

lemma outstanding_frame {d' : Gpu} (hrings : d'.virtio.rings = d.virtio.rings)
    (hcursor : d'.cursor = d.cursor) (hheld : d'.held = d.held) :
    d'.outstanding = d.outstanding ∧ d'.deviceWork = d.deviceWork := by
  unfold outstanding deviceWork
  rw [hrings, hcursor, hheld]
  exact ⟨rfl, rfl⟩

/-- Making an id available adds a chain. -/
lemma RingIds.setAvailable (d' : Gpu) (h : RingIds n d) (hid : id < n)
    (hroom : d.outstanding + 1 < 2^16)
    (hrings : d'.virtio.rings = d.virtio.rings.setAvailable id) (hcursor : d'.cursor = d.cursor)
    (hheld : d'.held = d.held) : RingIds n d' ∧ d'.outstanding = d.outstanding + 1 := by
  have hroom' : (d.virtio.rings.availPending d.cursor).length + 1 < 2^16 := by
    unfold outstanding at hroom
    omega
  have hlen : (d'.virtio.rings.availPending d'.cursor).length =
      (d.virtio.rings.availPending d.cursor).length + 1 := by
    rw [hrings, hcursor]
    exact RingWindow.length_pending_push h.cursor hroom'
  have hused : d'.virtio.rings.usedPending = d.virtio.rings.usedPending := by
    rw [hrings]
    rfl
  refine ⟨⟨hcursor ▸ h.cursor, ?_, ?_, ?_, hheld ▸ h.held, hused ▸ h.used⟩, ?_⟩
  · rw [hrings]
    exact wrappingAdd_lt _ _
  · rw [hrings]
    exact h.deviceIdx
  · rw [hrings, hcursor]
    exact RingWindow.forall_pending_push h.cursor h.driverIdx hroom' h.avail hid
  · unfold outstanding
    rw [hlen, hused, hheld]
    omega

lemma RingIds.setAvailables {ids : List ℕ} (d' : Gpu) (h : RingIds n d) (hids : ∀ i ∈ ids, i < n)
    (hroom : d.outstanding + ids.length < 2^16)
    (hrings : d'.virtio.rings = ids.foldl (fun r i => r.setAvailable i) d.virtio.rings)
    (hcursor : d'.cursor = d.cursor) (hheld : d'.held = d.held) :
    RingIds n d' ∧ d'.outstanding = d.outstanding + ids.length := by
  induction ids generalizing d with
  | nil => exact ⟨h.frame hrings hcursor hheld, (outstanding_frame hrings hcursor hheld).1⟩
  | cons i ids ih =>
    rw [List.length_cons] at hroom
    let d₁ : Gpu := { d with
      virtio := { d.virtio with rings := d.virtio.rings.setAvailable i } }
    have hone : RingIds n d₁ ∧ d₁.outstanding = d.outstanding + 1 :=
      h.setAvailable d₁ (hids i (.head _)) (by omega) rfl rfl rfl
    obtain ⟨hnext, hcount⟩ := hone
    obtain ⟨hall, hcount'⟩ := ih hnext (fun j hj => hids j (.tail _ hj)) (by omega) hrings hcursor
      hheld
    refine ⟨hall, ?_⟩
    rw [hcount', hcount, List.length_cons]
    omega

/-- The device takes the oldest id of the avail ring. -/
lemma RingIds.deviceRead (h : RingIds n d) (hread : d.virtio.rings.deviceRead d.cursor = some id) :
    let d' := { d with cursor := wrappingAdd d.cursor 1, held := d.held ++ [id] }
    RingIds n d' ∧ d'.outstanding = d.outstanding ∧ d'.deviceWork < d.deviceWork := by
  obtain ⟨hne, hid⟩ := Option.ite_none_right_eq_some.mp hread
  have hcons : d.virtio.rings.availPending d.cursor =
      id :: d.virtio.rings.availPending (wrappingAdd d.cursor 1) := by
    rw [← Option.some.inj hid]
    exact RingWindow.pending_cons h.cursor h.driverIdx hne
  have havail := h.avail
  rw [hcons, List.forall_mem_cons] at havail
  refine ⟨⟨wrappingAdd_lt _ _, h.driverIdx, h.deviceIdx, havail.2, ?_, h.used⟩, ?_, ?_⟩
  · simpa [or_imp, forall_and] using ⟨h.held, havail.1⟩
  · simp only [outstanding, hcons, List.length_cons, List.length_append, List.length_nil]
    omega
  · simp only [deviceWork, hcons, List.length_cons, List.length_append, List.length_nil]
    omega

/-- The device returns an id that it holds. -/
lemma RingIds.devicePush {len : ℕ} (h : RingIds n d) (hid : id ∈ d.held)
    (hroom : d.outstanding + 1 < 2^16) :
    let d' := { d with
      virtio := { d.virtio with rings := d.virtio.rings.devicePush ⟨id, len⟩ }
      held := d.held.erase id }
    RingIds n d' ∧ d'.outstanding = d.outstanding ∧ d'.deviceWork < d.deviceWork := by
  have hroom' : d.virtio.rings.usedPending.length + 1 < 2^16 := by
    unfold outstanding at hroom
    omega
  have hlen : (d.virtio.rings.devicePush ⟨id, len⟩).usedPending.length =
      d.virtio.rings.usedPending.length + 1 :=
    RingWindow.length_pending_push (wrappingAdd_lt _ _) hroom'
  have havail : (d.virtio.rings.devicePush ⟨id, len⟩).availPending d.cursor =
      d.virtio.rings.availPending d.cursor := rfl
  have hheld := List.length_erase_add_one hid
  refine ⟨⟨h.cursor, h.driverIdx, wrappingAdd_lt _ _, h.avail, ?_, ?_⟩, ?_, ?_⟩
  · exact fun i hi => h.held i (List.mem_of_mem_erase hi)
  · exact RingWindow.forall_pending_push (P := fun e : UsedElem => e.id < n) (wrappingAdd_lt _ _)
      h.deviceIdx hroom' h.used (h.held id hid)
  · simp only [outstanding, hlen, havail]
    omega
  · simp only [deviceWork, havail]
    omega

/-- `next_used` takes the oldest returned element. -/
lemma RingIds.nextUsed {e : UsedElem} {v : Virtio} (h : RingIds n d)
    (hnext : d.virtio.nextUsed = some (e, v)) :
    e.id < n ∧ RingIds n { d with virtio := v } ∧
      Gpu.outstanding { d with virtio := v } + 1 = d.outstanding := by
  obtain ⟨hrings, hv⟩ := Virtio.nextUsed_eq_some hnext
  obtain ⟨hne, he⟩ := Option.ite_none_right_eq_some.mp hrings
  obtain ⟨he, hr⟩ := Prod.mk.inj (Option.some.inj he)
  have hcons : d.virtio.rings.usedPending = e :: v.rings.usedPending := by
    rw [← he, ← hr]
    exact RingWindow.pending_cons (wrappingAdd_lt _ _) h.deviceIdx hne
  have havail : v.rings.availPending d.cursor = d.virtio.rings.availPending d.cursor := by
    rw [← hr]
    rfl
  have hused := h.used
  rw [hcons, List.forall_mem_cons] at hused
  refine ⟨hused.1, ⟨h.cursor, ?_, ?_, havail ▸ h.avail, h.held, hused.2⟩, ?_⟩
  · rw [← hr]
    exact h.driverIdx
  · rw [← hr]
    exact h.deviceIdx
  · simp only [outstanding, hcons, havail, List.length_cons]
    omega

end Gpu

/-- One for a completed slot. -/
def IdWaker.dones : IdWaker → ℕ
  | .done => 1
  | _ => 0

/-- One for a request to the device that waits in `IdWait`. -/
def Fut.waits (g : DevId) (f : Fut) : ℕ :=
  match f.await with
  | some (.idWait g' _ _ _) => if g' = g then 1 else 0
  | _ => 0

lemma Fut.waits_le (g : DevId) (f : Fut) : f.waits g ≤ (f.ids g).length := by
  unfold waits
  split
  · rename_i hawait
    rw [ids_of_idWait hawait]
    split <;> simp
  · exact Nat.zero_le _

lemma Fut.waits_eq_zero {g : DevId} {f : Fut} (h : f.ids g = []) : f.waits g = 0 := by
  have hle := f.waits_le g
  rw [h] at hle
  exact Nat.le_zero.mp hle

namespace Kernel
variable {k k' : Kernel} {l : Label} {t : TaskId} {n : DevId → ℕ} {d g : DevId}

/-- The completed slots that no request has taken. -/
def doneSlots (k : Kernel) : ℕ := ∑ i ∈ Finset.range numWakers, (k.wakers i).dones

lemma doneSlots_update {i : ℕ} (hi : i < numWakers) (w : IdWaker)
    (hwakers : k'.wakers = Function.update k.wakers i w) :
    k'.doneSlots + (k.wakers i).dones = k.doneSlots + w.dones := by
  unfold doneSlots
  rw [hwakers]
  exact sum_update_add k.wakers w IdWaker.dones (Finset.mem_range.mpr hi)

/-- A device that nobody uses. -/
def Untouched (k : Kernel) (g : DevId) : Prop :=
  (k.dev g).held = [] ∧ (k.dev g).cursor = (k.dev g).virtio.rings.driverIdx

/-- Each chain with the device `d` and each completed slot stands for a request that waits or for
a start-up descriptor, and the other devices are not there. -/
structure Outstanding (n : DevId → ℕ) (d : DevId) (k : Kernel) : Prop where
  ids : (k.dev d).RingIds (n d)
  count : (k.dev d).outstanding + k.doneSlots ≤
    k.total (Fut.waits d) + (startUps d k.log).length
  others : ∀ g, g ≠ d → k.Untouched g

namespace Outstanding

/-- The requests and the start-up descriptors have their ids, so that the device owes the driver
no more completions than its queue has entries. -/
lemma le_queueSize (h : Outstanding n d k) (ho : Owned n k) :
    (k.dev d).outstanding + k.doneSlots ≤ n d := by
  have hwaits : k.total (Fut.waits d) ≤ (k.inflightIds d).length := by
    rw [length_inflightIds]
    exact Finset.sum_le_sum fun t _ => (k.fut t).waits_le d
  have hlen := (ho.perm d).length_eq
  have hcount := h.count
  simp only [List.length_append, List.length_range] at hlen
  omega

/-- A step that moves no chain has to pay for every completed slot with a request that waits. -/
lemma frame (h : Outstanding n d k) (hrings : ∀ g, (k'.dev g).virtio.rings = (k.dev g).virtio.rings)
    (hcursor : ∀ g, (k'.dev g).cursor = (k.dev g).cursor)
    (hheld : ∀ g, (k'.dev g).held = (k.dev g).held)
    (hpay : k'.doneSlots + k.total (Fut.waits d) ≤ k.doneSlots + k'.total (Fut.waits d))
    (hlog : startUps d k'.log = startUps d k.log) : Outstanding n d k' where
  ids := h.ids.frame (hrings d) (hcursor d) (hheld d)
  count := by
    have hsame := (Gpu.outstanding_frame (hrings d) (hcursor d) (hheld d)).1
    have hcount := h.count
    rw [hsame, hlog]
    omega
  others g hg := by
    unfold Untouched
    rw [hrings, hcursor, hheld]
    exact h.others g hg

/-- A step of the core that only touches its own future. -/
lemma same (h : Outstanding n d k) {f : Fut} (hlt : t < k.nextId)
    (hdev : ∀ g, (k'.dev g).virtio.rings = (k.dev g).virtio.rings ∧
      (k'.dev g).cursor = (k.dev g).cursor ∧ (k'.dev g).held = (k.dev g).held)
    (hwakers : k'.wakers = k.wakers) (hfut : k'.fut = Function.update k.fut t f)
    (hnext : k'.nextId = k.nextId) (hf : f.waits d = (k.fut t).waits d)
    (hlog : startUps d k'.log = startUps d k.log) : Outstanding n d k' := by
  have htotal := total_update (w := Fut.waits d) hlt hfut hnext
  refine h.frame (fun g => (hdev g).1) (fun g => (hdev g).2.1) (fun g => (hdev g).2.2) ?_ hlog
  unfold doneSlots
  rw [hwakers]
  omega

/-- A step that changes only device `d` among the devices has to pay for its chains too. -/
lemma move {x : Gpu} (h : Outstanding n d k) (hdev : k'.dev = Function.update k.dev d x)
    (hids : x.RingIds (n d))
    (hpay : x.outstanding + k'.doneSlots + k.total (Fut.waits d) + (startUps d k.log).length ≤
      (k.dev d).outstanding + k.doneSlots + k'.total (Fut.waits d) +
        (startUps d k'.log).length) : Outstanding n d k' where
  ids := by rwa [hdev, Function.update_self]
  count := by
    have hcount := h.count
    rw [hdev, Function.update_self]
    omega
  others g hg := by
    unfold Untouched
    rw [hdev, Function.update_of_ne hg]
    exact h.others g hg

/-- A request adds a chain and a future that waits. -/
lemma request {f : Fut} {len descId descNextId : ℕ} {v : Virtio} (h : Outstanding n d k)
    (hmax : n d ≤ numWakers) (ho : Owned n k) (hlt : t < k.nextId)
    (free : (k.dev d).virtio.getFreeTwiceDescId = some ((descId, descNextId), v))
    (hdev : k'.dev = Function.update k.dev d
      { k.dev d with virtio := v.addRequest descId descNextId len })
    (hwakers : k'.wakers = k.wakers) (hfut : k'.fut = Function.update k.fut t f)
    (hnext : k'.nextId = k.nextId) (hold : (k.fut t).waits d = 0) (hnew : f.waits d = 1)
    (hlog : startUps d k'.log = startUps d k.log) : Outstanding n d k' := by
  obtain ⟨hlist, hv⟩ := Virtio.getFreeTwiceDescId_eq_some free
  have hid : descId < n d := ho.lt_of_free (by rw [hlist]; exact .head _)
  have hle := h.le_queueSize ho
  have hnum : numWakers = 256 := rfl
  have hrings : (v.addRequest descId descNextId len).rings =
      (k.dev d).virtio.rings.setAvailable descId := by rw [hv]; rfl
  obtain ⟨hids, hcount⟩ := h.ids.setAvailable
    { k.dev d with virtio := v.addRequest descId descNextId len } hid (by omega) hrings rfl rfl
  refine h.move hdev hids ?_
  have htotal := total_update (w := Fut.waits d) hlt hfut hnext
  unfold doneSlots
  rw [hcount, hlog, hwakers]
  omega

/-- The start-up loop adds as many chains as start-up descriptors. -/
lemma startUp {f : Fut} {v : Virtio} {ids : List ℕ} (h : Outstanding n d k)
    (hmax : n d ≤ numWakers) (ho : Owned n k) (hlt : t < k.nextId)
    (descs : startUpDescs 10 (k.dev d).virtio = (v, ids))
    (hdev : k'.dev = Function.update k.dev d { k.dev d with virtio := v, lock := some t })
    (hwakers : k'.wakers = k.wakers) (hfut : k'.fut = Function.update k.fut t f)
    (hnext : k'.nextId = k.nextId) (hf : f.waits d = (k.fut t).waits d)
    (hlog : k'.log = (ids.map (.startUp d)).reverse ++ k.log) : Outstanding n d k' := by
  have hstarted := startUpDescs_startedUp descs
  have hfree : ∀ i ∈ ids, i < n d := fun i hi =>
    ho.lt_of_free (by rw [hstarted.free]; exact List.mem_append_left _ hi)
  have hle := h.le_queueSize ho
  have hnum : numWakers = 256 := rfl
  have hten := hstarted.length
  obtain ⟨hids, hcount⟩ := h.ids.setAvailables
    { k.dev d with virtio := v, lock := some t } hfree (by omega) hstarted.rings rfl rfl
  refine h.move hdev hids ?_
  have htotal := total_update (w := Fut.waits d) hlt hfut hnext
  have hlen : (startUps d k'.log).length = ids.length + (startUps d k.log).length := by
    simp [hlog, startUps_started]
  unfold doneSlots
  rw [hcount, hlen, hwakers]
  omega

/-- The poller consumes a chain and completes at most one slot. -/
lemma consume {used : UsedElem} {v : Virtio} (h : Outstanding n d k)
    (next : (k.dev d).virtio.nextUsed = some (used, v))
    (hdev : k'.dev = Function.update k.dev d { k.dev d with virtio := v })
    (hfut : k'.fut = k.fut) (hnext : k'.nextId = k.nextId)
    (hdone : k'.doneSlots ≤ k.doneSlots + 1)
    (hlog : startUps d k'.log = startUps d k.log) : Outstanding n d k' := by
  obtain ⟨-, hids, hcount⟩ := h.ids.nextUsed next
  refine h.move hdev hids ?_
  have hcount : Gpu.outstanding { k.dev d with virtio := v } + 1 = (k.dev d).outstanding := hcount
  have htotal : k'.total (Fut.waits d) = k.total (Fut.waits d) := by
    unfold total
    rw [hfut, hnext]
  rw [hlog, htotal]
  omega

/-- A new future waits for nothing. -/
lemma spawnOp {fut : TaskId → Fut} {f : Fut} {q : ArrayQueue TaskId 100} (h : Outstanding n d k)
    (hf : f.await = none) (hfut : ∀ u, (fut u).waits d = (k.fut u).waits d) :
    Outstanding n d { k with
      fut := Function.update fut k.nextId f
      nextId := k.nextId + 1
      spawnQueue := q } := by
  have hnone : f.waits d = 0 := by simp [Fut.waits, hf]
  refine ⟨h.ids, ?_, h.others⟩
  have hcount := h.count
  simp only [total, doneSlots, sum_range_succ_update, hfut] at hcount ⊢
  omega

lemma waits_update {f : Fut} (hf : f.waits d = (k.fut t).waits d) (u : TaskId) :
    (Function.update k.fut t f u).waits d = (k.fut u).waits d := by
  obtain rfl | hne := eq_or_ne u t
  · rw [Function.update_self, hf]
  · rw [Function.update_of_ne hne]

lemma boot {config : DevId → GpuConfig} {rs : List Routine} (d : DevId) :
    Outstanding (fun g => (config g).queueSize) d (Kernel.boot config rs) := by
  refine boot_induction ⟨.init (config d), ?_, fun _ _ => ⟨rfl, rfl⟩⟩ fun k r _ h =>
    h.spawnOp rfl fun _ => rfl
  simp [Kernel.new, doneSlots, IdWaker.dones, Gpu.outstanding, Gpu.init, Virtio.init, Rings.init,
    Rings.availPending, Rings.usedPending, wrappingAdd, RingWindow.pending_self]

/-- Only the device of the run returns chains. -/
lemma eq_of_held {id : ℕ} (h : Outstanding n d k) (hid : id ∈ (k.dev g).held) : g = d := by
  by_contra hne
  simp [(h.others g hne).1] at hid

/-- Only the device of the run finds chains to read. -/
lemma eq_of_read {id : ℕ} (h : Outstanding n d k)
    (hread : (k.dev g).virtio.rings.deviceRead (k.dev g).cursor = some id) : g = d := by
  by_contra hne
  simp [Rings.deviceRead, (h.others g hne).2] at hread

/-- A device step moves a chain on. -/
lemma device {x : Gpu} (h : Outstanding n d k) (hdev : k'.dev = Function.update k.dev d x)
    (hids : x.RingIds (n d)) (hcount : x.outstanding = (k.dev d).outstanding)
    (hwakers : k'.wakers = k.wakers) (hfut : k'.fut = k.fut) (hnext : k'.nextId = k.nextId)
    (hlog : startUps d k'.log = startUps d k.log) : Outstanding n d k' := by
  refine h.move hdev hids ?_
  unfold total doneSlots
  rw [hwakers, hfut, hnext, hlog, hcount]

/-- A device whose rings and cursors stay as they are. -/
lemma rings_update {x : Gpu} (hrings : x.virtio.rings = (k.dev g).virtio.rings)
    (hcursor : x.cursor = (k.dev g).cursor) (hheld : x.held = (k.dev g).held) (g' : DevId) :
    (Function.update k.dev g x g').virtio.rings = (k.dev g').virtio.rings ∧
      (Function.update k.dev g x g').cursor = (k.dev g').cursor ∧
      (Function.update k.dev g x g').held = (k.dev g').held := by
  obtain rfl | hne := eq_or_ne g' g
  · rw [Function.update_self]
    exact ⟨hrings, hcursor, hheld⟩
  · rw [Function.update_of_ne hne]
    exact ⟨rfl, rfl, rfl⟩

/-- Completing a slot. -/
lemma doneSlots_consumed {id : ℕ} (hbound : id < numWakers)
    (hwakers : k'.wakers = Function.update k.wakers id .done) :
    k'.doneSlots ≤ k.doneSlots + 1 := by
  have := doneSlots_update hbound .done hwakers
  simp only [IdWaker.dones] at this
  omega

/-- A task that changes a slot pays for the completion in it by waiting. -/
lemma slot {f : Fut} {w : IdWaker} {id : ℕ} (h : Outstanding n d k) (hlt : t < k.nextId)
    (hbound : id < numWakers) (hdev : k'.dev = k.dev)
    (hwakers : k'.wakers = Function.update k.wakers id w)
    (hfut : k'.fut = Function.update k.fut t f) (hnext : k'.nextId = k.nextId)
    (hpay : w.dones + (k.fut t).waits d ≤ (k.wakers id).dones + f.waits d)
    (hlog : startUps d k'.log = startUps d k.log) : Outstanding n d k' := by
  have htotal := total_update (w := Fut.waits d) hlt hfut hnext
  have hdone := doneSlots_update hbound w hwakers
  refine h.frame (fun g => by rw [hdev]) (fun g => by rw [hdev]) (fun g => by rw [hdev]) ?_ hlog
  omega

lemma step (h : Outstanding n d k) (hmax : n d ≤ numWakers) (hw : WellFormed k) (ho : Owned n k)
    (hs : Scripts (OnDevice d) k) (hstep : Steps k l k') : Outstanding n d k' := by
  have hle := h.le_queueSize ho
  have hnum : numWakers = 256 := rfl
  have hsame : ∀ g, (k.dev g).virtio.rings = (k.dev g).virtio.rings ∧
      (k.dev g).cursor = (k.dev g).cursor ∧ (k.dev g).held = (k.dev g).held :=
    fun _ => ⟨rfl, rfl, rfl⟩
  cases hstep with
  | control | spawnTask | spawnPanic | popTask | popGone | wakeYielder | wakeYielderPanic
  | finish => exact h.frame (fun _ => rfl) (fun _ => rfl) (fun _ => rfl) le_rfl rfl
  | spawnOp run => exact h.spawnOp rfl (waits_update rfl)
  | yieldOp run =>
    exact h.same (hw.running_lt run.pc) hsame rfl rfl rfl
      (Fut.waits_eq_zero (Fut.ids_of_none run.await)).symm rfl
  | readConfig run | checkallNone run =>
    exact h.same (hw.running_lt run.pc) hsame rfl rfl rfl rfl rfl
  | dropGuard run =>
    exact h.same (hw.running_lt run.pc) (rings_update rfl rfl rfl) rfl rfl rfl rfl rfl
  | yieldFirst poll | yieldAgain poll =>
    exact h.same (hw.running_lt poll.pc) hsame rfl rfl rfl
      (Fut.waits_eq_zero (Fut.ids_of_yieldOnce poll.await)).symm rfl
  | release poll =>
    refine h.same (hw.running_lt poll.pc) (rings_update rfl rfl rfl) rfl rfl rfl ?_ rfl
    simp [Fut.waits, poll.await]
  | startUp run unlocked descs =>
    obtain rfl := hs.device_eq ((hs _).1.takes_gpu run.takes rfl)
    exact h.startUp hmax ho (hw.running_lt run.pc) descs rfl rfl rfl rfl rfl rfl
  | request run unlocked free =>
    obtain rfl := hs.device_eq ((hs _).1.takes_gpu run.takes rfl)
    exact h.request hmax ho (hw.running_lt run.pc) free rfl rfl rfl rfl
      (Fut.waits_eq_zero (Fut.ids_of_none run.await)) (by simp [Fut.waits]) rfl
  | checkallPast run _ next =>
    obtain rfl := hs.device_eq ((hs _).1.takes_gpu run.takes rfl)
    exact h.consume next rfl rfl rfl (Nat.le_succ _) rfl
  | checkallNothing run _ next bound | checkallWake run _ next bound
  | checkallPanic run _ next bound =>
    obtain rfl := hs.device_eq ((hs _).1.takes_gpu run.takes rfl)
    exact h.consume next rfl rfl rfl (doneSlots_consumed bound rfl) rfl
  | @register t g head tail len poll bound pending =>
    refine h.slot (hw.running_lt poll.pc) bound rfl rfl (Function.update_eq_self t k.fut).symm rfl
      ?_ rfl
    exact Nat.add_le_add_right (Nat.zero_le _) _
  | @ready t g head tail len poll bound done =>
    refine h.slot (hw.running_lt poll.pc) bound rfl rfl rfl rfl ?_ rfl
    have hwaits : (k.fut t).waits d ≤ 1 := by
      simp only [Fut.waits, poll.await]
      split <;> simp
    simpa [IdWaker.dones, done, Fut.waits] using hwaits
  | devRead read =>
    obtain rfl := h.eq_of_read read
    obtain ⟨hids, hcount, -⟩ := h.ids.deviceRead read
    exact h.device rfl hids hcount rfl rfl rfl rfl
  | devPush held =>
    obtain rfl := h.eq_of_held held
    obtain ⟨hids, hcount, -⟩ := h.ids.devicePush held (by omega)
    exact h.device rfl hids hcount rfl rfl rfl rfl

end Outstanding
end Kernel
end Fomos
