import Mathlib
import Fomos.Kernel.Descriptors
import Fomos.Kernel.Flight
import Fomos.Virtio.RingFifo

/-!
# Where the chains of a device are

The two rings and the ids that the device holds contain each chain once: that of a request in
flight until the poller has consumed it, and that of a start-up descriptor until it is consumed.
So the rings never overflow, and an id that comes out of the used ring has an owner.
-/
namespace Fomos

/-- The device that an event is about. -/
def Event.dev? : Event → Option DevId
  | .add _ g _ | .startUp g _ | .ret g _ | .use g _ | .resolve _ g _ _ => some g
  | .done _ => none

theorem Event.About.dev {e : Event} {g : DevId} {head : ℕ} (h : e.About g head) :
    e.dev? = some g := by
  obtain h | rfl | rfl := h
  · cases e <;> simp_all [Event.Renews, Event.dev?]
  · rfl
  · rfl

theorem AvailFifo.setAvailables {r : Rings} {cursor : ℕ} {pending ids : List ℕ}
    (hn : QueueSize r.queueSize) (hroom : pending.length + ids.length ≤ r.queueSize)
    (h : AvailFifo r cursor pending) :
    AvailFifo (ids.foldl (fun r d => r.setAvailable d) r) cursor (pending ++ ids) := by
  induction ids generalizing r pending with
  | nil => simpa using h
  | cons d ids ih =>
    rw [List.length_cons] at hroom
    have hnext := h.setAvailable hn (d := d) (by omega)
    have hlen : (pending ++ [d]).length + ids.length ≤ r.queueSize := by
      rw [List.length_append, List.length_singleton]
      omega
    have hall := ih (r := r.setAvailable d) hn hlen hnext
    rwa [List.append_assoc] at hall

theorem UsedFifo.setAvailables {r : Rings} {pending : List UsedElem} (ids : List ℕ)
    (h : UsedFifo r pending) : UsedFifo (ids.foldl (fun r d => r.setAvailable d) r) pending := by
  induction ids generalizing r with
  | nil => exact h
  | cons d ids ih => exact ih (h.setAvailable d)

namespace Kernel
variable {k k' : Kernel} {l : Label} {t u : TaskId} {g : DevId} {n : DevId → ℕ}
  {avail : List ℕ} {used : List UsedElem}

/-- The chains with the device: still to be read, held, and returned. -/
def chains (d : Gpu) (avail : List ℕ) (used : List UsedElem) : List ℕ :=
  avail ++ d.held ++ used.map UsedElem.id

structure DeviceLaw (n : DevId → ℕ) (g : DevId) (k : Kernel) (avail : List ℕ)
    (used : List UsedElem) : Prop where
  queueSize : (k.dev g).virtio.rings.queueSize = n g
  availFifo : AvailFifo (k.dev g).virtio.rings (k.dev g).cursor avail
  usedFifo : UsedFifo (k.dev g).virtio.rings used
  flight : ∀ t head tail len, (k.fut t).InFlight g head tail len →
    Flight k.log t g head ((avail ++ (k.dev g).held).count head)
      ((used.map UsedElem.id).count head)
  startUp : ∀ i ∈ startUps g k.log, (chains (k.dev g) avail used).count i ≤ 1
  idle : ∀ i, (∀ t tail len, ¬(k.fut t).InFlight g i tail len) → i ∉ startUps g k.log →
    i ∉ chains (k.dev g) avail used

namespace DeviceLaw

/-- Every chain with the device has its owner. -/
theorem owner (h : DeviceLaw n g k avail used) {i : ℕ} (hi : i ∈ chains (k.dev g) avail used) :
    (∃ t tail len, (k.fut t).InFlight g i tail len) ∨ i ∈ startUps g k.log := by
  by_contra hno
  rw [not_or] at hno
  exact h.idle i (fun t tail len hin => hno.1 ⟨t, tail, len, hin⟩) hno.2 hi

theorem nodup (h : DeviceLaw n g k avail used) : (chains (k.dev g) avail used).Nodup := by
  refine List.nodup_iff_count_le_one.mpr fun i => ?_
  by_cases hi : i ∈ chains (k.dev g) avail used
  · obtain ⟨t, tail, len, hin⟩ | hstart := h.owner hi
    · have := (h.flight t i tail len hin).le_one
      rwa [chains, List.count_append]
    · exact h.startUp i hstart
  · rw [List.count_eq_zero.mpr hi]
    exact Nat.zero_le _

theorem lt (h : DeviceLaw n g k avail used) (hw : WellFormed k) (ho : Owned n k) {i : ℕ}
    (hi : i ∈ chains (k.dev g) avail used) : i < n g := by
  obtain ⟨t, tail, len, hin⟩ | hstart := h.owner hi
  · exact ho.lt_of_ids (hw.inFlight_lt hin) hin.head_mem
  · exact ho.lt_of_startUps hstart

/-- A free id is not with the device. -/
theorem not_mem_of_free (h : DeviceLaw n g k avail used) (hw : WellFormed k) (ho : Owned n k)
    {i : ℕ} (hi : i ∈ (k.dev g).virtio.queuesFree.free) : i ∉ chains (k.dev g) avail used := by
  intro hmem
  obtain ⟨t, tail, len, hin⟩ | hstart := h.owner hmem
  · exact ho.not_free_of_ids (hw.inFlight_lt hin) hin.head_mem hi
  · exact ho.not_free_of_startUps hstart hi

/-- With free ids the chains still fit in the ring. -/
theorem length_add_le (h : DeviceLaw n g k avail used) (hw : WellFormed k) (ho : Owned n k)
    (ids : List ℕ) {rest : List ℕ} (hfree : (k.dev g).virtio.queuesFree.free = ids ++ rest) :
    (chains (k.dev g) avail used).length + ids.length ≤ n g := by
  have hids : ids.Nodup := (List.nodup_append.mp (hfree ▸ ho.free_nodup g)).1
  have hmem : ∀ i ∈ ids, i ∈ (k.dev g).virtio.queuesFree.free := fun i hi => by simp [hfree, hi]
  have hnodup : (chains (k.dev g) avail used ++ ids).Nodup := by
    refine List.nodup_append.mpr ⟨h.nodup, hids, fun i hi j hj => ?_⟩
    rintro rfl
    exact h.not_mem_of_free hw ho (hmem i hj) hi
  have hsub : chains (k.dev g) avail used ++ ids ⊆ List.range (n g) := by
    intro i hi
    rw [List.mem_range]
    obtain hi | hi := List.mem_append.mp hi
    · exact h.lt hw ho hi
    · exact ho.lt_of_free (hmem i hi)
  simpa using (List.subperm_of_subset hnodup hsub).length_le

/-- A step that leaves the device alone, and every request to it in flight. -/
theorem frame {es : List Event} (h : DeviceLaw n g k avail used)
    (hrings : (k'.dev g).virtio.rings = (k.dev g).virtio.rings)
    (hcursor : (k'.dev g).cursor = (k.dev g).cursor) (hheld : (k'.dev g).held = (k.dev g).held)
    (hin : ∀ t head tail len,
      (k'.fut t).InFlight g head tail len ↔ (k.fut t).InFlight g head tail len)
    (hlog : k'.log = es ++ k.log) (hes : ∀ e ∈ es, e.dev? ≠ some g) :
    DeviceLaw n g k' avail used := by
  have hstart : startUps g k'.log = startUps g k.log := by
    rw [hlog, startUps, List.filterMap_append, List.filterMap_eq_nil_iff.mpr]
    · rfl
    · intro e he
      have := hes e he
      cases e <;> simp_all [Event.dev?]
  have hchains : chains (k'.dev g) avail used = chains (k.dev g) avail used := by
    rw [chains, hheld]
    rfl
  refine ⟨hrings ▸ h.queueSize, hrings ▸ hcursor ▸ h.availFifo, hrings ▸ h.usedFifo, ?_, ?_, ?_⟩
  · intro t head tail len ht
    rw [hlog, hheld]
    exact (h.flight t head tail len ((hin t head tail len).mp ht)).others
      fun e he habout => hes e he habout.dev
  · rw [hstart, hchains]
    exact h.startUp
  · intro i hi
    rw [hstart, hchains]
    exact h.idle i fun t tail len ht => hi t tail len ((hin t i tail len).mpr ht)

/-- The device reads the next chain. -/
theorem devRead {id : ℕ} {ids : List ℕ} (h : DeviceLaw n g k (id :: ids) used)
    (hdev : k'.dev g = { k.dev g with
      cursor := wrappingAdd (k.dev g).cursor 1, held := (k.dev g).held ++ [id] })
    (hfut : k'.fut = k.fut) (hlog : k'.log = k.log) : DeviceLaw n g k' ids used := by
  have hperm : (ids ++ ((k.dev g).held ++ [id])).Perm (id :: ids ++ (k.dev g).held) := by
    rw [← List.append_assoc]
    exact List.perm_append_singleton id _
  have hchains : (chains (k'.dev g) ids used).Perm (chains (k.dev g) (id :: ids) used) := by
    simp only [chains, hdev]
    exact hperm.append_right _
  refine ⟨?_, ?_, ?_, fun t head tail len hin => ?_, fun i hi => ?_, fun i hi hstart => ?_⟩
  · rw [hdev]
    exact h.queueSize
  · simpa only [hdev] using h.availFifo.advance
  · simpa only [hdev] using h.usedFifo
  · rw [hfut] at hin
    simpa only [hdev, hlog, hperm.count_eq] using h.flight t head tail len hin
  · rw [hchains.count_eq]
    exact h.startUp i (hlog ▸ hi)
  · rw [hchains.mem_iff]
    exact h.idle i (hfut ▸ hi) (hlog ▸ hstart)

/-- What `next_used` returns is the oldest chain in the used ring. -/
theorem nextUsed {e : UsedElem} {v : Virtio} (hn : QueueSize (n g))
    (h : DeviceLaw n g k avail used) (next : (k.dev g).virtio.nextUsed = some (e, v)) :
    ∃ es cursor, used = e :: es ∧ UsedFifo v.rings es ∧
      v.rings = { (k.dev g).virtio.rings with lastUsedIdx := cursor } := by
  have hsize : QueueSize (k.dev g).virtio.rings.queueSize := by rwa [h.queueSize]
  have hnext := (Virtio.nextUsed_eq_some next).1
  cases used with
  | nil => simp [h.usedFifo.nextUsed_nil] at hnext
  | cons e' es =>
    obtain ⟨r, hr, hfifo, hcursor⟩ := h.usedFifo.nextUsed_cons hsize
    obtain ⟨rfl, rfl⟩ : e' = e ∧ r = v.rings := by simpa using hr.symm.trans hnext
    exact ⟨es, _, rfl, hfifo, hcursor⟩

/-- What the device reads is the oldest chain in the avail ring. -/
theorem deviceRead {id : ℕ} (hn : QueueSize (n g)) (h : DeviceLaw n g k avail used)
    (read : (k.dev g).virtio.rings.deviceRead (k.dev g).cursor = some id) :
    ∃ ids, avail = id :: ids := by
  have hsize : QueueSize (k.dev g).virtio.rings.queueSize := by rwa [h.queueSize]
  rw [h.availFifo.deviceRead hsize] at read
  cases avail with
  | nil => simp at read
  | cons d ds =>
    obtain rfl : d = id := by simpa using read
    exact ⟨ds, rfl⟩

/-- The device returns a chain that it holds. -/
theorem devPush {id len : ℕ} (hn : QueueSize (n g)) (hw : WellFormed k) (ho : Owned n k)
    (h : DeviceLaw n g k avail used) (hheld : id ∈ (k.dev g).held)
    (hdev : k'.dev g = { k.dev g with
      virtio := { (k.dev g).virtio with rings := (k.dev g).virtio.rings.devicePush ⟨id, len⟩ }
      held := (k.dev g).held.erase id })
    (hfut : k'.fut = k.fut) (hlog : k'.log = .ret g id :: k.log) :
    DeviceLaw n g k' avail (used ++ [⟨id, len⟩]) := by
  have hperm := List.perm_cons_erase hheld
  have hcount : ∀ i, ((k.dev g).held.erase id).count i + (if id = i then 1 else 0) =
      (k.dev g).held.count i := by
    intro i
    rw [hperm.count_eq, List.count_cons]
    simp
  have hchains : ∀ i, (chains (k'.dev g) avail (used ++ [⟨id, len⟩])).count i =
      (chains (k.dev g) avail used).count i := by
    intro i
    have := hcount i
    simp only [chains, hdev, List.map_append, List.map_cons, List.map_nil, List.count_append,
      List.count_cons, List.count_nil, beq_iff_eq]
    omega
  have hroom : used.length < (k.dev g).virtio.rings.queueSize := by
    have hlen := h.length_add_le hw ho [] rfl
    have := List.length_pos_of_mem hheld
    simp only [chains, List.length_append, List.length_map] at hlen
    rw [h.queueSize]
    omega
  have hsize : QueueSize (k.dev g).virtio.rings.queueSize := by rwa [h.queueSize]
  refine ⟨?_, ?_, ?_, fun t head tail len' hin => ?_, fun i hi => ?_, fun i hi hstart => ?_⟩
  · rw [hdev]
    exact h.queueSize
  · simpa only [hdev] using h.availFifo.devicePush ⟨id, len⟩
  · simpa only [hdev] using h.usedFifo.devicePush hsize hroom
  · rw [hfut] at hin
    have hflight := h.flight t head tail len' hin
    have := hcount head
    simp only [hdev, hlog, List.map_append, List.map_cons, List.map_nil, List.count_append,
      List.count_cons, List.count_nil, beq_iff_eq] at hflight ⊢
    obtain rfl | hne := eq_or_ne id head
    · rw [if_pos rfl] at this ⊢
      rw [← this, ← Nat.add_assoc] at hflight
      exact hflight.ret
    · rw [if_neg hne] at this ⊢
      rw [← this] at hflight
      exact hflight.other (by simp [Event.About, Event.Renews, hne])
  · rw [hchains]
    exact h.startUp i (by simpa [hlog, startUps] using hi)
  · rw [← List.count_eq_zero, hchains, List.count_eq_zero]
    exact h.idle i (hfut ▸ hi) (by simpa [hlog, startUps] using hstart)

/-- The poller consumes the oldest returned chain. -/
theorem use {e : UsedElem} {es : List UsedElem} {v : Virtio} {cursor : ℕ}
    (h : DeviceLaw n g k avail (e :: es)) (hused : UsedFifo v.rings es)
    (hv : v.rings = { (k.dev g).virtio.rings with lastUsedIdx := cursor })
    (hdev : k'.dev g = { k.dev g with virtio := v }) (hfut : k'.fut = k.fut)
    (hlog : k'.log = .use g e.id :: k.log) : DeviceLaw n g k' avail es := by
  have hsub : ∀ i, (chains (k'.dev g) avail es).count i ≤
      (chains (k.dev g) avail (e :: es)).count i := by
    intro i
    simp only [chains, hdev, List.map_cons, List.count_append, List.count_cons]
    omega
  refine ⟨?_, ?_, ?_, fun t head tail len hin => ?_, fun i hi => ?_, fun i hi hstart => ?_⟩
  · rw [hdev, hv]
    exact h.queueSize
  · rw [hdev, hv]
    exact h.availFifo.nextUsed cursor
  · rwa [hdev]
  · rw [hfut] at hin
    have hflight := h.flight t head tail len hin
    simp only [hdev, hlog, List.map_cons, List.count_cons, beq_iff_eq] at hflight ⊢
    obtain rfl | hne := eq_or_ne e.id head
    · rw [if_pos rfl] at hflight
      exact hflight.use
    · rw [if_neg hne] at hflight
      exact hflight.other (by simp [Event.About, Event.Renews, hne])
  · exact (hsub i).trans (h.startUp i (by simpa [hlog, startUps] using hi))
  · have := List.count_eq_zero.mpr (h.idle i (hfut ▸ hi) (by simpa [hlog, startUps] using hstart))
    exact List.count_eq_zero.mp (Nat.le_zero.mp ((hsub i).trans this.le))

/-- A resolved request frees its pair, of which the device has nothing. -/
theorem release {head tail len : ℕ} {f : Fut} {response : Desc}
    (h : DeviceLaw n g k avail used) (hw : WellFormed k) (ho : Owned n k)
    (hin : (k.fut t).InFlight g head tail len) (hdone : Flight k.log t g head 0 0)
    (hrings : (k'.dev g).virtio.rings = (k.dev g).virtio.rings)
    (hcursor : (k'.dev g).cursor = (k.dev g).cursor) (hheld : (k'.dev g).held = (k.dev g).held)
    (hfut : k'.fut = Function.update k.fut t f) (hf : f.await = none)
    (hlog : k'.log = .resolve t g head response :: k.log) : DeviceLaw n g k' avail used := by
  have hother : ∀ u head' tail' len', (k'.fut u).InFlight g head' tail' len' →
      u ≠ t ∧ (k.fut u).InFlight g head' tail' len' := by
    intro u head' tail' len' hu
    obtain rfl | hne := eq_or_ne u t
    · simp [hfut, Fut.InFlight, hf] at hu
    · rw [hfut, Function.update_of_ne hne] at hu
      exact ⟨hne, hu⟩
  have hchains : chains (k'.dev g) avail used = chains (k.dev g) avail used := by
    rw [chains, hheld]
    rfl
  have hstart : startUps g k'.log = startUps g k.log := by rw [hlog]; rfl
  refine ⟨hrings ▸ h.queueSize, hrings ▸ hcursor ▸ h.availFifo, hrings ▸ h.usedFifo, ?_, ?_, ?_⟩
  · intro u head' tail' len' hu
    obtain ⟨hne, hu⟩ := hother u head' tail' len' hu
    have hhead : head ≠ head' := by
      rintro rfl
      exact hne (ho.ids_unique (hw.inFlight_lt hu) (hw.inFlight_lt hin) hu.head_mem hin.head_mem)
    rw [hlog, hheld]
    exact (h.flight u head' tail' len' hu).other (by simp [Event.About, Event.Renews, hhead])
  · rw [hstart, hchains]
    exact h.startUp
  · intro i hi
    rw [hstart, hchains]
    intro hi'
    obtain rfl | hne := eq_or_ne i head
    · obtain ⟨hq, hr⟩ := (h.flight t i tail len hin).unique hdone
      rw [chains, List.mem_append, not_or]
      exact ⟨List.count_eq_zero.mp hq, List.count_eq_zero.mp hr⟩
    · refine h.idle i (fun u tail' len' hu => ?_) hi'
      obtain rfl | hut := eq_or_ne u t
      · have hids : i = head ∧ tail' = tail := by simpa using hu.ids.symm.trans hin.ids
        exact hne hids.1
      · exact hi u tail' len' (by rwa [hfut, Function.update_of_ne hut])

/-- A request makes a free head available. -/
theorem request {descId descNextId len : ℕ} {rest : List ℕ} {f : Fut}
    (hn : QueueSize (n g)) (h : DeviceLaw n g k avail used) (hw : WellFormed k) (ho : Owned n k)
    (hfree : (k.dev g).virtio.queuesFree.free = descId :: rest)
    (hnone : (k.fut t).await = none)
    (hrings : (k'.dev g).virtio.rings = (k.dev g).virtio.rings.setAvailable descId)
    (hcursor : (k'.dev g).cursor = (k.dev g).cursor) (hheld : (k'.dev g).held = (k.dev g).held)
    (hfut : k'.fut = Function.update k.fut t f)
    (hf : f.await = some (.idWait g descId descNextId len))
    (hlog : k'.log = .add t g descId :: k.log) :
    DeviceLaw n g k' (avail ++ [descId]) used := by
  have hmem : descId ∈ (k.dev g).virtio.queuesFree.free := by simp [hfree]
  have hnew := h.not_mem_of_free hw ho hmem
  have hlen := h.length_add_le hw ho [descId] hfree
  have hsize : QueueSize (k.dev g).virtio.rings.queueSize := by rwa [h.queueSize]
  have hroom : avail.length < (k.dev g).virtio.rings.queueSize := by
    simp only [chains, List.length_append, List.length_singleton] at hlen
    rw [h.queueSize]
    omega
  have hchains : (chains (k'.dev g) (avail ++ [descId]) used).Perm
      (descId :: chains (k.dev g) avail used) := by
    simp only [chains, hheld, List.append_assoc, List.singleton_append]
    exact List.perm_middle
  have hstart : startUps g k'.log = startUps g k.log := by rw [hlog]; rfl
  refine ⟨?_, ?_, ?_, fun u head tail len' hu => ?_, fun i hi => ?_, fun i hi hi' => ?_⟩
  · rw [hrings]
    exact h.queueSize
  · rw [hrings, hcursor]
    exact h.availFifo.setAvailable hsize hroom
  · rw [hrings]
    exact h.usedFifo.setAvailable descId
  · obtain rfl | hne := eq_or_ne u t
    · obtain ⟨rfl, -⟩ : descId = head ∧ descNextId = tail ∧ len = len' := by
        simpa [hfut, Fut.InFlight, hf] using hu
      simp only [chains, List.mem_append, not_or] at hnew
      have hq : (avail ++ [descId] ++ (k'.dev g).held).count descId = 1 := by
        simp [hheld, List.count_eq_zero.mpr hnew.1.1, List.count_eq_zero.mpr hnew.1.2]
      rw [hlog, hq, List.count_eq_zero.mpr hnew.2]
      exact .new
    · rw [hfut, Function.update_of_ne hne] at hu
      have hhead : descId ≠ head := by
        rintro rfl
        exact ho.not_free_of_ids (hw.inFlight_lt hu) hu.head_mem hmem
      have hq : (avail ++ [descId] ++ (k'.dev g).held).count head =
          (avail ++ (k.dev g).held).count head := by
        simp [hheld, hhead]
      rw [hlog, hq]
      exact (h.flight u head tail len' hu).other (by simp [Event.About, Event.Renews, hhead])
  · rw [hstart] at hi
    have hne : descId ≠ i := by
      rintro rfl
      exact ho.not_free_of_startUps hi hmem
    rw [hchains.count_eq, List.count_cons_of_ne hne]
    exact h.startUp i hi
  · rw [hstart] at hi'
    have hne : i ≠ descId := by
      rintro rfl
      exact hi t descNextId len (by simp [hfut, Fut.InFlight, hf])
    rw [hchains.mem_iff, List.mem_cons, not_or]
    refine ⟨hne, h.idle i (fun u tail len' hu => ?_) hi'⟩
    obtain rfl | hut := eq_or_ne u t
    · simp [Fut.InFlight, hnone] at hu
    · exact hi u tail len' (by rwa [hfut, Function.update_of_ne hut])

/-- The start-up loop makes free ids available. -/
theorem startUpIds {v : Virtio} {ids : List ℕ} (hn : QueueSize (n g))
    (h : DeviceLaw n g k avail used) (hw : WellFormed k) (ho : Owned n k)
    (hstarted : StartedUp 10 (k.dev g).virtio v ids)
    (hrings : (k'.dev g).virtio.rings = v.rings)
    (hcursor : (k'.dev g).cursor = (k.dev g).cursor) (hheld : (k'.dev g).held = (k.dev g).held)
    (hin : ∀ u head tail len,
      (k'.fut u).InFlight g head tail len ↔ (k.fut u).InFlight g head tail len)
    (hlog : k'.log = (ids.map (.startUp g)).reverse ++ k.log) :
    DeviceLaw n g k' (avail ++ ids) used := by
  have hmem : ∀ i ∈ ids, i ∈ (k.dev g).virtio.queuesFree.free := fun i hi => by
    simp [hstarted.free, hi]
  have hids : ids.Nodup := (List.nodup_append.mp (hstarted.free ▸ ho.free_nodup g)).1
  have hlen := h.length_add_le hw ho ids hstarted.free
  have hsize : QueueSize (k.dev g).virtio.rings.queueSize := by rwa [h.queueSize]
  have hroom : avail.length + ids.length ≤ (k.dev g).virtio.rings.queueSize := by
    simp only [chains, List.length_append] at hlen
    rw [h.queueSize]
    omega
  have hsizes : ∀ (ids : List ℕ) (r : Rings),
      (ids.foldl (fun r d => r.setAvailable d) r).queueSize = r.queueSize := by
    intro ids
    induction ids with
    | nil => exact fun _ => rfl
    | cons d ids ih => exact fun r => ih (r.setAvailable d)
  have hcount : ∀ i, (chains (k'.dev g) (avail ++ ids) used).count i =
      (chains (k.dev g) avail used).count i + ids.count i := by
    intro i
    simp only [chains, hheld, List.count_append]
    omega
  have hstart : startUps g k'.log = ids.reverse ++ startUps g k.log := by
    rw [hlog, startUps_started, if_pos rfl]
  refine ⟨?_, ?_, ?_, fun u head tail len hu => ?_, fun i hi => ?_, fun i hi hi' => ?_⟩
  · rw [hrings, hstarted.rings, hsizes]
    exact h.queueSize
  · rw [hrings, hcursor, hstarted.rings]
    exact h.availFifo.setAvailables hsize hroom
  · rw [hrings, hstarted.rings]
    exact h.usedFifo.setAvailables ids
  · have hu := (hin u head tail len).mp hu
    have hhead : head ∉ ids := fun hi =>
      ho.not_free_of_ids (hw.inFlight_lt hu) hu.head_mem (hmem head hi)
    have hq : (avail ++ ids ++ (k'.dev g).held).count head =
        (avail ++ (k.dev g).held).count head := by
      simp [hheld, List.count_eq_zero.mpr hhead]
    rw [hlog, hq]
    refine (h.flight u head tail len hu).others fun e he => ?_
    obtain ⟨i, -, rfl⟩ := List.mem_map.mp (List.mem_reverse.mp he)
    simp [Event.About, Event.Renews]
  · rw [hcount]
    by_cases hi' : i ∈ ids
    · rw [List.count_eq_zero.mpr (h.not_mem_of_free hw ho (hmem i hi')), hids.count, if_pos hi']
    · rw [hstart, List.mem_append, List.mem_reverse] at hi
      rw [List.count_eq_zero.mpr hi']
      exact h.startUp i (hi.resolve_left hi')
  · rw [hstart, List.mem_append, List.mem_reverse, not_or] at hi'
    rw [← List.count_eq_zero, hcount, List.count_eq_zero.mpr hi'.1]
    exact List.count_eq_zero.mpr
      (h.idle i (fun u tail len hu => hi u tail len ((hin u i tail len).mpr hu)) hi'.2)

end DeviceLaw
end Kernel
end Fomos
