import Mathlib
import Fomos.Kernel.Counts
import Fomos.Kernel.Ownership

/-!
# The descriptors of the GPU driver

One `drive` a device makes its ten start-up descriptors available, and then it and its transfer
loop have at most one request each in flight. So with 14 descriptors a request always finds two of
them free, and what it wrote into the two entries stays until it frees them.
-/
namespace Fomos

/-- The request that the future has in flight. -/
def Fut.InFlight (f : Fut) (g : DevId) (head tail len : ℕ) : Prop :=
  f.await = some (.idWait g head tail len) ∨ f.await = some (.setFree g head tail len)

theorem Fut.InFlight.ids {f : Fut} {g : DevId} {head tail len : ℕ}
    (h : f.InFlight g head tail len) :
    f.ids g = [head, tail] := by
  obtain h | h := h
  · simp [Fut.ids_of_idWait h]
  · simp [Fut.ids_of_setFree h]

theorem Fut.InFlight.head_mem {f : Fut} {g : DevId} {head tail len : ℕ}
    (h : f.InFlight g head tail len) : head ∈ f.ids g := by
  rw [h.ids]
  exact .head _

namespace Kernel
variable {k k' : Kernel} {l : Label} {t u : TaskId} {g : DevId} {n : DevId → ℕ}
  {frames : DevId → ℕ → ℕ} {P : Routine → Prop}

/-- The descriptor tables keep the frames of `Virtio::init`, and the pair of each request is the
chain that `add_request` wrote. -/
structure Described (frames : DevId → ℕ → ℕ) (k : Kernel) : Prop where
  addr : ∀ g i, ((k.dev g).virtio.descs i).addr = frames g i
  head : ∀ t g head tail len, (k.fut t).InFlight g head tail len →
    (k.dev g).virtio.descs head = ⟨frames g head, len, virtqDescFNext, tail⟩
  tail : ∀ t g head tail len, (k.fut t).InFlight g head tail len →
    ((k.dev g).virtio.descs tail).flags = virtqDescFWrite ∧
      ((k.dev g).virtio.descs tail).len = 4096

theorem WellFormed.inFlight_lt {head tail len : ℕ} (h : WellFormed k)
    (hu : (k.fut u).InFlight g head tail len) : u < k.nextId := by
  refine h.live_lt u (.inl (h.await u fun hnone => ?_))
  simp [Fut.InFlight, hnone] at hu

namespace Described

/-- A step that puts no request in flight keeps the law, if it leaves the entries of those that
are in flight alone. -/
theorem frame (h : Described frames k)
    (haddr : ∀ g i, ((k'.dev g).virtio.descs i).addr = ((k.dev g).virtio.descs i).addr)
    (hdescs : ∀ u g head tail len, (k.fut u).InFlight g head tail len → ∀ i ∈ [head, tail],
      (k'.dev g).virtio.descs i = (k.dev g).virtio.descs i)
    (hin : ∀ u g head tail len, (k'.fut u).InFlight g head tail len →
      (k.fut u).InFlight g head tail len) : Described frames k' where
  addr g i := (haddr g i).trans (h.addr g i)
  head u g head tail len hu := by
    rw [hdescs u g head tail len (hin u g head tail len hu) head (by simp)]
    exact h.head u g head tail len (hin u g head tail len hu)
  tail u g head tail len hu := by
    rw [hdescs u g head tail len (hin u g head tail len hu) tail (by simp)]
    exact h.tail u g head tail len (hin u g head tail len hu)

/-- A step that touches no descriptor table. -/
theorem same (h : Described frames k)
    (hdescs : ∀ g, (k'.dev g).virtio.descs = (k.dev g).virtio.descs)
    (hin : ∀ u g head tail len, (k'.fut u).InFlight g head tail len →
      (k.fut u).InFlight g head tail len) : Described frames k' :=
  h.frame (fun g _ => by rw [hdescs g]) (fun _ g _ _ _ _ _ _ => by rw [hdescs g]) hin

theorem inFlight_update {f : Fut}
    (hf : ∀ g head tail len, f.InFlight g head tail len → (k.fut t).InFlight g head tail len)
    (u : TaskId) (g : DevId) (head tail len : ℕ)
    (hu : (Function.update k.fut t f u).InFlight g head tail len) :
    (k.fut u).InFlight g head tail len := by
  obtain rfl | hne := eq_or_ne u t
  · rw [Function.update_self] at hu
    exact hf g head tail len hu
  · rwa [Function.update_of_ne hne] at hu

theorem descs_update {d : Gpu} (hd : d.virtio.descs = (k.dev g).virtio.descs) (g' : DevId) :
    (Function.update k.dev g d g').virtio.descs = (k.dev g').virtio.descs := by
  obtain rfl | hne := eq_or_ne g' g
  · rw [Function.update_self, hd]
  · rw [Function.update_of_ne hne]

theorem new (config : DevId → GpuConfig) :
    Described (fun g => (config g).addr) (Kernel.new config) where
  addr _ _ := rfl
  head _ _ _ _ _ h := by simp [Fut.InFlight, Kernel.new] at h
  tail _ _ _ _ _ h := by simp [Fut.InFlight, Kernel.new] at h

theorem spawnOp {fut : TaskId → Fut} {f : Fut} {q : ArrayQueue TaskId 100} {m : TaskId}
    (h : Described frames k) (hf : f.await = none)
    (hin : ∀ u g head tail len, (fut u).InFlight g head tail len →
      (k.fut u).InFlight g head tail len) :
    Described frames { k with
      fut := Function.update fut m f
      nextId := k.nextId + 1
      spawnQueue := q } := by
  refine h.same (fun _ => rfl) fun u g head tail len hu => ?_
  obtain rfl | hne := eq_or_ne u m
  · simp [Fut.InFlight, hf] at hu
  · simp only [Function.update_of_ne hne] at hu
    exact hin u g head tail len hu

theorem boot (config : DevId → GpuConfig) (rs : List Routine) :
    Described (fun g => (config g).addr) (Kernel.boot config rs) :=
  boot_induction (new config) fun _ _ _ h => h.spawnOp rfl fun _ _ _ _ _ hu => hu

/-- The entries that a request writes. -/
theorem request {rest : List Op} {len descId descNextId : ℕ} {v : Virtio}
    (h : Described frames k) (hw : WellFormed k) (ho : Owned n k)
    (run : Running k t (.request g len) rest)
    (free : (k.dev g).virtio.getFreeTwiceDescId = some ((descId, descNextId), v)) :
    Described frames { k with
      dev := Function.update k.dev g
        { k.dev g with virtio := v.addRequest descId descNextId len }
      fut := Function.update k.fut t
        { k.fut t with todo := rest, await := some (.idWait g descId descNextId len) }
      log := .add t g descId :: k.log } := by
  obtain ⟨hfree, hv⟩ := Virtio.getFreeTwiceDescId_eq_some free
  have hnodup := ho.free_nodup g
  rw [hfree] at hnodup
  have hne : descId ≠ descNextId := by
    rintro rfl
    simp at hnodup
  have hdescs : v.descs = (k.dev g).virtio.descs := by rw [hv]
  have haddr : ∀ g' i, ((Function.update k.dev g
      { k.dev g with virtio := v.addRequest descId descNextId len } g').virtio.descs i).addr =
        frames g' i := by
    intro g' i
    obtain rfl | hg := eq_or_ne g' g
    · rw [Function.update_self, Virtio.addRequest_addr, hdescs, h.addr]
    · rw [Function.update_of_ne hg, h.addr]
  -- A request in flight on the device is the new one, or its pair is not in the free list.
  have hother : ∀ u g' head tail len', u ≠ t → (k.fut u).InFlight g' head tail len' →
      ∀ i ∈ [head, tail], (Function.update k.dev g
        { k.dev g with virtio := v.addRequest descId descNextId len } g').virtio.descs i =
          (k.dev g').virtio.descs i := by
    intro u g' head tail len' _ hu i hi
    obtain rfl | hg := eq_or_ne g' g
    · have hnot := ho.not_free_of_ids (hw.inFlight_lt hu) (hu.ids ▸ hi)
      rw [hfree, List.mem_cons, List.mem_cons, not_or, not_or] at hnot
      rw [Function.update_self, Virtio.addRequest_descs hnot.1 hnot.2.1, hdescs]
    · rw [Function.update_of_ne hg]
  refine ⟨haddr, fun u g' head tail len' hu => ?_, fun u g' head tail len' hu => ?_⟩
  · obtain rfl | hut := eq_or_ne u t
    · obtain ⟨rfl, rfl, rfl, rfl⟩ : g = g' ∧ descId = head ∧ descNextId = tail ∧ len = len' := by
        simpa [Fut.InFlight] using hu
      simp [Virtio.addRequest_head hne, hdescs, h.addr]
    · simp only [Function.update_of_ne hut] at hu
      exact (hother u g' head tail len' hut hu head (by simp)).trans (h.head u g' head tail len' hu)
  · obtain rfl | hut := eq_or_ne u t
    · obtain ⟨rfl, rfl, rfl, rfl⟩ : g = g' ∧ descId = head ∧ descNextId = tail ∧ len = len' := by
        simpa [Fut.InFlight] using hu
      simpa using Virtio.addRequest_tail descId descNextId len
    · simp only [Function.update_of_ne hut] at hu
      have hsame := hother u g' head tail len' hut hu tail (by simp)
      simpa only [hsame] using h.tail u g' head tail len' hu

/-- The start-up loop writes only entries that were free. -/
theorem startUp {rest : List Op} {v : Virtio} {ids : List ℕ} (h : Described frames k)
    (hw : WellFormed k) (ho : Owned n k)
    (descs : startUpDescs 10 (k.dev g).virtio = (v, ids)) :
    Described frames { k with
      dev := Function.update k.dev g { k.dev g with virtio := v, lock := some t }
      fut := Function.update k.fut t { k.fut t with todo := rest }
      log := (ids.map (.startUp g)).reverse ++ k.log } := by
  have hstarted := startUpDescs_startedUp descs
  refine h.frame (fun g' i => ?_) (fun u g' head tail len hu i hi => ?_)
    (inFlight_update fun _ _ _ _ hu => hu)
  · obtain rfl | hg := eq_or_ne g' g
    · simpa using hstarted.addr i
    · simp [hg]
  · obtain rfl | hg := eq_or_ne g' g
    · have hnot := ho.not_free_of_ids (hw.inFlight_lt hu) (hu.ids ▸ hi)
      rw [hstarted.free, List.mem_append, not_or] at hnot
      simpa using hstarted.descs i hnot.1
    · simp [hg]

theorem step (h : Described frames k) (hw : WellFormed k) (ho : Owned n k)
    (hstep : Steps k l k') : Described frames k' := by
  cases hstep with
  | control | spawnTask | spawnPanic | popTask | popGone | wakeYielder | wakeYielderPanic
  | register | finish => exact h.same (fun _ => rfl) fun _ _ _ _ _ hu => hu
  | spawnOp => exact h.spawnOp rfl (inFlight_update fun _ _ _ _ hu => hu)
  | yieldOp | yieldFirst | yieldAgain =>
    exact h.same (fun _ => rfl) (inFlight_update fun _ _ _ _ hu => by simp [Fut.InFlight] at hu)
  | readConfig | checkallNone => exact h.same (fun _ => rfl) (inFlight_update fun _ _ _ _ hu => hu)
  | dropGuard => exact h.same (descs_update rfl) (inFlight_update fun _ _ _ _ hu => hu)
  | startUp run unlocked descs => exact h.startUp hw ho descs
  | request run unlocked free => exact h.request hw ho run free
  | checkallPast _ _ next | checkallNothing _ _ next | checkallWake _ _ next
  | checkallPanic _ _ next =>
    refine h.same (descs_update ?_) fun _ _ _ _ _ hu => hu
    rw [(Virtio.nextUsed_eq_some next).2]
  | ready poll =>
    refine h.same (fun _ => rfl) (inFlight_update fun _ _ _ _ hu => .inl ?_)
    rw [poll.await]
    simpa [Fut.InFlight] using hu
  | release =>
    exact h.same (descs_update rfl)
      (inFlight_update fun _ _ _ _ hu => by simp [Fut.InFlight] at hu)
  | devRead | devPush => exact h.same (descs_update rfl) fun _ _ _ _ _ hu => hu

end Described
/-- The ids of the device's requests in flight. -/
def inflightIds (g : DevId) (k : Kernel) : List ℕ :=
  (List.range k.nextId).flatMap fun t => (k.fut t).ids g

theorem count_inflightIds (g : DevId) (i : ℕ) (k : Kernel) :
    (k.inflightIds g).count i = k.inflight g i := by
  rw [inflightIds, List.count_flatMap]
  rfl

theorem Owned.perm (h : Owned n k) (g : DevId) :
    ((k.dev g).virtio.queuesFree.free ++ k.inflightIds g ++ startUps g k.log).Perm
      (List.range (n g)) := by
  rw [List.perm_iff_count]
  intro i
  rw [List.count_append, List.count_append, count_inflightIds, h g i, List.nodup_range.count]
  simp

theorem length_inflightIds (g : DevId) (k : Kernel) :
    (k.inflightIds g).length = k.total fun f => (f.ids g).length := by
  rw [inflightIds, List.length_flatMap]
  rfl

/-- A task of a script, or a client without a device. -/
def DriverTask (r : Routine) : Prop := ∀ g, r ≠ .client (some g)

theorem DriverTask.spawns (r r' : Routine) (h : DriverTask r) (hr : r.spawns r') :
    DriverTask r' := by
  cases r with
  | drive g => rcases hr with rfl | rfl <;> simp [DriverTask]
  | client gpu =>
    obtain rfl | rfl := hr
    · simp [DriverTask]
    · exact h
  | poller | transfer => exact hr.elim

theorem DriverTask.cases {r : Routine} (h : DriverTask r) (hr : r.requester = some g) :
    r = .drive g ∨ r = .transfer g := by
  cases r <;> simp_all [Routine.requester, DriverTask]

/-- What the tasks of a device with `c` drives can still do. -/
structure Budget (c : ℕ) (g : DevId) (k : Kernel) : Prop where
  drives : k.total (Fut.makes (.drive g)) ≤ c
  transfers : k.total (Fut.makes (.transfer g)) ≤ c
  starts : (startUps g k.log).length + 10 * k.total (Fut.left (.startUp g)) ≤ 10 * c
  ten : (startUps g k.log).length = 0 ∨ (startUps g k.log).length = 10

theorem length_ids_le (f : Fut) (g : DevId) : (f.ids g).length ≤ 2 := by
  unfold Fut.ids
  split <;> try split
  all_goals simp

/-- Only the start-up loop makes a descriptor available at start-up. -/
theorem startUps_cases (hstep : Steps k l k') (g : DevId) :
    startUps g k'.log = startUps g k.log ∨ ∃ t rest v ids f, Running k t (.startUp g) rest ∧
      startUpDescs 10 (k.dev g).virtio = (v, ids) ∧
      startUps g k'.log = ids.reverse ++ startUps g k.log ∧
      k'.fut = Function.update k.fut t f ∧ f.todo = rest ∧ k'.nextId = k.nextId := by
  cases hstep with
  | @startUp t g' rest v ids run unlocked descs =>
    obtain rfl | hne := eq_or_ne g' g
    · exact .inr ⟨t, rest, v, ids, _, run, descs, by simp [startUps_started], rfl, rfl, rfl⟩
    · exact .inl (by simp [startUps_started, hne])
  | _ => exact .inl rfl

namespace Budget
variable {c : ℕ}

/-- A task that makes requests to the device is there because of a drive. -/
theorem one_le (h : Budget c g k) (ht : t < k.nextId)
    (hr : (k.fut t).routine = .drive g ∨ (k.fut t).routine = .transfer g) : 1 ≤ c := by
  obtain hr | hr := hr
  · have := le_total (w := Fut.makes (.drive g)) ht
    have := h.drives
    simp only [Fut.makes, hr, if_true] at *
    omega
  · have := le_total (w := Fut.makes (.transfer g)) ht
    have := h.transfers
    simp only [Fut.makes, hr, if_true] at *
    omega

/-- While a task of the device has no request in flight, the other one has at most one pair. -/
theorem inflightIds_le (h : Budget c g k) (hc : c ≤ 1) (hs : Scripts DriverTask k)
    (ht : t < k.nextId)
    (hr : (k.fut t).routine = .drive g ∨ (k.fut t).routine = .transfer g)
    (hawait : (k.fut t).await = none) : (k.inflightIds g).length ≤ 2 := by
  have hpoint : ∀ u ∈ Finset.range k.nextId, ((k.fut u).ids g).length + (if u = t then 2 else 0) ≤
      2 * (Fut.makes (.drive g) (k.fut u) + Fut.makes (.transfer g) (k.fut u)) := by
    intro u _
    have hlen := length_ids_le (k.fut u) g
    obtain rfl | hne := eq_or_ne u t
    · rw [Fut.ids_of_none hawait]
      obtain hr | hr := hr <;> simp only [Fut.makes, hr, if_true, List.length_nil] <;> omega
    · rw [if_neg hne]
      obtain hnil | hnil := eq_or_ne ((k.fut u).ids g) []
      · simp [hnil]
      · obtain hu | hu := (hs u).2.cases ((hs u).1.own g hnil) <;>
          simp only [Fut.makes, hu, if_true] <;> omega
  have hsum := Finset.sum_le_sum hpoint
  rw [Finset.sum_add_distrib, Finset.sum_ite_eq' (Finset.range k.nextId) t,
    if_pos (Finset.mem_range.mpr ht), ← Finset.mul_sum, Finset.sum_add_distrib] at hsum
  have hdrives := h.drives
  have htransfers := h.transfers
  rw [length_inflightIds]
  simp only [total] at hdrives htransfers ⊢
  omega

/-- So most of the device's descriptors are free. -/
theorem free_length (h : Budget c g k) (hc : c ≤ 1) (hs : Scripts DriverTask k) (ho : Owned n k)
    (ht : t < k.nextId)
    (hr : (k.fut t).routine = .drive g ∨ (k.fut t).routine = .transfer g)
    (hawait : (k.fut t).await = none) :
    n g ≤ (k.dev g).virtio.queuesFree.free.length + (startUps g k.log).length + 2 := by
  have hlen := (ho.perm g).length_eq
  have := h.inflightIds_le hc hs ht hr hawait
  simp only [List.length_append, List.length_range] at hlen
  omega

theorem step (h : Budget c g k) (hc : c ≤ 1) (hn : c = 1 → 14 ≤ n g) (hw : WellFormed k)
    (hs : Scripts DriverTask k)
    (ho : Owned n k) (hstep : Steps k l k') : Budget c g k' := by
  have hcredit := fun {w : Fut → ℕ} (hw' : Fut.Credit w) => total_step hw' hw hs hstep
  have hstarts := hcredit (Fut.left_credit (o := .startUp g) trivial)
  have hdrives := (hcredit (Fut.makes_credit (r := .drive g) trivial)).trans h.drives
  have htransfers := (hcredit (Fut.makes_credit (r := .transfer g) trivial)).trans h.transfers
  have hold := h.starts
  rcases startUps_cases hstep g with hsame |
    ⟨t, rest, v, ids, f, run, descs, hlog, hfut, htodo, hnext⟩
  · refine ⟨hdrives, htransfers, ?_, hsame ▸ h.ten⟩
    rw [hsame]
    omega
  · have hlt := hw.running_lt run.pc
    have honce : Fut.left (.startUp g) f + 1 ≤ Fut.left (.startUp g) (k.fut t) := by
      simpa [Fut.left, htodo] using Fut.takes_once (.startUp g) trivial run.takes
    have htotal := total_update (w := Fut.left (.startUp g)) hlt hfut hnext
    have hone := le_total (w := Fut.left (.startUp g)) hlt
    have hdrive : (k.fut t).routine = .drive g ∨ (k.fut t).routine = .transfer g :=
      .inl ((hs t).1.takes_startUp run.takes)
    have hone' := h.one_le hlt hdrive
    have hfree := h.free_length hc hs ho hlt hdrive run.await
    have hn := hn (Nat.le_antisymm hc hone')
    have hstarted := startUpDescs_startedUp descs
    have hlen := congrArg List.length hstarted.free
    rw [List.length_append] at hlen
    have hten : ids.length = 10 := by
      obtain hfilled | hempty := hstarted.filled
      · exact hfilled
      · have := hstarted.length
        rw [hempty, List.length_nil] at hlen
        omega
    have hall : (startUps g k'.log).length = 10 := by
      rw [hlog, List.length_append, List.length_reverse, hten]
      omega
    refine ⟨hdrives, htransfers, ?_, .inr hall⟩
    omega

theorem boot {config : DevId → GpuConfig} {rs : List Routine}
    (hrs : ∀ r ∈ rs, r = .client none ∨ ∃ g, r = .drive g) (g : DevId) :
    Budget (rs.count (.drive g)) g (Kernel.boot config rs) := by
  have hbody : ∀ g' c, (driveBody g' c).count (.spawn (.drive g)) = 0 ∧
      (driveBody g' c).count (.spawn (.transfer g)) = (if g' = g then 1 else 0) ∧
      (driveBody g' c).count (.startUp g) = if g' = g then 1 else 0 := by
    intro g' c
    simp [driveBody, List.count_append, List.count_cons, List.count_replicate]
  have hlog : (Kernel.boot config rs).log = [] :=
    boot_induction (P := fun k => k.log = []) rfl fun _ _ _ h => h
  refine ⟨total_boot_le fun s hs c => ?_, total_boot_le fun s hs c => ?_, ?_, .inl ?_⟩
  · obtain rfl | ⟨g', rfl⟩ := hrs s hs
    · simp [Fut.makes, Fut.left, Fut.new, Routine.body]
    · simp [Fut.makes, Fut.left, Fut.new, Routine.body, hbody]
  · obtain rfl | ⟨g', rfl⟩ := hrs s hs
    · simp [Fut.makes, Fut.left, Fut.new, Routine.body]
    · simp [Fut.makes, Fut.left, Fut.new, Routine.body, hbody]
  · have hstarts : (Kernel.boot config rs).total (Fut.left (.startUp g)) ≤ rs.count (.drive g) :=
      total_boot_le fun s hs c => by
        obtain rfl | ⟨g', rfl⟩ := hrs s hs
        · simp [Fut.left, Fut.new, Routine.body]
        · simp [Fut.left, Fut.new, Routine.body, hbody]
    rw [hlog]
    simp only [startUps, List.filterMap_nil, List.length_nil]
    omega
  · simp [hlog, startUps]

end Budget
/-- The law of the descriptors of a device. -/
structure DescriptorLaw (n : DevId → ℕ) (frames : DevId → ℕ → ℕ) (g : DevId) (k : Kernel) :
    Prop where
  partition : ((k.dev g).virtio.queuesFree.free ++ k.inflightIds g ++ startUps g k.log).Perm
    (List.range (n g))
  startUps : (startUps g k.log).length = 0 ∨ (startUps g k.log).length = 10
  request : ∀ t len rest, Running k t (.request g len) rest → ∃ descId descNextId v,
    (k.dev g).virtio.getFreeTwiceDescId = some ((descId, descNextId), v) ∧
      descId ≠ descNextId ∧ ∀ u, descId ∉ (k.fut u).ids g ∧ descNextId ∉ (k.fut u).ids g
  addr : ∀ i, ((k.dev g).virtio.descs i).addr = frames g i
  pair : ∀ t head tail len, (k.fut t).InFlight g head tail len →
    (k.dev g).virtio.descs head = ⟨frames g head, len, virtqDescFNext, tail⟩ ∧
      ((k.dev g).virtio.descs tail).flags = virtqDescFWrite ∧
      ((k.dev g).virtio.descs tail).len = 4096

/-- The invariant of the GPU driver, one drive a device. -/
structure Driven (rs : List Routine) (n : DevId → ℕ) (frames : DevId → ℕ → ℕ) (k : Kernel) :
    Prop where
  wellFormed : WellFormed k
  owned : Owned n k
  scripts : Scripts DriverTask k
  described : Described frames k
  budget : ∀ g, Budget (rs.count (.drive g)) g k
  enough : ∀ during, k.pc ≠ .panicked during .noMoreDesc

namespace Driven
variable {rs : List Routine}

/-- A request finds two descriptors. -/
theorem two_free {len : ℕ} {rest : List Op} (h : Driven rs n frames k)
    (hrs : ∀ g, rs.count (.drive g) ≤ 1) (hn : ∀ g, .drive g ∈ rs → 14 ≤ n g)
    (run : Running k t (.request g len) rest) :
    2 ≤ (k.dev g).virtio.queuesFree.free.length := by
  have hr := (h.scripts t).2.cases ((h.scripts t).1.takes_request run.takes)
  have hlt := h.wellFormed.running_lt run.pc
  have hfree := (h.budget g).free_length (hrs g) h.scripts h.owned hlt hr run.await
  have hn := hn g (List.count_pos_iff.mp ((h.budget g).one_le hlt hr))
  obtain hten | hten := (h.budget g).ten <;> omega

theorem boot {config : DevId → GpuConfig}
    (hrs : ∀ r ∈ rs, r = .client none ∨ ∃ g, r = .drive g) :
    Driven rs (fun g => (config g).queueSize) (fun g => (config g).addr)
      (Kernel.boot config rs) where
  wellFormed := .boot config rs
  owned := .boot config rs
  scripts := .boot (by simp [DriverTask]) fun r hr => by
    obtain rfl | ⟨g, rfl⟩ := hrs r hr <;> simp [DriverTask]
  described := .boot config rs
  budget := .boot hrs
  enough := by simp

theorem step (h : Driven rs n frames k) (hrs : ∀ g, rs.count (.drive g) ≤ 1)
    (hn : ∀ g, .drive g ∈ rs → 14 ≤ n g) (hstep : Steps k l k') : Driven rs n frames k' where
  wellFormed := h.wellFormed.step hstep
  owned := h.owned.step h.wellFormed hstep
  scripts := h.scripts.step DriverTask.spawns hstep
  described := h.described.step h.wellFormed h.owned hstep
  budget g := (h.budget g).step (hrs g)
    (fun hg => hn g (List.count_pos_iff.mp (hg ▸ Nat.one_pos))) h.wellFormed h.scripts h.owned
    hstep
  enough during hpc := by
    cases hstep with
    | control move =>
      cases move with
      | noMoreDesc run unlocked short =>
        have := h.two_free hrs hn run
        omega
      | _ => simp at hpc
    | spawnPanic pc pop full => rcases full with ⟨-, rfl⟩ | ⟨-, rfl⟩ <;> simp at hpc
    | popTask | wakeYielderPanic | checkallPast | checkallPanic | yieldFirst | register
    | finish => simp [finish] at hpc
    | _ => exact h.enough during hpc

theorem descriptorLaw (h : Driven rs n frames k) (hrs : ∀ g, rs.count (.drive g) ≤ 1)
    (hn : ∀ g, .drive g ∈ rs → 14 ≤ n g) (g : DevId) : DescriptorLaw n frames g k where
  partition := h.owned.perm g
  startUps := (h.budget g).ten
  request t len rest run := by
    have htwo := h.two_free hrs hn run
    cases hfree : (k.dev g).virtio.getFreeTwiceDescId with
    | none =>
      have := QueueFreeDescs.getFreeTwice_eq_none.mp (Option.map_eq_none_iff.mp hfree)
      omega
    | some free =>
      obtain ⟨⟨descId, descNextId⟩, v⟩ := free
      obtain ⟨hlist, -⟩ := Virtio.getFreeTwiceDescId_eq_some hfree
      have hnodup := h.owned.free_nodup g
      rw [hlist] at hnodup
      have hnot : ∀ u, ∀ i ∈ (k.dev g).virtio.queuesFree.free, i ∉ (k.fut u).ids g := by
        intro u i hi hids
        obtain hu | hu := Nat.lt_or_ge u k.nextId
        · exact h.owned.not_free_of_ids hu hids hi
        · have hnone : (k.fut u).await = none := by
            by_contra hawait
            exact hu.not_gt (h.wellFormed.live_lt u (.inl (h.wellFormed.await u hawait)))
          simp [Fut.ids_of_none hnone] at hids
      refine ⟨descId, descNextId, v, rfl, ?_, fun u => ⟨?_, ?_⟩⟩
      · rintro rfl
        simp at hnodup
      · exact hnot u descId (by simp [hlist])
      · exact hnot u descNextId (by simp [hlist])
  addr := h.described.addr g
  pair t head tail len hin :=
    ⟨h.described.head t g head tail len hin, h.described.tail t g head tail len hin⟩

end Driven

/-- With one drive for each device of at least 14 descriptors, no request fails and every
descriptor has one owner. -/
theorem gpu_descriptors_owned {config : DevId → GpuConfig} {rs : List Routine}
    (hrs : ∀ r ∈ rs, r = .client none ∨ ∃ g, r = .drive g) (honce : ∀ g, rs.count (.drive g) ≤ 1)
    (hn : ∀ g, .drive g ∈ rs → 14 ≤ (config g).queueSize)
    (h : Transition.Reach step (fun _ _ _ => True) (boot config rs) k) :
    (∀ g, DescriptorLaw (fun g => (config g).queueSize) (fun g => (config g).addr) g k) ∧
      ∀ during, k.pc ≠ .panicked during .noMoreDesc := by
  have hdriven := h.invariant (Driven.boot hrs) fun _ _ _ _ hk hstep _ =>
    hk.step honce hn (steps_of_step hstep)
  exact ⟨hdriven.descriptorLaw honce hn, hdriven.enough⟩

theorem gpu_descriptors_owned_firstRequest :
    let k := (Transition.run step (fun _ _ _ => True) firstRequest
      (boot blankConfig [.drive 0])).get (by decide)
    (∀ g, DescriptorLaw (fun _ => 16) (fun _ _ => 0) g k) ∧
      ∀ during, k.pc ≠ .panicked during .noMoreDesc :=
  @gpu_descriptors_owned _ blankConfig [.drive 0] (by simp) (fun _ => List.count_le_length)
    (fun _ _ => (by decide : 14 ≤ 16)) (Transition.Reach.run_get _ _)

end Kernel
end Fomos
