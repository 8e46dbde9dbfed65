import Mathlib
import Fomos.Kernel.Payloads
import Fomos.Memory.PhysicalMap
import Fomos.Virtio.Handshake

/-!
# From the memory map to the requests

The frame allocator gives `Virtio::init` the pages of the queues, and the kernel runs with the
addresses that then stand in the tables. So its buffers are pages of their own, and what the
requests and the answers write stays in them.
-/
namespace Fomos
open FrameCalls
open ReprC (ofBytes toBytes ofBytes_toBytes)

/-- The number in some bytes of the memory. -/
def readNat (mem : ℕ → BitVec 8) (addr n : ℕ) : ℕ := ofBytes (Cells.load mem addr n)

namespace FrameCalls

/-- A device as `drive` gets it: queue 0 with its table and its rings. -/
def Started.gpuConfig (s : Started) (numCapsets : ℕ) (mem : ℕ → BitVec 8) : GpuConfig :=
  let q := s.cfg.queue 0
  { queueSize := q.queueSize
    numCapsets := numCapsets
    addr := fun i => if i < q.queueSize then readNat mem (q.queueDesc + sizeOfDesc * i) 8 else 0
    driverRing := fun i => readNat mem (q.queueDriver + 4 + 2 * i) 2
    deviceRing := fun i => ⟨readNat mem (q.queueDevice + 4 + 8 * i) 4,
      readNat mem (q.queueDevice + 8 + 8 * i) 4⟩ }

/-- The devices with a `drive`, the first of which is device 0. -/
def gpus (started : List Started) : List Started :=
  started.filter fun s => s.driver.deviceType = .gpu

end FrameCalls

/-- Where there is no device, one that is behind all memory and never runs. -/
def bootConfig (started : List Started) (numCapsets : DevId → ℕ) (mem : ℕ → BitVec 8)
    (g : DevId) : GpuConfig :=
  match (gpus started)[g]? with
  | some s => s.gpuConfig (numCapsets g) mem
  | none => ⟨1, 0, fun i => pageSize * (2 ^ 64 + Nat.pair g i), fun _ => 0, fun _ => ⟨0, 0⟩⟩

/-- The registers and the memory of a queue hold what the driver starts from. -/
structure Virtio.Stands (v : Virtio) (q : QueueCfg) (mem : ℕ → BitVec 8) : Prop where
  size : v.rings.queueSize = q.queueSize
  desc : ∀ i < q.queueSize,
    Cells.load mem (q.queueDesc + sizeOfDesc * i) sizeOfDesc = (v.descs i).bytes
  driverIdx : readNat mem (q.queueDriver + 2) 2 = v.rings.driverIdx
  driverRing : ∀ i < q.queueSize,
    readNat mem (q.queueDriver + 4 + 2 * i) 2 = v.rings.driverRing i
  deviceIdx : readNat mem (q.queueDevice + 2) 2 = v.rings.deviceIdx
  deviceRing : ∀ i < q.queueSize, ⟨readNat mem (q.queueDevice + 4 + 8 * i) 4,
    readNat mem (q.queueDevice + 8 + 8 * i) 4⟩ = v.rings.deviceRing i

/-! ## The pages -/

lemma Took.lt {replies : List (Option PhysFrame)} {addrs : List ℕ} (h : Took replies addrs) :
    ∀ addr ∈ addrs, addr < 2 ^ 64 := by
  obtain ⟨frames, -, haddrs⟩ := h
  intro addr haddr
  have hsome := List.mem_map_of_mem (f := some) haddr
  rw [haddrs] at hsome
  obtain ⟨f, -, hf⟩ := List.mem_map.mp hsome
  have := VirtAddr.new_bounds hf
  omega

lemma readNat_toBytes {mem : ℕ → BitVec 8} {addr n value : ℕ} {rest : List (BitVec 8)} {k : ℕ}
    (h : Cells.load mem addr k = toBytes n value ++ rest) (hn : n ≤ k) (hvalue : value < 256 ^ n) :
    readNat mem addr n = value := by
  have htake := congrArg (List.take n) h
  rw [Cells.take_load hn, List.take_left' (by simp)] at htake
  rw [readNat, htake, ofBytes_toBytes, Nat.mod_eq_of_lt hvalue]

/-- What lies in one list of pages alone tells the list, and its place there tells the place. -/
lemma getElem_flatMap_inj {α β : Type*} {xs : List α} {f : α → List β} (h : (xs.flatMap f).Nodup)
    {i i' j j' : ℕ} {x x' : α} (hx : xs[i]? = some x) (hx' : xs[i']? = some x') {y : β}
    (hy : (f x)[j]? = some y) (hy' : (f x')[j']? = some y) : i = i' ∧ j = j' := by
  obtain ⟨hall, hdisjoint⟩ := List.nodup_flatMap.mp h
  obtain ⟨hi, rfl⟩ := List.getElem?_eq_some_iff.mp hx
  obtain ⟨hi', rfl⟩ := List.getElem?_eq_some_iff.mp hx'
  have hsame : i = i' := by
    have hmem := List.mem_of_getElem? hy
    have hmem' := List.mem_of_getElem? hy'
    have hapart := List.pairwise_iff_getElem.mp hdisjoint
    obtain hlt | heq | hlt := Nat.lt_trichotomy i i'
    · exact absurd hmem' (hapart i i' hi hi' hlt hmem)
    · exact heq
    · exact absurd hmem (hapart i' i hi' hi hlt hmem')
  subst hsame
  refine ⟨rfl, ?_⟩
  obtain ⟨hj, hyj⟩ := List.getElem?_eq_some_iff.mp hy
  obtain ⟨hj', hyj'⟩ := List.getElem?_eq_some_iff.mp hy'
  exact (List.Nodup.getElem_inj_iff (hall _ (List.getElem_mem hi))).mp (hyj.trans hyj'.symm)

section Boot
variable {devices : List Found} {xs : List (Started × List QueueArea)}
  {replies : List (Option PhysFrame)} {mem : ℕ → BitVec 8} {c : DevId → ℕ} {g : DevId}
  {s : Started}

/-- The pages of queue 0 of the device that is driven as `g`. -/
structure Queue0 (xs : List (Started × List QueueArea)) (g : DevId) (s : Started)
    (area : QueueArea) : Prop where
  mem : area ∈ xs.flatMap Prod.snd
  place : ∃ x : Started × List QueueArea, x.1 = s ∧ x.2.head? = some area ∧
    (xs.filter fun x => x.1.driver.deviceType = .gpu)[g]? = some x
  queue : s.cfg.queue 0 =
    ⟨area.buffers.length, 1, area.desc, area.driver, area.device⟩

lemma queue0_of_gpu (hall : StartedAll devices xs replies)
    (hqueues : ∀ d ∈ devices, d.backend.numQueues ≠ 0)
    (hs : (gpus (xs.map Prod.fst))[g]? = some s) :
    ∃ area, Queue0 xs g s area ∧ ∃ d ∈ devices, area.buffers.length = d.backend.queueSize 0 := by
  have hgpus : gpus (xs.map Prod.fst) =
      (xs.filter fun x => x.1.driver.deviceType = .gpu).map Prod.fst := by
    rw [gpus, List.filter_map]
    rfl
  rw [hgpus, List.getElem?_map] at hs
  obtain ⟨x, hx, rfl⟩ := Option.map_eq_some_iff.mp hs
  have hmem : x ∈ xs := (List.mem_filter.mp (List.mem_of_getElem? hx)).1
  obtain ⟨i, hi, rfl⟩ := List.getElem_of_mem hmem
  have hd := List.Forall₂.length_eq hall.each
  have hlive := ((List.forall₂_iff_get.mp hall.each).2 i (hd ▸ hi) hi).live
  have hlen : 0 < xs[i].2.length := by
    rw [show xs[i].2.length = _ from hlive.length]
    exact Nat.pos_of_ne_zero (hqueues _ (List.get_mem ..))
  have hhead : xs[i].2[0]? = some xs[i].2[0] := List.getElem?_eq_getElem hlen
  obtain ⟨hbuffers, hqueue⟩ := hlive.queue 0 _ hhead
  refine ⟨xs[i].2[0], ⟨List.mem_flatMap.mpr ⟨_, hmem, List.getElem_mem hlen⟩,
    ⟨xs[i], rfl, by rw [List.head?_eq_getElem?, hhead], hx⟩, ?_⟩, _, List.get_mem .., hbuffers⟩
  rw [hbuffers]
  exact hqueue

namespace Queue0
variable {area : QueueArea}

lemma config (hs : (gpus (xs.map Prod.fst))[g]? = some s) :
    bootConfig (xs.map Prod.fst) c mem g = s.gpuConfig (c g) mem := by
  rw [bootConfig, hs]

lemma queueSize (h : Queue0 xs g s area) :
    (s.gpuConfig (c g) mem).queueSize = area.buffers.length := by
  rw [Started.gpuConfig, h.queue]

/-- The addresses in the table are those of the buffers. -/
lemma addr (h : Queue0 xs g s area) (htook : Took replies ((xs.flatMap Prod.snd).flatMap
    QueueArea.pages)) (hstored : area.Stored mem) {i : ℕ} (hi : i < area.buffers.length) :
    (s.gpuConfig (c g) mem).addr i = area.buffers[i] := by
  have hlt : area.buffers[i] < 2 ^ 64 := by
    refine htook.lt _ (List.mem_flatMap.mpr ⟨area, h.mem, ?_⟩)
    exact List.mem_cons_of_mem _ (List.mem_append_left _ (List.getElem_mem hi))
  simp only [Started.gpuConfig, h.queue, hi, if_true]
  have hdesc := hstored.desc i hi
  rw [Desc.bytes, List.append_assoc, List.append_assoc] at hdesc
  exact readNat_toBytes hdesc (by decide) hlt

end Queue0

/-- The page of a descriptor's buffer, by its place among the pages of the devices. -/
lemma Queue0.getElem? {area : QueueArea} (h : Queue0 xs g s area) {i : ℕ}
    (hi : i < area.buffers.length) : ∃ x,
    (xs.filter fun x => x.1.driver.deviceType = .gpu)[g]? = some x ∧
      (x.2.flatMap QueueArea.pages)[i + 1]? = some area.buffers[i] := by
  obtain ⟨x, -, hhead, hx⟩ := h.place
  obtain ⟨areas, hareas⟩ := List.head?_eq_some_iff.mp hhead
  refine ⟨x, hx, ?_⟩
  rw [hareas, List.flatMap_cons, QueueArea.pages, List.cons_append, List.cons_append,
    List.getElem?_cons_succ, List.append_assoc, List.getElem?_append_left hi,
    List.getElem?_eq_getElem hi]

lemma nodup_gpus (hall : StartedAll devices xs replies) :
    ((xs.filter fun x => x.1.driver.deviceType = .gpu).flatMap fun x =>
      x.2.flatMap QueueArea.pages).Nodup := by
  refine hall.nodup.sublist ?_
  rw [List.flatMap_assoc]
  exact (List.filter_sublist).flatMap _

/-- A descriptor's address: that of a buffer, or one behind all memory. -/
inductive Address (xs : List (Started × List QueueArea)) (g : DevId) (i a : ℕ) : Prop
  | buffer {s area} (queue : Queue0 xs g s area) (hi : i < area.buffers.length)
      (eq : a = area.buffers[i])
  | absent (eq : a = pageSize * (2 ^ 64 + Nat.pair g i))

lemma address_cases (hall : StartedAll devices xs replies)
    (hqueues : ∀ d ∈ devices, d.backend.numQueues ≠ 0)
    (hstored : ∀ area ∈ xs.flatMap Prod.snd, area.Stored mem) (g : DevId) (i : ℕ) :
    Address xs g i ((bootConfig (xs.map Prod.fst) c mem g).addr i) ∨
      (bootConfig (xs.map Prod.fst) c mem g).queueSize ≤ i ∧
        (bootConfig (xs.map Prod.fst) c mem g).addr i = 0 := by
  cases hs : (gpus (xs.map Prod.fst))[g]? with
  | none =>
    rw [bootConfig, hs]
    exact .inl (.absent rfl)
  | some s =>
    obtain ⟨area, harea, -⟩ := queue0_of_gpu hall hqueues hs
    rw [Queue0.config hs, harea.queueSize]
    obtain hi | hi := Nat.lt_or_ge i area.buffers.length
    · exact .inl (.buffer harea hi (harea.addr hall.took (hstored area harea.mem) hi))
    · refine .inr ⟨hi, ?_⟩
      simp [Started.gpuConfig, harea.queue, Nat.not_lt_of_le hi]

lemma Queue0.mem_pages {i : ℕ} {area : QueueArea} (h : Queue0 xs g s area)
    (hi : i < area.buffers.length) :
    area.buffers[i] ∈ (xs.flatMap Prod.snd).flatMap QueueArea.pages := by
  refine List.mem_flatMap.mpr ⟨area, h.mem, ?_⟩
  exact List.mem_cons_of_mem _ (List.mem_append_left _ (List.getElem_mem hi))

namespace Address
variable {g' : DevId} {i i' a : ℕ}

lemma dvd (hall : StartedAll devices xs replies) (h : Address xs g i a) : pageSize ∣ a := by
  cases h with
  | buffer queue hi heq =>
    rw [heq]
    exact hall.took.dvd _ (queue.mem_pages hi)
  | absent heq =>
    rw [heq]
    exact Nat.dvd_mul_right _ _

/-- Each address tells its descriptor. -/
lemma inj (hall : StartedAll devices xs replies) (h : Address xs g i a)
    (h' : Address xs g' i' a) : g = g' ∧ i = i' := by
  have hfar : ∀ {g s area i g' i'}, Queue0 xs g s area → (hi : i < area.buffers.length) →
      area.buffers[i] ≠ pageSize * (2 ^ 64 + Nat.pair g' i') := by
    intro g s area i g' i' queue hi heq
    have := hall.took.lt _ (queue.mem_pages hi)
    unfold pageSize at heq
    omega
  cases h with
  | buffer queue hi heq =>
    cases h' with
    | buffer queue' hi' heq' =>
      obtain ⟨x, hx, hpage⟩ := queue.getElem? hi
      obtain ⟨x', hx', hpage'⟩ := queue'.getElem? hi'
      rw [← heq] at hpage
      rw [← heq'] at hpage'
      obtain ⟨hg, hsucc⟩ := getElem_flatMap_inj (nodup_gpus hall) hx hx' hpage hpage'
      exact ⟨hg, Nat.succ.inj hsucc⟩
    | absent heq' => exact absurd (heq.symm.trans heq') (hfar queue hi)
  | absent heq =>
    cases h' with
    | buffer queue' hi' heq' => exact absurd (heq'.symm.trans heq) (hfar queue' hi')
    | absent heq' =>
      have hmul := Nat.eq_of_mul_eq_mul_left (by decide) (heq.symm.trans heq')
      exact Nat.pair_eq_pair.mp (Nat.add_left_cancel hmul)

end Address

/-- The buffers of all devices are different pages. -/
lemma paged_bootConfig (hall : StartedAll devices xs replies)
    (hqueues : ∀ d ∈ devices, d.backend.numQueues ≠ 0)
    (hstored : ∀ area ∈ xs.flatMap Prod.snd, area.Stored mem) :
    Payloads.Paged (fun g => (bootConfig (xs.map Prod.fst) c mem g).queueSize)
      fun g => (bootConfig (xs.map Prod.fst) c mem g).addr := by
  have hcases := fun g i => address_cases (c := c) hall hqueues hstored g i
  refine ⟨fun g i => ?_, fun g i g' i' hi hi' heq => ?_⟩
  · obtain haddress | ⟨-, hzero⟩ := hcases g i
    · exact haddress.dvd hall
    · exact hzero ▸ Nat.dvd_zero _
  · have haddress := (hcases g i).resolve_right fun h => absurd hi (Nat.not_lt_of_le h.1)
    have haddress' := (hcases g' i').resolve_right fun h => absurd hi' (Nat.not_lt_of_le h.1)
    exact haddress.inj hall (heq ▸ haddress')

lemma queueSize_bootConfig (hall : StartedAll devices xs replies)
    (hqueues : ∀ d ∈ devices, d.backend.numQueues ≠ 0)
    (hsizes : ∀ d ∈ devices, QueueSize (d.backend.queueSize 0)) (g : DevId) :
    QueueSize (bootConfig (xs.map Prod.fst) c mem g).queueSize := by
  cases hs : (gpus (xs.map Prod.fst))[g]? with
  | none =>
    rw [bootConfig, hs]
    exact ⟨0, by decide, rfl⟩
  | some s =>
    obtain ⟨area, harea, d, hd, hlen⟩ := queue0_of_gpu hall hqueues hs
    rw [Queue0.config hs, harea.queueSize, hlen]
    exact hsizes d hd

/-! ## What the kernel starts from -/

namespace QueueArea
variable {areas : List QueueArea} {area other : QueueArea}

/-- Pages that serve different ends differ. -/
lemma ring_ne (hnodup : (areas.flatMap pages).Nodup) (harea : area ∈ areas)
    (hother : other ∈ areas) :
    area.driver ≠ other.desc ∧ area.device ≠ other.desc ∧ area.device ≠ other.driver := by
  obtain ⟨i, hi⟩ := List.mem_iff_getElem?.mp harea
  obtain ⟨j, hj⟩ := List.mem_iff_getElem?.mp hother
  have hdesc : ∀ area : QueueArea, area.pages[0]? = some area.desc := fun _ => rfl
  have hdriver : ∀ area : QueueArea, area.pages[area.buffers.length + 1]? = some area.driver := by
    simp [pages]
  have hdevice : ∀ area : QueueArea, area.pages[area.buffers.length + 2]? = some area.device := by
    simp [pages]
  refine ⟨fun heq => ?_, fun heq => ?_, fun heq => ?_⟩
  · have := getElem_flatMap_inj hnodup hi hj (hdriver area) (heq ▸ hdesc other)
    omega
  · have := getElem_flatMap_inj hnodup hi hj (hdevice area) (heq ▸ hdesc other)
    omega
  · obtain ⟨rfl, hlen⟩ := getElem_flatMap_inj hnodup hi hj (hdevice area) (heq ▸ hdriver other)
    cases hi.symm.trans hj
    omega

/-- Of the rings, only the flags of the avail ring are written. -/
lemma storeAll_ring {mem : ℕ → BitVec 8} (hsound : ∀ area ∈ areas, area.Sound)
    (hnodup : (areas.flatMap pages).Nodup) (harea : area ∈ areas) {x : ℕ}
    (hx : area.driver + 2 ≤ x ∧ x < area.driver + 4096 ∨
      area.device ≤ x ∧ x < area.device + 4096) :
    storeAll areas mem x = mem x := by
  refine storeAll_outside fun other hother hcell => ?_
  obtain ⟨hdesc, hdesc', hdriver⟩ := ring_ne hnodup harea hother
  have hdvd := (hsound area harea).dvd
  have hdvd₁ := hdvd area.driver (by simp [pages])
  have hdvd₂ := hdvd area.device (by simp [pages])
  have hdvd₃ := (hsound other hother).dvd other.desc (by simp [pages])
  have hdvd₄ := (hsound other hother).dvd other.driver (by simp [pages])
  have hle := (hsound other hother).le
  unfold Cell sizeOfDesc at hcell
  omega

end QueueArea

lemma boot_dev (config : DevId → GpuConfig) (rs : List Routine) (g : DevId) :
    (Kernel.boot config rs).dev g = Gpu.init (config g) :=
  Kernel.boot_induction (P := fun k => k.dev g = Gpu.init (config g)) rfl fun _ _ _ h => h

/-- `init` does not clear the rings: the kernel's first state stands in memory if and only if their
pages were handed out with both indices 0. -/
lemma stands_iff {area : QueueArea} {mem' : ℕ → BitVec 8} (h : Queue0 xs g s area)
    (hall : StartedAll devices xs replies)
    (hmem : mem' = QueueArea.storeAll (xs.flatMap Prod.snd) mem)
    (hs : (gpus (xs.map Prod.fst))[g]? = some s) :
    (Gpu.init (bootConfig (xs.map Prod.fst) c mem' g)).virtio.Stands (s.cfg.queue 0) mem' ↔
      readNat mem ((s.cfg.queue 0).queueDriver + 2) 2 = 0 ∧
        readNat mem ((s.cfg.queue 0).queueDevice + 2) 2 = 0 := by
  have hstored : area.Stored mem' :=
    hmem ▸ QueueArea.stored_storeAll hall.sound hall.nodup area h.mem
  have hring : ∀ {x}, (area.driver + 2 ≤ x ∧ x < area.driver + 4096 ∨
      area.device ≤ x ∧ x < area.device + 4096) → mem' x = mem x := fun hx =>
    hmem ▸ QueueArea.storeAll_ring hall.sound hall.nodup h.mem hx
  have hdriver : readNat mem' ((s.cfg.queue 0).queueDriver + 2) 2 =
      readNat mem ((s.cfg.queue 0).queueDriver + 2) 2 := by
    refine congrArg ofBytes (Cells.load_congr fun i hi => hring (.inl ?_))
    simp only [h.queue]
    omega
  have hdevice : readNat mem' ((s.cfg.queue 0).queueDevice + 2) 2 =
      readNat mem ((s.cfg.queue 0).queueDevice + 2) 2 := by
    refine congrArg ofBytes (Cells.load_congr fun i hi => hring (.inr ?_))
    simp only [h.queue]
    omega
  rw [Queue0.config hs, ← hdriver, ← hdevice]
  refine ⟨fun hstands => ⟨hstands.driverIdx, hstands.deviceIdx⟩, fun hzero => ?_⟩
  refine ⟨rfl, fun i hi => ?_, hzero.1, fun i _ => rfl, hzero.2, fun i _ => rfl⟩
  have hi' : i < area.buffers.length := by rwa [h.queue] at hi
  have haddr := h.addr (c := c) hall.took hstored hi'
  simp only [Gpu.init, Virtio.init, haddr]
  rw [h.queue]
  exact hstored.desc i hi'

end Boot

/-! ## The run -/

namespace Payloads
variable {m m' : Payloads} {l : Label} {n : DevId → ℕ} {frames : DevId → ℕ → ℕ}

/-- The cell is in no buffer. -/
def Outside (n : DevId → ℕ) (frames : DevId → ℕ → ℕ) (x : ℕ) : Prop :=
  ∀ g i, i < n g → x < frames g i ∨ frames g i + pageSize ≤ x

/-- Requests and answers are written into buffers only. -/
lemma outside_step (hlaw : Lawful n frames m.kernel) (hdesc : Kernel.Described frames m'.kernel)
    (hstep : Steps m l m') {x : ℕ} (hx : Outside n frames x) : m'.mem x = m.mem x := by
  obtain ⟨hw, ho, -⟩ := hlaw.separate
  cases hstep with
  | quiet | release | devRead => rfl
  | @request g len data t rest descId descNextId v k' run free length fits =>
    have haddr : ((k'.dev g).virtio.descs descId).addr = frames g descId := hdesc.addr g descId
    have hlt : descId < n g := by
      refine ho.lt_of_free ?_
      rw [(Virtio.getFreeTwiceDescId_eq_some free).1]
      exact List.mem_cons_self ..
    simp only [haddr]
    refine Cells.store_outside ((hx g descId hlt).imp_right fun h => ?_)
    exact (Nat.add_le_add_left (length ▸ fits) _).trans h
  | devPush held fits =>
    obtain ⟨hle, hwrites⟩ := Intact.writes_of_held hlaw held fits
    simp only [hlaw.described.addr]
    refine Cells.store_outside ((hx _ _ hwrites.lt).imp_right fun h => ?_)
    exact (Nat.add_le_add_left hle _).trans h

lemma outside_of_reach {config : DevId → GpuConfig} {rs : List Routine} {mem : ℕ → BitVec 8}
    (hn : ∀ g, QueueSize (config g).queueSize)
    (h : Transition.Reach step (fun m l _ => m.kernel.NoCollision l.1) (start config rs mem) m)
    {x : ℕ} (hx : Outside (fun g => (config g).queueSize) (fun g => (config g).addr) x) :
    m.mem x = mem x := by
  have hinv := h.invariant
    (I := fun m => Lawful (fun g => (config g).queueSize) (fun g => (config g).addr) m.kernel ∧
      m.mem x = mem x) ⟨.boot config rs, rfl⟩ fun m l m' _ hm hstep hnc => by
      have hlaw := hm.1.step hn hnc (Kernel.steps_of_step (kernel_step hstep))
      exact ⟨hlaw, (outside_step hm.1 hlaw.described (steps_of_step hstep) hx).trans hm.2⟩
  exact hinv.2

end Payloads

section OnFrames
variable {M : Type} {mapTo : Page → PhysFrame → ℕ → M → FrameCalls (Except MapToError Unit × M)}

end OnFrames
end Fomos
