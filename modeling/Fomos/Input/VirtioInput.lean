import Mathlib
import Fomos.Input.Pipeline
import Fomos.Virtio.RingFifo

/-!
# The buffers of an input device

`virtio_input::drive` cut into its calls, with a device between any two of them that reads the
avail ring, writes an event into a buffer it holds, and returns the ids it has read, each once and
in any order. The log and the list of what was returned are a history that no step reads.
-/
namespace Fomos.VirtioInput

/-- Which loop of `drive` calls `set_writable_available`. -/
inductive Caller
  | start
  | main (used : UsedElem) (evt : VirtioInputEvent)
  deriving DecidableEq, Repr

/-- The call of `drive` that comes next. -/
inductive Pc
  | getFreeDescId
  | nextUsed
  | readDesc (used : UsedElem)
  | readEvent (used : UsedElem) (desc : Desc)
  | update (used : UsedElem) (addr : ℕ) (evt : VirtioInputEvent)
  | setWritable (descId : ℕ) (caller : Caller)
  | setAvailable (descId : ℕ) (caller : Caller)
  | suspended
  | panicked (used : UsedElem) (addr : ℕ) (evt : VirtioInputEvent)
  deriving DecidableEq, Repr

inductive Entry
  /-- `next_used` returned the element. -/
  | used (e : UsedElem)
  /-- `INPUT` was updated for `id` with the event read at `addr`. -/
  | event (id addr : ℕ) (evt : VirtioInputEvent)
  /-- The descriptor was made available. -/
  | available (id : ℕ)
  deriving DecidableEq, Repr

structure Driver where
  pc : Pc
  virtio : Virtio
  /-- The event at the start of the buffer at an address. -/
  memory : ℕ → VirtioInputEvent
  input : Global Input
  /-- The device's own position in the avail ring. -/
  cursor : ℕ
  /-- The ids that the device has read and not returned. -/
  held : List ℕ
  log : List Entry
  /-- What the device returned, with the event that it left in the buffer. -/
  returned : List (UsedElem × VirtioInputEvent)

namespace Driver

/-- Where `set_writable_available` returns to. -/
def back : Caller → Pc
  | .start => .getFreeDescId
  | .main _ _ => .nextUsed

/-- The next call of `drive`. -/
def drive (s : Driver) : Option Driver :=
  match s.pc with
  | .getFreeDescId =>
    match s.virtio.getFreeDescId with
    | some (descId, v) => some { s with virtio := v, pc := .setWritable descId .start }
    | none => some { s with pc := .nextUsed }
  | .nextUsed =>
    match s.virtio.nextUsed with
    | some (used, v) =>
      some { s with virtio := v, pc := .readDesc used, log := s.log ++ [.used used] }
    | none => some { s with pc := .suspended }
  | .readDesc used =>
    some { s with pc := .readEvent used (s.virtio.readDesc (used.id % 2^16)) }
  | .readEvent used desc => some { s with pc := .update used desc.addr (s.memory desc.addr) }
  | .update used addr evt =>
    match s.input.update (Input.handleEvent evt) with
    | some input =>
      some { s with
        input := input, pc := .setWritable (used.id % 2^16) (.main used evt)
        log := s.log ++ [.event used.id addr evt] }
    | none => some { s with pc := .panicked used addr evt }
  | .setWritable descId caller =>
    some { s with virtio := s.virtio.setWritable descId, pc := .setAvailable descId caller }
  | .setAvailable descId caller =>
    some { s with
      virtio := s.virtio.setAvailable descId, pc := back caller
      log := s.log ++ [.available descId] }
  | .suspended => some { s with pc := .nextUsed }
  | .panicked _ _ _ => none

/-- A call of the driver, a step of the device, or a change of `INPUT` by another task while the
driver is suspended. -/
inductive Label
  | drive
  | deviceRead
  | deviceWrite (id : ℕ) (evt : VirtioInputEvent)
  | devicePush (id len : ℕ)
  | otherTask (input : Input)

def step : Label → Driver → Option Driver
  | .drive, s => s.drive
  | .deviceRead, s =>
    (s.virtio.rings.deviceRead s.cursor).map fun id =>
      { s with cursor := wrappingAdd s.cursor 1, held := s.held ++ [id] }
  | .deviceWrite id evt, s =>
    if id ∈ s.held then
      some { s with memory := Function.update s.memory (s.virtio.descs id).addr evt }
    else none
  | .devicePush id len, s =>
    if id ∈ s.held then
      some { s with
        virtio := { s.virtio with rings := s.virtio.rings.devicePush ⟨id, len⟩ }
        held := s.held.erase id
        returned := s.returned ++ [(⟨id, len⟩, s.memory (s.virtio.descs id).addr)] }
    else none
  | .otherTask input, s =>
    if s.pc = .suspended then some { s with input := s.input.store input } else none

/-- What `Virtio::init` gives a queue: its size, the frame behind each descriptor and the pages
of its rings, with whatever the memory holds. -/
structure Config where
  queueSize : ℕ
  addr : ℕ → ℕ
  driverRing : ℕ → ℕ
  deviceRing : ℕ → UsedElem
  memory : ℕ → VirtioInputEvent
  input : Input

/-- The call of `drive`. -/
def boot (c : Config) : Driver where
  pc := .getFreeDescId
  virtio := .init c.queueSize c.addr c.driverRing c.deviceRing
  memory := c.memory
  input := ⟨c.input⟩
  cursor := 0
  held := []
  log := []
  returned := []

/-! ## Where the ids are -/

/-- The entries that one used element leaves in the log. -/
def serve (addr : ℕ → ℕ) (x : UsedElem × VirtioInputEvent) : List Entry :=
  [.used x.1, .event x.1.id (addr x.1.id) x.2, .available x.1.id]

end Driver

namespace Pc
variable (addr : ℕ → ℕ) (memory : ℕ → VirtioInputEvent)

/-- The id that the driver holds between two calls. -/
def own : Pc → List ℕ
  | readDesc used | readEvent used _ | update used _ _ | panicked used _ _ => [used.id]
  | setWritable descId _ | setAvailable descId _ => [descId]
  | _ => []

/-- The used element that is being served. -/
def elem : Pc → List UsedElem
  | readDesc used | readEvent used _ | update used _ _ | panicked used _ _
  | setWritable _ (.main used _) | setAvailable _ (.main used _) => [used]
  | _ => []

/-- The element that is being served with its event, which is still in the buffer until it is
read. -/
def taken : Pc → List (UsedElem × VirtioInputEvent)
  | readDesc used | readEvent used _ => [(used, memory (addr used.id))]
  | update used _ evt | panicked used _ evt
  | setWritable _ (.main used evt) | setAvailable _ (.main used evt) => [(used, evt)]
  | _ => []

/-- What the log has of the element that is being served. -/
def logged : Pc → List Entry
  | readDesc used | readEvent used _ | update used _ _ | panicked used _ _ => [.used used]
  | setWritable _ (.main used evt) | setAvailable _ (.main used evt) =>
    [.used used, .event used.id (addr used.id) evt]
  | _ => []

/-- The id that the start-up loop has taken and not made available. -/
def arming : Pc → List ℕ
  | setWritable descId .start | setAvailable descId .start => [descId]
  | _ => []

/-- The start-up loop runs. -/
def starting : Pc → Bool
  | getFreeDescId | setWritable _ .start | setAvailable _ .start => true
  | _ => false

/-- The local variables of `drive` belong to one element. -/
def Local : Pc → Prop
  | readEvent used desc => desc.addr = addr used.id
  | update used a _ | panicked used a _ => a = addr used.id
  | setWritable descId (.main used _) | setAvailable descId (.main used _) => descId = used.id
  | _ => True

end Pc

namespace Driver
variable {c : Config} {s s' : Driver} {p : Pc} {av : List ℕ}
  {pend served : List (UsedElem × VirtioInputEvent)}

/-- With the driver before the call `p`: the ids `av` wait in the avail ring, `pend` is what the
device returned and the driver has not taken, and `served` what the driver is done with. -/
structure Inv (c : Config) (s : Driver) (p : Pc) (av : List ℕ)
    (pend served : List (UsedElem × VirtioInputEvent)) : Prop where
  size : s.virtio.rings.queueSize = c.queueSize
  avail : AvailFifo s.virtio.rings s.cursor av
  used : UsedFifo s.virtio.rings (pend.map Prod.fst)
  pool : (av ++ s.held ++ pend.map (·.1.id) ++ p.own ++ s.virtio.queuesFree.free).Perm
    (List.range c.queueSize)
  descs : ∀ i, s.virtio.descs i = ⟨c.addr i, 4096, virtqDescFWrite, 0xffff⟩
  locals : p.Local c.addr
  start : p.starting = true → served = []
  main : p.starting = false → s.virtio.queuesFree.free = []
  log : ∃ armed, armed ++ p.arming ++ s.virtio.queuesFree.free = (List.range c.queueSize).reverse ∧
    s.log = armed.map .available ++ served.flatMap (serve c.addr) ++ p.logged c.addr
  elems : s.returned.map Prod.fst = served.map Prod.fst ++ p.elem ++ pend.map Prod.fst
  content : Set.InjOn c.addr {i | i < c.queueSize} →
    s.returned = served ++ p.taken c.addr s.memory ++ pend ∧
      ∀ x ∈ pend, s.memory (c.addr x.1.id) = x.2

namespace Inv

lemma boot (c : Config) : Inv c (boot c) .getFreeDescId [] [] [] where
  size := rfl
  avail := AvailFifo.init _ _ _
  used := UsedFifo.init _ _ _
  pool := List.reverse_perm _
  descs _ := rfl
  locals := trivial
  start _ := rfl
  main := nofun
  log := ⟨[], rfl, rfl⟩
  elems := rfl
  content _ := ⟨rfl, nofun⟩

/-- Every id of the queue is in one place. -/
lemma nodup (h : Inv c s p av pend served) :
    (av ++ s.held ++ pend.map (·.1.id) ++ p.own ++ s.virtio.queuesFree.free).Nodup :=
  h.pool.nodup_iff.mpr List.nodup_range

lemma lt_of_mem (h : Inv c s p av pend served) {i : ℕ}
    (hi : i ∈ av ++ s.held ++ pend.map (·.1.id) ++ p.own ++ s.virtio.queuesFree.free) :
    i < c.queueSize :=
  List.mem_range.mp (h.pool.mem_iff.mp hi)

lemma length_pool (h : Inv c s p av pend served) :
    av.length + s.held.length + pend.length + p.own.length + s.virtio.queuesFree.free.length =
      c.queueSize := by
  simpa [Nat.add_assoc] using h.pool.length_eq

/-- The id that the driver holds survives the `as u16` of the source. -/
lemma own_mod (hn : QueueSize c.queueSize) {used : UsedElem} (hp : used.id ∈ p.own)
    (h : Inv c s p av pend served) : used.id % 2^16 = used.id :=
  Nat.mod_eq_of_lt ((h.lt_of_mem (by simp [hp])).trans hn.lt)

/-! One lemma for each call of `drive`. -/

/-- A call that only moves the driver keeps the ids where they are. -/
lemma move {q : Pc} (h : Inv c s p av pend served) (hown : q.own = p.own) (helem : q.elem = p.elem)
    (htaken : q.taken c.addr s.memory = p.taken c.addr s.memory)
    (hlogged : q.logged c.addr = p.logged c.addr) (harming : q.arming = p.arming)
    (hstarting : q.starting = p.starting) (hlocal : q.Local c.addr) :
    Inv c { s with pc := q } q av pend served where
  size := h.size
  avail := h.avail
  used := h.used
  pool := by rw [hown]; exact h.pool
  descs := h.descs
  locals := hlocal
  start := by rw [hstarting]; exact h.start
  main := by rw [hstarting]; exact h.main
  log := by rw [harming, hlogged]; exact h.log
  elems := by rw [helem]; exact h.elems
  content := by rw [htaken]; exact h.content

lemma getFreeDescId {id : ℕ} {q : QueueFreeDescs} (h : Inv c s .getFreeDescId av pend served)
    (hfree : s.virtio.queuesFree.free = id :: q.free) :
    Inv c { s with
        virtio := { s.virtio with queuesFree := q }, pc := .setWritable id .start }
      (.setWritable id .start) av pend served where
  size := h.size
  avail := h.avail
  used := h.used
  pool := by simpa [Pc.own, hfree] using h.pool
  descs := h.descs
  locals := trivial
  start _ := h.start rfl
  main := nofun
  log := by
    obtain ⟨armed, harmed, hlog⟩ := h.log
    exact ⟨armed, by simpa [Pc.arming, hfree] using harmed, hlog⟩
  elems := h.elems
  content := h.content

lemma startUpDone (h : Inv c s .getFreeDescId av pend served)
    (hfree : s.virtio.queuesFree.free = []) :
    Inv c { s with pc := .nextUsed } .nextUsed av pend served where
  size := h.size
  avail := h.avail
  used := h.used
  pool := h.pool
  descs := h.descs
  locals := trivial
  start := nofun
  main _ := hfree
  log := h.log
  elems := h.elems
  content := h.content

lemma nextUsed_some {x : UsedElem × VirtioInputEvent} {r : Rings}
    (h : Inv c s .nextUsed av (x :: pend) served)
    (hr : r = { s.virtio.rings with lastUsedIdx := wrappingAdd s.virtio.rings.lastUsedIdx 1 })
    (hused : UsedFifo r (pend.map Prod.fst)) :
    Inv c { s with
        virtio := { s.virtio with rings := r }, pc := .readDesc x.1
        log := s.log ++ [.used x.1] }
      (.readDesc x.1) av pend served where
  size := by rw [hr]; exact h.size
  avail := by rw [hr]; exact h.avail.nextUsed _
  used := hused
  pool := by
    refine List.Perm.trans ?_ h.pool
    rw [List.perm_iff_count]
    intro i
    simp only [Pc.own, List.map_cons, List.count_append, List.count_cons, List.count_nil]
    omega
  descs := h.descs
  locals := trivial
  start := nofun
  main _ := h.main rfl
  log := by
    obtain ⟨armed, harmed, hlog⟩ := h.log
    refine ⟨armed, harmed, ?_⟩
    simp only [hlog, Pc.logged, List.append_nil]
  elems := by rw [h.elems]; simp [Pc.elem]
  content hinj := by
    obtain ⟨hret, hmem⟩ := h.content hinj
    obtain ⟨hx, hpend⟩ := List.forall_mem_cons.mp hmem
    refine ⟨?_, hpend⟩
    rw [hret]
    simp [Pc.taken, hx]

lemma readDesc {used : UsedElem} (hn : QueueSize c.queueSize)
    (h : Inv c s (.readDesc used) av pend served) :
    Inv c { s with pc := .readEvent used (s.virtio.readDesc (used.id % 2^16)) }
      (.readEvent used (s.virtio.readDesc (used.id % 2^16))) av pend served := by
  have hid := own_mod hn (List.mem_singleton.mpr rfl) h
  refine h.move rfl rfl rfl rfl rfl rfl ?_
  rw [hid, Virtio.readDesc, Pc.Local, h.descs]

lemma readEvent {used : UsedElem} {desc : Desc}
    (h : Inv c s (.readEvent used desc) av pend served) :
    Inv c { s with pc := .update used desc.addr (s.memory desc.addr) }
      (.update used desc.addr (s.memory desc.addr)) av pend served := by
  have haddr : desc.addr = c.addr used.id := h.locals
  refine h.move rfl rfl ?_ rfl rfl rfl haddr
  rw [haddr]
  rfl

lemma update_some {used : UsedElem} {addr : ℕ} {evt : VirtioInputEvent} {input : Global Input}
    (hn : QueueSize c.queueSize) (h : Inv c s (.update used addr evt) av pend served) :
    Inv c { s with
        input := input, pc := .setWritable (used.id % 2^16) (.main used evt)
        log := s.log ++ [.event used.id addr evt] }
      (.setWritable (used.id % 2^16) (.main used evt)) av pend served where
  size := h.size
  avail := h.avail
  used := h.used
  pool := by
    have hid := own_mod hn (List.mem_singleton.mpr rfl) h
    simpa only [Pc.own, hid] using h.pool
  descs := h.descs
  locals := own_mod hn (List.mem_singleton.mpr rfl) h
  start := nofun
  main _ := h.main rfl
  log := by
    obtain ⟨armed, harmed, hlog⟩ := h.log
    have haddr : addr = c.addr used.id := h.locals
    refine ⟨armed, harmed, ?_⟩
    rw [hlog, haddr, List.append_assoc]
    rfl
  elems := h.elems
  content := h.content

/-- `set_writable` writes what `init` wrote. -/
lemma setWritable_eq (h : Inv c s p av pend served) (descId : ℕ) :
    s.virtio.setWritable descId = s.virtio := by
  have hdescs : (s.virtio.setWritable descId).descs = s.virtio.descs := by
    funext i
    simp only [Virtio.setWritable, Function.update_apply, h.descs]
    split_ifs with hi
    · rw [hi]
    · rfl
  exact congrArg (fun descs => { s.virtio with descs := descs }) hdescs

lemma setWritable {descId : ℕ} {caller : Caller}
    (h : Inv c s (.setWritable descId caller) av pend served) :
    Inv c { s with virtio := s.virtio.setWritable descId, pc := .setAvailable descId caller }
      (.setAvailable descId caller) av pend served := by
  rw [h.setWritable_eq]
  cases caller with
  | start => exact h.move rfl rfl rfl rfl rfl rfl trivial
  | main used evt => exact h.move rfl rfl rfl rfl rfl rfl h.locals

lemma setAvailable_fifo {descId : ℕ} {caller : Caller} (hn : QueueSize c.queueSize)
    (h : Inv c s (.setAvailable descId caller) av pend served) :
    AvailFifo (s.virtio.rings.setAvailable descId) s.cursor (av ++ [descId]) := by
  have hlength : av.length + s.held.length + pend.length + 1 +
      s.virtio.queuesFree.free.length = c.queueSize := h.length_pool
  exact h.avail.setAvailable (h.size ▸ hn) (by rw [h.size]; omega)

lemma setAvailable_start {descId : ℕ} (hn : QueueSize c.queueSize)
    (h : Inv c s (.setAvailable descId .start) av pend served) :
    Inv c { s with
        virtio := s.virtio.setAvailable descId, pc := .getFreeDescId
        log := s.log ++ [.available descId] }
      .getFreeDescId (av ++ [descId]) pend served where
  size := h.size
  avail := h.setAvailable_fifo hn
  used := h.used.setAvailable _
  pool := by
    refine List.Perm.trans ?_ h.pool
    rw [List.perm_iff_count]
    intro i
    simp only [Pc.own, Virtio.setAvailable, List.count_append, List.count_nil]
    omega
  descs := h.descs
  locals := trivial
  start _ := h.start rfl
  main := nofun
  log := by
    obtain ⟨armed, harmed, hlog⟩ := h.log
    refine ⟨armed ++ [descId], by simpa [Pc.arming, Virtio.setAvailable] using harmed, ?_⟩
    simp [hlog, h.start rfl, Pc.logged]
  elems := h.elems
  content := h.content

lemma setAvailable_main {descId : ℕ} {used : UsedElem} {evt : VirtioInputEvent}
    (hn : QueueSize c.queueSize)
    (h : Inv c s (.setAvailable descId (.main used evt)) av pend served) :
    Inv c { s with
        virtio := s.virtio.setAvailable descId, pc := .nextUsed
        log := s.log ++ [.available descId] }
      .nextUsed (av ++ [descId]) pend (served ++ [(used, evt)]) where
  size := h.size
  avail := h.setAvailable_fifo hn
  used := h.used.setAvailable _
  pool := by
    refine List.Perm.trans ?_ h.pool
    rw [List.perm_iff_count]
    intro i
    simp only [Pc.own, Virtio.setAvailable, List.count_append, List.count_nil]
    omega
  descs := h.descs
  locals := trivial
  start := nofun
  main _ := h.main rfl
  log := by
    obtain ⟨armed, harmed, hlog⟩ := h.log
    have hid : descId = used.id := h.locals
    refine ⟨armed, harmed, ?_⟩
    rw [hlog, hid]
    simp [Pc.logged, serve]
  elems := by rw [h.elems]; simp [Pc.elem]
  content hinj := by
    obtain ⟨hret, hpend⟩ := h.content hinj
    refine ⟨?_, hpend⟩
    rw [hret]
    simp [Pc.taken]

/-! One lemma for each step of the device. -/

lemma deviceRead {id : ℕ} (hn : QueueSize c.queueSize) (h : Inv c s p av pend served)
    (hread : s.virtio.rings.deviceRead s.cursor = some id) :
    ∃ ids, Inv c { s with cursor := wrappingAdd s.cursor 1, held := s.held ++ [id] } p ids pend
      served := by
  rw [h.avail.deviceRead (h.size ▸ hn)] at hread
  obtain ⟨ids, rfl⟩ := List.head?_eq_some_iff.mp hread
  refine ⟨ids, { h with avail := h.avail.advance, pool := ?_ }⟩
  refine List.Perm.trans ?_ h.pool
  rw [List.perm_iff_count]
  intro i
  simp only [List.count_append, List.count_cons, List.count_nil]
  omega

/-- An id that the device holds is neither returned nor with the driver. -/
lemma held_ne {id j : ℕ} (h : Inv c s p av pend served) (hid : id ∈ s.held)
    (hj : j ∈ pend.map (·.1.id) ++ p.own) : j ≠ id := by
  rintro rfl
  have hnodup : (av ++ (s.held ++ ((pend.map (·.1.id) ++ p.own) ++
      s.virtio.queuesFree.free))).Nodup := by simpa only [List.append_assoc] using h.nodup
  have hdisjoint := List.disjoint_of_nodup_append (List.nodup_append.mp hnodup).2.1
  exact hdisjoint hid (List.mem_append_left _ hj)

/-- What the device writes into a buffer that it holds is in no other buffer. -/
lemma memory_write {id j : ℕ} {evt : VirtioInputEvent} (h : Inv c s p av pend served)
    (hinj : Set.InjOn c.addr {i | i < c.queueSize}) (hid : id ∈ s.held)
    (hj : j ∈ pend.map (·.1.id) ++ p.own) :
    Function.update s.memory (s.virtio.descs id).addr evt (c.addr j) = s.memory (c.addr j) := by
  have hlt : id < c.queueSize := h.lt_of_mem (by simp [hid])
  have hlt' : j < c.queueSize := h.lt_of_mem (by
    simp only [List.mem_append] at hj ⊢
    tauto)
  rw [h.descs]
  exact Function.update_of_ne (fun he => h.held_ne hid hj (hinj hlt' hlt he)) _ _

lemma deviceWrite {id : ℕ} {evt : VirtioInputEvent} (h : Inv c s p av pend served)
    (hid : id ∈ s.held) :
    Inv c { s with memory := Function.update s.memory (s.virtio.descs id).addr evt } p av pend
      served := by
  refine { h with content := fun hinj => ?_ }
  obtain ⟨hret, hpend⟩ := h.content hinj
  have hkeep : ∀ j ∈ pend.map (·.1.id) ++ p.own,
      Function.update s.memory (s.virtio.descs id).addr evt (c.addr j) = s.memory (c.addr j) :=
    fun _ hj => h.memory_write hinj hid hj
  refine ⟨?_, fun x hx => ?_⟩
  · rw [hret]
    cases p with
    | readDesc used | readEvent used =>
      have hown := hkeep used.id (List.mem_append_right _ (List.mem_singleton.mpr rfl))
      simp only [Pc.taken, hown]
    | setWritable descId caller | setAvailable descId caller => cases caller <;> rfl
    | _ => rfl
  · exact (hkeep _ (List.mem_append_left _ (List.mem_map_of_mem hx))).trans (hpend x hx)

lemma devicePush {id len : ℕ} (hn : QueueSize c.queueSize) (h : Inv c s p av pend served)
    (hid : id ∈ s.held) :
    Inv c { s with
        virtio := { s.virtio with rings := s.virtio.rings.devicePush ⟨id, len⟩ }
        held := s.held.erase id
        returned := s.returned ++ [(⟨id, len⟩, s.memory (s.virtio.descs id).addr)] }
      p av (pend ++ [(⟨id, len⟩, s.memory (s.virtio.descs id).addr)]) served where
  size := h.size
  avail := h.avail.devicePush _
  used := by
    have hlength := h.length_pool
    have hheld := List.length_pos_of_mem hid
    rw [List.map_append]
    exact h.used.devicePush (h.size ▸ hn) (by rw [List.length_map, h.size]; omega)
  pool := by
    refine List.Perm.trans ?_ h.pool
    have hheld := (List.perm_iff_count.mp (List.perm_cons_erase hid))
    rw [List.perm_iff_count]
    intro i
    have hcount := hheld i
    simp only [List.count_append, List.count_cons, List.count_nil, List.map_append,
      List.map_cons, List.map_nil] at hcount ⊢
    omega
  descs := h.descs
  locals := h.locals
  start := h.start
  main := h.main
  log := h.log
  elems := by simp [h.elems]
  content hinj := by
    obtain ⟨hret, hpend⟩ := h.content hinj
    refine ⟨by rw [hret, List.append_assoc], ?_⟩
    intro x hx
    obtain hx | hx := List.mem_append.mp hx
    · exact hpend x hx
    · obtain rfl := List.mem_singleton.mp hx
      rw [h.descs]

lemma drive (hn : QueueSize c.queueSize) (h : Inv c s s.pc av pend served)
    (hdrive : s.drive = some s') : ∃ av pend served, Inv c s' s'.pc av pend served := by
  unfold Driver.drive at hdrive
  split at hdrive
  case h_1 hpc =>
    rw [hpc] at h
    split at hdrive
    case h_1 id v hget =>
      cases hdrive
      obtain ⟨⟨d, q⟩, hq, hv⟩ := Option.map_eq_some_iff.mp hget
      cases hv
      exact ⟨av, pend, served, h.getFreeDescId (QueueFreeDescs.getFree_eq_some.mp hq)⟩
    case h_2 hget =>
      cases hdrive
      have hfree := QueueFreeDescs.getFree_eq_none.mp (Option.map_eq_none_iff.mp hget)
      exact ⟨av, pend, served, h.startUpDone hfree⟩
  case h_2 hpc =>
    rw [hpc] at h
    cases pend with
    | nil =>
      rw [Virtio.nextUsed, h.used.nextUsed_nil] at hdrive
      cases hdrive
      exact ⟨av, [], served, h.move rfl rfl rfl rfl rfl rfl trivial⟩
    | cons x pend =>
      obtain ⟨r, hr, hused, heq⟩ := h.used.nextUsed_cons (h.size ▸ hn)
      rw [Virtio.nextUsed, hr] at hdrive
      cases hdrive
      exact ⟨av, pend, served, h.nextUsed_some heq hused⟩
  case h_3 hpc =>
    rw [hpc] at h
    cases hdrive
    exact ⟨av, pend, served, h.readDesc hn⟩
  case h_4 hpc =>
    rw [hpc] at h
    cases hdrive
    exact ⟨av, pend, served, h.readEvent⟩
  case h_5 hpc =>
    rw [hpc] at h
    split at hdrive
    · cases hdrive
      exact ⟨av, pend, served, h.update_some hn⟩
    · cases hdrive
      exact ⟨av, pend, served, h.move rfl rfl rfl rfl rfl rfl h.locals⟩
  case h_6 hpc =>
    rw [hpc] at h
    cases hdrive
    exact ⟨av, pend, served, h.setWritable⟩
  case h_7 descId caller hpc =>
    rw [hpc] at h
    cases hdrive
    cases caller with
    | start => exact ⟨_, pend, served, h.setAvailable_start hn⟩
    | main used evt => exact ⟨_, pend, _, h.setAvailable_main hn⟩
  case h_8 hpc =>
    rw [hpc] at h
    cases hdrive
    exact ⟨av, pend, served, h.move rfl rfl rfl rfl rfl rfl trivial⟩
  case h_9 => cases hdrive

lemma step {l : Label} (hn : QueueSize c.queueSize) (h : Inv c s s.pc av pend served)
    (hstep : step l s = some s') : ∃ av pend served, Inv c s' s'.pc av pend served := by
  cases l with
  | drive => exact h.drive hn hstep
  | deviceRead =>
    obtain ⟨id, hread, hs⟩ := Option.map_eq_some_iff.mp hstep
    cases hs
    obtain ⟨ids, hids⟩ := h.deviceRead hn hread
    exact ⟨ids, pend, served, hids⟩
  | deviceWrite id evt =>
    obtain ⟨hid, hs⟩ := Option.ite_none_right_eq_some.mp hstep
    cases hs
    exact ⟨av, pend, served, h.deviceWrite hid⟩
  | devicePush id len =>
    obtain ⟨hid, hs⟩ := Option.ite_none_right_eq_some.mp hstep
    cases hs
    exact ⟨av, _, served, h.devicePush hn hid⟩
  | otherTask input =>
    obtain ⟨-, hs⟩ := Option.ite_none_right_eq_some.mp hstep
    cases hs
    exact ⟨av, pend, served, { h with }⟩

end Inv
/-- What holds whenever the driver is suspended: each id waits in the avail ring, is held by the
device or waits in the used ring; the descriptors are as `init` wrote them; each element that the
driver took was turned into one event, read from the buffer of its own descriptor, before that
descriptor was made available again; and the elements that were not taken wait in the used ring.
Where the buffers are distinct, the events are those that the device returned, in its order. -/
structure Accounted (c : Config) (s : Driver) : Prop where
  ids : (s.virtio.rings.availPending s.cursor ++ s.held ++
    s.virtio.rings.usedPending.map UsedElem.id).Perm (List.range c.queueSize)
  descs : ∀ i, s.virtio.descs i = ⟨c.addr i, 4096, virtqDescFWrite, 0xffff⟩
  served : ∃ served : List (UsedElem × VirtioInputEvent),
    s.log = (List.range c.queueSize).reverse.map .available ++ served.flatMap (serve c.addr) ∧
    s.returned.map Prod.fst = served.map Prod.fst ++ s.virtio.rings.usedPending ∧
    (Set.InjOn c.addr {i | i < c.queueSize} → served <+: s.returned)

lemma Inv.accounted (hn : QueueSize c.queueSize) (h : Inv c s .suspended av pend served) :
    s.Accounted c := by
  have havail := h.avail.availPending (h.size ▸ hn)
  have hused := h.used.usedPending (h.size ▸ hn)
  have hfree := h.main rfl
  refine ⟨?_, h.descs, served, ?_, ?_, ?_⟩
  · rw [havail, hused, List.map_map]
    simpa [Pc.own, hfree, Function.comp_def] using h.pool
  · obtain ⟨armed, harmed, hlog⟩ := h.log
    rw [hfree] at harmed
    simp only [Pc.arming, List.append_nil] at harmed
    rw [hlog, harmed]
    simp [Pc.logged]
  · rw [h.elems, hused]
    simp [Pc.elem]
  · intro hinj
    exact ⟨pend, by simpa [Pc.taken] using (h.content hinj).1.symm⟩

/-- The input driver neither leaks nor duplicates a buffer: on a queue of up to 256 entries, at
every suspension point of any run against any device, each id is accounted for. -/
theorem buffers_accounted {c : Config} (hn : ∃ k ≤ 8, c.queueSize = 2 ^ k) {s : Driver}
    (h : Transition.Reach step (fun _ _ _ => True) (boot c) s) (hs : s.pc = .suspended) :
    s.Accounted c := by
  obtain ⟨k, hk, hsize⟩ := hn
  have hqueue : QueueSize c.queueSize := ⟨k, by omega, hsize⟩
  have hinv : ∃ av pend served, Inv c s s.pc av pend served := by
    refine Transition.Reach.invariant (I := fun s => ∃ av pend served, Inv c s s.pc av pend served)
      ⟨[], [], [], .boot c⟩ ?_ h
    rintro s a s' - ⟨av, pend, served, hi⟩ taken -
    exact hi.step hqueue taken
  obtain ⟨av, pend, served, hi⟩ := hinv
  rw [hs] at hi
  exact hi.accounted hqueue

/-- A queue of two entries: both descriptors are armed, the device returns them in the other
order, and the driver serves them and suspends again. -/
def twoEvents : List Driver.Label :=
  List.replicate 8 .drive ++
    [.deviceRead, .deviceRead, .deviceWrite 0 ⟨1, 30, 1⟩, .devicePush 0 8, .devicePush 1 8] ++
    List.replicate 14 .drive

def twoConfig : Config where
  queueSize := 2
  addr i := 4096 * i
  driverRing _ := 0
  deviceRing _ := ⟨0, 0⟩
  memory _ := ⟨0, 0, 0⟩
  input := .new

theorem buffers_accounted_twoEvents :
    ((Transition.run step (fun _ _ _ => True) twoEvents (boot twoConfig)).get
      (by decide +kernel)).Accounted twoConfig :=
  buffers_accounted ⟨1, by decide, rfl⟩ (Transition.Reach.run_get _ (by decide +kernel))
    (by decide +kernel)

end Driver
end Fomos.VirtioInput
