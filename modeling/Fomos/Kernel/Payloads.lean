import Mathlib
import Fomos.Kernel.Matching
import Fomos.Library.Cells
import Fomos.Virtio.QueueMemory

/-!
# What stands in the descriptor buffers

The kernel again, now with the memory behind the descriptors. `add_request` writes the bytes of a
request into the buffer of its head, the device reads the chain that it takes from the avail ring
and writes its answer into the writable buffer of the chain, and the task reads the response where
`request` says after it has freed both descriptors. The buffers are recycled in any order, and each
task still gets the answer to what it has sent itself.
-/
namespace Fomos

/-- What the device read in a chain, and what it wrote there. -/
structure Exchange where
  seen : List (BitVec 8)
  answer : List (BitVec 8)
  deriving DecidableEq, Repr

/-- A `request` that has returned: its data, the device's last exchange on its head, and the
address of the response. -/
structure Call where
  task : TaskId
  data : List (BitVec 8)
  exchange : Exchange
  addr : ℕ
  deriving DecidableEq, Repr

structure Payloads where
  kernel : Kernel
  mem : ℕ → BitVec 8
  /-- The bytes of the request that a task has in flight. -/
  sent : TaskId → List (BitVec 8)
  /-- The last exchange on a head. -/
  exchange : DevId → ℕ → Exchange
  /-- The call that the running task has returned from, until it does anything else. -/
  returned : Option Call
  calls : List Call

namespace Virtio

/-- What a device reads in the chain with this head. -/
def chainData (v : Virtio) (head : ℕ) (mem : ℕ → BitVec 8) : List (BitVec 8) :=
  if (v.descs head).flags = virtqDescFNext then
    Cells.load mem (v.descs head).addr (v.descs head).len
  else []

/-- The id of the descriptor of the chain that the device may write to. -/
def chainWritable (v : Virtio) (head : ℕ) : ℕ :=
  if (v.descs head).flags = virtqDescFNext then (v.descs head).next else head

end Virtio

namespace Payloads

/-- A step, with the bytes that it writes into a buffer. -/
abbrev Label := Kernel.Label × List (BitVec 8)

/-- A request has as many bytes as its type, and its page holds them. A device writes no more than
the descriptor allows. -/
def Fits (k : Kernel) : Label → Prop
  | (.op (.request _ len), bytes) => bytes.length = len ∧ len ≤ pageSize
  | (.devPush g id _, bytes) =>
    bytes.length ≤ ((k.dev g).virtio.descs ((k.dev g).virtio.chainWritable id)).len
  | _ => True

instance (k : Kernel) (l : Label) : Decidable (Fits k l) := by
  unfold Fits
  split <;> infer_instance

def setExchange (g : DevId) (head : ℕ) (e : Exchange) (m : Payloads) : Payloads :=
  { m with exchange := Function.update m.exchange g (Function.update (m.exchange g) head e) }

/-- The memory accesses of a step that leads to `k'`. -/
def access (k' : Kernel) (m : Payloads) : Label → Payloads
  | (.op (.request g _), data) =>
    match m.kernel.pc with
    | .polling t =>
      match (k'.fut t).await with
      | some (.idWait _ head _ _) =>
        { m with
          mem := Cells.store ((k'.dev g).virtio.descs head).addr data m.mem
          sent := Function.update m.sent t data
          returned := none }
      | _ => { m with returned := none }
    | _ => { m with returned := none }
  | (.poll, _) =>
    match m.kernel.pc with
    | .polling t =>
      match (m.kernel.fut t).await with
      | some (.setFree g head tail _) =>
        if (m.kernel.dev g).lock = none then
          let call := ⟨t, m.sent t, m.exchange g head, ((k'.dev g).virtio.readDesc tail).addr⟩
          { m with returned := some call, calls := call :: m.calls }
        else { m with returned := none }
      | _ => { m with returned := none }
    | _ => { m with returned := none }
  | (.devRead g, _) =>
    match (m.kernel.dev g).virtio.rings.deviceRead (m.kernel.dev g).cursor with
    | some id =>
      m.setExchange g id
        { m.exchange g id with seen := (m.kernel.dev g).virtio.chainData id m.mem }
    | none => m
  | (.devPush g id _, answer) =>
    let v := (m.kernel.dev g).virtio
    { m.setExchange g id { m.exchange g id with answer := answer } with
      mem := Cells.store (v.descs (v.chainWritable id)).addr answer m.mem }
  | _ => { m with returned := none }

def step (l : Label) (m : Payloads) : Option Payloads :=
  if Fits m.kernel l then
    (Kernel.step l.1 m.kernel).map fun k' => { m.access k' l with kernel := k' }
  else none

/-- The kernel at boot, with any memory. -/
def start (config : DevId → GpuConfig) (rs : List Routine) (mem : ℕ → BitVec 8) : Payloads where
  kernel := Kernel.boot config rs
  mem := mem
  sent _ := []
  exchange _ _ := ⟨[], []⟩
  returned := none
  calls := []

end Payloads

namespace Kernel
variable {k k' : Kernel} {l : Label} {t u : TaskId} {g : DevId} {n : DevId → ℕ}
  {frames : DevId → ℕ → ℕ}

/-- The device has returned the chain since the request was added. -/
def Returned (log : List Event) (t : TaskId) (g : DevId) (head : ℕ) : Prop :=
  ∃ mid pre, log = mid ++ .add t g head :: pre ∧ (∀ e ∈ mid, ¬e.Renews g head) ∧ .ret g head ∈ mid

theorem returned_of_flight {log : List Event} {head r : ℕ} (h : Flight log t g head 0 r) :
    Returned log t g head := by
  obtain ⟨mid, pre, hlog, hmid, hret, -⟩ := h
  exact ⟨mid, pre, hlog, hmid, List.count_pos_iff.mp (by omega)⟩

/-- Only the return of the chain makes it returned. -/
theorem Returned.of_cons {log : List Event} {e : Event} {head : ℕ}
    (h : Returned (e :: log) t g head) (hadd : e ≠ .add t g head) (hret : e ≠ .ret g head) :
    Returned log t g head := by
  obtain ⟨mid, pre, hlog, hmid, hmem⟩ := h
  cases mid with
  | nil => exact absurd (List.cons.inj hlog).1 hadd
  | cons e' mid =>
    obtain ⟨rfl, hrest⟩ := List.cons.inj hlog
    refine ⟨mid, pre, hrest, fun e he => hmid e (.tail _ he), ?_⟩
    exact (List.mem_cons.mp hmem).resolve_left hret.symm

theorem Returned.of_append {log es : List Event} {head : ℕ} (h : Returned (es ++ log) t g head)
    (hes : ∀ e ∈ es, e ≠ .add t g head ∧ e ≠ .ret g head) : Returned log t g head := by
  induction es with
  | nil => exact h
  | cons e es ih =>
    obtain ⟨he, hes⟩ := List.forall_mem_cons.mp hes
    exact ih (h.of_cons he.1 he.2) hes

theorem not_returned_add {log : List Event} {head : ℕ} :
    ¬Returned (.add t g head :: log) t g head := by
  rintro ⟨mid, pre, hlog, hmid, hmem⟩
  cases mid with
  | nil => cases hmem
  | cons e mid =>
    obtain ⟨rfl, -⟩ := List.cons.inj hlog
    exact hmid _ (.head _) ⟨rfl, rfl⟩

/-- The step puts no request in flight, and no chain moves to the device or back. -/
structure Quiet (k k' : Kernel) : Prop where
  inFlight : ∀ u g head tail len, (k'.fut u).InFlight g head tail len →
    (k.fut u).InFlight g head tail len
  held : ∀ g, (k'.dev g).held = (k.dev g).held
  log : ∀ u g head, Returned k'.log u g head → Returned k.log u g head

theorem Quiet.update (es : List Event) {f : Fut} {d : Gpu}
    (hfut : k'.fut = Function.update k.fut t f)
    (hf : ∀ g head tail len, f.InFlight g head tail len → (k.fut t).InFlight g head tail len)
    (hdev : k'.dev = Function.update k.dev g d) (hd : d.held = (k.dev g).held)
    (hlog : k'.log = es ++ k.log)
    (hes : ∀ e ∈ es, ∀ u g head, e ≠ .add u g head ∧ e ≠ .ret g head) : Quiet k k' where
  inFlight u g head tail len hu := Described.inFlight_update hf u g head tail len (hfut ▸ hu)
  held g' := by
    rw [hdev]
    obtain rfl | hne := eq_or_ne g' g
    · rw [Function.update_self, hd]
    · rw [Function.update_of_ne hne]
  log u g head h := (hlog ▸ h).of_append fun e he => hes e he u g head

/-- A step that leaves the devices alone. -/
theorem Quiet.of_fut {f : Fut} (hfut : k'.fut = Function.update k.fut t f)
    (hf : ∀ g head tail len, f.InFlight g head tail len → (k.fut t).InFlight g head tail len)
    (hdev : k'.dev = k.dev) (hlog : k'.log = k.log) : Quiet k k' :=
  .update [] hfut hf (g := 0) (hdev.trans (Function.update_eq_self 0 k.dev).symm) rfl hlog
    (by simp)

/-- A step that leaves futures and devices alone. -/
theorem Quiet.of_core (es : List Event) (hfut : k'.fut = k.fut) (hdev : k'.dev = k.dev)
    (hlog : k'.log = es ++ k.log)
    (hes : ∀ e ∈ es, ∀ u g head, e ≠ .add u g head ∧ e ≠ .ret g head) : Quiet k k' :=
  .update es (hfut.trans (Function.update_eq_self 0 k.fut).symm) (fun _ _ _ _ h => h) (g := 0)
    (hdev.trans (Function.update_eq_self 0 k.dev).symm) rfl hlog hes

/-- Only a request puts something in flight, and only the device moves chains. -/
theorem quiet_of_steps (hstep : Steps k l k') (hread : ∀ g, l ≠ .devRead g)
    (hpush : ∀ g id len, l ≠ .devPush g id len)
    (hrequest : ∀ g len, l = .op (.request g len) → k'.log = k.log) : Quiet k k' := by
  cases hstep with
  | control | spawnTask | spawnPanic | popTask | popGone | wakeYielder | wakeYielderPanic
  | register =>
    exact .of_core [] rfl rfl (List.nil_append _).symm (by simp)
  | @finish t => exact .of_core [.done t] rfl rfl rfl (by simp)
  | checkallPast _ _ next | checkallNothing _ _ next | checkallWake _ _ next
  | checkallPanic _ _ next =>
    exact .update [.use _ _] (Function.update_eq_self 0 k.fut).symm (fun _ _ _ _ h => h) rfl rfl rfl
      (by simp)
  | @spawnOp t r rest run =>
    refine ⟨fun u g head tail len hu => ?_, fun _ => rfl, fun _ _ _ h => h⟩
    obtain rfl | hne := eq_or_ne u k.nextId
    · simp [Fut.InFlight, Fut.new] at hu
    · simp only [Function.update_of_ne hne] at hu
      exact Described.inFlight_update (f := { k.fut t with todo := rest }) (fun _ _ _ _ h => h)
        u g head tail len hu
  | yieldOp | yieldFirst | yieldAgain =>
    exact .of_fut rfl (fun _ _ _ _ h => by simp [Fut.InFlight] at h) rfl rfl
  | readConfig | checkallNone => exact .of_fut rfl (fun _ _ _ _ h => h) rfl rfl
  | ready poll =>
    refine .of_fut rfl (fun _ _ _ _ h => ?_) rfl rfl
    simp only [Fut.InFlight, reduceCtorEq, false_or, Option.some.injEq, Await.setFree.injEq] at h
    obtain ⟨rfl, rfl, rfl, rfl⟩ := h
    exact .inl poll.await
  | dropGuard =>
    exact .update [] rfl (fun _ _ _ _ h => h) rfl rfl (List.nil_append _).symm (by simp)
  | startUp run unlocked descs =>
    refine .update _ rfl (fun _ _ _ _ h => h) rfl rfl rfl fun e he => ?_
    obtain ⟨i, -, rfl⟩ := List.mem_map.mp (List.mem_reverse.mp he)
    simp
  | release =>
    exact .update [.resolve _ _ _ _] rfl (fun _ _ _ _ h => by simp [Fut.InFlight] at h) rfl rfl rfl
      (by simp)
  | request => exact absurd (hrequest _ _ rfl) (List.cons_ne_self _ _)
  | devRead => exact absurd rfl (hread _)
  | devPush => exact absurd rfl (hpush _ _ _)

/-- The start-up loop makes its descriptors writable. -/
theorem startUpDescs_writable {c : ℕ} {v v' : Virtio} {ids : List ℕ}
    (h : startUpDescs c v = (v', ids)) (hids : v.queuesFree.free.Nodup) :
    ∀ i ∈ ids, (v'.descs i).flags = virtqDescFWrite ∧ (v'.descs i).len = pageSize := by
  induction c generalizing v ids with
  | zero =>
    cases h
    simp
  | succ c ih =>
    unfold startUpDescs at h
    split at h
    · exact ih h hids
    · rename_i id w hfree
      obtain ⟨q, hq, hw⟩ := Option.map_eq_some_iff.mp hfree
      obtain ⟨rfl, rfl⟩ := Prod.mk.inj hw
      cases h
      rw [QueueFreeDescs.getFree_eq_some.mp hq, List.nodup_cons] at hids
      have hrest := startUpDescs_startedUp (m := c)
        (v := Virtio.setWritableAvailable q.1 { v with queuesFree := q.2 }) rfl
      refine List.forall_mem_cons.mpr ⟨?_, ih rfl hids.2⟩
      have hnot : q.1 ∉ (startUpDescs c
          (Virtio.setWritableAvailable q.1 { v with queuesFree := q.2 })).2 := by
        intro hmem
        have hlist : q.2.free = _ := hrest.free
        exact hids.1 (hlist ▸ List.mem_append_left _ hmem)
      rw [hrest.descs q.1 hnot]
      simp [Virtio.setWritableAvailable, Virtio.setWritable, Virtio.setAvailable, pageSize]

/-- The start-up descriptors are single writable buffers. -/
def StartUpWritable (k : Kernel) : Prop :=
  ∀ g, ∀ i ∈ startUps g k.log, ((k.dev g).virtio.descs i).flags = virtqDescFWrite ∧
    ((k.dev g).virtio.descs i).len = pageSize

theorem StartUpWritable.same (h : StartUpWritable k)
    (hdescs : ∀ g, (k'.dev g).virtio.descs = (k.dev g).virtio.descs)
    (hlog : ∀ g, startUps g k'.log = startUps g k.log) : StartUpWritable k' := by
  intro g i hi
  rw [hdescs]
  exact h g i (hlog g ▸ hi)

theorem StartUpWritable.step (h : StartUpWritable k) (ho : Owned n k) (hstep : Steps k l k') :
    StartUpWritable k' := by
  cases hstep with
  | @request t g len rest descId descNextId v run unlocked free =>
    obtain ⟨hfree, hv⟩ := Virtio.getFreeTwiceDescId_eq_some free
    intro g' i hi
    obtain rfl | hne := eq_or_ne g' g
    · have hi' : i ∈ startUps g' k.log := hi
      have hnot : ∀ j ∈ [descId, descNextId], i ≠ j := by
        rintro j hj rfl
        refine ho.not_free_of_startUps hi' ?_
        rw [hfree]
        simp only [List.mem_cons, List.not_mem_nil, or_false] at hj ⊢
        exact hj.imp_right .inl
      simp only [Function.update_self]
      rw [Virtio.addRequest_descs (hnot _ (by simp)) (hnot _ (by simp)), hv]
      exact h g' i hi'
    · simp only [Function.update_of_ne hne]
      exact h g' i hi
  | @startUp t g rest v ids run unlocked descs =>
    intro g' i hi
    rw [startUps_started] at hi
    obtain rfl | hne := eq_or_ne g' g
    · simp only [Function.update_self]
      rw [if_pos rfl, List.mem_append, List.mem_reverse] at hi
      by_cases hids : i ∈ ids
      · exact startUpDescs_writable descs (ho.free_nodup g') i hids
      · rw [(startUpDescs_startedUp descs).descs i hids]
        exact h g' i (hi.resolve_left hids)
    · rw [if_neg hne.symm] at hi
      simp only [Function.update_of_ne hne]
      exact h g' i hi
  | checkallPast _ _ next | checkallNothing _ _ next | checkallWake _ _ next
  | checkallPanic _ _ next =>
    refine h.same (Described.descs_update ?_) fun _ => rfl
    rw [(Virtio.nextUsed_eq_some next).2]
  | dropGuard | release | devRead | devPush =>
    exact h.same (Described.descs_update rfl) fun _ => rfl
  | _ => exact h.same (fun _ => rfl) fun _ => rfl

theorem StartUpWritable.boot (config : DevId → GpuConfig) (rs : List Routine) :
    StartUpWritable (Kernel.boot config rs) := by
  have hlog : (Kernel.boot config rs).log = [] :=
    boot_induction (P := fun k => k.log = []) rfl fun _ _ _ h => h
  simp [StartUpWritable, hlog, startUps]

namespace Owned

/-- A request in flight has no start-up descriptor. -/
theorem not_startUp_of_ids {i : ℕ} (h : Owned n k) (ht : t < k.nextId)
    (hi : i ∈ (k.fut t).ids g) : i ∉ startUps g k.log := by
  intro hstart
  have := h.count_le g i
  have := one_le_inflight ht hi
  have := List.count_pos_iff.mpr hstart
  omega

/-- The two descriptors of a request differ. -/
theorem ids_nodup (h : Owned n k) (ht : t < k.nextId) : ((k.fut t).ids g).Nodup := by
  refine List.nodup_iff_count_le_one.mpr fun i => ?_
  have := h.count_le g i
  have hle : ((k.fut t).ids g).count i ≤ k.inflight g i :=
    UpdateSum.le_sum k.fut (fun f => (f.ids g).count i) (Finset.mem_range.mpr ht)
  omega

end Owned
end Kernel

namespace Payloads
variable {m m' : Payloads} {l : Label} {t u : TaskId} {g : DevId} {n : DevId → ℕ}
  {frames : DevId → ℕ → ℕ}

/-- What a step can do to the buffers. -/
inductive Steps (m : Payloads) : Label → Payloads → Prop
  | quiet {l k'} (quiet : Kernel.Quiet m.kernel k') :
      Steps m l { m with kernel := k', returned := none }
  | request {g len data t rest descId descNextId v k'}
      (run : Kernel.Running m.kernel t (.request g len) rest)
      (free : (m.kernel.dev g).virtio.getFreeTwiceDescId = some ((descId, descNextId), v))
      (length : data.length = len) (fits : len ≤ pageSize)
      (dev : k'.dev = Function.update m.kernel.dev g
        { m.kernel.dev g with virtio := v.addRequest descId descNextId len })
      (fut : k'.fut = Function.update m.kernel.fut t { m.kernel.fut t with
        todo := rest, await := some (.idWait g descId descNextId len) })
      (log : k'.log = .add t g descId :: m.kernel.log) :
      Steps m (.op (.request g len), data) { m with
        kernel := k'
        mem := Cells.store ((k'.dev g).virtio.descs descId).addr data m.mem
        sent := Function.update m.sent t data
        returned := none }
  | release {bytes t g head tail len k'}
      (poll : Kernel.Polling m.kernel t (.setFree g head tail len))
      (quiet : Kernel.Quiet m.kernel k') (pc : k'.pc = m.kernel.pc)
      (free : tail ∈ (k'.dev g).virtio.queuesFree.free)
      (addr : ((k'.dev g).virtio.descs tail).addr = ((m.kernel.dev g).virtio.descs tail).addr) :
      Steps m (.poll, bytes) { m with
        kernel := k'
        returned := some ⟨t, m.sent t, m.exchange g head, ((k'.dev g).virtio.descs tail).addr⟩
        calls := ⟨t, m.sent t, m.exchange g head, ((k'.dev g).virtio.descs tail).addr⟩ :: m.calls }
  | devRead {bytes g id} (read : (m.kernel.dev g).virtio.rings.deviceRead (m.kernel.dev g).cursor =
      some id) :
      Steps m (.devRead g, bytes)
        { m.setExchange g id
            { m.exchange g id with seen := (m.kernel.dev g).virtio.chainData id m.mem } with
          kernel := m.kernel.setDev g { m.kernel.dev g with
            cursor := wrappingAdd (m.kernel.dev g).cursor 1
            held := (m.kernel.dev g).held ++ [id] } }
  | devPush {g id len answer k'} (held : id ∈ (m.kernel.dev g).held)
      (fits : Fits m.kernel (.devPush g id len, answer))
      (pc : k'.pc = m.kernel.pc) (fut : k'.fut = m.kernel.fut)
      (log : k'.log = .ret g id :: m.kernel.log)
      (dev : ∀ g', (k'.dev g').virtio.queuesFree = (m.kernel.dev g').virtio.queuesFree)
      (heldAfter : ∀ g', (k'.dev g').held ⊆ (m.kernel.dev g').held) :
      Steps m (.devPush g id len, answer)
        { m.setExchange g id { m.exchange g id with answer := answer } with
          kernel := k'
          mem := Cells.store ((m.kernel.dev g).virtio.descs
            ((m.kernel.dev g).virtio.chainWritable id)).addr answer m.mem }

theorem polling_eq {k : Kernel} {a b : Await} (poll : Kernel.Polling k t a)
    (hpc : k.pc = .polling u) (hawait : (k.fut u).await = some b) : a = b := by
  cases poll.pc.symm.trans hpc
  exact Option.some.inj (poll.await.symm.trans hawait)

/-- The step neither adds nor resolves a request. -/
structure Plain (k k' : Kernel) (l : Kernel.Label) : Prop where
  request : ∀ t g len, l = .op (.request g len) → k.pc = .polling t → (k'.fut t).await = none
  release : ∀ t g head tail len, l = .poll → k.pc = .polling t →
    (k.fut t).await = some (.setFree g head tail len) → (k.dev g).lock ≠ none

/-- A request is added and resolved with an entry in the log. -/
theorem plain_of_steps {k k' : Kernel} {l : Kernel.Label} (hstep : Kernel.Steps k l k')
    (hlog : (∃ g len, l = .op (.request g len)) ∨ l = .poll → k'.log = k.log) : Plain k k' l := by
  cases hstep with
  | control move =>
    cases move with
    | spinOp run | noMoreDesc run =>
      refine ⟨fun u g len _ hu => ?_, by simp⟩
      cases run.pc.symm.trans hu
      exact run.await
    | spinPoll poll held =>
      refine ⟨by simp, fun u g head tail len _ hu ha => ?_⟩
      cases polling_eq poll hu ha
      exact held
    | outOfBounds poll =>
      refine ⟨by simp, fun u g head tail len _ hu ha => ?_⟩
      cases polling_eq poll hu ha
    | _ => exact ⟨by simp, by simp⟩
  | yieldFirst poll | yieldAgain poll | register poll | ready poll =>
    refine ⟨by simp, fun u g head tail len _ hu ha => ?_⟩
    cases polling_eq poll hu ha
  | request => exact absurd (hlog (.inl ⟨_, _, rfl⟩)) (List.cons_ne_self _ _)
  | release => exact absurd (hlog (.inr rfl)) (List.cons_ne_self _ _)
  | _ => exact ⟨by simp, by simp⟩

/-- A step of the core that neither adds nor resolves a request leaves the buffers alone. -/
theorem access_core {k' : Kernel} {bytes : List (BitVec 8)} {l : Kernel.Label}
    (hread : ∀ g, l ≠ .devRead g) (hpush : ∀ g id len, l ≠ .devPush g id len)
    (hplain : Plain m.kernel k' l) : m.access k' (l, bytes) = { m with returned := none } := by
  unfold access
  split
  · rename_i heq
    obtain ⟨rfl, rfl⟩ := Prod.mk.inj heq
    split
    · rw [hplain.request _ _ _ rfl ‹_›]
    · rfl
  · rename_i heq
    obtain ⟨rfl, rfl⟩ := Prod.mk.inj heq
    split
    · split
      · rw [if_neg (hplain.release _ _ _ _ _ rfl ‹_› ‹_›)]
      · rfl
    · rfl
  · rename_i heq
    exact absurd (Prod.mk.inj heq).1 (hread _)
  · rename_i heq
    exact absurd (Prod.mk.inj heq).1 (hpush _ _ _)
  · rfl

/-- A step that neither adds nor resolves a request keeps what is sent and the calls. -/
theorem access_frame {k' : Kernel} {l : Kernel.Label} (bytes : List (BitVec 8))
    (hplain : Plain m.kernel k' l) :
    (m.access k' (l, bytes)).sent = m.sent ∧ (m.access k' (l, bytes)).calls = m.calls := by
  cases l with
  | devRead g =>
    simp only [access]
    split <;> exact ⟨rfl, rfl⟩
  | devPush => exact ⟨rfl, rfl⟩
  | _ =>
    rw [access_core (by simp) (by simp) hplain]
    exact ⟨rfl, rfl⟩

theorem access_request {k' : Kernel} {bytes : List (BitVec 8)} {head tail len len' : ℕ}
    (hpc : m.kernel.pc = .polling t) (ha : (k'.fut t).await = some (.idWait g head tail len)) :
    m.access k' (.op (.request g len'), bytes) = { m with
      mem := Cells.store ((k'.dev g).virtio.descs head).addr bytes m.mem
      sent := Function.update m.sent t bytes
      returned := none } := by
  simp only [access, hpc, ha]

theorem access_release {k' : Kernel} {bytes : List (BitVec 8)} {head tail len : ℕ}
    (poll : Kernel.Polling m.kernel t (.setFree g head tail len))
    (unlocked : (m.kernel.dev g).lock = none) :
    m.access k' (.poll, bytes) = { m with
      returned := some ⟨t, m.sent t, m.exchange g head, ((k'.dev g).virtio.descs tail).addr⟩
      calls :=
        ⟨t, m.sent t, m.exchange g head, ((k'.dev g).virtio.descs tail).addr⟩ :: m.calls } := by
  simp only [access, poll.pc, poll.await, unlocked, if_true, Virtio.readDesc]

/-- A step of the core that neither adds nor resolves a request is quiet. -/
theorem steps_of_core {k' : Kernel} {bytes : List (BitVec 8)} {l : Kernel.Label}
    (hstep : Kernel.Steps m.kernel l k') (hread : ∀ g, l ≠ .devRead g)
    (hpush : ∀ g id len, l ≠ .devPush g id len)
    (hlog : (∃ g len, l = .op (.request g len)) ∨ l = .poll → k'.log = m.kernel.log) :
    Steps m (l, bytes) { m.access k' (l, bytes) with kernel := k' } := by
  rw [access_core hread hpush (plain_of_steps hstep hlog)]
  exact .quiet (Kernel.quiet_of_steps hstep hread hpush fun g len hl => hlog (.inl ⟨g, len, hl⟩))

theorem steps_of_step (h : step l m = some m') : Steps m l m' := by
  obtain ⟨l, bytes⟩ := l
  unfold step at h
  split at h
  · rename_i fits
    obtain ⟨k', hk, rfl⟩ := Option.map_eq_some_iff.mp h
    have hsteps := Kernel.steps_of_step hk
    have hkernel := hsteps
    simp only at hkernel
    cases hkernel with
    | @request t g len rest descId descNextId v run unlocked free =>
      rw [@access_request m t g _ bytes descId descNextId len len run.pc (by simp)]
      exact .request run free fits.1 fits.2 rfl rfl rfl
    | @release t g head tail len poll unlocked =>
      have hquiet := Kernel.quiet_of_steps hsteps (by simp) (by simp) (by simp)
      rw [access_release poll unlocked]
      exact .release poll hquiet rfl (by simp [Virtio.setFreeDescId])
        (by simp [Virtio.setFreeDescId])
    | @devRead g id read =>
      simp only [access, read]
      exact .devRead read
    | @devPush g id len held =>
      refine .devPush held fits rfl rfl rfl (fun g' => ?_) fun g' => ?_ <;>
        obtain rfl | hne := eq_or_ne g' g
      · simp
      · simp [Function.update_of_ne hne]
      · simpa using List.erase_subset
      · simp [Function.update_of_ne hne]
    | control move =>
      cases move with
      | _ => exact steps_of_core hsteps (by simp) (by simp) fun _ => rfl
    | yieldAgain => exact steps_of_core hsteps (by simp) (by simp) fun _ => rfl
    | _ => exact steps_of_core hsteps (by simp) (by simp) (by simp)
  · cases h

/-- The bytes stand at the address, inside one page. -/
def Stands (a : ℕ) (bytes : List (BitVec 8)) (mem : ℕ → BitVec 8) : Prop :=
  bytes.length ≤ pageSize ∧ Cells.load mem a bytes.length = bytes

/-- The buffers of the descriptors are different pages. -/
structure Paged (n : DevId → ℕ) (frames : DevId → ℕ → ℕ) : Prop where
  dvd : ∀ g i, pageSize ∣ frames g i
  inj : ∀ g i g' i', i < n g → i' < n g' → frames g i = frames g' i' → g = g' ∧ i = i'

theorem Paged.load_store {g' : DevId} {i i' : ℕ} {bytes : List (BitVec 8)} {len : ℕ}
    (h : Paged n frames) (hi : i < n g) (hi' : i' < n g') (hne : ¬(g = g' ∧ i = i'))
    (hbytes : bytes.length ≤ pageSize) (hlen : len ≤ pageSize) (mem : ℕ → BitVec 8) :
    Cells.load (Cells.store (frames g' i') bytes mem) (frames g i) len =
      Cells.load mem (frames g i) len := by
  refine Cells.load_store_apart (Cells.Apart.mono ?_ hbytes hlen)
  refine Cells.apart_of_dvd (h.dvd g' i') (h.dvd g i) fun heq => hne ?_
  exact h.inj g i g' i' hi hi' heq.symm

/-- What stands in the buffers. -/
structure Intact (frames : DevId → ℕ → ℕ) (m : Payloads) : Prop where
  sent : ∀ t g head tail len, (m.kernel.fut t).InFlight g head tail len →
    len ≤ pageSize ∧ Cells.load m.mem (frames g head) len = m.sent t
  held : ∀ t g head tail len, (m.kernel.fut t).InFlight g head tail len →
    head ∈ (m.kernel.dev g).held → (m.exchange g head).seen = m.sent t
  answered : ∀ t g head tail len, (m.kernel.fut t).InFlight g head tail len →
    Kernel.Returned m.kernel.log t g head → (m.exchange g head).seen = m.sent t ∧
      Stands (frames g tail) (m.exchange g head).answer m.mem
  calls : ∀ c ∈ m.calls, c.exchange.seen = c.data
  returned : ∀ c, m.returned = some c → ∃ t g tail, m.kernel.pc = .polling t ∧
    tail ∈ (m.kernel.dev g).virtio.queuesFree.free ∧ c.addr = frames g tail ∧
      Stands c.addr c.exchange.answer m.mem

/-- The kernel's laws that the buffers rest on. -/
structure Lawful (n : DevId → ℕ) (frames : DevId → ℕ → ℕ) (k : Kernel) : Prop where
  separate : Kernel.Separate n k
  described : Kernel.Described frames k
  startUps : k.StartUpWritable

theorem Lawful.step {k k' : Kernel} {l : Kernel.Label} (hn : ∀ g, QueueSize (n g))
    (h : Lawful n frames k) (hnc : k.NoCollision l) (hstep : Kernel.Steps k l k') :
    Lawful n frames k' :=
  ⟨h.separate.step hn hnc hstep,
    h.described.step h.separate.wellFormed h.separate.owned hstep,
    h.startUps.step h.separate.owned hstep⟩

theorem Lawful.boot (config : DevId → GpuConfig) (rs : List Routine) :
    Lawful (fun g => (config g).queueSize) (fun g => (config g).addr) (Kernel.boot config rs) :=
  ⟨.boot config rs, .boot config rs, .boot config rs⟩

theorem kernel_step {l : Label} (h : step l m = some m') :
    Kernel.step l.1 m.kernel = some m'.kernel := by
  unfold step at h
  split at h
  · obtain ⟨k', hk, rfl⟩ := Option.map_eq_some_iff.mp h
    exact hk
  · cases h

namespace Intact

/-- Before the executor runs, nothing is in flight. -/
theorem start (config : DevId → GpuConfig) (rs : List Routine) (mem : ℕ → BitVec 8) :
    Intact (fun g => (config g).addr) (start config rs mem) := by
  have hnone : ∀ t g head tail len, ¬((Kernel.boot config rs).fut t).InFlight g head tail len := by
    intro t g head tail len hin
    have hmem := (Kernel.WellFormed.boot config rs).await t (by
      obtain h | h := hin <;> rw [h] <;> simp)
    simp at hmem
  exact ⟨fun t g head tail len hin => absurd hin (hnone t g head tail len),
    fun t g head tail len hin => absurd hin (hnone t g head tail len),
    fun t g head tail len hin => absurd hin (hnone t g head tail len), by simp [Payloads.start],
    fun c hc => by cases hc⟩

theorem quiet {k' : Kernel} (h : Intact frames m) (hquiet : Kernel.Quiet m.kernel k') :
    Intact frames { m with kernel := k', returned := none } where
  sent t g head tail len hin := h.sent t g head tail len (hquiet.inFlight t g head tail len hin)
  held t g head tail len hin hheld :=
    h.held t g head tail len (hquiet.inFlight t g head tail len hin) (hquiet.held g ▸ hheld)
  answered t g head tail len hin hret :=
    h.answered t g head tail len (hquiet.inFlight t g head tail len hin) (hquiet.log t g head hret)
  calls := h.calls
  returned _ hc := by cases hc

/-- The request that frees its pair had its chain returned, so it finds the answer. -/
theorem release {k' : Kernel} {head tail len : ℕ} (h : Intact frames m)
    (hlaw : Lawful n frames m.kernel)
    (poll : Kernel.Polling m.kernel t (.setFree g head tail len))
    (hquiet : Kernel.Quiet m.kernel k') (hpc : k'.pc = m.kernel.pc)
    (free : tail ∈ (k'.dev g).virtio.queuesFree.free)
    (addr : ((k'.dev g).virtio.descs tail).addr = ((m.kernel.dev g).virtio.descs tail).addr) :
    Intact frames { m with
      kernel := k'
      returned := some ⟨t, m.sent t, m.exchange g head, ((k'.dev g).virtio.descs tail).addr⟩
      calls :=
        ⟨t, m.sent t, m.exchange g head, ((k'.dev g).virtio.descs tail).addr⟩ :: m.calls } := by
  have hret : Kernel.Returned m.kernel.log t g head :=
    Kernel.returned_of_flight
      (hlaw.separate.completion.slots.released t g head tail len poll.await)
  obtain ⟨hseen, hanswer⟩ := h.answered t g head tail len (.inr poll.await) hret
  rw [hlaw.described.addr] at addr
  have hrest := h.quiet hquiet
  refine ⟨hrest.sent, hrest.held, hrest.answered, List.forall_mem_cons.mpr ⟨hseen, h.calls⟩, ?_⟩
  rintro _ ⟨⟩
  refine ⟨t, g, tail, hpc.trans poll.pc, free, addr, ?_⟩
  simp only [addr]
  exact hanswer

/-- A new request writes into a free page. -/
theorem request {k' : Kernel} {rest : List Op} {len descId descNextId : ℕ} {v : Virtio}
    {data : List (BitVec 8)} (hp : Paged n frames) (h : Intact frames m)
    (hlaw : Lawful n frames m.kernel) (hdesc : Kernel.Described frames k')
    (run : Kernel.Running m.kernel t (.request g len) rest)
    (free : (m.kernel.dev g).virtio.getFreeTwiceDescId = some ((descId, descNextId), v))
    (hlen : data.length = len) (hfits : len ≤ pageSize)
    (hdev : k'.dev = Function.update m.kernel.dev g
      { m.kernel.dev g with virtio := v.addRequest descId descNextId len })
    (hfut : k'.fut = Function.update m.kernel.fut t { m.kernel.fut t with
      todo := rest, await := some (.idWait g descId descNextId len) })
    (hlog : k'.log = .add t g descId :: m.kernel.log) :
    Intact frames { m with
      kernel := k'
      mem := Cells.store ((k'.dev g).virtio.descs descId).addr data m.mem
      sent := Function.update m.sent t data
      returned := none } := by
  obtain ⟨hw, ho, hc⟩ := hlaw.separate
  have hfree : descId ∈ (m.kernel.dev g).virtio.queuesFree.free := by
    simp [(Virtio.getFreeTwiceDescId_eq_some free).1]
  have hheld : ∀ g', (k'.dev g').held = (m.kernel.dev g').held := by
    intro g'
    rw [hdev]
    obtain rfl | hne := eq_or_ne g' g
    · rw [Function.update_self]
    · rw [Function.update_of_ne hne]
  have hold : ∀ {u}, u ≠ t → k'.fut u = m.kernel.fut u := fun hne => by
    rw [hfut, Function.update_of_ne hne]
  have hnew : ∀ {g' head tail len'}, (k'.fut t).InFlight g' head tail len' →
      g' = g ∧ head = descId ∧ tail = descNextId ∧ len' = len := by
    intro g' head tail len' hin
    rw [hfut, Function.update_self] at hin
    simp only [Fut.InFlight, Option.some.injEq, Await.idWait.injEq, reduceCtorEq, or_false] at hin
    exact ⟨hin.1.symm, hin.2.1.symm, hin.2.2.1.symm, hin.2.2.2.symm⟩
  -- The page of the new head is none of a request in flight.
  have hother : ∀ {u g' i k}, i ∈ (m.kernel.fut u).ids g' → u < m.kernel.nextId → k ≤ pageSize →
      Cells.load (Cells.store (frames g descId) data m.mem) (frames g' i) k =
        Cells.load m.mem (frames g' i) k := by
    intro u g' i k hi hu hk
    refine hp.load_store (ho.lt_of_ids hu hi) (ho.lt_of_free hfree) ?_ (hlen ▸ hfits) hk m.mem
    rintro ⟨rfl, rfl⟩
    exact ho.not_free_of_ids hu hi hfree
  have hmem : ∀ {u g' head tail len'}, (m.kernel.fut u).InFlight g' head tail len' →
      u < m.kernel.nextId ∧ head ∈ (m.kernel.fut u).ids g' ∧ tail ∈ (m.kernel.fut u).ids g' :=
    fun hin => ⟨hw.inFlight_lt hin, hin.head_mem, by simp [hin.ids]⟩
  refine ⟨fun u g' head tail len' hin => ?_, fun u g' head tail len' hin hhead => ?_,
    fun u g' head tail len' hin hret => ?_, h.calls, fun c hc => by cases hc⟩
  · simp only [hdesc.addr]
    obtain rfl | hne := eq_or_ne u t
    · obtain ⟨rfl, rfl, -, rfl⟩ := hnew hin
      rw [Function.update_self]
      subst hlen
      exact ⟨hfits, Cells.load_store _ _ _⟩
    · rw [hold hne] at hin
      obtain ⟨hu, hhead, -⟩ := hmem hin
      obtain ⟨hle, hsent⟩ := h.sent u g' head tail len' hin
      rw [Function.update_of_ne hne, hother hhead hu hle]
      exact ⟨hle, hsent⟩
  · simp only at hhead
    rw [hheld] at hhead
    obtain rfl | hne := eq_or_ne u t
    · obtain ⟨rfl, rfl, -⟩ := hnew hin
      obtain ⟨avail, used, hdevice⟩ := hc.device g'
      exact absurd (by simp [Kernel.chains, hhead]) (hdevice.not_mem_of_free hw ho hfree)
    · simp only [Function.update_of_ne hne]
      exact h.held u g' head tail len' (hold hne ▸ hin) hhead
  · simp only [hlog, hdesc.addr] at hret ⊢
    obtain rfl | hne := eq_or_ne u t
    · obtain ⟨rfl, rfl, -⟩ := hnew hin
      exact absurd hret Kernel.not_returned_add
    · have hin := hold hne ▸ hin
      obtain ⟨hu, -, htail⟩ := hmem hin
      obtain ⟨hseen, hle, hanswer⟩ := h.answered u g' head tail len' hin
        (hret.of_cons (by simp [hne.symm]) (by simp))
      rw [Function.update_of_ne hne]
      exact ⟨hseen, hle, (hother htail hu hle).trans hanswer⟩

@[simp] theorem setExchange_self (g : DevId) (i : ℕ) (e : Exchange) (m : Payloads) :
    (m.setExchange g i e).exchange g i = e := by
  simp [setExchange]

theorem setExchange_other {g' : DevId} {i i' : ℕ} (hne : ¬(g' = g ∧ i' = i)) (e : Exchange)
    (m : Payloads) : (m.setExchange g i e).exchange g' i' = m.exchange g' i' := by
  simp only [setExchange]
  obtain rfl | hg := eq_or_ne g' g
  · rw [Function.update_self, Function.update_of_ne fun hi => hne ⟨rfl, hi⟩]
  · rw [Function.update_of_ne hg]

/-- What the device sees in the chain of a request is the request. -/
theorem chainData (h : Intact frames m) (hdesc : Kernel.Described frames m.kernel)
    {head tail len : ℕ} (hin : (m.kernel.fut t).InFlight g head tail len) :
    (m.kernel.dev g).virtio.chainData head m.mem = m.sent t := by
  unfold Virtio.chainData
  rw [hdesc.head t g head tail len hin, if_pos rfl]
  exact (h.sent t g head tail len hin).2

/-- The device takes a chain from the avail ring. -/
theorem devRead {id : ℕ} (h : Intact frames m) (hdesc : Kernel.Described frames m.kernel) :
    Intact frames
      { m.setExchange g id
          { m.exchange g id with seen := (m.kernel.dev g).virtio.chainData id m.mem } with
        kernel := m.kernel.setDev g { m.kernel.dev g with
          cursor := wrappingAdd (m.kernel.dev g).cursor 1
          held := (m.kernel.dev g).held ++ [id] } } where
  sent := h.sent
  held t g' head tail len hin hheld := by
    by_cases heq : g' = g ∧ head = id
    · obtain ⟨rfl, rfl⟩ := heq
      rw [setExchange_self]
      exact h.chainData hdesc hin
    · simp only [setExchange_other heq]
      refine h.held t g' head tail len hin ?_
      simp only [Kernel.setDev] at hheld
      obtain rfl | hne := eq_or_ne g' g
      · rw [Function.update_self] at hheld
        exact (List.mem_append.mp hheld).resolve_right fun hi =>
          heq ⟨rfl, List.mem_singleton.mp hi⟩
      · rwa [Function.update_of_ne hne] at hheld
  answered t g' head tail len hin hret := by
    have hold := h.answered t g' head tail len hin hret
    by_cases heq : g' = g ∧ head = id
    · obtain ⟨rfl, rfl⟩ := heq
      simp only [setExchange_self]
      exact ⟨h.chainData hdesc hin, hold.2⟩
    · simp only [setExchange_other heq]
      exact hold
  calls := h.calls
  returned c hc := by
    obtain ⟨t, g', tail, hpc, hfree, hrest⟩ := h.returned c hc
    refine ⟨t, g', tail, hpc, ?_, hrest⟩
    simp only [Kernel.setDev]
    obtain rfl | hne := eq_or_ne g' g
    · rwa [Function.update_self]
    · rwa [Function.update_of_ne hne]

/-- The buffer that the device writes for chain `id` of device `g`, seen from the other owners. -/
structure Writes (n : DevId → ℕ) (g : DevId) (id x : ℕ) (k : Kernel) : Prop where
  lt : x < n g
  notFree : x ∉ (k.dev g).virtio.queuesFree.free
  head : ∀ t head tail len, (k.fut t).InFlight g head tail len → head ≠ x
  tail : ∀ t head tail len, (k.fut t).InFlight g head tail len → tail = x → head = id

/-- The tail of a request in flight is written for that request only. -/
theorem writes_tail {k : Kernel} {head tail len : ℕ} (hw : k.WellFormed) (ho : k.Owned n)
    (hin : (k.fut t).InFlight g head tail len) : Writes n g head tail k := by
  have ht := hw.inFlight_lt hin
  have hmem : tail ∈ (k.fut t).ids g := by simp [hin.ids]
  have hsame : ∀ {u head' tail' len'}, (k.fut u).InFlight g head' tail' len' →
      tail ∈ (k.fut u).ids g → head' = head ∧ tail' = tail := by
    intro u head' tail' len' hu hids
    obtain rfl := ho.ids_unique (hw.inFlight_lt hu) ht hids hmem
    simpa using hu.ids.symm.trans hin.ids
  refine ⟨ho.lt_of_ids ht hmem, ho.not_free_of_ids ht hmem, ?_, ?_⟩
  · rintro u _ tail' len' hu rfl
    obtain ⟨rfl, -⟩ := hsame hu hu.head_mem
    have hnodup := hin.ids ▸ ho.ids_nodup (g := g) ht
    simp at hnodup
  · rintro u head' _ len' hu rfl
    exact (hsame hu (by simp [hu.ids])).1

theorem writes_startUp {k : Kernel} {id : ℕ} (hw : k.WellFormed) (ho : k.Owned n)
    (hstart : id ∈ Kernel.startUps g k.log) : Writes n g id id k where
  lt := ho.lt_of_startUps hstart
  notFree := ho.not_free_of_startUps hstart
  head t head tail len hin := by
    rintro rfl
    exact ho.not_startUp_of_ids (hw.inFlight_lt hin) hin.head_mem hstart
  tail t head tail len hin := by
    rintro rfl
    exact absurd hstart (ho.not_startUp_of_ids (hw.inFlight_lt hin) (by simp [hin.ids]))

/-- The device writes at most a page into the buffer of the chain's owner. -/
theorem writes_of_held {id len : ℕ} {answer : List (BitVec 8)} (hlaw : Lawful n frames m.kernel)
    (held : id ∈ (m.kernel.dev g).held) (hfits : Fits m.kernel (.devPush g id len, answer)) :
    answer.length ≤ pageSize ∧
      Writes n g id ((m.kernel.dev g).virtio.chainWritable id) m.kernel := by
  obtain ⟨hw, ho, hc⟩ := hlaw.separate
  obtain ⟨avail, used, hdevice⟩ := hc.device g
  simp only [Fits] at hfits
  obtain ⟨t, tail, len', hin⟩ | hstart :=
    hdevice.owner (i := id) (by simp [Kernel.chains, held])
  · have hhead := hlaw.described.head t g id tail len' hin
    have hx : (m.kernel.dev g).virtio.chainWritable id = tail := by
      rw [Virtio.chainWritable, hhead, if_pos rfl]
    rw [hx, (hlaw.described.tail t g id tail len' hin).2] at hfits
    exact ⟨hfits, hx ▸ writes_tail hw ho hin⟩
  · obtain ⟨hflags, hlen⟩ := hlaw.startUps g id hstart
    have hx : (m.kernel.dev g).virtio.chainWritable id = id := by
      rw [Virtio.chainWritable, hflags, if_neg (by decide)]
    rw [hx, hlen] at hfits
    exact ⟨hfits, hx.symm ▸ writes_startUp hw ho hstart⟩

/-- The device answers in the page of the chain's owner. -/
theorem devPush {id len : ℕ} {answer : List (BitVec 8)} {k' : Kernel} (hp : Paged n frames)
    (h : Intact frames m) (hlaw : Lawful n frames m.kernel)
    (held : id ∈ (m.kernel.dev g).held) (hfits : Fits m.kernel (.devPush g id len, answer))
    (hpc : k'.pc = m.kernel.pc) (hfut : k'.fut = m.kernel.fut)
    (hlog : k'.log = .ret g id :: m.kernel.log)
    (hdev : ∀ g', (k'.dev g').virtio.queuesFree = (m.kernel.dev g').virtio.queuesFree)
    (hheld : ∀ g', (k'.dev g').held ⊆ (m.kernel.dev g').held) :
    Intact frames
      { m.setExchange g id { m.exchange g id with answer := answer } with
        kernel := k'
        mem := Cells.store ((m.kernel.dev g).virtio.descs
          ((m.kernel.dev g).virtio.chainWritable id)).addr answer m.mem } := by
  obtain ⟨hw, ho, -⟩ := hlaw.separate
  obtain ⟨hle, hwrites⟩ := writes_of_held hlaw held hfits
  have hhead := fun t => hlaw.described.head t g id
  generalize hx : (m.kernel.dev g).virtio.chainWritable id = x at hwrites ⊢
  simp only [hlaw.described.addr]
  -- Every other page keeps its bytes.
  have hother : ∀ {g' i k}, i < n g' → ¬(g' = g ∧ i = x) → k ≤ pageSize →
      Cells.load (Cells.store (frames g x) answer m.mem) (frames g' i) k =
        Cells.load m.mem (frames g' i) k :=
    fun hi hne hk => hp.load_store hi hwrites.lt hne hle hk m.mem
  have hmem : ∀ {u g' head tail len'}, (m.kernel.fut u).InFlight g' head tail len' →
      head < n g' ∧ tail < n g' := fun hin =>
    ⟨ho.lt_of_ids (hw.inFlight_lt hin) hin.head_mem,
      ho.lt_of_ids (hw.inFlight_lt hin) (by simp [hin.ids])⟩
  refine ⟨fun u g' head tail len' hin => ?_, fun u g' head tail len' hin hh => ?_,
    fun u g' head tail len' hin hret => ?_, h.calls, fun c hc => ?_⟩
  · simp only [hfut] at hin
    obtain ⟨hk, hsent⟩ := h.sent u g' head tail len' hin
    refine ⟨hk, (hother (hmem hin).1 ?_ hk).trans hsent⟩
    rintro ⟨rfl, heq⟩
    exact hwrites.head u head tail len' hin heq
  · simp only [hfut] at hin
    have hseen := h.held u g' head tail len' hin (hheld g' hh)
    by_cases heq : g' = g ∧ head = id
    · obtain ⟨rfl, rfl⟩ := heq
      simp only [setExchange_self]
      exact hseen
    · simp only [setExchange_other heq]
      exact hseen
  · simp only [hfut, hlog] at hin hret ⊢
    by_cases heq : g' = g ∧ head = id
    · obtain ⟨rfl, rfl⟩ := heq
      have htail : x = tail := by
        rw [← hx, Virtio.chainWritable, hhead u tail len' hin, if_pos rfl]
      simp only [setExchange_self]
      refine ⟨h.held u g' head tail len' hin held, hle, ?_⟩
      rw [htail]
      exact Cells.load_store _ _ _
    · simp only [setExchange_other heq]
      have hret' : Kernel.Returned m.kernel.log u g' head := by
        refine hret.of_cons (by simp) fun hev => heq ?_
        cases hev
        exact ⟨rfl, rfl⟩
      obtain ⟨hseen, hk, hanswer⟩ := h.answered u g' head tail len' hin hret'
      refine ⟨hseen, hk, (hother (hmem hin).2 ?_ hk).trans hanswer⟩
      rintro ⟨rfl, htail⟩
      exact heq ⟨rfl, hwrites.tail u head tail len' hin htail⟩
  · obtain ⟨u, g', tail, hpc', hfree, haddr, hk, hanswer⟩ := h.returned c hc
    refine ⟨u, g', tail, hpc.trans hpc', (hdev g').symm ▸ hfree, haddr, hk, ?_⟩
    rw [haddr] at hanswer ⊢
    refine (hother (ho.lt_of_free hfree) ?_ hk).trans hanswer
    rintro ⟨rfl, rfl⟩
    exact hwrites.notFree hfree

/-- Every step keeps the buffers in order. -/
theorem step {l : Label} (hp : Paged n frames) (h : Intact frames m)
    (hlaw : Lawful n frames m.kernel) (hdesc : Kernel.Described frames m'.kernel)
    (hstep : Steps m l m') : Intact frames m' := by
  cases hstep with
  | quiet hquiet => exact h.quiet hquiet
  | request run free length fits dev fut log =>
    exact h.request hp hlaw hdesc run free length fits dev fut log
  | release poll hquiet pc free addr => exact h.release hlaw poll hquiet pc free addr
  | devRead => exact h.devRead hlaw.described
  | devPush held fits pc fut log dev heldAfter =>
    exact h.devPush hp hlaw held fits pc fut log dev heldAfter

end Intact

/-- What the callers of `request` get. -/
structure Answered (m : Payloads) : Prop where
  /-- The device's last exchange on the head of a resolved request was over its own data. -/
  calls : ∀ c ∈ m.calls, c.exchange.seen = c.data
  /-- The caller finds the answer of that exchange, whatever the devices do meanwhile. -/
  response : ∀ c, m.returned = some c →
    Cells.load m.mem c.addr c.exchange.answer.length = c.exchange.answer

lemma Intact.answeredAll (h : Intact frames m) : m.Answered := by
  refine ⟨h.calls, fun c hc => ?_⟩
  obtain ⟨_, _, _, -, -, -, -, hanswer⟩ := h.returned c hc
  exact hanswer

/-- The laws of the buffers hold along every run. -/
lemma intact_of_reach {config : DevId → GpuConfig} {rs : List Routine} {mem : ℕ → BitVec 8}
    (hn : ∀ g, QueueSize (config g).queueSize)
    (hp : Paged (fun g => (config g).queueSize) fun g => (config g).addr)
    (h : Transition.Reach step (fun m l _ => m.kernel.NoCollision l.1) (start config rs mem) m) :
    Intact (fun g => (config g).addr) m := by
  have hlaws := h.invariant
    (I := fun m => Lawful (fun g => (config g).queueSize) (fun g => (config g).addr) m.kernel ∧
      Intact (fun g => (config g).addr) m) ⟨.boot config rs, .start config rs mem⟩
    fun m l m' _ hm hstep hnc => by
      have hlaw := hm.1.step hn hnc (Kernel.steps_of_step (kernel_step hstep))
      exact ⟨hlaw, hm.2.step hp hm.1 hlaw.described (steps_of_step hstep)⟩
  exact hlaws.2

/-- While the ids of the devices stay apart, each request gets the answer to its own data. -/
theorem request_answered {config : DevId → GpuConfig} {rs : List Routine} {mem : ℕ → BitVec 8}
    (hn : ∀ g, QueueSize (config g).queueSize)
    (hp : Paged (fun g => (config g).queueSize) fun g => (config g).addr)
    (h : Transition.Reach step (fun m l _ => m.kernel.NoCollision l.1) (start config rs mem) m) :
    m.Answered :=
  (intact_of_reach hn hp h).answeredAll

/-- Devices with 16 descriptors, each with its own page. -/
def pagedConfig (g : DevId) : GpuConfig :=
  { Kernel.blankConfig g with addr := fun i => pageSize * Nat.pair g i }

/-- The first request of `drive` in bytes, and a device that answers with two of them. -/
def firstAnswer : List Label :=
  Kernel.firstRequest.map fun l => (l, match l with
    | .op (.request _ len) => List.replicate len 1#8
    | .devPush _ _ _ => [2#8, 3#8]
    | _ => [])

theorem request_answered_firstAnswer :
    ((Transition.run step (fun m l _ => m.kernel.NoCollision l.1) firstAnswer
      (start pagedConfig [.drive 0] fun _ => 0)).get (by decide +kernel)).Answered :=
  request_answered (fun _ => ⟨4, by decide, rfl⟩)
    ⟨fun _ _ => Nat.dvd_mul_right _ _, fun g i g' i' _ _ h =>
      Nat.pair_eq_pair.mp (Nat.eq_of_mul_eq_mul_left (by decide) h)⟩
    (Transition.Reach.run_get _ _)

end Payloads
end Fomos
