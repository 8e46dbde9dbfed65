import Mathlib
import Fomos.Kernel.Completion

/-!
# Requests and completions

On one device every request resolves once its own chain was returned and consumed, and a consumed
completion has woken its task. With several devices this rests on the ids that they use at the
same time: the slot of a request tells nothing about the device that filled it.
-/
namespace Fomos
namespace Kernel
variable {k k' : Kernel} {l : Label} {t u : TaskId} {g d : DevId} {n : DevId → ℕ}

/-- A request whose chain was consumed is queued or being polled. -/
def Woken (k : Kernel) : Prop :=
  ∀ t g head tail len mid pre, (k.fut t).await = some (.idWait g head tail len) →
    k.log = mid ++ .add t g head :: pre → (∀ e ∈ mid, ¬e.Renews g head) → .use g head ∈ mid →
      t ∈ k.taskQueue.items ∨ k.pc = .polling t

/-- A core that has stopped in a poll was not waiting on a slot. -/
def Stopped (k : Kernel) : Prop :=
  ∀ t, k.pc.current = some t → k.pc = .polling t ∨
    ∀ g head tail len, (k.fut t).await ≠ some (.idWait g head tail len)

theorem Stopped.step (h : Stopped k) (hw : WellFormed k) (ho : Owned n k)
    (hmax : ∀ g, n g ≤ numWakers) (hstep : Steps k l k') : Stopped k' := by
  intro t ht
  cases hstep with
  | control move =>
    cases move with
    | spinOp run | noMoreDesc run =>
      obtain rfl : _ = t := by simpa [Pc.current] using ht
      exact .inr fun g head tail len ha => by simp [run.await] at ha
    | spinPoll poll =>
      obtain rfl : _ = t := by simpa [Pc.current] using ht
      exact .inr fun g head tail len ha => by simp [poll.await] at ha
    | @outOfBounds t g head tail len poll past =>
      have hlt := ho.lt_of_ids (hw.running_lt poll.pc) (Fut.InFlight.head_mem (.inl poll.await))
      exact absurd (hlt.trans_le (hmax g)) past.not_gt
    | _ => simp [Pc.current] at ht
  | popTask =>
    obtain rfl : _ = t := by simpa [Pc.current] using ht
    exact .inl rfl
  | spawnPanic | wakeYielderPanic | yieldFirst | register | finish =>
    simp [finish, Pc.current] at ht
  | checkallPast run | checkallPanic run =>
    obtain rfl : _ = t := by simpa [Pc.current] using ht
    exact .inr fun g head tail len ha => by simp [consumed, run.await] at ha
  | spawnTask pc | popGone pc | wakeYielder pc =>
    simp [pc, Pc.current] at ht
  | spawnOp run | yieldOp run | startUp run | dropGuard run | readConfig run | request run
  | checkallNone run | checkallNothing run | checkallWake run =>
    obtain rfl : _ = t := by simpa [consumed, setFut, run.pc, Pc.current] using ht
    exact .inl run.pc
  | yieldAgain poll | ready poll | release poll =>
    obtain rfl : _ = t := by simpa [setFut, poll.pc, Pc.current] using ht
    exact .inl poll.pc
  | devRead | devPush => exact h t ht

/-- Every start-up descriptor in the history is one of device `d`. -/
def StartedOn (d : DevId) (k : Kernel) : Prop := ∀ g i, .startUp g i ∈ k.log → g = d

theorem StartedOn.step (h : StartedOn d k) (hs : Scripts (OnDevice d) k) (hstep : Steps k l k') :
    StartedOn d k' := by
  intro g i hi
  rw [← mem_startUps] at hi
  obtain hsame | ⟨t, rest, v, ids, f, run, -⟩ := startUps_cases hstep g
  · rw [hsame, mem_startUps] at hi
    exact h g i hi
  · exact hs.device_eq ((hs t).1.takes_gpu run.takes rfl)

/-- On one device the ids of different devices never meet. -/
theorem noCollision (hs : Scripts (OnDevice d) k) (hd : StartedOn d k) (hstep : Steps k l k') :
    k.NoCollision l := by
  have hon : ∀ {t o g rest}, Running k t o rest → o.gpu = some g → g = d := fun run hg =>
    hs.device_eq ((hs _).1.takes_gpu run.takes hg)
  have hslot : ∀ i, k.SlotApart d i := by
    intro i t _ p hp _
    have hids : p.2 ∈ (k.fut t).ids p.1 := by
      unfold Fut.slot at hp
      split at hp
      · cases hp
        simp [Fut.ids_of_idWait ‹_›]
      · cases hp
    exact hs.device_eq (hs.gpu_of_ids hids)
  have hstart : ∀ i, k.StartUpApart d i := by
    intro i e he p hp _
    cases e <;> simp [Event.startUp?] at hp
    subst hp
    exact hd _ _ he
  unfold NoCollision
  split
  · obtain ⟨t, rest, run⟩ := hstep.running
    obtain rfl := hon run rfl
    exact fun i _ => ⟨hslot i, hstart i⟩
  · obtain ⟨t, rest, run⟩ := hstep.running
    obtain rfl := hon run rfl
    exact fun i _ => hslot i
  · trivial

/-- Requests and completions on one device. -/
structure Matching (d : DevId) (k : Kernel) : Prop where
  resolved : ∀ post t g head response rest, k.log = post ++ .resolve t g head response :: rest →
    ∃ mid pre, rest = mid ++ .add t g head :: pre ∧ (∀ e ∈ mid, ¬e.Renews g head) ∧
      mid.count (.ret g head) = 1 ∧ mid.count (.use g head) = 1
  once : ∀ post mid pre t u g head response response', k.log =
    post ++ .resolve t g head response :: (mid ++ .resolve u g head response' :: pre) →
      .use g head ∈ mid
  woken : Woken k ∨ TaskQueueFull k
  idle : ∀ i ∈ (k.dev d).virtio.queuesFree.free, k.wakers i = .none

/-- The invariant of a run on one device. -/
structure Single (n : DevId → ℕ) (d : DevId) (k : Kernel) : Prop where
  wellFormed : WellFormed k
  owned : Owned n k
  scripts : Scripts (OnDevice d) k
  started : StartedOn d k
  completion : Completion n k
  stopped : Stopped k
  registered : Registered k ∨ TaskQueueFull k

namespace Single

theorem boot {config : DevId → GpuConfig} {rs : List Routine} (hrs : ∀ r ∈ rs, OnDevice d r) :
    Single (fun g => (config g).queueSize) d (Kernel.boot config rs) where
  wellFormed := .boot config rs
  owned := .boot config rs
  scripts := .boot (.inl rfl) hrs
  started := by
    have hlog : (Kernel.boot config rs).log = [] :=
      boot_induction (P := fun k => k.log = []) rfl fun _ _ _ h => h
    simp [StartedOn, hlog]
  completion := .boot config rs
  stopped := by simp [Stopped, Pc.current]
  registered := .inl (.boot config rs)

theorem step (hn : ∀ g, QueueSize (n g)) (hmax : ∀ g, n g ≤ numWakers) (h : Single n d k)
    (hstep : Steps k l k') : Single n d k' where
  wellFormed := h.wellFormed.step hstep
  owned := h.owned.step h.wellFormed hstep
  scripts := h.scripts.step OnDevice.spawns hstep
  started := h.started.step h.scripts hstep
  completion := h.completion.step hn h.wellFormed h.owned
    (noCollision h.scripts h.started hstep) hstep
  stopped := h.stopped.step h.wellFormed h.owned hmax hstep
  registered := h.registered.elim
    (fun hr => hr.step h.wellFormed h.completion.slots.heads hstep) fun hf => .inr (hf.step hstep)

theorem woken (h : Single n d k) (hr : Registered k) : Woken k := by
  intro t g head tail len mid pre ha hlog hmid huse
  have hmem := h.wellFormed.await t (by simp [ha])
  by_cases hrun : k.pc.current = some t
  · exact .inr ((h.stopped t hrun).resolve_right fun hno => hno g head tail len ha)
  · obtain ⟨hlt, hwaker⟩ | hqueue := hr t hmem hrun g head tail len ha
    · -- The slot still has its waker, so the chain was not consumed.
      obtain ⟨hdone, -⟩ | ⟨-, hflight⟩ := h.completion.slots.pending t g head tail len ha hlt
      · simp [hwaker] at hdone
      · obtain ⟨q, r, hqr, mid', pre', hlog', hmid', hq, hr'⟩ := hflight
        obtain rfl := Flight.since_unique hmid hmid' (hlog.symm.trans hlog')
        have := List.count_pos_iff.mpr huse
        omega
    · exact .inl hqueue

theorem matching (hmax : ∀ g, n g ≤ numWakers) (h : Single n d k) : Matching d k where
  resolved post t g head response rest hlog := by
    obtain ⟨mid, pre, hrest, hmid, hret, huse⟩ :=
      h.completion.slots.matched post t g head response rest hlog
    exact ⟨mid, pre, hrest, hmid, by omega, by omega⟩
  once post mid pre t u g head response response' hlog :=
    h.completion.slots.matched.use_between hlog
  woken := h.registered.imp_left h.woken
  idle i hi := by
    by_contra hne
    have hlt := (h.owned.lt_of_free hi).trans_le (hmax d)
    obtain ⟨t, g, tail, len, ha⟩ | ⟨g, hg⟩ := h.completion.slots.idle i hlt hne
    · have hids : i ∈ (k.fut t).ids g := Fut.InFlight.head_mem (.inl ha)
      obtain rfl := h.scripts.device_eq (h.scripts.gpu_of_ids hids)
      exact h.owned.not_free_of_ids (h.wellFormed.inFlight_lt (.inl ha)) hids hi
    · obtain rfl := h.started g i (mem_startUps.mp hg)
      exact h.owned.not_free_of_startUps hg hi

end Single

/-- On one device of at most 256 descriptors, requests and completions match, and the only way to
leave a completed request behind is the panic about a full `task_queue`. -/
theorem request_matching {c : GpuConfig} {rs : List Routine} (hn : QueueSize c.queueSize)
    (hmax : c.queueSize ≤ numWakers) (hrs : ∀ r ∈ rs, OnDevice d r)
    (h : Transition.Reach step (fun _ _ _ => True) (boot (fun _ => c) rs) k) : Matching d k :=
  (h.invariant (Single.boot hrs) fun _ _ _ _ hk hstep _ =>
    hk.step (fun _ => hn) (fun _ => hmax) (steps_of_step hstep)).matching fun _ => hmax

theorem request_matching_firstRequest : Matching 0 ((Transition.run step (fun _ _ _ => True)
    firstRequest (boot (fun _ => blankConfig 0) [.drive 0])).get (by decide)) :=
  request_matching ⟨4, by decide, rfl⟩ (by decide) (by simp [OnDevice, Routine.gpu])
    (Transition.Reach.run_get _ _)

/-- Two requests of tasks 1 and 2 are returned while the poller and the 99 tasks that task 2 has
spawned fill `task_queue`. -/
def crowded : List Label :=
  ([.exec, .exec, .exec, .exec, .exec, .op (.checkall 0), .op .yieldOnce, .poll,
    .exec, .op (.request 0 24), .poll, .exec] : List Label) ++
  List.replicate 99 (.op (.spawn (.client none))) ++
  ([.op (.request 0 24), .poll, .exec, .exec, .exec, .exec] : List Label) ++
  List.replicate 99 .exec ++
  ([.exec, .exec, .poll, .devRead 0, .devRead 0, .devPush 0 15 24, .devPush 0 13 24,
    .op (.checkall 0), .op (.checkall 0)] : List Label)

/-- The chain of task 2 is consumed, but the task is not queued. -/
theorem completed_request_not_queued : ¬∀ c rs d k, QueueSize c.queueSize →
    c.queueSize ≤ numWakers → (∀ r ∈ rs, OnDevice d r) →
    Transition.Reach step (fun _ _ _ => True) (boot (fun _ => c) rs) k → Woken k := by
  intro h
  have hwoken := h (blankConfig 0) [.poller 0, .client (some 0), .client (some 0)] 0 _
    ⟨4, by decide, rfl⟩ (by decide) (by simp [OnDevice, Routine.gpu])
    (Transition.Reach.run_get crowded (by decide +kernel))
  have hqueued := hwoken 2 0 13 12 24 [.use 0 13, .use 0 15, .ret 0 13, .ret 0 15] [.add 1 0 15]
    (by decide +kernel) (by decide +kernel) (by simp [Event.Renews]) (by simp)
  revert hqueued
  decide +kernel

/-! ## Several devices -/

/-- A request resolves only after its own device has returned its head. -/
def OwnReturn (log : List Event) : Prop :=
  ∀ post t g head response rest, log = post ++ .resolve t g head response :: rest →
    ∃ mid pre, rest = mid ++ .add t g head :: pre ∧ (∀ e ∈ mid, ¬e.Renews g head) ∧
      .ret g head ∈ mid

/-- The slot of a pending request changes only by its own poll, or when its own device's poller
consumes its chain. -/
def SlotKept (k k' : Kernel) : Prop :=
  ∀ t g head tail len, (k.fut t).await = some (.idWait g head tail len) →
    k'.wakers head ≠ k.wakers head → k.pc = .polling t ∨ k'.log = .use g head :: k.log

/-- A slot is changed by the poll of the request on it or by a consumed chain. -/
theorem wakers_cases (hstep : Steps k l k') {i : ℕ} (hi : k'.wakers i ≠ k.wakers i) :
    (∃ t g tail len, Polling k t (.idWait g i tail len)) ∨
      ∃ g e v, e.id = i ∧ (k.dev g).virtio.nextUsed = some (e, v) ∧
        k'.log = .use g e.id :: k.log := by
  cases hstep with
  | @checkallNothing _ _ _ used _ _ _ next | @checkallWake _ _ _ used _ _ _ _ _ next
  | @checkallPanic _ _ _ used _ _ _ _ next =>
    have hid : used.id = i := by
      by_contra hne
      exact hi (Function.update_of_ne (Ne.symm hne) _ _)
    exact .inr ⟨_, used, _, hid, next, rfl⟩
  | @register t g head tail len poll | @ready t g head tail len poll =>
    have hid : head = i := by
      by_contra hne
      exact hi (Function.update_of_ne (Ne.symm hne) _ _)
    exact .inl ⟨t, g, tail, len, hid ▸ poll⟩
  | _ => exact absurd rfl hi

/-- The invariant of a run on devices whose ids stay apart. -/
structure Separate (n : DevId → ℕ) (k : Kernel) : Prop where
  wellFormed : WellFormed k
  owned : Owned n k
  completion : Completion n k

namespace Separate

theorem boot (config : DevId → GpuConfig) (rs : List Routine) :
    Separate (fun g => (config g).queueSize) (Kernel.boot config rs) :=
  ⟨.boot config rs, .boot config rs, .boot config rs⟩

theorem step (hn : ∀ g, QueueSize (n g)) (h : Separate n k) (hnc : k.NoCollision l)
    (hstep : Steps k l k') : Separate n k' :=
  ⟨h.wellFormed.step hstep, h.owned.step h.wellFormed hstep,
    h.completion.step hn h.wellFormed h.owned hnc hstep⟩

theorem ownReturn (h : Separate n k) : OwnReturn k.log := by
  intro post t g head response rest hlog
  obtain ⟨mid, pre, hrest, hmid, hret, -⟩ :=
    h.completion.slots.matched post t g head response rest hlog
  exact ⟨mid, pre, hrest, hmid, List.count_pos_iff.mp (by omega)⟩

theorem slotKept (hn : ∀ g, QueueSize (n g)) (h : Separate n k) (hstep : Steps k l k') :
    SlotKept k k' := by
  intro t g head tail len ha hchange
  obtain ⟨u, g', tail', len', poll⟩ | ⟨g', e, v, rfl, next, hlog⟩ := wakers_cases hstep hchange
  · obtain rfl : t = u := h.completion.slots.heads _ _ _ _ _ _ _ _ _ ha poll.await
    exact .inl poll.pc
  · obtain ⟨avail, used, hlaw⟩ := h.completion.device g'
    obtain ⟨es, cursor, rfl, -⟩ := hlaw.nextUsed (hn g') next
    have hmem : e.id ∈ chains (k.dev g') avail (e :: es) := by simp [chains]
    obtain ⟨u, tail', len', hin⟩ | hstart := hlaw.owner hmem
    · have hb := hin.resolve_right (h.completion.not_released hlaw hmem u tail' len')
      obtain rfl : t = u := h.completion.slots.heads _ _ _ _ _ _ _ _ _ ha hb
      obtain ⟨rfl, -⟩ : g = g' ∧ tail = tail' ∧ len = len' := by simpa using ha.symm.trans hb
      exact .inr hlog
    · exact absurd hstart (h.completion.slots.apart t g e.id tail len ha g')

end Separate

/-- While the ids of the devices stay apart, each request resolves by its own device, and no
other device touches its slot. -/
theorem gpu_isolation {config : DevId → GpuConfig} {rs : List Routine}
    (hn : ∀ g, QueueSize (config g).queueSize)
    (h : Transition.Reach step (fun k l _ => k.NoCollision l) (boot config rs) k) :
    OwnReturn k.log ∧ ∀ l k', step l k = some k' → SlotKept k k' := by
  have hsep : Separate (fun g => (config g).queueSize) k := by
    refine h.invariant (.boot config rs) ?_
    intro k l k' _ hk hstep hnc
    exact hk.step hn hnc (steps_of_step hstep)
  exact ⟨hsep.ownReturn, fun _ _ hstep => hsep.slotKept hn (steps_of_step hstep)⟩

/-- Two drives start their devices up, and make their first requests. Device 0 returns the head
`id`, its poller consumes it, and the poller of device 1 finds nothing. -/
def twoDrives (id : ℕ) : List Label :=
  let start (g : DevId) : List Label :=
    [.exec, .op (.spawn (.poller g)), .op (.startUp g), .op .yieldOnce, .poll]
  let request (g : DevId) : List Label :=
    [.exec, .poll, .op (.dropGuard g), .op (.request g virtioGpuCtrlHdr), .poll]
  List.replicate 3 .exec ++ start 0 ++ start 1 ++ List.replicate 8 .exec ++ request 0 ++
    request 1 ++ List.replicate 11 (.devRead 0) ++
    ([.devPush 0 id 24, .exec, .op (.checkall 0), .op (.checkall 0), .op .yieldOnce, .poll,
      .exec, .op (.checkall 1), .op .yieldOnce, .poll] : List Label)

/-- Devices with 16 descriptors and with 64. -/
def twoSizes (g : DevId) : GpuConfig := { blankConfig g with queueSize := if g = 0 then 16 else 64 }

theorem gpu_isolation_twoDrives :
    let k := (Transition.run step (fun k l _ => k.NoCollision l) (twoDrives 5)
      (boot twoSizes [.drive 0, .drive 1])).get (by decide +kernel)
    OwnReturn k.log ∧ ∀ l k', step l k = some k' → SlotKept k k' :=
  gpu_isolation (fun g => by
    obtain rfl | hne := eq_or_ne g 0
    · exact ⟨4, by decide, rfl⟩
    · exact ⟨6, by decide, if_neg hne⟩) (Transition.Reach.run_get _ _)

/-- With two equal devices both first requests have the head 5. What device 0 returns resolves
the request to device 1. -/
theorem gpu_devices_collide : ¬∀ config rs k, (∀ g, QueueSize (config g).queueSize) →
    Transition.Reach step (fun _ _ _ => True) (boot config rs) k →
      OwnReturn k.log ∧ ∀ l k', step l k = some k' → SlotKept k k' := by
  intro h
  obtain ⟨hown, -⟩ := h blankConfig [.drive 0, .drive 1] _ (fun _ => ⟨4, by decide, rfl⟩)
    (Transition.Reach.run_get (twoDrives 5 ++ [.exec, .poll, .poll]) (by decide +kernel))
  obtain ⟨mid, pre, hrest, -, hret⟩ := hown [] 1 1 5 ⟨0, 4096, virtqDescFWrite, 0xffff⟩ _
    (List.eq_cons_of_mem_head? (by decide +kernel))
  have hlog := List.mem_append_left (.add 1 1 5 :: pre) hret
  rw [← hrest] at hlog
  revert hlog
  decide +kernel

end Kernel
end Fomos
