import Mathlib
import Fomos.Kernel.Healthy

/-!
# One call of `run_ready_tasks`

A call pops `task_queue` until the queue is empty, while the polled tasks push to it. Only the
poller wakes other tasks; it begins one poll in a call, after which it stays in `YIELDERS`. So a
task is polled for the token that it had at the start, and once more if the poller wakes it.
-/
namespace Fomos

/-- Whether `run_ready_tasks` goes on. -/
def Pc.inRound : Pc → Bool
  | .ready | .polling _ => true
  | _ => false

/-- A state within a call, with the tasks whose polls it has begun, the last one at the end. -/
structure Round where
  kernel : Kernel
  polled : List TaskId

/-- A step of the core. -/
def Kernel.Label.core : Kernel.Label → Bool
  | .devRead _ | .devPush _ _ _ => false
  | _ => true

namespace Round
open Kernel

/-- The poll that begins with a step. -/
def begun (k k' : Kernel) : List TaskId :=
  match k.pc, k'.pc with
  | .ready, .polling t => [t]
  | _, _ => []

/-- A step of the core or of a device before the call returns. -/
def step (l : Label) (c : Round) : Option Round :=
  if c.kernel.pc.inRound then
    (Kernel.step l c.kernel).map fun k' => ⟨k', c.polled ++ begun c.kernel k'⟩
  else none

/-- The states that a call passes through while at most 100 tasks are live. -/
abbrev Reach : Round → Round → Prop :=
  Transition.Reach step fun _ _ c' => c'.kernel.numLive ≤ 100

/-- What a step of a call does to `task_queue`. -/
inductive Moves (l : Label) (c c' : Round) : Prop
  | pop {t : TaskId} (pc : c.kernel.pc = .ready) (pc' : c'.kernel.pc = .polling t)
      (queue : c.kernel.taskQueue.items = t :: c'.kernel.taskQueue.items)
      (polled : c'.polled = c.polled ++ [t])
  | drained (pc : c.kernel.pc = .ready) (pc' : c'.kernel.pc = .idle)
      (empty : c.kernel.taskQueue.items = [])
      (queue : c'.kernel.taskQueue = c.kernel.taskQueue) (polled : c'.polled = c.polled)
  | wake {p u : TaskId} {g : DevId} (pc : c.kernel.pc = .polling p)
      (pc' : c'.kernel.pc = .polling p) (poller : (c.kernel.fut p).routine = .poller g)
      (queue : c'.kernel.taskQueue.items = c.kernel.taskQueue.items ++ [u])
      (polled : c'.polled = c.polled)
  | leave {t : TaskId} (pc : c.kernel.pc = .polling t) (pc' : c'.kernel.pc = .ready)
      (parked : ∀ g, (c.kernel.fut t).routine = .poller g → t ∈ c'.kernel.yielders.items)
      (queue : c'.kernel.taskQueue = c.kernel.taskQueue) (polled : c'.polled = c.polled)
  | stay (pc : c'.kernel.pc = c.kernel.pc)
      (core : l.core = true → ∃ t, c.kernel.pc = .polling t)
      (queue : c'.kernel.taskQueue = c.kernel.taskQueue) (polled : c'.polled = c.polled)

variable {c c' c₀ : Round} {k k' k₀ : Kernel} {l : Label} {t u : TaskId} {d g : DevId}
  {config : DevId → GpuConfig} {rs : List Routine}

/-- No poll begins while one goes on. -/
lemma begun_polling (hpc : k.pc = .polling t) : begun k k' = [] := by simp [begun, hpc]

lemma begun_same (hpc : k'.pc = k.pc) : begun k k' = [] := by
  rw [begun, hpc]
  cases k.pc <;> rfl

lemma step_eq_some (h : step l c = some c') : c.kernel.pc.inRound = true ∧
    Steps c.kernel l c'.kernel ∧ c'.polled = c.polled ++ begun c.kernel c'.kernel := by
  obtain ⟨hpc, h⟩ := Option.ite_none_right_eq_some.mp h
  obtain ⟨k', hk, rfl⟩ := Option.map_eq_some_iff.mp h
  exact ⟨hpc, steps_of_step hk, rfl⟩

/-- A token in `task_queue` is that of a known task. -/
lemma mem_tasks_of_queued (h : OneHolder k) (ht : t ∈ k.taskQueue.items) :
    t ∈ k.tasks := by
  have hone := h.le_one t
  have hcount := List.count_pos_iff.mpr ht
  have hlive : k.Live t := by
    by_contra hdead
    have := h.dead t hdead
    unfold tokens at this
    omega
  refine hlive.resolve_right fun hspawn => ?_
  have := List.count_pos_iff.mpr hspawn
  unfold tokens at hone
  omega

/-- A parked task has no token in `task_queue`. -/
lemma not_queued_of_yielding (h : OneHolder k) (ht : t ∈ k.yielders.items) :
    t ∉ k.taskQueue.items := by
  intro hqueue
  have hone := h.le_one t
  have := List.count_pos_iff.mpr ht
  have := List.count_pos_iff.mpr hqueue
  unfold tokens at hone
  omega

/-- The poller makes no request. -/
lemma not_poller_of_ids {i : ℕ} (hs : Scripts (OnDevice d) k) (hi : i ∈ (k.fut t).ids g)
    (g' : DevId) : (k.fut t).routine ≠ .poller g' := by
  intro hr
  have := (hs t).1.own g (List.ne_nil_of_mem hi)
  simp [hr, Routine.requester] at this

lemma moves (h : Healthy d config rs c.kernel) (h' : Healthy d config rs c'.kernel)
    (hstep : step l c = some c') : Moves l c c' := by
  obtain ⟨hin, hsteps, hpolled⟩ := step_eq_some hstep
  obtain ⟨k, ps⟩ := c
  obtain ⟨k', ps'⟩ := c'
  simp only at h h' hin hsteps hpolled
  have hpanic := h'.noPanic
  have hspin := h'.guarded.spin
  have hstay : k'.pc = k.pc → k'.taskQueue = k.taskQueue →
      (l.core = true → ∃ t, k.pc = .polling t) → Moves l ⟨k, ps⟩ ⟨k', ps'⟩ := by
    intro hpc hqueue hcore
    rw [begun_same hpc, List.append_nil] at hpolled
    exact .stay hpc hcore hqueue hpolled
  have hleave : ∀ {t}, k.pc = .polling t → k'.pc = .ready →
      (∀ g, (k.fut t).routine = .poller g → t ∈ k'.yielders.items) →
      k'.taskQueue = k.taskQueue → Moves l ⟨k, ps⟩ ⟨k', ps'⟩ := by
    intro t hpc hpc' hparked hqueue
    rw [begun_polling hpc, List.append_nil] at hpolled
    exact .leave hpc hpc' hparked hqueue hpolled
  cases hsteps with
  | control move =>
    cases move with
    | drained pc empty =>
      refine .drained pc rfl empty rfl ?_
      simpa [begun, pc] using hpolled
    | spawned pc | halt pc | busy pc | awake pc | yielded pc => simp [pc, Pc.inRound] at hin
    | spinOp | spinPoll => exact absurd rfl (hspin _ _)
    | noMoreDesc | outOfBounds => exact absurd rfl (hpanic _ _)
  | spawnTask pc | spawnPanic pc | wakeYielder pc | wakeYielderPanic pc =>
    simp [pc, Pc.inRound] at hin
  | popTask pc pop live =>
    refine .pop pc rfl pop ?_
    simpa [begun, pc] using hpolled
  | popGone pc pop gone =>
    exact absurd (mem_tasks_of_queued h.holder (by rw [pop]; exact .head _)) gone
  | checkallPast | checkallPanic => exact absurd rfl (hpanic _ _)
  | checkallWake run _ _ _ _ push =>
    rw [begun_polling run.pc, List.append_nil] at hpolled
    exact .wake run.pc run.pc ((h.device _).1.takes_checkall run.takes) push hpolled
  | yieldFirst poll =>
    have hroom := room_of_current h.wellFormed h.holder h.guarded.numLive poll.current
    refine hleave poll.pc rfl (fun _ _ => ?_) rfl
    simp [ArrayQueue.tryPush_items hroom.2]
  | @register t g head tail len poll =>
    refine hleave poll.pc rfl (fun g' hr => absurd hr ?_) rfl
    exact not_poller_of_ids h.device (Fut.InFlight.head_mem (.inl poll.await)) g'
  | finish pc await client =>
    refine hleave pc rfl (fun g hr => ?_) rfl
    rw [client] at hr
    cases hr
  | spawnOp run | yieldOp run | startUp run | dropGuard run | readConfig run | request run
  | checkallNone run | checkallNothing run | yieldAgain run | ready run | release run =>
    exact hstay rfl rfl fun _ => ⟨_, run.pc⟩
  | devRead | devPush => exact hstay rfl rfl nofun

/-- A call adds no task to `tasks`. -/
lemma tasks_subset (hstep : step l c = some c') : c'.kernel.tasks ⊆ c.kernel.tasks := by
  obtain ⟨hin, hsteps, -⟩ := step_eq_some hstep
  obtain ⟨k', ps'⟩ := c'
  cases hsteps with
  | spawnTask pc | spawnPanic pc => simp [pc, Pc.inRound] at hin
  | finish => exact Finset.erase_subset _ _
  | _ => exact Finset.Subset.refl _

/-- A task that is in `YIELDERS` stays there. -/
lemma yielders_kept (hstep : step l c = some c') (ht : t ∈ c.kernel.yielders.items) :
    t ∈ c'.kernel.yielders.items := by
  obtain ⟨hin, hsteps, -⟩ := step_eq_some hstep
  obtain ⟨k', ps'⟩ := c'
  cases hsteps with
  | wakeYielder pc | wakeYielderPanic pc => simp [pc, Pc.inRound] at hin
  | @yieldFirst u poll =>
    obtain ⟨-, hitems⟩ | ⟨-, hitems⟩ := c.kernel.yielders.tryPush_cases u <;> simp [hitems, ht]
  | _ => exact ht

/-- The polls of a call that began in `k₀`. -/
structure Polled (d : DevId) (k₀ : Kernel) (c : Round) : Prop where
  place : c.kernel.pc.inRound = true ∨ c.kernel.pc = .idle ∧ c.kernel.taskQueue.items = []
  tasks : c.kernel.tasks ⊆ k₀.tasks
  routine : ∀ t ∈ k₀.tasks, t < c.kernel.nextId ∧ (c.kernel.fut t).routine = (k₀.fut t).routine
  known : ∀ t ∈ c.polled, t ∈ k₀.tasks
  current : ∀ t, c.kernel.pc = .polling t → t ∈ c.polled
  queued : ∀ t ∈ k₀.taskQueue.items, t ∈ c.polled ∨ t ∈ c.kernel.taskQueue.items
  /-- Until the poller runs, nobody is woken. -/
  before : (∀ p ∈ c.polled, (k₀.fut p).routine ≠ .poller d) →
    ∀ t, c.polled.count t + c.kernel.taskQueue.items.count t ≤ 1
  /-- While the poller runs, nobody was polled twice. -/
  during : ∀ p, c.kernel.pc = .polling p → (k₀.fut p).routine = .poller d →
    ∀ t, c.polled.count t ≤ 1
  /-- After its poll the poller is parked. -/
  parked : ∀ p ∈ c.polled, (k₀.fut p).routine = .poller d →
    c.kernel.pc = .polling p ∨ p ∈ c.kernel.yielders.items
  twice : ∀ t, c.polled.count t + c.kernel.taskQueue.items.count t ≤ 2

namespace Polled

lemma start (hw : WellFormed k₀) (h : OneHolder k₀) (hpc : k₀.pc = .ready) :
    Polled d k₀ ⟨k₀, []⟩ where
  place := by simp [hpc, Pc.inRound]
  tasks := Finset.Subset.refl _
  routine t ht := ⟨hw.live_lt t (.inl ht), rfl⟩
  known := nofun
  current t ht := by simp [hpc] at ht
  queued t ht := .inr ht
  before _ t := by
    have hone := h.le_one t
    simp only [tokens, List.count_nil] at hone ⊢
    omega
  during p hp := by simp [hpc] at hp
  parked := nofun
  twice t := by
    have hone := h.le_one t
    simp only [tokens, List.count_nil] at hone ⊢
    omega

/-- The poller is popped once, since it is parked after that. -/
lemma none_of_pop (h : Polled d k₀ c) (hk : Healthy d config rs k₀)
    (hc : Healthy d config rs c.kernel) (hpc : c.kernel.pc = .ready)
    (ht : t ∈ c.kernel.taskQueue.items) (hr : (k₀.fut t).routine = .poller d) :
    ∀ p ∈ c.polled, (k₀.fut p).routine ≠ .poller d := by
  intro p hp hpoller
  have htasks := h.tasks (mem_tasks_of_queued hc.holder ht)
  have hlt : ∀ {u}, u ∈ k₀.tasks → u < k₀.nextId := fun hu => hk.wellFormed.live_lt _ (.inl hu)
  obtain rfl : p = t :=
    routine_unique hk.pollers (hlt (h.known p hp)) (hlt htasks) hpoller hr
  obtain hrun | hyield := h.parked p hp hpoller
  · simp [hpc] at hrun
  · exact not_queued_of_yielding hc.holder hyield ht

lemma tasks_step (h : Polled d k₀ c) (hstep : Round.step l c = some c') :
    c'.kernel.tasks ⊆ k₀.tasks := (tasks_subset hstep).trans h.tasks

lemma routine_step (h : Polled d k₀ c) (hstep : Round.step l c = some c') (t : TaskId)
    (ht : t ∈ k₀.tasks) :
    t < c'.kernel.nextId ∧ (c'.kernel.fut t).routine = (k₀.fut t).routine := by
  obtain ⟨hlt, hr⟩ := h.routine t ht
  obtain ⟨hlt', hr'⟩ := routine_kept (step_eq_some hstep).2.1 hlt
  exact ⟨hlt', hr'.trans hr⟩

/-- A step without a pop or a wake-up only has to park the poller. -/
lemma quiet (h : Polled d k₀ c) (hstep : Round.step l c = some c')
    (queue : c'.kernel.taskQueue = c.kernel.taskQueue) (polled : c'.polled = c.polled)
    (hplace : c'.kernel.pc.inRound = true ∨ c'.kernel.pc = .idle ∧ c'.kernel.taskQueue.items = [])
    (hpc : ∀ t, c'.kernel.pc = .polling t → c.kernel.pc = .polling t)
    (hparked : ∀ p ∈ c.polled, (k₀.fut p).routine = .poller d → c.kernel.pc = .polling p →
      c'.kernel.pc = .polling p ∨ p ∈ c'.kernel.yielders.items) : Polled d k₀ c' where
  place := hplace
  tasks := h.tasks_step hstep
  routine := h.routine_step hstep
  known := polled ▸ h.known
  current t ht := polled ▸ h.current t (hpc t ht)
  queued := by
    rw [polled, queue]
    exact h.queued
  before := by
    rw [polled, queue]
    exact h.before
  during p hp hr := polled ▸ h.during p (hpc p hp) hr
  parked p hp hr := by
    rw [polled] at hp
    obtain hrun | hyield := h.parked p hp hr
    · exact hparked p hp hr hrun
    · exact .inr (yielders_kept hstep hyield)
  twice := by
    rw [polled, queue]
    exact h.twice

/-- A pop turns a token in `task_queue` into a poll. -/
lemma pop (h : Polled d k₀ c) (hk : Healthy d config rs k₀) (hc : Healthy d config rs c.kernel)
    (hstep : Round.step l c = some c') (pc : c.kernel.pc = .ready)
    (pc' : c'.kernel.pc = .polling t)
    (queue : c.kernel.taskQueue.items = t :: c'.kernel.taskQueue.items)
    (polled : c'.polled = c.polled ++ [t]) : Polled d k₀ c' := by
  have hmem : t ∈ c.kernel.taskQueue.items := by rw [queue]; exact .head _
  have hcount : ∀ u, c'.polled.count u + c'.kernel.taskQueue.items.count u =
      c.polled.count u + c.kernel.taskQueue.items.count u := by
    intro u
    simp only [polled, queue, List.count_append, List.count_cons, List.count_nil]
    omega
  refine ⟨.inl (by simp [pc', Pc.inRound]), h.tasks_step hstep, h.routine_step hstep, ?_, ?_, ?_,
    ?_, ?_, ?_, ?_⟩
  · intro u hu
    rw [polled, List.mem_append, List.mem_singleton] at hu
    obtain hu | rfl := hu
    · exact h.known u hu
    · exact h.tasks (mem_tasks_of_queued hc.holder hmem)
  · intro u hu
    obtain rfl : t = u := by simpa [pc'] using hu
    simp [polled]
  · intro u hu
    rw [polled, List.mem_append, List.mem_singleton]
    obtain hu | hu := h.queued u hu
    · exact .inl (.inl hu)
    · rw [queue, List.mem_cons] at hu
      exact hu.imp_left .inr
  · intro hnone u
    rw [hcount]
    exact h.before (fun p hp => hnone p (by simp [polled, hp])) u
  · intro p hp hr u
    obtain rfl : t = p := by simpa [pc'] using hp
    have hone := h.before (h.none_of_pop hk hc pc hmem hr) u
    have := hcount u
    omega
  · intro p hp hr
    rw [polled, List.mem_append, List.mem_singleton] at hp
    obtain hp | rfl := hp
    · obtain hrun | hyield := h.parked p hp hr
      · simp [pc] at hrun
      · exact .inr (yielders_kept hstep hyield)
    · exact .inl pc'
  · exact fun u => (hcount u).trans_le (h.twice u)

/-- The poller wakes a task that was polled once at most. -/
lemma wake {p : TaskId} (h : Polled d k₀ c) (hc : Healthy d config rs c.kernel)
    (hc' : Healthy d config rs c'.kernel) (hstep : Round.step l c = some c')
    (pc : c.kernel.pc = .polling p) (pc' : c'.kernel.pc = .polling p)
    (poller : (c.kernel.fut p).routine = .poller g)
    (queue : c'.kernel.taskQueue.items = c.kernel.taskQueue.items ++ [u])
    (polled : c'.polled = c.polled) : Polled d k₀ c' := by
  have hp := h.current p pc
  have hr : (k₀.fut p).routine = .poller d := by
    obtain rfl := hc.device.device_eq (t := p) (g := g) (by rw [poller]; rfl)
    rw [← (h.routine p (h.known p hp)).2, poller]
  refine ⟨.inl (by simp [pc', Pc.inRound]), h.tasks_step hstep, h.routine_step hstep, ?_, ?_, ?_,
    ?_, ?_, ?_, ?_⟩
  · exact polled ▸ h.known
  · exact fun t ht => polled ▸ h.current t (pc.trans (pc'.symm.trans ht))
  · intro t ht
    rw [polled, queue, List.mem_append]
    exact (h.queued t ht).imp_right .inl
  · exact fun hnone => absurd hr (hnone p (polled ▸ hp))
  · exact fun q hq hrq => polled ▸ h.during q (pc.trans (pc'.symm.trans hq)) hrq
  · intro q hq hrq
    rw [polled] at hq
    obtain hrun | hyield := h.parked q hq hrq
    · exact .inl (pc'.trans (pc.symm.trans hrun))
    · exact .inr (yielders_kept hstep hyield)
  · intro t
    have hone := h.during p pc hr t
    have htoken := hc'.holder.le_one t
    rw [polled]
    unfold tokens at htoken
    omega

lemma step (h : Polled d k₀ c) (hk : Healthy d config rs k₀) (hc : Healthy d config rs c.kernel)
    (hc' : Healthy d config rs c'.kernel) (hstep : Round.step l c = some c') :
    Polled d k₀ c' := by
  cases moves hc hc' hstep with
  | pop pc pc' queue polled => exact h.pop hk hc hstep pc pc' queue polled
  | drained pc pc' empty queue polled =>
    refine h.quiet hstep queue polled (.inr ⟨pc', by rw [queue, empty]⟩)
      (fun t ht => by simp [pc'] at ht) fun p _ _ hrun => ?_
    simp [pc] at hrun
  | wake pc pc' poller queue polled => exact h.wake hc hc' hstep pc pc' poller queue polled
  | @leave t pc pc' parked queue polled =>
    refine h.quiet hstep queue polled (.inl (by simp [pc', Pc.inRound]))
      (fun t ht => by simp [pc'] at ht) fun p hp hr hrun => .inr ?_
    obtain rfl : t = p := by simpa [pc] using hrun
    exact parked d ((h.routine t (h.known t hp)).2.trans hr)
  | stay pc core queue polled =>
    have hin := (step_eq_some hstep).1
    exact h.quiet hstep queue polled (.inl (pc ▸ hin)) (fun t ht => pc ▸ ht)
      fun p _ _ hrun => .inl (pc.trans hrun)

/-- No task is polled more than twice, so the polls of a call are bounded. -/
lemma length_le (h : Polled d k₀ c) : c.polled.length ≤ 2 * k₀.tasks.card := by
  have hcount : ∀ t ∈ k₀.tasks, c.polled.count t ≤ 2 := fun t _ =>
    (Nat.le_add_right _ _).trans (h.twice t)
  calc c.polled.length = ∑ t ∈ c.polled.toFinset, c.polled.count t :=
        (List.sum_toFinset_count_eq_length _).symm
    _ ≤ ∑ t ∈ k₀.tasks, c.polled.count t :=
        Finset.sum_le_sum_of_subset fun t ht => h.known t (List.mem_toFinset.mp ht)
    _ ≤ k₀.tasks.card * 2 := Finset.sum_le_card_nsmul _ _ _ hcount
    _ = 2 * k₀.tasks.card := Nat.mul_comm _ _

end Polled

/-- Every state of a call from a state of a run on one device. -/
lemma Reach.polled (hone : OneGpu d config rs) (hk : Healthy d config rs k₀)
    (hpc : k₀.pc = .ready) (h : Reach ⟨k₀, []⟩ c) :
    Healthy d config rs c.kernel ∧ Polled d k₀ c := by
  refine h.invariant (I := fun c => Healthy d config rs c.kernel ∧ Polled d k₀ c)
    ⟨hk, .start hk.wellFormed hk.holder hpc⟩ fun c l c' _ hc hstep hlive => ?_
  have hc' := hc.1.step hone (step_eq_some hstep).2.1 hlive
  exact ⟨hc', hc.2.step hk hc.1 hc' hstep⟩

end Round
end Fomos
