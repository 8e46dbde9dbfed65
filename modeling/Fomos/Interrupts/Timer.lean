import Mathlib
import Fomos.Kernel.State
import Fomos.Library.Transition

/-!
# Sleeping tasks and the timer interrupt

The executor's loop on the single core, with `Timer::poll` and `add_waker` cut into the pieces
between which an interrupt can be taken. `lapic_timer` runs with interrupts disabled and is one
step; when the mutex of `WAKERS` is held it spins and never returns to the code it interrupted. A
task may hold any number of `Timer`s and polls them in any order.
-/
namespace Fomos.Interrupts

/-- The length of `WAKERS`. -/
def numSlots : ℕ := 128

/-- `WAKERS`: a slot holds the waker of a task. -/
structure Wakers where
  slots : List (Option TaskId)
  size : slots.length = numSlots

namespace Wakers

def init : Wakers := ⟨List.replicate numSlots none, List.length_replicate⟩

def register (index : ℕ) (t : TaskId) (w : Wakers) : Wakers :=
  ⟨w.slots.set index (some t), by rw [List.length_set, w.size]⟩

/-- The tasks with a waker in the table, in the order of the slots. -/
def ids (w : Wakers) : List TaskId := w.slots.filterMap id

@[simp] lemma init_slots : init.slots = List.replicate numSlots none := rfl

@[simp] lemma register_slots (index : ℕ) (t : TaskId) (w : Wakers) :
    (w.register index t).slots = w.slots.set index (some t) := rfl

@[simp] lemma mem_ids {w : Wakers} {t : TaskId} : t ∈ w.ids ↔ some t ∈ w.slots := by
  simp [ids]

lemma not_mem_init (t : TaskId) : some t ∉ init.slots := by
  simp

end Wakers

/-- Where a poll of a `Timer` stands: before its first look at the clock, before `WAKERS.lock()`,
before the slot `index` of the table, before the guard is dropped, before the second look at the
clock, or returned. -/
inductive Point
  | entry
  | register
  | scan (index : ℕ)
  | unlock
  | recheck
  | returned (ready : Bool)
  deriving DecidableEq, Repr

/-- Where the core stands. A panic and a handler that spins on the mutex are final. -/
inductive Pc
  | spawning
  | ready
  | task (t : TaskId)
  | timer (t : TaskId) (stop : UInt64) (p : Point)
  | roundOver
  | checkQueues
  | halted
  | yielders
  | panicked (why : Panic)
  | spinning
  deriving DecidableEq, Repr

namespace Pc

/-- Whether the code at this point holds the guard of `WAKERS`. -/
def holdsLock : Pc → Bool
  | timer _ _ (.scan _) | timer _ _ .unlock => true
  | _ => false

/-- Whether the core still runs. -/
def running : Pc → Bool
  | panicked _ | spinning => false
  | _ => true

/-- Where the core goes on after an interrupt, which ends a `hlt`. -/
def resumed : Pc → Pc
  | halted => yielders
  | p => p

end Pc

structure Machine where
  pc : Pc
  /-- `TIME_MS`. -/
  timeMs : UInt64
  wakers : Wakers
  /-- Whether the mutex of `WAKERS` is held. -/
  locked : Bool
  /-- The interrupt flag. -/
  enabled : Bool
  tasks : Finset TaskId
  taskQueue : ArrayQueue TaskId 100
  spawnQueue : ArrayQueue TaskId 100
  yielders : ArrayQueue TaskId 100
  nextId : TaskId
  /-- The `stop` of every `Timer` that a task holds. -/
  timers : TaskId → List UInt64
  /-- The ids pushed on `task_queue` since the last poll of a `Timer` began, which no step
  reads. -/
  pushed : List TaskId

namespace Machine

def panic (why : Panic) (m : Machine) : Machine := { m with pc := .panicked why }

/-- `Spawner::run`: a push on a full queue drops the task, and the result is ignored. -/
def spawnerRun (m : Machine) : Machine :=
  { m with nextId := m.nextId + 1, spawnQueue := m.spawnQueue.tryPush m.nextId }

/-- `task_queue.push(t).expect(..)`. -/
def pushTask (t : TaskId) (full : Panic) (m : Machine) : Machine :=
  match m.taskQueue.push t with
  | some q => { m with taskQueue := q, pushed := m.pushed ++ [t] }
  | none => m.panic full

/-- `TaskWaker::wake_task`. -/
def wakeTask (t : TaskId) (m : Machine) : Machine := m.pushTask t .taskQueueFull

/-- `Executor::spawn`. -/
def spawn (task : TaskId) (m : Machine) : Machine :=
  let m' := { m with tasks := insert task m.tasks }
  if task ∈ m.tasks then m'.panic .sameId else m'.pushTask task .queueFull

/-- `lapic_timer`. Once the queue is full every further wake panics too and changes nothing. -/
def lapicTimer (m : Machine) : Machine :=
  let m := { m with timeMs := m.timeMs + 1 }
  if m.locked then { m with pc := .spinning, enabled := false }
  else
    let m' := m.wakers.ids.foldl (fun m t => m.wakeTask t) m
    { m' with wakers := .init, pc := m'.pc.resumed }

/-- One piece of `Timer::poll`, with `add_waker` from `register` to `unlock`. -/
def poll (t : TaskId) (stop : UInt64) (m : Machine) : Point → Option Machine
  | .entry =>
    if stop ≤ m.timeMs then some { m with pc := .timer t stop (.returned true) }
    else some { m with pc := .timer t stop .register }
  | .register =>
    if m.locked then some m else some { m with locked := true, pc := .timer t stop (.scan 0) }
  | .scan index =>
    match m.wakers.slots[index]? with
    | none => some { m with pc := .timer t stop .unlock }
    | some none =>
      some { m with wakers := m.wakers.register index t, pc := .timer t stop .unlock }
    | some (some _) => some { m with pc := .timer t stop (.scan (index + 1)) }
  | .unlock => some { m with locked := false, pc := .timer t stop .recheck }
  | .recheck =>
    some { m with pc := .timer t stop (.returned (decide (stop ≤ m.timeMs))) }
  | .returned _ => none

/-- One pass through a loop of `Executor::run` or of `run_ready_tasks`, or one of the two
instructions that write the interrupt flag. -/
def exec (m : Machine) : Option Machine :=
  match m.pc with
  | .spawning =>
    match m.spawnQueue.pop with
    | some (task, q) => some (({ m with spawnQueue := q }).spawn task)
    | none => some { m with pc := .ready }
  | .ready =>
    match m.taskQueue.pop with
    | some (t, q) =>
      if t ∈ m.tasks then some { m with taskQueue := q, pc := .task t }
      else some { m with taskQueue := q }
    | none => some { m with pc := .roundOver }
  | .roundOver => some { m with enabled := false, pc := .checkQueues }
  | .checkQueues =>
    if m.taskQueue.items = [] ∧ m.spawnQueue.items = [] then
      some { m with enabled := true, pc := .halted }
    else some { m with enabled := true, pc := .yielders }
  | .yielders =>
    match m.yielders.pop with
    | some (t, q) => some (({ m with yielders := q }).wakeTask t)
    | none => some { m with pc := .spawning }
  | _ => none

/-- What a running task does before its poll returns: it spawns, wakes a task, yields, makes a
`Timer`, polls one, goes on after such a poll, or returns. -/
inductive Act
  | spawn
  | wake (u : TaskId)
  | yieldOnce
  | newTimer (ms : UInt64)
  | pollTimer (stop : UInt64)
  | goOn
  | finish (ready : Bool)
  deriving DecidableEq, Repr

def act (m : Machine) : Act → Pc → Option Machine
  | .spawn, .task _ => some m.spawnerRun
  | .wake u, .task _ => some (m.wakeTask u)
  | .yieldOnce, .task t => some { m with yielders := m.yielders.tryPush t }
  | .newTimer ms, .task t =>
    some { m with timers := Function.update m.timers t ((m.timeMs + ms) :: m.timers t) }
  | .pollTimer stop, .task t =>
    if stop ∈ m.timers t then some { m with pc := .timer t stop .entry, pushed := [] } else none
  | .goOn, .timer t stop (.returned true) =>
    some { m with
      pc := .task t, timers := Function.update m.timers t ((m.timers t).erase stop) }
  | .goOn, .timer t _ (.returned false) => some { m with pc := .task t }
  | .finish true, .task t => some { m with tasks := m.tasks.erase t, pc := .ready }
  | .finish false, .task _ => some { m with pc := .ready }
  | _, _ => none

/-- A step of the executor, of the running task, of a poll of a `Timer`, or an interrupt: of the
local timer, or one whose handler only acknowledges it. -/
inductive Label
  | exec
  | act (a : Act)
  | poll
  | lapicTimer
  | interrupt
  deriving DecidableEq, Repr

def step : Label → Machine → Option Machine
  | .exec, m => m.exec
  | .act a, m => m.act a m.pc
  | .poll, m =>
    match m.pc with
    | .timer t stop p => m.poll t stop p
    | _ => none
  | .lapicTimer, m => if m.enabled ∧ m.pc.running then some m.lapicTimer else none
  | .interrupt, m =>
    if m.enabled ∧ m.pc.running then some { m with pc := m.pc.resumed } else none

/-- `Executor::new`, with the interrupts that `kernel_main` enabled. -/
def new : Machine where
  pc := .spawning
  timeMs := 0
  wakers := .init
  locked := false
  enabled := true
  tasks := ∅
  taskQueue := .empty
  spawnQueue := .empty
  yielders := .empty
  nextId := 0
  timers _ := []
  pushed := []

/-- `kernel_main` spawns `n` futures, while the clock may already run, and enters
`Executor::run`. -/
def boot (n : ℕ) (timeMs : UInt64) : Machine := spawnerRun^[n] { new with timeMs := timeMs }

end Machine

/-! ## What a step leaves alone -/

namespace Machine
variable {m m' : Machine} {t : TaskId} {stop : UInt64}

/-- A step of the executor or of a task outside the polls of `Timer`s leaves the table, its mutex
and the clock alone. It can begin the poll of a `Timer`. -/
structure Outside (m m' : Machine) : Prop where
  wakers : m'.wakers = m.wakers
  locked : m'.locked = m.locked
  timeMs : m'.timeMs = m.timeMs
  before : m.pc.holdsLock = false
  running : m.pc.running = true
  enabled : m.enabled = true ∨ m.pc = .checkQueues → m'.enabled = true ∨ m'.pc = .checkQueues
  spinning : m'.pc ≠ .spinning
  timer : ∀ t stop p, m'.pc = .timer t stop p → p = .entry ∧ m'.pushed = []

lemma pushTask_cases (m : Machine) (t : TaskId) (full : Panic) :
    (∃ q, m.pushTask t full = { m with taskQueue := q, pushed := m.pushed ++ [t] }) ∨
      m.pushTask t full = m.panic full := by
  unfold pushTask
  cases m.taskQueue.push t with
  | some q => exact .inl ⟨q, rfl⟩
  | none => exact .inr rfl

/-- Waking tasks pushes their ids in order, or the queue is full before the last of them. -/
lemma wakeAll_cases (ids : List TaskId) (m : Machine) :
    (∃ q, ids.foldl (fun m t => m.wakeTask t) m =
        { m with taskQueue := q, pushed := m.pushed ++ ids }) ∨
      (ids.foldl (fun m t => m.wakeTask t) m).pc = .panicked .taskQueueFull := by
  induction ids using List.reverseRecOn with
  | nil => exact .inl ⟨m.taskQueue, by simp⟩
  | append_singleton ids t ih =>
    rw [List.foldl_append, List.foldl_cons, List.foldl_nil]
    generalize ids.foldl (fun m t => m.wakeTask t) m = m₁ at ih
    obtain ⟨q, h⟩ | h := m₁.pushTask_cases t .taskQueueFull
    · obtain ⟨q₁, rfl⟩ | hp := ih
      · exact .inl ⟨q, by rw [wakeTask, h, List.append_assoc]⟩
      · exact .inr (by rw [wakeTask, h]; exact hp)
    · exact .inr (by rw [wakeTask, h]; rfl)

/-- The handler spins on a held mutex; on a free one it wakes and clears every slot, or panics
because the task queue is full. -/
lemma lapicTimer_cases (m : Machine) :
    (m.locked = true ∧ m.lapicTimer =
        { m with timeMs := m.timeMs + 1, pc := .spinning, enabled := false }) ∨
      (m.locked = false ∧ m.lapicTimer.pc = .panicked .taskQueueFull) ∨
      (m.locked = false ∧ ∃ q, m.lapicTimer =
        { m with
          timeMs := m.timeMs + 1, pc := m.pc.resumed, wakers := .init
          taskQueue := q, pushed := m.pushed ++ m.wakers.ids }) := by
  by_cases hl : m.locked = true
  · exact .inl ⟨hl, if_pos hl⟩
  · have hfree : m.lapicTimer =
        let m' := m.wakers.ids.foldl (fun m t => m.wakeTask t) { m with timeMs := m.timeMs + 1 }
        { m' with wakers := .init, pc := m'.pc.resumed } := if_neg hl
    have hl' : m.locked = false := Bool.eq_false_iff.mpr hl
    obtain ⟨q, h⟩ | h := wakeAll_cases m.wakers.ids { m with timeMs := m.timeMs + 1 }
    · exact .inr (.inr ⟨hl', q, by rw [hfree, h]⟩)
    · exact .inr (.inl ⟨hl', by rw [hfree]; exact (congrArg Pc.resumed h).trans rfl⟩)

/-- A step that leaves the interrupt flag alone and goes to `p'`, where no poll is in progress. -/
lemma Outside.move {p p' : Pc} (hpc : m.pc = p)
    (hp : p.holdsLock = false ∧ p.running = true ∧ p ≠ .checkQueues)
    (hpc' : m'.pc = p') (hp' : p' ≠ .spinning ∧ ∀ t stop q, p' ≠ .timer t stop q)
    (hw : m'.wakers = m.wakers) (hl : m'.locked = m.locked) (ht : m'.timeMs = m.timeMs)
    (he : m'.enabled = m.enabled) : Outside m m' where
  wakers := hw
  locked := hl
  timeMs := ht
  before := hpc ▸ hp.1
  running := hpc ▸ hp.2.1
  enabled h := .inl (he.trans (h.resolve_right (hpc ▸ hp.2.2)))
  spinning := hpc' ▸ hp'.1
  timer t stop q hq := absurd (hpc'.symm.trans hq) (hp'.2 t stop q)

/-- A push on the task queue, after changes to the other containers, goes on where the core
stands or panics. -/
lemma Outside.pushTask {m₁ : Machine} {full : Panic} {p : Pc} (hpc : m.pc = p)
    (hp : p.holdsLock = false ∧ p.running = true ∧ p ≠ .checkQueues)
    (hp' : p ≠ .spinning ∧ ∀ t stop q, p ≠ .timer t stop q) (hpc₁ : m₁.pc = p)
    (hw : m₁.wakers = m.wakers) (hl : m₁.locked = m.locked) (ht : m₁.timeMs = m.timeMs)
    (he : m₁.enabled = m.enabled) : Outside m (m₁.pushTask t full) := by
  obtain ⟨q, h⟩ | h := m₁.pushTask_cases t full
  · rw [h]
    exact .move hpc hp hpc₁ hp' hw hl ht he
  · rw [h]
    exact .move hpc hp rfl ⟨nofun, nofun⟩ hw hl ht he

lemma exec_outside (h : m.exec = some m') : Outside m m' := by
  unfold exec at h
  split at h
  case h_1 hpc =>
    split at h
    · cases h
      simp only [spawn]
      split
      · exact .move hpc ⟨rfl, rfl, nofun⟩ rfl ⟨nofun, nofun⟩ rfl rfl rfl rfl
      · exact .pushTask hpc ⟨rfl, rfl, nofun⟩ ⟨nofun, nofun⟩ hpc rfl rfl rfl rfl
    · cases h
      exact .move hpc ⟨rfl, rfl, nofun⟩ rfl ⟨nofun, nofun⟩ rfl rfl rfl rfl
  case h_2 hpc =>
    split at h
    · split at h
      · cases h
        exact .move hpc ⟨rfl, rfl, nofun⟩ rfl ⟨nofun, nofun⟩ rfl rfl rfl rfl
      · cases h
        exact .move hpc ⟨rfl, rfl, nofun⟩ hpc ⟨nofun, nofun⟩ rfl rfl rfl rfl
    · cases h
      exact .move hpc ⟨rfl, rfl, nofun⟩ rfl ⟨nofun, nofun⟩ rfl rfl rfl rfl
  case h_3 hpc =>
    cases h
    exact ⟨rfl, rfl, rfl, by rw [hpc]; rfl, by rw [hpc]; rfl, fun _ => .inr rfl, nofun, nofun⟩
  case h_4 hpc =>
    split at h
    all_goals
      cases h
      exact ⟨rfl, rfl, rfl, by rw [hpc]; rfl, by rw [hpc]; rfl, fun _ => .inl rfl, nofun, nofun⟩
  case h_5 hpc =>
    split at h
    · cases h
      exact .pushTask hpc ⟨rfl, rfl, nofun⟩ ⟨nofun, nofun⟩ hpc rfl rfl rfl rfl
    · cases h
      exact .move hpc ⟨rfl, rfl, nofun⟩ rfl ⟨nofun, nofun⟩ rfl rfl rfl rfl
  case h_6 => cases h

lemma act_outside {a : Act} {p : Pc} (hpc : m.pc = p) (h : m.act a p = some m') :
    Outside m m' := by
  unfold act at h
  split at h
  case h_2 => cases h; exact .pushTask hpc ⟨rfl, rfl, nofun⟩ ⟨nofun, nofun⟩ hpc rfl rfl rfl rfl
  case h_5 =>
    split at h
    · cases h
      refine ⟨rfl, rfl, rfl, by rw [hpc]; rfl, by rw [hpc]; rfl, ?_, nofun, ?_⟩
      · exact fun he => .inl (he.resolve_right (by rw [hpc]; nofun))
      · rintro t stop p hp
        cases hp
        exact ⟨rfl, rfl⟩
    · cases h
  case h_10 => cases h
  case h_1 | h_3 | h_4 =>
    cases h
    exact .move hpc ⟨rfl, rfl, nofun⟩ hpc ⟨nofun, nofun⟩ rfl rfl rfl rfl
  all_goals
    cases h
    exact .move hpc ⟨rfl, rfl, nofun⟩ rfl ⟨nofun, nofun⟩ rfl rfl rfl rfl

/-- What a step can do: run outside the polls of `Timer`s, go on with such a poll, or handle an
interrupt. -/
inductive Steps (m : Machine) : Label → Machine → Prop
  | outside {l m'} (h : Outside m m') (label : l = .exec ∨ ∃ a, l = .act a) : Steps m l m'
  | poll {t stop p m'} (pc : m.pc = .timer t stop p) (next : m.poll t stop p = some m') :
      Steps m .poll m'
  | lapicTimer (on : m.enabled = true) (running : m.pc.running = true) :
      Steps m .lapicTimer m.lapicTimer
  | interrupt (on : m.enabled = true) (running : m.pc.running = true) :
      Steps m .interrupt { m with pc := m.pc.resumed }

lemma step_cases {l : Label} (h : step l m = some m') : Steps m l m' := by
  cases l with
  | exec => exact .outside (exec_outside h) (.inl rfl)
  | act a => exact .outside (act_outside rfl h) (.inr ⟨a, rfl⟩)
  | poll =>
    simp only [step] at h
    split at h
    case h_1 hpc => exact .poll hpc h
    case h_2 => cases h
  | lapicTimer =>
    obtain ⟨on, hm⟩ := Option.ite_none_right_eq_some.mp h
    cases hm
    exact .lapicTimer on.1 on.2
  | interrupt =>
    obtain ⟨on, hm⟩ := Option.ite_none_right_eq_some.mp h
    cases hm
    exact .interrupt on.1 on.2

/-! ## The mutex and the interrupt flag -/

/-- While the core runs, the mutex is held exactly between `lock` and the drop of the guard in
`add_waker`, and interrupts are enabled but for the look at the queues at the end of a round. -/
structure Flags (m : Machine) : Prop where
  locked : m.pc.running = true → m.locked = m.pc.holdsLock
  enabled : m.pc.running = true → m.enabled = true ∨ m.pc = .checkQueues

@[simp] lemma holdsLock_resumed (p : Pc) : p.resumed.holdsLock = p.holdsLock := by
  cases p <;> rfl

lemma resumed_timer {p : Pc} {t : TaskId} {stop : UInt64} {q : Point} :
    p.resumed = .timer t stop q ↔ p = .timer t stop q := by
  cases p <;> simp [Pc.resumed]

/-- A tick that the core survives leaves the poll it interrupted where it was. -/
lemma lapicTimer_timer {p : Point} (h : m.lapicTimer.pc = .timer t stop p) :
    m.pc = .timer t stop p := by
  obtain ⟨-, he⟩ | ⟨-, he⟩ | ⟨-, q, he⟩ := m.lapicTimer_cases
  · rw [he] at h
    cases h
  · cases he.symm.trans h
  · rw [he] at h
    exact resumed_timer.mp h

lemma Flags.poll {p : Point} (h : Flags m) (hpc : m.pc = .timer t stop p)
    (next : m.poll t stop p = some m') : Flags m' := by
  have hl : m.locked = (Pc.timer t stop p).holdsLock := hpc ▸ h.locked (by rw [hpc]; rfl)
  have he : m.enabled = true := (h.enabled (by rw [hpc]; rfl)).resolve_right (by rw [hpc]; nofun)
  cases p with
  | entry =>
    simp only [Machine.poll] at next
    split at next
    all_goals
      cases next
      exact ⟨fun _ => hl, fun _ => .inl he⟩
  | register =>
    simp only [Machine.poll] at next
    rw [if_neg (by rw [hl]; exact Bool.false_ne_true)] at next
    cases next
    exact ⟨fun _ => rfl, fun _ => .inl he⟩
  | scan index =>
    simp only [Machine.poll] at next
    split at next
    all_goals
      cases next
      exact ⟨fun _ => hl, fun _ => .inl he⟩
  | unlock =>
    cases next
    exact ⟨fun _ => rfl, fun _ => .inl he⟩
  | recheck =>
    cases next
    exact ⟨fun _ => hl, fun _ => .inl he⟩
  | returned ready => cases next

lemma Flags.steps {l : Label} (h : Flags m) (taken : Steps m l m') : Flags m' := by
  cases taken with
  | outside o label =>
    have hafter : m'.pc.holdsLock = false := by
      cases hp : m'.pc with
      | timer t stop p => rw [(o.timer t stop p hp).1]; rfl
      | _ => rfl
    refine ⟨fun _ => ?_, fun _ => o.enabled (h.enabled o.running)⟩
    rw [o.locked, h.locked o.running, o.before, hafter]
  | poll pc next => exact h.poll pc next
  | lapicTimer on running =>
    obtain ⟨-, he⟩ | ⟨-, hp⟩ | ⟨-, q, he⟩ := m.lapicTimer_cases
    · rw [he]
      exact ⟨nofun, nofun⟩
    · exact ⟨by rw [hp]; nofun, by rw [hp]; nofun⟩
    · rw [he]
      exact ⟨fun _ => by simp [h.locked running], fun _ => .inl on⟩
  | interrupt on running =>
    exact ⟨fun _ => by simp [h.locked running], fun _ => .inl on⟩

@[simp] lemma boot_frame (n : ℕ) (timeMs : UInt64) :
    (boot n timeMs).pc = .spawning ∧ (boot n timeMs).locked = false ∧
      (boot n timeMs).enabled = true := by
  unfold boot
  induction n with
  | zero => exact ⟨rfl, rfl, rfl⟩
  | succ n ih => rwa [Function.iterate_succ_apply']

/-- The flags agree with the code in every reachable state. -/
theorem Flags.reach {guard : Machine → Label → Machine → Prop} {n : ℕ} {timeMs : UInt64}
    (h : Transition.Reach step guard (boot n timeMs) m) : Flags m := by
  refine h.invariant ⟨fun _ => ?_, fun _ => ?_⟩
    fun _ _ _ _ hm taken _ => hm.steps (step_cases taken)
  · rw [(boot_frame n timeMs).2.1, (boot_frame n timeMs).1]; rfl
  · exact .inl (boot_frame n timeMs).2.2

/-! ## Conditions on the steps of a poll -/

/-- The steps of a poll in progress and the interrupts between them. -/
def InPoll (_ : Machine) (l : Label) (_ : Machine) : Prop :=
  l = .poll ∨ l = .lapicTimer ∨ l = .interrupt

instance (m : Machine) (l : Label) (m' : Machine) : Decidable (m.InPoll l m') :=
  inferInstanceAs (Decidable (_ ∨ _ ∨ _))

/-- The table has a free slot or already holds the task's waker. -/
def HasRoom (t : TaskId) (m : Machine) : Prop :=
  none ∈ m.wakers.slots ∨ some t ∈ m.wakers.slots

instance (t : TaskId) (m : Machine) : Decidable (m.HasRoom t) :=
  inferInstanceAs (Decidable (_ ∨ _))

/-- When a step takes the lock for a task, the table has room for it. -/
def RoomAtLock (m : Machine) (l : Label) (_ : Machine) : Prop :=
  match l, m.pc with
  | .poll, .timer t _ .register => m.HasRoom t
  | _, _ => True

instance (m : Machine) (l : Label) (m' : Machine) : Decidable (m.RoomAtLock l m') := by
  unfold RoomAtLock
  split <;> infer_instance

/-- A poll that looks at the clock finds its `Timer` due. -/
def Due (m : Machine) (l : Label) (_ : Machine) : Prop :=
  match l, m.pc with
  | .poll, .timer _ stop .entry => stop ≤ m.timeMs
  | _, _ => True

instance (m : Machine) (l : Label) (m' : Machine) : Decidable (m.Due l m') := by
  unfold Due
  split <;> infer_instance

end Machine
end Fomos.Interrupts
