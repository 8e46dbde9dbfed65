import Mathlib
import Fomos.Interrupts.Timer

/-!
# The halt of the executor

`Executor::run` on the single core, cut between any two of its calls on the queues, the flag and
the map of tasks, so that an interrupt can be taken at each cut. A handler wakes any tasks, runs
to its end with interrupts disabled and goes back to where the core stood; after a `hlt` it goes on
behind it. `enable_and_hlt` is one step: `sti` holds interrupts back until the `hlt` is reached.
-/
namespace Fomos.Interrupts

/-- What `Executor::run` does next. In `poll` a future runs; a panic and a handler that spins on
the mutex of `WAKERS` are final. -/
inductive Site
  | popSpawn
  | insertTask (task : TaskId)
  | pushTask (task : TaskId)
  | popTask
  | getMut (t : TaskId)
  | poll (t : TaskId)
  | disable
  | taskQueueIsEmpty
  | spawnQueueIsEmpty
  | enable
  | enableAndHlt
  | halted
  | popYielder
  | wake (t : TaskId)
  | panicked (why : Panic)
  | spinning
  deriving DecidableEq, Repr

namespace Site

/-- Whether the core still runs. -/
def running : Site → Bool
  | panicked _ | spinning => false
  | _ => true

/-- Where the core goes on after an interrupt, which ends a `hlt`. -/
def resumed : Site → Site
  | halted => popYielder
  | s => s

end Site

/-- The core with the executor and the queues. Nothing here reads the cache of wakers. -/
structure Core where
  site : Site
  /-- The interrupt flag. -/
  enabled : Bool
  tasks : Finset TaskId
  taskQueue : ArrayQueue TaskId 100
  spawnQueue : ArrayQueue TaskId 100
  yielders : ArrayQueue TaskId 100
  nextId : TaskId

namespace Core

def panic (why : Panic) (c : Core) : Core := { c with site := .panicked why }

/-- `task_queue.push(t).expect(..)`, after which the core goes on at `next`. -/
def pushThen (t : TaskId) (full : Panic) (next : Site) (c : Core) : Core :=
  match c.taskQueue.push t with
  | some q => { c with taskQueue := q, site := next }
  | none => c.panic full

/-- One call of `Executor::run`, of `Executor::spawn` or of `run_ready_tasks`. -/
def exec (c : Core) : Option Core :=
  match c.site with
  | .popSpawn =>
    match c.spawnQueue.pop with
    | some (task, q) => some { c with spawnQueue := q, site := .insertTask task }
    | none => some { c with site := .popTask }
  | .insertTask task =>
    let c' := { c with tasks := insert task c.tasks }
    if task ∈ c.tasks then some (c'.panic .sameId) else some { c' with site := .pushTask task }
  | .pushTask task => some (c.pushThen task .queueFull .popSpawn)
  | .popTask =>
    match c.taskQueue.pop with
    | some (t, q) => some { c with taskQueue := q, site := .getMut t }
    | none => some { c with site := .disable }
  | .getMut t =>
    if t ∈ c.tasks then some { c with site := .poll t } else some { c with site := .popTask }
  | .disable => some { c with enabled := false, site := .taskQueueIsEmpty }
  | .taskQueueIsEmpty =>
    if c.taskQueue.items = [] then some { c with site := .spawnQueueIsEmpty }
    else some { c with site := .enable }
  | .spawnQueueIsEmpty =>
    if c.spawnQueue.items = [] then some { c with site := .enableAndHlt }
    else some { c with site := .enable }
  | .enable => some { c with enabled := true, site := .popYielder }
  | .enableAndHlt => some { c with enabled := true, site := .halted }
  | .popYielder =>
    match c.yielders.pop with
    | some (t, q) => some { c with yielders := q, site := .wake t }
    | none => some { c with site := .popSpawn }
  | .wake t => some (c.pushThen t .taskQueueFull .popYielder)
  | .poll _ | .halted | .panicked _ | .spinning => none

/-- What a future does to the queues before its poll returns: it spawns, wakes a task, yields, or
returns. The pushes of `Spawner::run` and `YieldOnce::poll` ignore a full queue. -/
inductive Act
  | spawn
  | wake (u : TaskId)
  | yieldOnce
  | finish (ready : Bool)
  deriving DecidableEq, Repr

def act (t : TaskId) (c : Core) : Act → Core
  | .spawn => { c with nextId := c.nextId + 1, spawnQueue := c.spawnQueue.tryPush c.nextId }
  | .wake u => c.pushThen u .taskQueueFull c.site
  | .yieldOnce => { c with yielders := c.yielders.tryPush t }
  | .finish true => { c with tasks := c.tasks.erase t, site := .popTask }
  | .finish false => { c with site := .popTask }

/-- A handler that wakes these tasks in order. -/
def handler : List TaskId → Core → Core
  | [], c => { c with site := c.site.resumed }
  | t :: woken, c =>
    match c.taskQueue.push t with
    | some q => handler woken { c with taskQueue := q }
    | none => c.panic .taskQueueFull

/-- A call of the executor, what a future does in its poll, or an interrupt: with a handler that
wakes tasks, or with one that spins on a held mutex. -/
inductive Label
  | exec
  | act (a : Act)
  | interrupt (woken : List TaskId)
  | spin
  deriving DecidableEq, Repr

def step : Label → Core → Option Core
  | .exec, c => c.exec
  | .act a, c =>
    match c.site with
    | .poll t => some (c.act t a)
    | _ => none
  | .interrupt woken, c =>
    if c.enabled ∧ c.site.running then some (c.handler woken) else none
  | .spin, c =>
    if c.enabled ∧ c.site.running then some { c with enabled := false, site := .spinning }
    else none

/-- `Executor::new`, with the interrupts that `kernel_main` enabled. -/
def new : Core where
  site := .popSpawn
  enabled := true
  tasks := ∅
  taskQueue := .empty
  spawnQueue := .empty
  yielders := .empty
  nextId := 0

/-- `kernel_main` spawns `n` futures and enters `Executor::run`. -/
def boot (n : ℕ) : Core := (fun c => c.act 0 .spawn)^[n] new

@[simp] lemma boot_site (n : ℕ) : (boot n).site = .popSpawn := by
  unfold boot
  induction n with
  | zero => rfl
  | succ n ih => rwa [Function.iterate_succ_apply']

/-! ## What a step can do -/

variable {c c' : Core} {t : TaskId}

lemma pushThen_cases (c : Core) (t : TaskId) (full : Panic) (next : Site) :
    (∃ q, q.items = c.taskQueue.items ++ [t] ∧
        c.pushThen t full next = { c with taskQueue := q, site := next }) ∨
      c.pushThen t full next = c.panic full := by
  unfold pushThen
  cases h : c.taskQueue.push t with
  | some q => exact .inl ⟨q, ArrayQueue.push_eq_some h, rfl⟩
  | none => exact .inr rfl

/-- A handler appends what it wakes to the task queue, or panics because the queue is full. -/
lemma handler_cases (woken : List TaskId) (c : Core) :
    (∃ q, q.items = c.taskQueue.items ++ woken ∧
        c.handler woken = { c with taskQueue := q, site := c.site.resumed }) ∨
      (c.handler woken).site = .panicked .taskQueueFull := by
  induction woken generalizing c with
  | nil => exact .inl ⟨c.taskQueue, (List.append_nil _).symm, rfl⟩
  | cons t woken ih =>
    unfold handler
    cases h : c.taskQueue.push t with
    | none => exact .inr rfl
    | some q =>
      obtain ⟨q', hq', he⟩ | hp := ih { c with taskQueue := q }
      · refine .inl ⟨q', ?_, he⟩
        rw [hq', ArrayQueue.push_eq_some h, List.append_assoc]
        rfl
      · exact .inr hp

/-! ## The look at the queues -/

/-- What the core knows where it stands: from `disable` on no handler changes a queue, so each
queue that was found empty still is when the core halts. -/
def Known (c : Core) : Prop :=
  match c.site with
  | .taskQueueIsEmpty | .enable => c.enabled = false
  | .spawnQueueIsEmpty => c.enabled = false ∧ c.taskQueue.items = []
  | .enableAndHlt => c.enabled = false ∧ c.taskQueue.items = [] ∧ c.spawnQueue.items = []
  | .halted => c.taskQueue.items = [] ∧ c.spawnQueue.items = []
  | _ => True

@[simp] lemma known_panic (why : Panic) (c : Core) : Known (c.panic why) := trivial

/-- Where the core goes after a push outside the look at the queues it needs to know nothing. -/
lemma known_pushThen {full : Panic} {next : Site} (hnext : ∀ c : Core, c.site = next → Known c) :
    Known (c.pushThen t full next) := by
  obtain ⟨q, -, he⟩ | he := c.pushThen_cases t full next
  · rw [he]
    exact hnext _ rfl
  · rw [he]
    exact known_panic full c

lemma known_exec (h : Known c) (he : c.exec = some c') : Known c' := by
  unfold exec at he
  unfold Known at h
  split at he
  case h_1 | h_4 | h_11 =>
    split at he
    all_goals
      cases he
      trivial
  case h_2 | h_5 =>
    split at he
    all_goals
      cases he
      trivial
  case h_3 | h_12 =>
    cases he
    exact known_pushThen fun c hc => by rw [Known, hc]; trivial
  case h_6 =>
    cases he
    exact rfl
  case h_7 hs =>
    rw [hs] at h
    split at he
    · cases he
      exact ⟨h, ‹_›⟩
    · cases he
      exact h
  case h_8 hs =>
    rw [hs] at h
    split at he
    · cases he
      exact ⟨h.1, h.2, ‹_›⟩
    · cases he
      exact h.1
  case h_9 =>
    cases he
    trivial
  case h_10 hs =>
    rw [hs] at h
    cases he
    exact h.2
  all_goals cases he

lemma known_act {a : Act} (hs : c.site = .poll t) : Known (c.act t a) := by
  cases a with
  | spawn | yieldOnce => rw [act, Known, hs]; trivial
  | wake u => exact known_pushThen fun c hc => by rw [Known, hc, hs]; trivial
  | finish ready => cases ready <;> trivial

/-- With interrupts enabled the core is not between `disable` and the `hlt`, and a `hlt` that it
interrupts is over. -/
lemma known_handler (h : Known c) (hon : c.enabled = true) (woken : List TaskId) :
    Known (c.handler woken) := by
  obtain ⟨q, -, he⟩ | hp := c.handler_cases woken
  · rw [he]
    cases hs : c.site with
    | taskQueueIsEmpty | enable =>
      rw [Known, hs] at h
      cases hon.symm.trans h
    | spawnQueueIsEmpty | enableAndHlt =>
      rw [Known, hs] at h
      cases hon.symm.trans h.1
    | _ => trivial
  · rw [Known, hp]
    trivial

theorem known_step {l : Label} (h : Known c) (taken : step l c = some c') : Known c' := by
  cases l with
  | exec => exact known_exec h taken
  | act a =>
    simp only [step] at taken
    split at taken
    case h_1 hs =>
      cases taken
      exact known_act hs
    case h_2 => cases taken
  | interrupt woken =>
    obtain ⟨on, he⟩ := Option.ite_none_right_eq_some.mp taken
    cases he
    exact known_handler h on.1 woken
  | spin =>
    obtain ⟨-, he⟩ := Option.ite_none_right_eq_some.mp taken
    cases he
    trivial

/-! ## The drain of `YIELDERS` -/

/-- The step is not one of `run_ready_tasks`. -/
def BeforeReady (c : Core) (_ : Label) (_ : Core) : Prop := c.site ≠ .popTask

instance (c : Core) (l : Label) (c' : Core) : Decidable (c.BeforeReady l c') :=
  inferInstanceAs (Decidable (_ ≠ _))

/-- Of the tasks parked when the `hlt` ended, the ones already woken are in the task queue, and the
others are still to be popped; once `YIELDERS` is empty all of them are in the task queue, up to
the call of `run_ready_tasks`. -/
def Draining (parked : List TaskId) (c : Core) : Prop :=
  match c.site with
  | .popYielder =>
    ∃ woken, woken ++ c.yielders.items = parked ∧ woken.Sublist c.taskQueue.items
  | .wake t =>
    ∃ woken, woken ++ t :: c.yielders.items = parked ∧ woken.Sublist c.taskQueue.items
  | .popSpawn | .insertTask _ | .pushTask _ | .popTask => parked.Sublist c.taskQueue.items
  | .panicked _ | .spinning => True
  | _ => False

variable {parked : List TaskId}

/-- More in the task queue does no harm. -/
lemma Draining.grow {q : ArrayQueue TaskId 100} (h : Draining parked c)
    (hq : c.taskQueue.items.Sublist q.items) : Draining parked { c with taskQueue := q } := by
  unfold Draining at h ⊢
  cases hs : c.site with
  | popYielder | wake t =>
    rw [hs] at h
    obtain ⟨woken, hparked, hwoken⟩ := h
    exact ⟨woken, hparked, hwoken.trans hq⟩
  | popSpawn | insertTask task | pushTask task | popTask =>
    rw [hs] at h
    exact h.trans hq
  | panicked why | spinning => trivial
  | _ =>
    rw [hs] at h
    exact h

lemma draining_exec (h : Draining parked c) (hready : c.site ≠ .popTask)
    (he : c.exec = some c') : Draining parked c' := by
  unfold exec at he
  unfold Draining at h
  cases hs : c.site with
  | popTask => exact absurd hs hready
  | popSpawn =>
    simp only [hs] at h he
    split at he
    all_goals
      cases he
      exact h
  | insertTask task =>
    simp only [hs] at h he
    split at he
    all_goals
      cases he
      first
        | exact h
        | trivial
  | pushTask task =>
    simp only [hs, Option.some.injEq] at h he
    obtain ⟨q, hq, hp⟩ | hp := c.pushThen_cases task .queueFull .popSpawn
    · rw [← he, hp]
      exact h.trans (hq ▸ List.sublist_append_left _ _)
    · rw [← he, hp]
      trivial
  | popYielder =>
    simp only [hs] at h he
    obtain ⟨woken, hparked, hwoken⟩ := h
    split at he
    case h_1 hpop =>
      cases he
      exact ⟨woken, by rw [← hparked, ArrayQueue.pop_eq_some.mp hpop], hwoken⟩
    case h_2 hpop =>
      cases he
      rw [ArrayQueue.pop_eq_none.mp hpop, List.append_nil] at hparked
      exact hparked ▸ hwoken
  | wake t =>
    simp only [hs, Option.some.injEq] at h he
    obtain ⟨woken, hparked, hwoken⟩ := h
    obtain ⟨q, hq, hp⟩ | hp := c.pushThen_cases t .taskQueueFull .popYielder
    · rw [← he, hp]
      refine ⟨woken ++ [t], ?_, ?_⟩
      · rw [← hparked, List.append_assoc]
        rfl
      · exact hq ▸ hwoken.append (List.Sublist.refl [t])
    · rw [← he, hp]
      trivial
  | panicked why | spinning =>
    simp only [hs] at he
    cases he
  | _ =>
    simp only [hs] at h

theorem draining_step {l : Label} (h : Draining parked c) (hready : c.site ≠ .popTask)
    (taken : step l c = some c') : Draining parked c' := by
  cases l with
  | exec => exact draining_exec h hready taken
  | act a =>
    simp only [step] at taken
    split at taken
    case h_1 hs =>
      rw [Draining, hs] at h
      exact h.elim
    case h_2 => cases taken
  | interrupt woken =>
    obtain ⟨-, he⟩ := Option.ite_none_right_eq_some.mp taken
    cases he
    obtain ⟨q, hq, he⟩ | hp := c.handler_cases woken
    · have hsite : c.site.resumed = c.site := by
        cases hs : c.site with
        | halted =>
          rw [Draining, hs] at h
          exact h.elim
        | _ => rfl
      rw [he, hsite]
      exact h.grow (hq ▸ List.sublist_append_left _ _)
    · rw [Draining, hp]
      trivial
  | spin =>
    obtain ⟨-, he⟩ := Option.ite_none_right_eq_some.mp taken
    cases he
    trivial

/-- When the `hlt` ends nothing has been woken yet. -/
lemma draining_of_halted {l : Label} (hs : c.site = .halted) (taken : step l c = some c') :
    Draining c'.yielders.items c' := by
  cases l with
  | exec =>
    simp only [step, exec, hs] at taken
    cases taken
  | act a =>
    simp only [step, hs] at taken
    cases taken
  | interrupt woken =>
    obtain ⟨-, he⟩ := Option.ite_none_right_eq_some.mp taken
    cases he
    obtain ⟨q, -, he⟩ | hp := c.handler_cases woken
    · rw [he, hs]
      exact ⟨[], List.nil_append _, List.nil_sublist _⟩
    · rw [Draining, hp]
      trivial
  | spin =>
    obtain ⟨-, he⟩ := Option.ite_none_right_eq_some.mp taken
    cases he
    trivial

open Transition

variable {start : Core} {guard : Core → Label → Core → Prop}

theorem known_reach (hstart : start.site = .popSpawn) (h : Reach step guard start c) : Known c :=
  h.invariant (by rw [Known, hstart]; trivial) fun _ _ _ _ hs taken _ => known_step hs taken

theorem draining_reach {l : Label} (hhalt : c.site = .halted) {ended ready : Core}
    (taken : step l c = some ended) (h : Reach step BeforeReady ended ready) :
    Draining ended.yielders.items ready :=
  h.invariant (draining_of_halted hhalt taken) fun _ _ _ _ hs taken hready =>
    draining_step hs hready taken

/-- In every run of `Executor::run` the core halts only with both queues empty, and what is parked
in `YIELDERS` when the `hlt` ends is in the task queue at the next call of `run_ready_tasks`. -/
theorem halts_without_ready_tasks (hstart : start.site = .popSpawn)
    (hreach : Reach step (fun _ _ _ => True) start c) (hhalt : c.site = .halted) :
    (c.taskQueue.items = [] ∧ c.spawnQueue.items = []) ∧
      ∀ l ended ready, step l c = some ended → Reach step BeforeReady ended ready →
        ready.site = .popTask → ∀ t ∈ ended.yielders.items, t ∈ ready.taskQueue.items := by
  constructor
  · have hknown := known_reach hstart hreach
    rw [Known, hhalt] at hknown
    exact hknown
  · intro l ended ready taken hrun hpc t ht
    have hdrained := draining_reach hhalt taken hrun
    rw [Draining, hpc] at hdrained
    exact hdrained.subset ht

/-- A future yields once, and the core halts while it is parked. -/
def yielded : Core :=
  (run step (fun _ _ _ => True)
    [.exec, .exec, .exec, .exec, .exec, .exec, .act .yieldOnce, .act (.finish false), .exec, .exec,
      .exec, .exec, .exec] (boot 1)).get (by decide +kernel)

/-- An interrupt that wakes nothing ends the `hlt`. -/
def interrupted : Core := (step (.interrupt []) yielded).get (by decide +kernel)

/-- `YIELDERS` is drained and the next round begins. -/
def nextRound : Core :=
  (run step BeforeReady [.exec, .exec, .exec, .exec] interrupted).get (by decide +kernel)

theorem halts_without_ready_tasks_yielded :
    (yielded.taskQueue.items = [] ∧ yielded.spawnQueue.items = []) ∧
      interrupted.yielders.items = [0] ∧ 0 ∈ nextRound.taskQueue.items := by
  have hround := halts_without_ready_tasks (boot_site 1)
    (Reach.run_get _ (by decide +kernel) : Reach step _ (boot 1) yielded) (by decide +kernel)
  have hparked : interrupted.yielders.items = [0] := by decide +kernel
  refine ⟨hround.1, hparked, ?_⟩
  exact hround.2 (.interrupt []) interrupted nextRound (Option.some_get _).symm
    (Reach.run_get _ (by decide +kernel)) (by decide +kernel) 0 (by rw [hparked]; simp)

end Core

/-! ## The tick as such a handler -/

/-- The call at which the core stands; between the pieces of the poll of a `Timer` a future
runs. -/
def Pc.site : Pc → Site
  | .spawning => .popSpawn
  | .ready => .popTask
  | .task t | .timer t _ _ => .poll t
  | .roundOver => .disable
  | .checkQueues => .taskQueueIsEmpty
  | .halted => .halted
  | .yielders => .popYielder
  | .panicked why => .panicked why
  | .spinning => .spinning

@[simp] lemma Pc.site_resumed (p : Pc) : p.resumed.site = p.site.resumed := by cases p <;> rfl

@[simp] lemma Pc.running_site (p : Pc) : p.site.running = p.running := by cases p <;> rfl

namespace Machine
open Transition
variable {m m' : Machine} {t : TaskId}

/-- A machine without its table, clock and `Timer`s. -/
def core (m : Machine) : Core where
  site := m.pc.site
  enabled := m.enabled
  tasks := m.tasks
  taskQueue := m.taskQueue
  spawnQueue := m.spawnQueue
  yielders := m.yielders
  nextId := m.nextId

/-- A push goes on at `next`, from whichever call it is. -/
lemma core_pushTask {full : Panic} {next : Site} {c : Core} (hpc : m.pc.site = next)
    (hc : c = { m.core with site := c.site }) :
    (m.pushTask t full).core = c.pushThen t full next := by
  subst hpc
  rw [hc]
  unfold pushTask Core.pushThen
  cases h : m.taskQueue.push t with
  | some q => simp only [core, h]
  | none => simp only [core, h]; rfl

/-- Waking on a full queue panics, and so does every later wake of the same handler. -/
lemma wakeAll_panicked (ids : List TaskId) (hpc : m.pc = .panicked .taskQueueFull)
    (hfull : ∀ t, m.taskQueue.push t = none) : ids.foldl (fun m t => m.wakeTask t) m = m := by
  induction ids with
  | nil => rfl
  | cons t ids ih =>
    have hwake : m.wakeTask t = m := by
      rw [wakeTask, pushTask, hfull t]
      simp only [panic, ← hpc]
    rw [List.foldl_cons, hwake, ih]

/-- The tick wakes the wakers of the table in their order, as one handler. -/
lemma core_wakeAll (ids : List TaskId) (m : Machine) :
    core (let m' := ids.foldl (fun m t => m.wakeTask t) m
      { m' with wakers := .init, pc := m'.pc.resumed }) = m.core.handler ids := by
  induction ids generalizing m with
  | nil => simp [core, Core.handler]
  | cons t ids ih =>
    rw [List.foldl_cons, Core.handler]
    cases h : m.taskQueue.push t with
    | some q =>
      have hwake : m.wakeTask t = { m with taskQueue := q, pushed := m.pushed ++ [t] } := by
        rw [wakeTask, pushTask, h]
      have hcore : m.core.taskQueue.push t = some q := h
      simp only [hcore]
      rw [hwake]
      exact ih _
    | none =>
      have hwake : m.wakeTask t = m.panic .taskQueueFull := by rw [wakeTask, pushTask, h]
      have hcore : m.core.taskQueue.push t = none := h
      have hfull : ∀ u, (m.panic .taskQueueFull).taskQueue.push u = none := fun u =>
        ArrayQueue.push_eq_none.mpr (ArrayQueue.push_eq_none.mp h)
      simp only [hcore]
      rw [hwake, wakeAll_panicked ids rfl hfull]
      rfl

lemma core_boot (n : ℕ) (timeMs : UInt64) : (boot n timeMs).core = Core.boot n := by
  unfold boot Core.boot
  induction n with
  | zero => rfl
  | succ n ih =>
    rw [Function.iterate_succ_apply', Function.iterate_succ_apply', ← ih]
    rfl

/-- Any run of the core. -/
abbrev CoreRuns (s c : Core) : Prop := Reach Core.step (fun _ _ _ => True) s c

variable {s : Core}

lemma CoreRuns.exec {c c' : Core} (h : CoreRuns s c) (he : c.exec = some c') : CoreRuns s c' :=
  h.next (a := .exec) he trivial

/-- A task popped from `spawn_queue` is inserted and pushed in two more calls. -/
lemma core_spawn {task : TaskId} {q : ArrayQueue TaskId 100} (hpc : m.pc = .spawning)
    (hpop : m.spawnQueue.pop = some (task, q)) (h : CoreRuns s m.core) :
    CoreRuns s (({ m with spawnQueue := q }).spawn task).core := by
  have hsite : m.core.site = .popSpawn := congrArg Pc.site hpc
  have hpop' : m.core.exec = some { m.core with spawnQueue := q, site := .insertTask task } := by
    simp only [Core.exec, hsite, show m.core.spawnQueue.pop = _ from hpop]
  by_cases hmem : task ∈ m.tasks
  · refine (h.exec hpop').exec ((if_pos hmem).trans ?_)
    rw [spawn, if_pos hmem]
    rfl
  · have hinsert : Core.exec { m.core with spawnQueue := q, site := .insertTask task } =
        some { m.core with
          spawnQueue := q, tasks := insert task m.tasks, site := .pushTask task } := if_neg hmem
    refine ((h.exec hpop').exec hinsert).exec ?_
    rw [spawn, if_neg hmem]
    refine congrArg some (core_pushTask ?_ rfl).symm
    exact congrArg Pc.site hpc

/-- A task popped from `task_queue` is looked up in one more call. -/
lemma core_lookUp {q : ArrayQueue TaskId 100} (hpc : m.pc = .ready)
    (hpop : m.taskQueue.pop = some (t, q)) (h : CoreRuns s m.core) :
    CoreRuns s (if t ∈ m.tasks then { m with taskQueue := q, pc := .task t }
      else { m with taskQueue := q }).core := by
  have hsite : m.core.site = .popTask := congrArg Pc.site hpc
  have hpop' : m.core.exec = some { m.core with taskQueue := q, site := .getMut t } := by
    simp only [Core.exec, hsite, show m.core.taskQueue.pop = _ from hpop]
  split
  case isTrue hmem => exact (h.exec hpop').exec (if_pos hmem)
  case isFalse hmem =>
    refine (h.exec hpop').exec ((if_neg hmem).trans ?_)
    simp only [core, hpc, Pc.site]

/-- The look at both queues and the write of the flag are up to three calls. -/
lemma core_checkQueues (hpc : m.pc = .checkQueues) (h : CoreRuns s m.core) :
    CoreRuns s (if m.taskQueue.items = [] ∧ m.spawnQueue.items = [] then
      { m with enabled := true, pc := .halted }
      else { m with enabled := true, pc := .yielders }).core := by
  have hsite : m.core.site = .taskQueueIsEmpty := congrArg Pc.site hpc
  by_cases htasks : m.taskQueue.items = []
  · have hfirst : m.core.exec = some { m.core with site := .spawnQueueIsEmpty } := by
      simp only [Core.exec, hsite]
      exact if_pos htasks
    by_cases hspawns : m.spawnQueue.items = []
    · have hsecond : Core.exec { m.core with site := .spawnQueueIsEmpty } =
          some { m.core with site := .enableAndHlt } := if_pos hspawns
      rw [if_pos ⟨htasks, hspawns⟩]
      exact ((h.exec hfirst).exec hsecond).exec rfl
    · have hsecond : Core.exec { m.core with site := .spawnQueueIsEmpty } =
          some { m.core with site := .enable } := if_neg hspawns
      rw [if_neg fun hboth => hspawns hboth.2]
      exact ((h.exec hfirst).exec hsecond).exec rfl
  · have hfirst : m.core.exec = some { m.core with site := .enable } := by
      simp only [Core.exec, hsite]
      exact if_neg htasks
    rw [if_neg fun hboth => htasks hboth.1]
    exact (h.exec hfirst).exec rfl

/-- A waker popped from `YIELDERS` is woken in one more call. -/
lemma core_wake {q : ArrayQueue TaskId 100} (hpc : m.pc = .yielders)
    (hpop : m.yielders.pop = some (t, q)) (h : CoreRuns s m.core) :
    CoreRuns s (({ m with yielders := q }).wakeTask t).core := by
  have hsite : m.core.site = .popYielder := congrArg Pc.site hpc
  have hpop' : m.core.exec = some { m.core with yielders := q, site := .wake t } := by
    simp only [Core.exec, hsite, show m.core.yielders.pop = _ from hpop]
  refine (h.exec hpop').exec (congrArg some (core_pushTask ?_ rfl).symm)
  exact congrArg Pc.site hpc

/-- A piece of the executor is one call or a few. -/
lemma core_exec (h : CoreRuns s m.core) (he : m.exec = some m') : CoreRuns s m'.core := by
  have hsite : m.core.site = m.pc.site := rfl
  unfold exec at he
  split at he
  case h_1 hpc =>
    rw [hpc] at hsite
    split at he
    case h_1 hpop =>
      cases he
      exact core_spawn hpc hpop h
    case h_2 hpop =>
      cases he
      refine h.exec ?_
      simp only [Core.exec, hsite, Pc.site, show m.core.spawnQueue.pop = _ from hpop]
      rfl
  case h_2 hpc =>
    rw [hpc] at hsite
    split at he
    case h_1 hpop =>
      have hnext := core_lookUp hpc hpop h
      split at he
      case isTrue hmem =>
        cases he
        rwa [if_pos hmem] at hnext
      case isFalse hmem =>
        cases he
        rwa [if_neg hmem] at hnext
    case h_2 hpop =>
      cases he
      refine h.exec ?_
      simp only [Core.exec, hsite, Pc.site, show m.core.taskQueue.pop = _ from hpop]
      rfl
  case h_3 hpc =>
    rw [hpc] at hsite
    cases he
    refine h.exec ?_
    simp only [Core.exec, hsite, Pc.site]
    rfl
  case h_4 hpc =>
    have hnext := core_checkQueues hpc h
    split at he
    case isTrue hempty =>
      cases he
      rwa [if_pos hempty] at hnext
    case isFalse hfull =>
      cases he
      rwa [if_neg hfull] at hnext
  case h_5 hpc =>
    rw [hpc] at hsite
    split at he
    case h_1 hpop =>
      cases he
      exact core_wake hpc hpop h
    case h_2 hpop =>
      cases he
      refine h.exec ?_
      simp only [Core.exec, hsite, Pc.site, show m.core.yielders.pop = _ from hpop]
      rfl
  case h_6 => cases he

/-- A step that changes only the place within the poll of a future changes nothing of the core. -/
lemma core_move (hsite : m'.pc.site = m.core.site)
    (hrest : m'.core = { m.core with site := m'.pc.site }) : m'.core = m.core := by
  rw [hrest, hsite]

lemma core_act {a : Act} {p : Pc} (hpc : m.pc = p) (h : CoreRuns s m.core)
    (he : m.act a p = some m') : CoreRuns s m'.core := by
  have hsite : m.core.site = p.site := congrArg Pc.site hpc
  have hact : ∀ t a, p.site = .poll t → Core.step (.act a) m.core = some (m.core.act t a) := by
    intro t a ht
    simp only [Core.step, hsite, ht]
  unfold act at he
  split at he
  case h_1 t =>
    cases he
    exact h.next (hact t .spawn rfl) trivial
  case h_2 u t =>
    cases he
    refine h.next ((hact t (.wake u) rfl).trans ?_) trivial
    exact congrArg some (core_pushTask rfl rfl).symm
  case h_3 t =>
    cases he
    exact h.next (hact t .yieldOnce rfl) trivial
  case h_4 =>
    cases he
    exact h
  case h_5 stop t =>
    split at he
    · cases he
      have hsame : core { m with pc := .timer t stop .entry, pushed := [] } = m.core :=
        core_move hsite.symm rfl
      rwa [hsame]
    · cases he
  case h_6 t stop =>
    cases he
    have hsame : core { m with
        pc := .task t, timers := Function.update m.timers t ((m.timers t).erase stop) } = m.core :=
      core_move hsite.symm rfl
    rwa [hsame]
  case h_7 t stop =>
    cases he
    have hsame : core { m with pc := .task t } = m.core := core_move hsite.symm rfl
    rwa [hsame]
  case h_8 t =>
    cases he
    exact h.next (hact t (.finish true) rfl) trivial
  case h_9 t =>
    cases he
    exact h.next (hact t (.finish false) rfl) trivial
  case h_10 => cases he

lemma core_poll {stop : UInt64} {p : Point} (hpc : m.pc = .timer t stop p)
    (next : m.poll t stop p = some m') : m'.core = m.core := by
  have hsite : m.core.site = .poll t := congrArg Pc.site hpc
  cases p with
  | entry =>
    simp only [Machine.poll] at next
    split at next
    all_goals
      cases next
      exact core_move hsite.symm rfl
  | register =>
    simp only [Machine.poll] at next
    split at next
    · cases next
      rfl
    · cases next
      exact core_move hsite.symm rfl
  | scan index =>
    simp only [Machine.poll] at next
    split at next
    all_goals
      cases next
      exact core_move hsite.symm rfl
  | unlock | recheck =>
    cases next
    exact core_move hsite.symm rfl
  | returned ready => cases next

/-- A step of the machine is a run of the core, in which its tick is a handler that wakes the
wakers of the table. -/
theorem core_step {l : Label} (h : CoreRuns s m.core) (taken : step l m = some m') :
    CoreRuns s m'.core := by
  cases l with
  | exec => exact core_exec h taken
  | act a => exact core_act rfl h taken
  | poll =>
    simp only [step] at taken
    split at taken
    case h_1 hpc =>
      rw [core_poll hpc taken]
      exact h
    case h_2 => cases taken
  | lapicTimer =>
    obtain ⟨on, hm⟩ := Option.ite_none_right_eq_some.mp taken
    cases hm
    have hon : m.core.enabled = true ∧ m.core.site.running = true :=
      ⟨on.1, m.pc.running_site.trans on.2⟩
    unfold lapicTimer
    by_cases hlocked : m.locked = true
    · rw [if_pos hlocked]
      exact h.next (a := .spin) (if_pos hon) trivial
    · rw [if_neg hlocked]
      refine h.next (a := .interrupt m.wakers.ids) ((if_pos hon).trans ?_) trivial
      exact congrArg some (core_wakeAll m.wakers.ids { m with timeMs := m.timeMs + 1 }).symm
  | interrupt =>
    obtain ⟨on, hm⟩ := Option.ite_none_right_eq_some.mp taken
    cases hm
    refine h.next (a := .interrupt []) ?_ trivial
    refine (if_pos ⟨on.1, m.pc.running_site.trans on.2⟩).trans ?_
    simp [Core.handler, core]

theorem core_reach {guard : Machine → Label → Machine → Prop} {n : ℕ} {timeMs : UInt64}
    (h : Reach step guard (boot n timeMs) m) : CoreRuns (Core.boot n) m.core := by
  refine h.invariant (I := fun m => CoreRuns (Core.boot n) m.core) ?_
    fun _ _ _ _ hrun taken _ => core_step hrun taken
  rw [core_boot]
  exact .start

/-- A core with `Timer`s halts only with both queues empty. -/
theorem halted_queues_empty {guard : Machine → Label → Machine → Prop} {n : ℕ} {timeMs : UInt64}
    (h : Reach step guard (boot n timeMs) m) (hpc : m.pc = .halted) :
    m.taskQueue.items = [] ∧ m.spawnQueue.items = [] := by
  have hknown : m.core.Known :=
    Core.known_reach (Core.boot_site n) (core_reach h)
  rw [Core.Known, show m.core.site = .halted from congrArg Pc.site hpc] at hknown
  exact hknown

end Machine
end Fomos.Interrupts
