import Mathlib
import Fomos.Interrupts.Timer

/-!
# No sleeper is lost

Whether a task whose `Timer` is pending will be woken is decided when `add_waker` takes the lock:
the task is kept, in a slot of the table or by a push of the tick that cleared the slot, exactly
when the table then has a free slot or already holds the task. On a full table `add_waker` returns
0 and registers nothing.
-/
namespace Fomos.Interrupts.Machine
open Transition
variable {m m' : Machine} {l : Label} {t : TaskId} {stop : UInt64} {room : Prop}

/-- The task is registered, or was pushed on the task queue since its poll began. -/
def Kept (t : TaskId) (m : Machine) : Prop := some t ∈ m.wakers.slots ∨ t ∈ m.pushed

instance (t : TaskId) (m : Machine) : Decidable (m.Kept t) :=
  inferInstanceAs (Decidable (_ ∨ _))

/-- Every poll that has returned `Pending` keeps its task. -/
def NoneLost (m : Machine) : Prop :=
  ∀ t stop, m.pc = .timer t stop (.returned false) → m.Kept t

/-- Before the lock is taken, a task that a tick has pushed finds the table cleared. -/
def Fresh (m : Machine) : Prop :=
  ∀ t stop p, m.pc = .timer t stop p → p = .entry ∨ p = .register →
    t ∈ m.pushed → none ∈ m.wakers.slots

/-- What the poll in progress has made of `room`, the answer to whether there was room when it
took the lock. -/
def Covered (room : Prop) (m : Machine) : Prop :=
  match m.pc with
  | .timer t _ (.scan index) =>
    (∀ j < index, m.wakers.slots[j]? ≠ some none) ∧ (m.HasRoom t ↔ room) ∧ (t ∈ m.pushed → room)
  | .timer t _ .unlock => (some t ∈ m.wakers.slots ↔ room) ∧ (t ∈ m.pushed → room)
  | .timer t _ .recheck | .timer t _ (.returned false) => m.Kept t ↔ room
  | _ => True

lemma Covered.of_pc {p : Pc} (hpc : m.pc = p)
    (hp : ∀ t stop q, p = .timer t stop q → q = .entry ∨ q = .register) : m.Covered room := by
  subst hpc
  unfold Covered
  split
  case h_5 => trivial
  all_goals
    rename_i h
    obtain hq | hq := hp _ _ _ h
    all_goals cases hq

lemma scan_finds_room {index : ℕ} (h : m.wakers.slots[index]? = some none) : m.HasRoom t :=
  .inl (List.mem_of_getElem? h)

/-- A scan to the end of the table has found no free slot. -/
lemma scan_end {index : ℕ} (h : m.wakers.slots[index]? = none)
    (hseen : ∀ j < index, m.wakers.slots[j]? ≠ some none) : none ∉ m.wakers.slots := by
  intro hmem
  obtain ⟨j, hj, hget⟩ := List.getElem_of_mem hmem
  have hlen := List.getElem?_eq_none_iff.mp h
  exact hseen j (by omega) (by rw [List.getElem?_eq_getElem hj, hget])

/-- From the lock on, the poll turns room into a registration and keeps a lack of it. -/
lemma Covered.poll {p : Point} (h : m.Covered room) (hpc : m.pc = .timer t stop p)
    (hp : p ≠ .entry ∧ p ≠ .register) (next : m.poll t stop p = some m') : m'.Covered room := by
  cases p with
  | entry => exact absurd rfl hp.1
  | register => exact absurd rfl hp.2
  | scan index =>
    simp only [Covered, hpc] at h
    obtain ⟨hseen, hroom, hpushed⟩ := h
    simp only [Machine.poll] at next
    split at next
    case h_1 hnone =>
      cases next
      have hfull := scan_end hnone hseen
      exact ⟨(or_iff_right hfull).symm.trans hroom, hpushed⟩
    case h_2 hfree =>
      cases next
      have hyes : room := hroom.mp (scan_finds_room hfree)
      obtain ⟨hlt, -⟩ := List.getElem?_eq_some_iff.mp hfree
      exact ⟨⟨fun _ => hyes, fun _ => List.mem_set hlt _⟩, hpushed⟩
    case h_3 hused =>
      cases next
      refine ⟨fun j hj => ?_, hroom, hpushed⟩
      obtain hlt | rfl := Nat.lt_succ_iff_lt_or_eq.mp hj
      · exact hseen j hlt
      · exact fun hnone => by cases hused.symm.trans hnone
  | unlock =>
    simp only [Covered, hpc] at h
    cases next
    exact ⟨fun hk => hk.elim h.1.mp h.2, fun hr => .inl (h.1.mpr hr)⟩
  | recheck =>
    simp only [Covered, hpc] at h
    cases next
    cases hready : decide (stop ≤ m.timeMs) with
    | true => trivial
    | false => exact h
  | returned ready => cases next

/-- A tick moves the registered tasks to the task queue. -/
lemma Covered.lapicTimer (h : m.Covered room) (hflags : Flags m) (running : m.pc.running = true) :
    m.lapicTimer.Covered room := by
  obtain ⟨-, he⟩ | ⟨-, hp⟩ | ⟨hl, q, he⟩ := m.lapicTimer_cases
  · rw [he]
    trivial
  · exact .of_pc hp nofun
  · have hfree : m.pc.holdsLock = false := (hflags.locked running).symm.trans hl
    rw [he]
    cases hpc : m.pc with
    | timer t stop p =>
      rw [hpc] at hfree
      simp only [Covered, hpc] at h
      have moved : Kept t { m with
          timeMs := m.timeMs + 1, pc := .timer t stop p, wakers := .init
          taskQueue := q, pushed := m.pushed ++ m.wakers.ids } ↔ m.Kept t := by
        simp only [Kept, Wakers.mem_ids, List.mem_append, Wakers.not_mem_init, false_or, or_comm]
      cases p with
      | entry | register => trivial
      | scan | unlock => cases hfree
      | recheck => exact moved.trans h
      | returned ready =>
        cases ready with
        | true => trivial
        | false => exact moved.trans h
    | _ => trivial

lemma Covered.interrupt (h : m.Covered room) : Covered room { m with pc := m.pc.resumed } := by
  cases hpc : m.pc with
  | timer t stop p =>
    simp only [Covered, hpc] at h
    exact h
  | _ => trivial

lemma Covered.outside (o : Outside m m') : m'.Covered room :=
  .of_pc rfl fun t stop p hpc => .inl (o.timer t stop p hpc).1

/-- Taking the lock puts the question whether there is room. -/
lemma Covered.lock (hfresh : m.Fresh) (hflags : Flags m) (hpc : m.pc = .timer t stop .register)
    (next : m.poll t stop .register = some m') (hroom : m.HasRoom t ↔ room) :
    m'.Covered room := by
  have hl : m.locked = false := (hflags.locked (by rw [hpc]; rfl)).trans (by rw [hpc]; rfl)
  simp only [Machine.poll] at next
  rw [if_neg (by rw [hl]; exact Bool.false_ne_true)] at next
  cases next
  refine ⟨fun j hj => absurd hj (Nat.not_lt_zero j), hroom, fun hp => hroom.mp ?_⟩
  exact .inl (hfresh t stop _ hpc (.inr rfl) hp)

lemma Fresh.steps (h : m.Fresh) (taken : Steps m l m') : m'.Fresh := by
  intro t stop q hpc hq hp
  cases taken with
  | outside o =>
    rw [(o.timer t stop q hpc).2] at hp
    cases hp
  | poll pc next =>
    rename_i u stop' p
    -- only the first look at the clock leads to a point before the lock
    cases p with
    | entry =>
      simp only [Machine.poll] at next
      split at next
      all_goals
        cases next
        cases hpc
        exact h t stop .entry pc (.inl rfl) hp
    | register =>
      simp only [Machine.poll] at next
      split at next
      all_goals cases next
      · cases pc.symm.trans hpc
        exact h t stop .register hpc (.inr rfl) hp
      · cases hpc
        obtain hq | hq := hq
        all_goals cases hq
    | scan index =>
      simp only [Machine.poll] at next
      split at next
      all_goals
        cases next
        cases hpc
        obtain hq | hq := hq
        all_goals cases hq
    | unlock | recheck =>
      cases next
      cases hpc
      obtain hq | hq := hq
      all_goals cases hq
    | returned ready => cases next
  | lapicTimer on running =>
    obtain ⟨-, he⟩ | ⟨-, he⟩ | ⟨-, q, he⟩ := m.lapicTimer_cases
    · rw [he] at hpc
      cases hpc
    · cases he.symm.trans hpc
    · rw [he]
      exact List.mem_replicate.mpr ⟨by decide, rfl⟩
  | interrupt on running => exact h t stop q (resumed_timer.mp hpc) hq hp

lemma boot_fresh (n : ℕ) (timeMs : UInt64) : (boot n timeMs).Fresh := by
  intro t stop p hpc
  cases (boot_frame n timeMs).1.symm.trans hpc

lemma Fresh.reach {guard : Machine → Label → Machine → Prop} {n : ℕ} {timeMs : UInt64}
    (h : Reach step guard (boot n timeMs) m) : m.Fresh :=
  h.invariant (boot_fresh n timeMs) fun _ _ _ _ hm taken _ => hm.steps (step_cases taken)

/-- One step keeps every poll past the lock covered, when polls find room at the lock. -/
lemma Covered.steps (h : m.Covered True) (hfresh : m.Fresh) (hflags : Flags m)
    (taken : Steps m l m') (ok : RoomAtLock m l m') : m'.Covered True := by
  cases taken with
  | outside o => exact .outside o
  | @poll t stop p _ pc next =>
    by_cases hlock : p = .register
    · subst hlock
      simp only [RoomAtLock, pc] at ok
      exact .lock hfresh hflags pc next (iff_true_intro ok)
    by_cases hentry : p = .entry
    · subst hentry
      simp only [Machine.poll] at next
      split at next
      all_goals
        cases next
        trivial
    · exact h.poll pc ⟨hentry, hlock⟩ next
  | lapicTimer on running => exact h.lapicTimer hflags running
  | interrupt on running => exact h.interrupt

lemma boot_covered (n : ℕ) (timeMs : UInt64) : (boot n timeMs).Covered room :=
  .of_pc (boot_frame n timeMs).1 nofun

/-- In a run whose polls find room at the lock, no sleeper is lost. -/
lemma noneLost {n : ℕ} {timeMs : UInt64} (h : Reach step RoomAtLock (boot n timeMs) m) :
    m.NoneLost := by
  have hcovered : m.Covered True :=
    h.invariant (boot_covered n timeMs) fun _ _ _ hs hm taken ok =>
      hm.steps (.reach hs) (.reach hs) (step_cases taken) ok
  intro t stop hpc
  simp only [Covered, hpc, iff_true] at hcovered
  exact hcovered

/-- A poll in progress has taken the lock. -/
def Past (m : Machine) : Prop :=
  ∀ t stop p, m.pc = .timer t stop p → p ≠ .entry ∧ p ≠ .register

lemma Past.poll {p : Point} (hp : p ≠ .entry) (hl : p = .register → m.locked = false)
    (next : m.poll t stop p = some m') : m'.Past := by
  intro u stop' q hpc
  cases p with
  | entry => exact absurd rfl hp
  | register =>
    simp only [Machine.poll, hl rfl, Bool.false_eq_true, if_false] at next
    cases next
    cases hpc
    exact ⟨by simp, by simp⟩
  | scan =>
    simp only [Machine.poll] at next
    split at next
    all_goals
      cases next
      cases hpc
      exact ⟨by simp, by simp⟩
  | unlock | recheck =>
    cases next
    cases hpc
    exact ⟨by simp, by simp⟩
  | returned ready => cases next

/-- The rest of a poll keeps the answer that its lock step found. -/
lemma Covered.inPoll (h : m.Covered room) (hflags : Flags m) (hpast : m.Past)
    (taken : Steps m l m') (ok : InPoll m l m') : m'.Covered room ∧ m'.Past := by
  cases taken with
  | outside o label =>
    obtain rfl | ⟨a, rfl⟩ := label
    all_goals
      obtain ok | ok | ok := ok
      all_goals cases ok
  | @poll t stop p _ pc next =>
    have hp := hpast t stop p pc
    exact ⟨h.poll pc hp next, .poll hp.1 (fun hr => absurd hr hp.2) next⟩
  | lapicTimer on running =>
    exact ⟨h.lapicTimer hflags running, fun t stop p hpc => hpast t stop p (lapicTimer_timer hpc)⟩
  | interrupt on running =>
    exact ⟨h.interrupt, fun t stop p hpc => hpast t stop p (resumed_timer.mp hpc)⟩

/-- What a poll returns is decided at its lock step. -/
lemma kept_iff_hasRoom {n : ℕ} {timeMs : UInt64} {m₁ : Machine}
    (h : Reach step (fun _ _ _ => True) (boot n timeMs) m)
    (hpc : m.pc = .timer t stop .register) (lock : step .poll m = some m₁)
    (rest : Reach step InPoll m₁ m') (hret : m'.pc = .timer t stop (.returned false)) :
    m'.Kept t ↔ m.HasRoom t := by
  have hnext : m.poll t stop .register = some m₁ := by
    simp only [step, hpc] at lock
    exact lock
  have hflags : Flags m := .reach h
  have hfree : m.locked = false := (hflags.locked (by rw [hpc]; rfl)).trans (by rw [hpc]; rfl)
  have hkeep : m'.Covered (m.HasRoom t) ∧ Flags m' ∧ m'.Past := by
    refine Reach.invariant (I := fun s => s.Covered (m.HasRoom t) ∧ Flags s ∧ s.Past)
      ⟨?_, ?_, ?_⟩ (fun _ _ _ _ hm taken ok => ?_) rest
    · exact .lock (.reach h) hflags hpc hnext Iff.rfl
    · exact hflags.steps (step_cases lock)
    · exact Past.poll (p := .register) (by simp) (fun _ => hfree) hnext
    · obtain ⟨hc, hp⟩ := hm.1.inPoll hm.2.1 hm.2.2 (step_cases taken) ok
      exact ⟨hc, hm.2.1.steps (step_cases taken), hp⟩
  have hcovered := hkeep.1
  simp only [Covered, hret] at hcovered
  exact hcovered

/-- No sleeper is lost in a run whose polls of `Timer`s all find room when they lock the table,
and a pending poll keeps its task exactly when it found room. -/
theorem pending_kept_iff (n : ℕ) (timeMs : UInt64) :
    (∀ m, Reach step RoomAtLock (boot n timeMs) m → m.NoneLost) ∧
      ∀ m m₁ m' t stop, Reach step (fun _ _ _ => True) (boot n timeMs) m →
        m.pc = .timer t stop .register → step .poll m = some m₁ → Reach step InPoll m₁ m' →
        m'.pc = .timer t stop (.returned false) → (m'.Kept t ↔ m.HasRoom t) :=
  ⟨fun _ h => noneLost h, fun _ _ _ _ _ h hpc lock rest hret =>
    kept_iff_hasRoom h hpc lock rest hret⟩

/-- One task makes a `Timer` and polls it up to the lock of the table. -/
def atLock : Machine :=
  (run step RoomAtLock
    [.exec, .exec, .exec, .act (.newTimer 2), .act (.pollTimer 2), .poll] (boot 1 0)).get
      (by decide +kernel)

/-- It registers, and a tick passes before it looks at the clock again. -/
def afterTick : Machine :=
  (run step InPoll [.poll, .poll, .lapicTimer, .poll]
    ((step .poll atLock).get (by decide +kernel))).get (by decide +kernel)

theorem pending_kept_afterTick : atLock.NoneLost ∧ (afterTick.Kept 0 ↔ atLock.HasRoom 0) :=
  ⟨(pending_kept_iff 1 0).1 _ (Reach.run_get _ (by decide +kernel)),
    (pending_kept_iff 1 0).2 atLock _ afterTick 0 2
      (Reach.mono (fun _ _ _ _ => trivial) (Reach.run_get _ (by decide +kernel)))
      (by decide +kernel) (Option.some_get _).symm (Reach.run_get _ (by decide +kernel))
      (by decide +kernel)⟩

/-! ## The sleeper that a full table loses -/

/-- What the poll of `t`'s new `Timer` has changed when it is about to look at slot `index`. -/
def scanning (t : TaskId) (ms : UInt64) (index : ℕ) (m : Machine) : Machine :=
  { m with
    timers := Function.update m.timers t ((m.timeMs + ms) :: m.timers t)
    pushed := [], locked := true, pc := .timer t (m.timeMs + ms) (.scan index) }

/-- A new `Timer` that is polled without an interrupt passes the used slots of the table. -/
lemma reach_scanning {s₀ : Machine} (ms : UInt64)
    (h : Reach step (fun _ _ _ => True) s₀ m) (hpc : m.pc = .task t) (hl : m.locked = false)
    (hstop : ¬m.timeMs + ms ≤ m.timeMs) (index : ℕ)
    (hused : ∀ j < index, ∃ u, m.wakers.slots[j]? = some (some u)) :
    Reach step (fun _ _ _ => True) s₀ (m.scanning t ms index) := by
  induction index with
  | zero =>
    refine h.of_run (show run step (fun _ _ _ => True)
      [.act (.newTimer ms), .act (.pollTimer (m.timeMs + ms)), .poll, .poll] m = some _ from ?_)
    simp [run, step, act, Machine.poll, scanning, hpc, hl, hstop]
  | succ index ih =>
    obtain ⟨u, hu⟩ := hused index (Nat.lt_succ_self index)
    refine (ih fun j hj => hused j (Nat.lt_succ_of_lt hj)).next (a := .poll) ?_ trivial
    simp only [step, scanning, Machine.poll, hu]

/-- A scan that finds a free slot registers the task, and the poll returns `Pending`. -/
lemma run_register {ms : UInt64} {index : ℕ} (hstop : ¬m.timeMs + ms ≤ m.timeMs)
    (hfree : m.wakers.slots[index]? = some none) :
    run step (fun _ _ _ => True) [.poll, .poll, .poll, .act .goOn] (m.scanning t ms index) =
      some { m.scanning t ms index with
        wakers := m.wakers.register index t, locked := false, pc := .task t } := by
  simp [run, step, act, Machine.poll, scanning, hfree, hstop]

/-- A scan past the last slot registers nothing, and the poll still returns `Pending`. -/
lemma run_full {ms : UInt64} {index : ℕ} (hstop : ¬m.timeMs + ms ≤ m.timeMs)
    (hend : m.wakers.slots[index]? = none) :
    run step (fun _ _ _ => True) [.poll, .poll, .poll] (m.scanning t ms index) =
      some { m.scanning t ms index with
        locked := false, pc := .timer t (m.timeMs + ms) (.returned false) } := by
  simp [run, step, Machine.poll, scanning, hend, hstop]

/-- Task 0 has polled `k` new `Timer`s in its first poll, while task 1 waits for its own. -/
structure Filled (k : ℕ) (m : Machine) : Prop where
  pc : m.pc = .task 0
  locked : m.locked = false
  timeMs : m.timeMs = 0
  live : 1 ∈ m.tasks
  queue : m.taskQueue.items = [1]
  slots : m.wakers.slots = List.replicate k (some 0) ++ List.replicate (numSlots - k) none

namespace Filled
variable {k : ℕ}

lemma used (h : Filled k m) : ∀ j < k, ∃ u, m.wakers.slots[j]? = some (some u) := by
  intro j hj
  refine ⟨0, ?_⟩
  rw [h.slots, List.getElem?_append_left (by simpa using hj)]
  simp [hj]

lemma free (h : Filled k m) (hk : k < numSlots) : m.wakers.slots[k]? = some none := by
  rw [h.slots, List.getElem?_append_right (by simp), List.length_replicate, Nat.sub_self,
    List.getElem?_replicate]
  exact if_pos (by omega)

lemma later (h : Filled k m) : ¬m.timeMs + 1 ≤ m.timeMs := by
  rw [h.timeMs]
  decide

lemma register (h : Filled k m) (hk : k < numSlots) : Filled (k + 1)
    { m.scanning 0 1 k with wakers := m.wakers.register k 0, locked := false, pc := .task 0 } where
  pc := rfl
  locked := rfl
  timeMs := h.timeMs
  live := h.live
  queue := h.queue
  slots := by
    have hrest : numSlots - k = (numSlots - (k + 1)) + 1 := by omega
    rw [Wakers.register_slots, h.slots, List.set_append_right _ _ (by simp),
      List.length_replicate, Nat.sub_self, hrest, List.replicate_succ, List.set_cons_zero,
      List.replicate_succ', List.append_assoc]
    rfl

end Filled

lemma reach_filled {k : ℕ} (hk : k ≤ numSlots) :
    ∃ m, Reach step (fun _ _ _ => True) (boot 2 0) m ∧ Filled k m := by
  induction k with
  | zero =>
    refine ⟨_, Reach.run_get [.exec, .exec, .exec, .exec] (by decide +kernel), ?_⟩
    exact ⟨by decide +kernel, by decide +kernel, by decide +kernel, by decide +kernel,
      by decide +kernel, by decide +kernel⟩
  | succ k ih =>
    obtain ⟨m, h, hm⟩ := ih (by omega)
    have hscan := reach_scanning 1 h hm.pc hm.locked hm.later k hm.used
    exact ⟨_, hscan.of_run (run_register hm.later (hm.free hk)), hm.register hk⟩

/-- The first task's poll of `numSlots` new `Timer`s leaves no slot for the second task, whose
own `Timer` is pending and which no tick will wake. -/
theorem full_table_loses_sleeper :
    ¬∀ n timeMs m, Reach step (fun _ _ _ => True) (boot n timeMs) m → m.NoneLost := by
  intro hall
  obtain ⟨m, h, hm⟩ := reach_filled (le_refl numSlots)
  obtain ⟨q, hq⟩ : ∃ q, m.taskQueue.pop = some (1, q) :=
    ⟨.empty, ArrayQueue.pop_eq_some.mpr hm.queue⟩
  have hnext : run step (fun _ _ _ => True) [.act (.finish false), .exec] m =
      some { m with taskQueue := q, pc := .task 1 } := by
    simp [run, step, act, exec, hm.pc, hq, hm.live]
  have hscan := reach_scanning 1 (h.of_run hnext) rfl hm.locked hm.later numSlots hm.used
  have hend : m.wakers.slots[numSlots]? = none :=
    List.getElem?_eq_none_iff.mpr (le_of_eq m.wakers.size)
  obtain hslot | hpushed := hall 2 0 _ (hscan.of_run (run_full hm.later hend)) 1 _ rfl
  · have hmem : some 1 ∈ m.wakers.slots := hslot
    rw [hm.slots] at hmem
    simp at hmem
  · cases hpushed

end Fomos.Interrupts.Machine
