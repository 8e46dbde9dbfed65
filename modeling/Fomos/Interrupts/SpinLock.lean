import Mathlib
import Fomos.Interrupts.Timer

/-!
# The timer interrupt and the mutex of `WAKERS`

`add_waker` holds the mutex with interrupts enabled, so a tick between its `lock` and the drop of
the guard spins for ever. Only a poll whose first look at the clock finds its `Timer` due keeps
out of the mutex.
-/
namespace Fomos.Interrupts.Machine
open Transition
variable {m m' : Machine} {l : Label} {t : TaskId} {stop : UInt64}

/-- No poll in progress has gone beyond its first look at the clock. -/
def Apart (m : Machine) : Prop :=
  ∀ t stop p, m.pc = .timer t stop p → p = .entry ∨ p = .returned true

lemma poll_running {p : Point} (hpc : m.pc = .timer t stop p) (next : m.poll t stop p = some m') :
    ∃ q, m'.pc = .timer t stop q := by
  cases p with
  | entry | register =>
    simp only [Machine.poll] at next
    split at next
    all_goals
      cases next
      first
        | exact ⟨_, rfl⟩
        | exact ⟨_, hpc⟩
  | scan index =>
    simp only [Machine.poll] at next
    split at next
    all_goals
      cases next
      exact ⟨_, rfl⟩
  | unlock | recheck =>
    cases next
    exact ⟨_, rfl⟩
  | returned ready => cases next

/-- The handler spins only when the code that it interrupted holds the mutex. -/
lemma spinning_step (hflags : Flags m) (taken : Steps m l m') (hspin : m'.pc = .spinning) :
    l = .lapicTimer ∧ m.pc.holdsLock = true := by
  cases taken with
  | outside o => exact absurd hspin o.spinning
  | poll pc next =>
    obtain ⟨q, hq⟩ := poll_running pc next
    cases hq.symm.trans hspin
  | lapicTimer on running =>
    obtain ⟨hl, -⟩ | ⟨-, he⟩ | ⟨-, q, he⟩ := m.lapicTimer_cases
    · exact ⟨rfl, (hflags.locked running).symm.trans hl⟩
    · cases he.symm.trans hspin
    · rw [he] at hspin
      cases hp : m.pc with
      | spinning => rw [hp] at running; cases running
      | _ =>
        rw [hp] at hspin
        cases hspin
  | interrupt on running =>
    cases hp : m.pc with
    | spinning => rw [hp] at running; cases running
    | _ =>
      rw [hp] at hspin
      cases hspin

lemma Apart.free (h : m.Apart) : m.pc.holdsLock = false := by
  cases hpc : m.pc with
  | timer t stop p =>
    obtain rfl | rfl := h t stop p hpc
    all_goals rfl
  | _ => rfl

/-- A poll whose `Timer` is due returns at its first look at the clock. -/
lemma Apart.poll {p : Point} (h : m.Apart) (hpc : m.pc = .timer t stop p)
    (due : p = .entry → stop ≤ m.timeMs) (next : m.poll t stop p = some m') : m'.Apart := by
  obtain rfl | rfl := h t stop p hpc
  · simp only [Machine.poll, due rfl, if_true] at next
    cases next
    intro u stop' q hq
    cases hq
    exact .inr rfl
  · cases next

lemma Apart.steps (h : m.Apart) (taken : Steps m l m') (ok : m.Due l m') : m'.Apart := by
  cases taken with
  | outside o => exact fun t stop p hpc => .inl (o.timer t stop p hpc).1
  | poll pc next =>
    refine h.poll pc (fun hp => ?_) next
    subst hp
    simp only [Due, pc] at ok
    exact ok
  | lapicTimer on running => exact fun t stop p hpc => h t stop p (lapicTimer_timer hpc)
  | interrupt on running => exact fun t stop p hpc => h t stop p (resumed_timer.mp hpc)

/-- In a run whose polls all find their `Timer`s due, the handler never spins. -/
lemma never_spinning {n : ℕ} {timeMs : UInt64} (h : Reach step Due (boot n timeMs) m) :
    m.pc ≠ .spinning := by
  have hboot : (boot n timeMs).Apart := fun t stop p hpc => by
    cases (boot_frame n timeMs).1.symm.trans hpc
  have hinv : m.Apart ∧ m.pc ≠ .spinning := by
    refine Reach.invariant (I := fun s => s.Apart ∧ s.pc ≠ .spinning) ⟨hboot, ?_⟩
      (fun s a s' hs hm taken ok => ⟨hm.1.steps (step_cases taken) ok, fun hspin => ?_⟩) h
    · rw [(boot_frame n timeMs).1]
      exact nofun
    · obtain ⟨-, hheld⟩ := spinning_step (.reach hs) (step_cases taken) hspin
      exact Bool.false_ne_true (hm.1.free.symm.trans hheld)
  exact hinv.2

/-- A tick right after `WAKERS.lock()` spins. -/
lemma spins_after_lock (hflags : Flags m) (hpc : m.pc = .timer t stop .register) :
    ∃ m', Reach step InPoll m m' ∧ m'.pc = .spinning := by
  have hl : m.locked = false := (hflags.locked (by rw [hpc]; rfl)).trans (by rw [hpc]; rfl)
  have he : m.enabled = true :=
    (hflags.enabled (by rw [hpc]; rfl)).resolve_right (by rw [hpc]; nofun)
  have hrun : run step InPoll [.poll, .lapicTimer] m = some
      { m with locked := true, timeMs := m.timeMs + 1, pc := .spinning, enabled := false } := by
    simp [run, step, Machine.poll, InPoll, lapicTimer, hpc, hl, he, Pc.running]
  exact ⟨_, Reach.start.of_run hrun, rfl⟩

/-- The poll in progress has returned `Ready`. -/
def Done (m : Machine) : Prop := ∀ t stop p, m.pc = .timer t stop p → p = .returned true

lemma Done.inPoll (h : m.Done) (taken : Steps m l m') (ok : m.InPoll l m') : m'.Done := by
  cases taken with
  | outside o label =>
    obtain rfl | ⟨a, rfl⟩ := label
    all_goals
      obtain ok | ok | ok := ok
      all_goals cases ok
  | poll pc next =>
    cases h _ _ _ pc
    cases next
  | lapicTimer on running => exact fun t stop p hpc => h t stop p (lapicTimer_timer hpc)
  | interrupt on running => exact fun t stop p hpc => h t stop p (resumed_timer.mp hpc)

/-- After a poll has returned `Ready`, ticks find the mutex free. -/
lemma Done.never_spinning (h : m.Done) (hflags : Flags m) (hpc : m.pc ≠ .spinning)
    (rest : Reach step InPoll m m') : m'.pc ≠ .spinning := by
  have hinv : m'.Done ∧ Flags m' ∧ m'.pc ≠ .spinning := by
    refine Reach.invariant (I := fun s => s.Done ∧ Flags s ∧ s.pc ≠ .spinning) ⟨h, hflags, hpc⟩
      (fun s a s' _ hm taken ok => ?_) rest
    have hsteps := step_cases taken
    refine ⟨hm.1.inPoll hsteps ok, hm.2.1.steps hsteps, fun hspin => ?_⟩
    obtain ⟨-, hheld⟩ := spinning_step hm.2.1 hsteps hspin
    have hfree : s.pc.holdsLock = false :=
      Apart.free fun t stop p hpc => .inr (hm.1 t stop p hpc)
    exact Bool.false_ne_true (hfree.symm.trans hheld)
  exact hinv.2.2

/-- The handler spins in no run whose polls find their `Timer`s due when they first look at the
clock, and any poll that does not can be interrupted so that it spins. -/
theorem handler_spins_iff (n : ℕ) (timeMs : UInt64) :
    (∀ m, Reach step Due (boot n timeMs) m → m.pc ≠ .spinning) ∧
      ∀ m m₁ t stop, Reach step (fun _ _ _ => True) (boot n timeMs) m →
        m.pc = .timer t stop .entry → step .poll m = some m₁ →
        ((∃ m', Reach step InPoll m₁ m' ∧ m'.pc = .spinning) ↔ m.timeMs < stop) := by
  refine ⟨fun _ h => never_spinning h, fun m m₁ t stop h hpc next => ?_⟩
  have hflags : Flags m₁ := (Flags.reach h).steps (step_cases next)
  simp only [step, hpc, Machine.poll] at next
  split at next
  case isTrue due =>
    cases next
    refine iff_of_false ?_ (UInt64.not_lt.mpr due)
    rintro ⟨m', rest, hspin⟩
    refine Done.never_spinning (fun u stop' p hp => ?_) hflags (by simp) rest hspin
    cases hp
    rfl
  case isFalse late =>
    cases next
    exact iff_of_true (spins_after_lock hflags rfl) (UInt64.not_le.mp late)

/-- One task begins the poll of a `Timer` that is due after `ms`. -/
def beginPoll (ms : UInt64) : List Label :=
  [.exec, .exec, .exec, .act (.newTimer ms), .act (.pollTimer ms)]

def begun : Machine := (run step Due (beginPoll 1) (boot 1 0)).get (by decide +kernel)

theorem handler_spins_begun :
    ((run step Due (beginPoll 0 ++ [.poll]) (boot 1 0)).get (by decide +kernel)).pc ≠ .spinning ∧
      ((∃ m', Reach step InPoll ((step .poll begun).get (by decide +kernel)) m' ∧
        m'.pc = .spinning) ↔ begun.timeMs < 1) :=
  ⟨(handler_spins_iff 1 0).1 _ (Reach.run_get _ (by decide +kernel)),
    (handler_spins_iff 1 0).2 begun _ 0 1
      (Reach.mono (fun _ _ _ _ => trivial) (Reach.run_get _ (by decide +kernel)))
      (by decide +kernel) (Option.some_get _).symm⟩

/-- A tick while the first sleeper holds the mutex. -/
theorem tick_spins_in_add_waker :
    ¬∀ n timeMs m, Reach step (fun _ _ _ => True) (boot n timeMs) m → m.pc ≠ .spinning := by
  intro hall
  refine hall 1 0 _ (Reach.run_get [.exec, .exec, .exec, .act (.newTimer 1), .act (.pollTimer 1),
    .poll, .poll, .lapicTimer] (by decide +kernel)) (by decide +kernel)

end Fomos.Interrupts.Machine
