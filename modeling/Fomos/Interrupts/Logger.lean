import Mathlib
import Fomos.Library.Transition

/-!
# The logger and who interrupts it

`LockedLogger::log` runs with interrupts disabled and takes two spinlocks one after the other. The
handlers of interrupts log too, and so does the handler of every exception before anything else,
which disabled interrupts do not keep out.
-/
namespace Fomos.Logger

inductive Level
  | error
  | warn
  | info
  | debug
  | trace
  deriving DecidableEq, Repr

def Level.name : Level → List Char
  | .error => "ERROR".toList
  | .warn => "WARN".toList
  | .info => "INFO".toList
  | .debug => "DEBUG".toList
  | .trace => "TRACE".toList

structure Record where
  level : Level
  args : List Char
  deriving DecidableEq, Repr

/-- `writeln!(_, "{:5}: {}", record.level(), record.args())` -/
def Record.line (r : Record) : List Char :=
  r.level.name.rightpad 5 ' ' ++ [':', ' '] ++ r.args ++ ['\n']

/-- Where a call of `log` stands. -/
inductive Stage
  | lockFramebuffer
  | writeFramebuffer
  | unlockFramebuffer
  | lockSerial
  | writeSerial (rest : List Char)
  | restoreInterrupts
  deriving DecidableEq, Repr

/-- A call of `log`, with the interrupt flag that `without_interrupts` has saved. -/
structure Call where
  record : Record
  saved : Bool
  stage : Stage
  deriving DecidableEq, Repr

/-- The kernel, or a handler: its call of `log`, if it is in one, and the interrupt flag that its
return restores. -/
structure Context where
  call : Option Call
  resume : Bool
  deriving DecidableEq, Repr

/-- The core, and the logger with both of its sinks. `written` is what was written to the
framebuffer writer, with the `level` that it had, and `sent` what went to the serial port. -/
structure Core where
  context : Context
  interrupted : List Context
  enabled : Bool
  framebuffer : Bool
  level : ℕ
  serial : Bool
  written : List (ℕ × Record)
  sent : List Char
  deriving DecidableEq, Repr

inductive Label
  | log (r : Record)
  | advance
  | setFlag (enabled : Bool)
  | interrupt
  /-- An exception, whose handler logs this. -/
  | exception (r : Record)
  | iret
  deriving DecidableEq, Repr

namespace Core

/-- `without_interrupts` begins. -/
def begin (r : Record) (m : Core) : Core :=
  { m with
    context := { m.context with call := some ⟨r, m.enabled, .lockFramebuffer⟩ }
    enabled := false }

def goto (c : Call) (stage : Stage) (m : Core) : Core :=
  { m with context := { m.context with call := some { c with stage } } }

/-- The next piece of a call. A lock that is held is looked at again. -/
def advance (c : Call) (m : Core) : Core :=
  match c.stage with
  | .lockFramebuffer =>
    if m.framebuffer then m
    else
      { m.goto c .writeFramebuffer with
        framebuffer := true, level := if c.record.level = .error then 1 else m.level }
  | .writeFramebuffer =>
    { m.goto c .unlockFramebuffer with written := m.written ++ [(m.level, c.record)], level := 0 }
  | .unlockFramebuffer => { m.goto c .lockSerial with framebuffer := false }
  | .lockSerial =>
    if m.serial then m else { m.goto c (.writeSerial c.record.line) with serial := true }
  | .writeSerial (ch :: rest) => { m.goto c (.writeSerial rest) with sent := m.sent ++ [ch] }
  | .writeSerial [] => { m.goto c .restoreInterrupts with serial := false }
  | .restoreInterrupts =>
    { m with context := { m.context with call := none }, enabled := c.saved }

/-- The gates of the table clear the interrupt flag. -/
def enter (m : Core) : Core :=
  { m with
    context := ⟨none, m.enabled⟩
    interrupted := m.context :: m.interrupted
    enabled := false }

end Core

def step : Label → Core → Option Core
  | .log r, m => if m.context.call = none then some (m.begin r) else none
  | .advance, m => m.context.call.map fun c => m.advance c
  | .setFlag enabled, m =>
    if m.context.call = none ∧ m.interrupted = [] then some { m with enabled } else none
  | .interrupt, m => if m.enabled then some m.enter else none
  | .exception r, m => some (m.enter.begin r)
  | .iret, m =>
    match m.interrupted with
    | [] => none
    | context :: interrupted =>
      if m.context.call = none then
        some { m with context, interrupted, enabled := m.context.resume }
      else none

/-- The logger is set, interrupts are still disabled. -/
def start : Core := ⟨⟨none, false⟩, [], false, false, 0, false, [], []⟩

/-- No exception hits a call of `log`. -/
def Spared (m : Core) (l : Label) (_ : Core) : Prop :=
  ∀ r, l = .exception r → m.context.call = none

instance (m : Core) (l : Label) (m' : Core) : Decidable (Spared m l m') :=
  match l with
  | .exception r =>
    decidable_of_iff (m.context.call = none) ⟨fun h _ _ => h, fun h => h r rfl⟩
  | .log _ | .advance | .setFlag _ | .interrupt | .iret => .isTrue (by simp [Spared])

def Level.writerLevel (l : Level) : ℕ := if l = .error then 1 else 0

/-- What the lines written are on the serial port. -/
def lines (written : List (ℕ × Record)) : List Char := written.flatMap fun p => p.2.line

variable {m m' : Core} {l : Label} {c : Call}

/-- Both locks are free, and the two sinks have the same. -/
def Settled (m : Core) : Prop :=
  m.framebuffer = false ∧ m.serial = false ∧ m.level = 0 ∧ m.sent = lines m.written

/-- The last line is written, and `part` of it is sent. -/
def Behind (r : Record) (part : List Char) (m : Core) : Prop :=
  m.level = 0 ∧ ∃ pre, m.written = pre ++ [(r.level.writerLevel, r)] ∧ m.sent = lines pre ++ part

/-- What holds at each piece of a call. -/
def InCall (m : Core) (c : Call) : Prop :=
  match c.stage with
  | .lockFramebuffer | .restoreInterrupts => Settled m
  | .writeFramebuffer =>
    m.framebuffer = true ∧ m.serial = false ∧ m.level = c.record.level.writerLevel ∧
      m.sent = lines m.written
  | .unlockFramebuffer => m.framebuffer = true ∧ m.serial = false ∧ Behind c.record [] m
  | .lockSerial => m.framebuffer = false ∧ m.serial = false ∧ Behind c.record [] m
  | .writeSerial rest => m.framebuffer = false ∧ m.serial = true ∧
      ∃ part, c.record.line = part ++ rest ∧ Behind c.record part m

structure Orderly (m : Core) : Prop where
  interrupted : ∀ x ∈ m.interrupted, x.call = none
  idle : m.context.call = none → Settled m
  inCall : ∀ c, m.context.call = some c → m.enabled = false ∧ InCall m c
  written : ∀ p ∈ m.written, p.1 = p.2.level.writerLevel

lemma orderly_start : Orderly start where
  interrupted := by simp [start]
  idle _ := ⟨rfl, rfl, rfl, rfl⟩
  inCall c h := by simp [start] at h
  written := by simp [start]

lemma orderly_begin (h : Orderly m) (hnone : m.context.call = none) (r : Record) :
    Orderly (m.begin r) := by
  refine ⟨h.interrupted, by simp [Core.begin], fun c hc => ?_, h.written⟩
  cases hc
  exact ⟨rfl, h.idle hnone⟩

lemma orderly_enter (h : Orderly m) (hnone : m.context.call = none) : Orderly m.enter :=
  ⟨List.forall_mem_cons.mpr ⟨hnone, h.interrupted⟩, fun _ => h.idle hnone,
    fun c hc => by simp [Core.enter] at hc, h.written⟩

lemma lines_append (written : List (ℕ × Record)) (p : ℕ × Record) :
    lines (written ++ [p]) = lines written ++ p.2.line := by
  simp [lines]

/-- A call that goes on with another piece. -/
lemma orderly_goto {stage : Stage} (h : Orderly m) (hc : m.context.call = some c)
    (hm' : m'.context.call = some { c with stage } ∧ m'.interrupted = m.interrupted ∧
      m'.enabled = m.enabled) (hin : InCall m' { c with stage })
    (hwritten : ∀ p ∈ m'.written, p.1 = p.2.level.writerLevel) : Orderly m' := by
  obtain ⟨hcall, hinterrupted, henabled⟩ := hm'
  refine ⟨hinterrupted ▸ h.interrupted, fun hnone => ?_, fun c' hc' => ?_, hwritten⟩
  · rw [hcall] at hnone
    cases hnone
  · obtain rfl := Option.some.inj (hcall.symm.trans hc')
    exact ⟨henabled.trans (h.inCall c hc).1, hin⟩

lemma orderly_advance (h : Orderly m) (hc : m.context.call = some c) :
    Orderly (m.advance c) ∧ (m.advance c).context.call ≠ some c := by
  obtain ⟨record, saved, stage⟩ := c
  obtain ⟨henabled, hin⟩ := h.inCall _ hc
  cases stage with
  | lockFramebuffer =>
    obtain ⟨hf, hs, hlevel, hsent⟩ := hin
    simp only [Core.advance, hf, Bool.false_eq_true, if_false]
    refine ⟨orderly_goto h hc ⟨rfl, rfl, rfl⟩ ⟨rfl, hs, ?_, hsent⟩ h.written, by simp [Core.goto]⟩
    rw [Level.writerLevel, hlevel]
  | writeFramebuffer =>
    obtain ⟨hf, hs, hlevel, hsent⟩ := hin
    refine ⟨orderly_goto h hc ⟨rfl, rfl, rfl⟩ ⟨hf, hs, rfl, m.written, ?_, ?_⟩ ?_,
      by simp [Core.advance, Core.goto]⟩
    · simp only [Core.advance, hlevel]
    · simpa [Core.advance, Core.goto] using hsent
    · simp only [Core.advance, List.mem_append, List.mem_singleton]
      rintro p (hp | rfl)
      · exact h.written p hp
      · exact hlevel
  | unlockFramebuffer =>
    obtain ⟨hf, hs, hbehind⟩ := hin
    exact ⟨orderly_goto h hc ⟨rfl, rfl, rfl⟩ ⟨rfl, hs, hbehind⟩ h.written,
      by simp [Core.advance, Core.goto]⟩
  | lockSerial =>
    obtain ⟨hf, hs, hbehind⟩ := hin
    simp only [Core.advance, hs, Bool.false_eq_true, if_false]
    exact ⟨orderly_goto h hc ⟨rfl, rfl, rfl⟩ ⟨hf, rfl, [], rfl, hbehind⟩ h.written,
      by simp [Core.goto]⟩
  | writeSerial rest =>
    obtain ⟨hf, hs, part, hline, hlevel, pre, hpre, hsent⟩ := hin
    cases rest with
    | nil =>
      refine ⟨orderly_goto h hc ⟨rfl, rfl, rfl⟩ ⟨hf, rfl, hlevel, ?_⟩ h.written,
        by simp [Core.advance, Core.goto]⟩
      simp only [Core.advance, Core.goto] at *
      rw [hpre, lines_append, hsent, hline, List.append_nil]
    | cons ch rest =>
      refine ⟨orderly_goto h hc ⟨rfl, rfl, rfl⟩ ⟨hf, hs, part ++ [ch], ?_, hlevel, pre, hpre, ?_⟩
        h.written, by simp [Core.advance, Core.goto]⟩
      · simpa using hline
      · simp only [Core.advance, hsent, List.append_assoc]
  | restoreInterrupts =>
    refine ⟨⟨h.interrupted, fun _ => hin, fun c hc => ?_, h.written⟩, by simp [Core.advance]⟩
    simp [Core.advance] at hc

lemma orderly_step (h : Orderly m) (taken : step l m = some m') (hspared : Spared m l m') :
    Orderly m' := by
  cases l with
  | log r =>
    obtain ⟨hnone, ⟨⟩⟩ := Option.ite_none_right_eq_some.mp taken
    exact orderly_begin h hnone r
  | advance =>
    obtain ⟨c, hc, ⟨⟩⟩ := Option.map_eq_some_iff.mp taken
    exact (orderly_advance h hc).1
  | setFlag enabled =>
    obtain ⟨⟨hnone, -⟩, ⟨⟩⟩ := Option.ite_none_right_eq_some.mp taken
    refine ⟨h.interrupted, h.idle, fun c hc => ?_, h.written⟩
    rw [hnone] at hc
    cases hc
  | interrupt =>
    obtain ⟨henabled, ⟨⟩⟩ := Option.ite_none_right_eq_some.mp taken
    refine orderly_enter h (Option.eq_none_iff_forall_ne_some.mpr fun c hc => ?_)
    rw [(h.inCall c hc).1] at henabled
    cases henabled
  | exception r =>
    cases taken
    exact orderly_begin (orderly_enter h (hspared r rfl)) rfl r
  | iret =>
    simp only [step] at taken
    split at taken
    next => cases taken
    next context interrupted hstack =>
      obtain ⟨hnone, ⟨⟩⟩ := Option.ite_none_right_eq_some.mp taken
      obtain ⟨hcontext, hrest⟩ := List.forall_mem_cons.mp (hstack ▸ h.interrupted)
      refine ⟨hrest, fun _ => h.idle hnone, fun c hc => ?_, h.written⟩
      rw [hcontext] at hc
      cases hc

/-- A handler that waits for a lock of the code it has interrupted. -/
def Stuck (sent : List Char) (m : Core) : Prop :=
  m.sent = sent ∧ m.enabled = false ∧ ∃ c, m.context.call = some c ∧
    (m.framebuffer = true ∧ c.stage = .lockFramebuffer ∨
      m.serial = true ∧ c.stage ∈ [.lockFramebuffer, .writeFramebuffer, .unlockFramebuffer,
        .lockSerial])

lemma stuck_step {sent : List Char} (h : Stuck sent m) (taken : step l m = some m') :
    Stuck sent m' := by
  obtain ⟨hsent, henabled, ⟨record, saved, stage⟩, hc, hheld⟩ := h
  cases l with
  | log r =>
    obtain ⟨hnone, -⟩ := Option.ite_none_right_eq_some.mp taken
    rw [hc] at hnone
    cases hnone
  | advance =>
    obtain ⟨c, hc', ⟨⟩⟩ := Option.map_eq_some_iff.mp taken
    obtain rfl := Option.some.inj (hc.symm.trans hc')
    obtain ⟨hf, rfl⟩ | ⟨hs, hstage⟩ := hheld
    · simp only [Core.advance, hf, if_true]
      exact ⟨hsent, henabled, _, hc, .inl ⟨hf, rfl⟩⟩
    · simp only [List.mem_cons, List.not_mem_nil, or_false] at hstage
      obtain rfl | rfl | rfl | rfl := hstage
      · simp only [Core.advance]
        split
        next hf => exact ⟨hsent, henabled, _, hc, .inl ⟨hf, rfl⟩⟩
        next => exact ⟨hsent, henabled, _, rfl, .inr ⟨hs, by simp⟩⟩
      · exact ⟨hsent, henabled, _, rfl, .inr ⟨hs, by simp⟩⟩
      · exact ⟨hsent, henabled, _, rfl, .inr ⟨hs, by simp⟩⟩
      · simp only [Core.advance, hs, if_true]
        exact ⟨hsent, henabled, _, hc, .inr ⟨hs, by simp⟩⟩
  | setFlag enabled =>
    obtain ⟨⟨hnone, -⟩, -⟩ := Option.ite_none_right_eq_some.mp taken
    rw [hc] at hnone
    cases hnone
  | interrupt =>
    obtain ⟨hon, -⟩ := Option.ite_none_right_eq_some.mp taken
    rw [henabled] at hon
    cases hon
  | exception r =>
    cases taken
    refine ⟨hsent, rfl, _, rfl, ?_⟩
    obtain ⟨hf, -⟩ | ⟨hs, -⟩ := hheld
    · exact .inl ⟨hf, rfl⟩
    · exact .inr ⟨hs, by simp⟩
  | iret =>
    simp only [step] at taken
    split at taken
    next => cases taken
    next =>
      obtain ⟨hnone, -⟩ := Option.ite_none_right_eq_some.mp taken
      rw [hc] at hnone
      cases hnone

lemma sent_prefix (h : InCall m c) : m.sent <+: lines m.written := by
  have hbehind : ∀ {part rest}, c.record.line = part ++ rest →
      Behind c.record part m → m.sent <+: lines m.written := by
    rintro part rest hline ⟨-, pre, hpre, hsent⟩
    refine ⟨rest, ?_⟩
    rw [hpre, lines_append, hsent, hline, List.append_assoc]
  obtain ⟨record, saved, stage⟩ := c
  cases stage with
  | lockFramebuffer | restoreInterrupts => exact h.2.2.2 ▸ List.prefix_rfl
  | writeFramebuffer => exact h.2.2.2 ▸ List.prefix_rfl
  | unlockFramebuffer | lockSerial => exact hbehind (List.nil_append _).symm h.2.2
  | writeSerial rest =>
    obtain ⟨-, -, part, hline, hpart⟩ := h
    exact hbehind hline hpart

/-- In a call with interrupts disabled only the call goes on. -/
lemma only_advance (hc : m.context.call = some c) (henabled : m.enabled = false)
    (taken : step l m = some m') (hspared : Spared m l m') :
    l = .advance ∧ m' = m.advance c := by
  cases l with
  | log r =>
    obtain ⟨hnone, -⟩ := Option.ite_none_right_eq_some.mp taken
    exact absurd (hc.symm.trans hnone) (by simp)
  | advance =>
    obtain ⟨c', hc', ⟨⟩⟩ := Option.map_eq_some_iff.mp taken
    obtain rfl := Option.some.inj (hc.symm.trans hc')
    exact ⟨rfl, rfl⟩
  | setFlag enabled =>
    obtain ⟨⟨hnone, -⟩, -⟩ := Option.ite_none_right_eq_some.mp taken
    exact absurd (hc.symm.trans hnone) (by simp)
  | interrupt =>
    obtain ⟨hon, -⟩ := Option.ite_none_right_eq_some.mp taken
    exact absurd (henabled.symm.trans hon) (by simp)
  | exception r => exact absurd (hc.symm.trans (hspared r rfl)) (by simp)
  | iret =>
    simp only [step] at taken
    split at taken
    next => cases taken
    next =>
      obtain ⟨hnone, -⟩ := Option.ite_none_right_eq_some.mp taken
      exact absurd (hc.symm.trans hnone) (by simp)

/-- In every run in which no exception hits a call of `log`: nobody waits for a lock, a call is
interrupted by nothing, the serial port has the lines written, whole and in their order, but for the
end of the last one during a call, and the writer's level was 1 for errors alone. An exception
that hits a call while it holds a lock is the end of the output, and of all interrupts. -/
theorem log_lines (h : Transition.Reach step Spared start m) :
    (∀ p ∈ m.written, p.1 = p.2.level.writerLevel) ∧ m.sent <+: lines m.written ∧
      (m.context.call = none → Settled m) ∧
      (∀ c l m', m.context.call = some c → step l m = some m' → Spared m l m' →
        l = .advance ∧ m'.context.call ≠ some c) ∧
      ∀ r m₁ m', m.framebuffer = true ∨ m.serial = true → step (.exception r) m = some m₁ →
        Transition.Reach step (fun _ _ _ => True) m₁ m' →
          m'.sent = m.sent ∧ m'.enabled = false ∧ m'.context.call.isSome := by
  have hm : Orderly m := h.invariant orderly_start fun _ _ _ _ hI => orderly_step hI
  refine ⟨hm.written, ?_, hm.idle, fun c l m' hc taken hspared => ?_,
    fun r m₁ m' hheld taken hrun => ?_⟩
  · cases hc : m.context.call with
    | none => exact (hm.idle hc).2.2.2 ▸ List.prefix_rfl
    | some c => exact sent_prefix (hm.inCall c hc).2
  · obtain ⟨rfl, rfl⟩ := only_advance hc (hm.inCall c hc).1 taken hspared
    exact ⟨rfl, (orderly_advance hm hc).2⟩
  · cases taken
    have hstuck : Stuck m.sent (m.enter.begin r) := by
      refine ⟨rfl, rfl, _, rfl, ?_⟩
      obtain hf | hs := hheld
      · exact .inl ⟨hf, rfl⟩
      · exact .inr ⟨hs, by simp⟩
    obtain ⟨hsent, henabled, c, hc, -⟩ :=
      hrun.invariant (I := Stuck m.sent) hstuck fun _ _ _ _ hI taken _ => stuck_step hI taken
    exact ⟨hsent, henabled, by rw [hc]; rfl⟩

/-- A line of the kernel, and one of a handler of which two characters are sent. -/
def midLine : Core :=
  (Transition.run step Spared ([.setFlag true, .log ⟨.info, ['a']⟩] ++
    List.replicate 15 .advance ++ [.interrupt, .log ⟨.error, ['b']⟩] ++
      List.replicate 6 .advance) start).get (by decide +kernel)

theorem log_lines_midLine : midLine.sent = "INFO : a\nER".toList ∧
    midLine.sent <+: lines midLine.written ∧
    ∀ r m₁ m', step (.exception r) midLine = some m₁ →
      Transition.Reach step (fun _ _ _ => True) m₁ m' → m'.sent = midLine.sent := by
  have hlines := log_lines (m := midLine) (Transition.Reach.run_get _ _)
  refine ⟨by decide +kernel, hlines.2.1, fun r m₁ m' taken hrun => ?_⟩
  exact (hlines.2.2.2.2 r m₁ m' (by decide +kernel) taken hrun).1

end Fomos.Logger
