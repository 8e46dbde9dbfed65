import Mathlib
import Fomos.Library.Transition

/-!
# The end of an interrupt

The local APIC hands the core a vector of a higher class than all that are in service, and a vector
stays in service until its handler ends the interrupt. The handlers of most pins never do. They run
with interrupts disabled, so that none interrupts another.
-/
namespace Fomos.Interrupts.EndOfInterrupt

/-- What a handler does, as far as the end of the interrupt and the clock are concerned. `pin` is an
access to the IOAPIC, and `wake` the loop over the wakers. -/
inductive Effect
  | eoi
  | tick
  | wake
  | pin
  | log
  deriving DecidableEq, Repr

def lapicTimer : List Effect := [.eoi, .tick, .wake]
def lapicTimer2 : List Effect := [.log]

/-- `ioapic_handler_0` to `ioapic_handler_23` -/
def ioapicHandler : ℕ → List Effect
  | 1 => [.log, .pin, .log, .eoi]
  | 2 => [.pin, .eoi]
  | 10 => [.log, .eoi]
  | 11 => [.log, .eoi]
  | _ => [.log]

def genericHandler : List Effect := [.log]

/-- The entries of `IDT` from 32 on. -/
def idt (vector : ℕ) : List Effect :=
  if vector = 48 then lapicTimer
  else if vector = 49 then lapicTimer2
  else if 50 ≤ vector ∧ vector < 50 + 24 then ioapicHandler (vector - 50)
  else genericHandler

/-- The local APIC and the core: the vectors requested and in service, the interrupt flag of the
code outside of handlers, and the handler that runs with what is left of it. `delivered` is the list
of all vectors handed over, the last one first. -/
structure State where
  irr : Finset ℕ
  isr : Finset ℕ
  enabled : Bool
  handler : Option (ℕ × List Effect)
  timeMs : UInt64
  delivered : List ℕ

inductive Label
  /-- The timer, a pin or another core requests an interrupt. -/
  | request (vector : ℕ)
  | deliver (vector : ℕ)
  | act
  | iret
  | setFlag (enabled : Bool)
  deriving DecidableEq, Repr

namespace State

/-- A write to the register `0xB0` ends the highest interrupt in service. -/
def eoi (s : State) : State := { s with isr := s.isr.erase (s.isr.sup id) }

def exec (e : Effect) (s : State) : State :=
  match e with
  | .eoi => s.eoi
  | .tick => { s with timeMs := s.timeMs + 1 }
  | _ => s

/-- Whether the vector is above everything in service. -/
def Above (vector : ℕ) (s : State) : Prop := ∀ w ∈ s.isr, w / 16 < vector / 16

instance (vector : ℕ) (s : State) : Decidable (s.Above vector) :=
  inferInstanceAs (Decidable (∀ w ∈ s.isr, w / 16 < vector / 16))

/-- The highest of the vectors requested is handed over. -/
def Takes (vector : ℕ) (s : State) : Prop :=
  s.enabled = true ∧ s.handler = none ∧ vector ∈ s.irr ∧ (∀ w ∈ s.irr, w ≤ vector) ∧
    s.Above vector

instance (vector : ℕ) (s : State) : Decidable (s.Takes vector) :=
  inferInstanceAs (Decidable (_ ∧ _ ∧ _ ∧ _ ∧ _))

def deliver (vector : ℕ) (s : State) : State :=
  { s with
    irr := s.irr.erase vector
    isr := insert vector s.isr
    handler := some (vector, idt vector)
    delivered := vector :: s.delivered }

end State

def step : Label → State → Option State
  | .request vector, s =>
    if 32 ≤ vector ∧ vector < 256 then some { s with irr := insert vector s.irr } else none
  | .deliver vector, s => if s.Takes vector then some (s.deliver vector) else none
  | .act, s =>
    match s.handler with
    | some (vector, e :: rest) => some ({ s with handler := some (vector, rest) }.exec e)
    | _ => none
  | .iret, s =>
    match s.handler with
    | some (_, []) => some { s with handler := none }
    | _ => none
  | .setFlag enabled, s => if s.handler = none then some { s with enabled } else none

/-- Interrupts are disabled until `kernel_main` enables them, and none has come. -/
def start : State := ⟨∅, ∅, false, none, 0, []⟩

/-- Whether the handler of a vector ends its interrupt. -/
def Acks (vector : ℕ) : Prop := .eoi ∈ idt vector

instance (vector : ℕ) : Decidable (Acks vector) :=
  inferInstanceAs (Decidable (_ ∈ _))

lemma idt_other {vector : ℕ} (h : vector < 48 ∨ 74 ≤ vector) : idt vector = genericHandler := by
  unfold idt
  rw [if_neg (by omega), if_neg (by omega), if_neg (by omega)]

/-- A handler ends one interrupt at most, and only that of the timer moves the clock. -/
lemma idt_counts (vector : ℕ) : (idt vector).count .eoi ≤ 1 ∧
    (idt vector).count .tick = if vector = 48 then 1 else 0 := by
  by_cases h : vector < 48 ∨ 74 ≤ vector
  · rw [idt_other h, if_neg (by omega)]
    decide
  · push Not at h
    obtain ⟨hlo, hhi⟩ := h
    interval_cases vector <;> decide

lemma acks_iff (vector : ℕ) : Acks vector ↔ vector ∈ [48, 51, 52, 60, 61] := by
  unfold Acks
  by_cases h : vector < 48 ∨ 74 ≤ vector
  · rw [idt_other h]
    simp [genericHandler]
    omega
  · push Not at h
    obtain ⟨hlo, hhi⟩ := h
    interval_cases vector <;> decide

/-- How often the clock still moves before the handler returns. -/
def State.ticks (s : State) : ℕ :=
  match s.handler with
  | some (_, rest) => rest.count .tick
  | none => 0

/-- What is in service: what was never ended, and the vector whose handler has yet to end it, which
is above all others. -/
structure Serving (s : State) : Prop where
  isr : ∀ w, w ∈ s.isr ↔ (w ∈ s.delivered ∧ ¬Acks w) ∨
    ∃ rest, s.handler = some (w, rest) ∧ .eoi ∈ rest
  rest : ∀ v rest, s.handler = some (v, rest) → rest <:+ idt v ∧ v ∈ s.delivered
  top : ∀ v rest, s.handler = some (v, rest) → ∀ w ∈ s.isr, w = v ∨ w / 16 < v / 16
  time : s.timeMs + UInt64.ofNat s.ticks = UInt64.ofNat (s.delivered.count 48)
  bound : (∀ w ∈ s.irr, 32 ≤ w ∧ w < 256) ∧ ∀ w ∈ s.delivered, 32 ≤ w ∧ w < 256

variable {s s' : State} {l : Label} {v : ℕ} {rest : List Effect}

lemma serving_start : Serving start where
  isr w := by simp [start]
  rest v rest h := by simp [start] at h
  top v rest h := by simp [start] at h
  time := rfl
  bound := by simp [start]

lemma serving_deliver (h : Serving s) (htakes : s.Takes v) : Serving (s.deliver v) := by
  obtain ⟨-, hnone, hmem, -, habove⟩ := htakes
  have hisr : ∀ w, w ∈ s.isr ↔ w ∈ s.delivered ∧ ¬Acks w := by
    intro w
    rw [h.isr, hnone]
    simp
  refine ⟨fun w => ?_, fun w rest hw => ?_, fun w rest hw => ?_, ?_, ?_, ?_⟩
  · simp only [State.deliver, Finset.mem_insert, hisr, List.mem_cons]
    by_cases hwv : w = v
    · subst hwv
      by_cases hack : Acks w
      · simp only [hack, true_or, not_true, and_false, false_or, true_iff]
        exact ⟨_, rfl, hack⟩
      · simp [hack]
    · simp [hwv, Ne.symm hwv]
  · cases hw
    exact ⟨List.suffix_refl _, by simp [State.deliver]⟩
  · cases hw
    intro u hu
    obtain rfl | hu := Finset.mem_insert.mp hu
    · exact .inl rfl
    · exact .inr (habove u hu)
  · have htime := h.time
    simp only [State.ticks, hnone] at htime
    simp only [State.ticks, State.deliver, (idt_counts v).2, List.count_cons]
    rw [UInt64.ofNat_add, ← htime]
    by_cases hv : v = 48 <;> simp [hv]
  · intro w hw
    exact h.bound.1 w (Finset.mem_of_mem_erase hw)
  · intro w hw
    obtain rfl | hw := List.mem_cons.mp hw
    · exact h.bound.1 w hmem
    · exact h.bound.2 w hw

/-- The end of an interrupt ends that of the handler which runs. -/
lemma eoi_handler (h : Serving s) (hv : s.handler = some (v, .eoi :: rest)) : s.isr.sup id = v := by
  have hmem : v ∈ s.isr := (h.isr v).mpr (.inr ⟨_, hv, by simp⟩)
  refine le_antisymm (Finset.sup_le fun w hw => ?_) (Finset.le_sup (f := id) hmem)
  obtain rfl | hlt := h.top v _ hv w hw
  · exact le_rfl
  · simp only [id]
    omega

/-- An effect that ends no interrupt. -/
lemma serving_other {e : Effect} (h : Serving s) (hv : s.handler = some (v, e :: rest))
    (he : e ≠ .eoi) {timeMs : UInt64}
    (htime : timeMs + UInt64.ofNat (rest.count .tick) = UInt64.ofNat (s.delivered.count 48)) :
    Serving { s with handler := some (v, rest), timeMs } := by
  obtain ⟨hsuffix, hdelivered⟩ := h.rest v _ hv
  refine ⟨fun w => ?_, fun w r hw => ?_, fun w r hw u hu => ?_, htime, h.bound⟩
  · rw [h.isr, hv]
    simp [he.symm]
  · cases hw
    exact ⟨(List.suffix_cons e rest).trans hsuffix, hdelivered⟩
  · cases hw
    exact h.top v _ hv u hu

lemma serving_eoi (h : Serving s) (hv : s.handler = some (v, .eoi :: rest)) :
    Serving ({ s with handler := some (v, rest) } : State).eoi := by
  obtain ⟨hsuffix, hdelivered⟩ := h.rest v _ hv
  have hsup := eoi_handler h hv
  have hack : Acks v := hsuffix.subset (by simp)
  have honce : .eoi ∉ rest := by
    have hcount := (hsuffix.sublist.count_le .eoi).trans (idt_counts v).1
    rw [List.count_cons_self] at hcount
    exact List.count_eq_zero.mp (by omega)
  refine ⟨fun w => ?_, fun w r hw => ?_, fun w r hw u hu => ?_, ?_, h.bound⟩
  · simp only [State.eoi, hsup, Finset.mem_erase, h.isr, hv]
    by_cases hwv : w = v
    · subst hwv
      simp [hack, honce]
    · simp [hwv, Ne.symm hwv]
  · cases hw
    exact ⟨(List.suffix_cons _ rest).trans hsuffix, hdelivered⟩
  · cases hw
    exact h.top v _ hv u (Finset.mem_of_mem_erase hu)
  · have htime := h.time
    simpa [State.ticks, State.eoi, hv] using htime

lemma serving_act {e : Effect} (h : Serving s) (hv : s.handler = some (v, e :: rest)) :
    Serving ({ s with handler := some (v, rest) }.exec e) := by
  have htime := h.time
  have hticks : s.ticks = (e :: rest).count .tick := by simp [State.ticks, hv]
  rw [hticks] at htime
  cases e with
  | eoi => exact serving_eoi h hv
  | tick =>
    refine serving_other h hv (by decide) ?_
    rw [← htime, List.count_cons_self, UInt64.ofNat_add, UInt64.add_assoc,
      UInt64.add_comm (UInt64.ofNat _)]
    rfl
  | wake | pin | log => exact serving_other h hv (by decide) (by simpa using htime)

lemma serving_step (h : Serving s) (taken : step l s = some s') : Serving s' := by
  cases l with
  | request vector =>
    obtain ⟨hbound, ⟨⟩⟩ := Option.ite_none_right_eq_some.mp taken
    refine ⟨h.isr, h.rest, h.top, h.time, fun w hw => ?_, h.bound.2⟩
    obtain rfl | hw := Finset.mem_insert.mp hw
    · exact hbound
    · exact h.bound.1 w hw
  | deliver vector =>
    obtain ⟨htakes, ⟨⟩⟩ := Option.ite_none_right_eq_some.mp taken
    exact serving_deliver h htakes
  | act =>
    simp only [step] at taken
    split at taken
    next v e rest hv =>
      cases taken
      exact serving_act h hv
    next => cases taken
  | iret =>
    simp only [step] at taken
    split at taken
    next v hv =>
      cases taken
      refine ⟨fun w => ?_, by simp, by simp, ?_, h.bound⟩
      · rw [h.isr, hv]
        simp
      · simpa [State.ticks, hv] using h.time
    next => cases taken
  | setFlag enabled =>
    obtain ⟨hnone, ⟨⟩⟩ := Option.ite_none_right_eq_some.mp taken
    exact ⟨h.isr, h.rest, h.top, h.time, h.bound⟩

abbrev Reaches : State → State → Prop := Transition.Reach step fun _ _ _ => True

lemma serving_reach (h : Reaches start s) : Serving s :=
  h.invariant serving_start fun _ _ _ _ hs taken _ => serving_step hs taken

/-- A vector that stays in service for good, and keeps the timer's class out. -/
def Blocks (v : ℕ) : Prop := 48 ≤ v ∧ ¬Acks v

instance (v : ℕ) : Decidable (Blocks v) := inferInstanceAs (Decidable (_ ∧ _))

/-- A vector that blocks stays, and each interrupt after it is of a higher class and stays too. -/
def Climbing (v n : ℕ) (timeMs : UInt64) (s : State) : Prop :=
  s.timeMs = timeMs ∧ s.ticks = 0 ∧
    ∃ w ∈ s.delivered, Blocks w ∧ s.delivered.length + v / 16 ≤ n + w / 16

lemma climbing_step {n : ℕ} {timeMs : UInt64} (hs : Serving s) (h : Climbing v n timeMs s)
    (taken : step l s = some s') : Climbing v n timeMs s' := by
  obtain ⟨htime, hticks, w, hw, ⟨hw48, hack⟩, hlen⟩ := h
  cases l with
  | request vector =>
    obtain ⟨-, ⟨⟩⟩ := Option.ite_none_right_eq_some.mp taken
    exact ⟨htime, hticks, w, hw, ⟨hw48, hack⟩, hlen⟩
  | deliver vector =>
    obtain ⟨htakes, ⟨⟩⟩ := Option.ite_none_right_eq_some.mp taken
    have habove := htakes.2.2.2.2 w ((hs.isr w).mpr (.inl ⟨hw, hack⟩))
    have hhigh : 64 ≤ vector := by omega
    refine ⟨htime, ?_, vector, .head _, ⟨by omega, ?_⟩, ?_⟩
    · simp only [State.ticks, State.deliver, (idt_counts vector).2]
      rw [if_neg (by omega)]
    · rw [acks_iff]
      simp
      omega
    · simp only [State.deliver, List.length_cons]
      omega
  | act =>
    simp only [step] at taken
    split at taken
    next u e rest hv =>
      cases taken
      rw [State.ticks, hv] at hticks
      cases e with
      | tick => simp at hticks
      | eoi | wake | pin | log =>
        exact ⟨htime, by simpa [State.ticks, State.exec, State.eoi] using hticks, w, hw,
          ⟨hw48, hack⟩, hlen⟩
    next => cases taken
  | iret =>
    simp only [step] at taken
    split at taken
    next u hv =>
      cases taken
      exact ⟨htime, rfl, w, hw, ⟨hw48, hack⟩, hlen⟩
    next => cases taken
  | setFlag enabled =>
    obtain ⟨-, ⟨⟩⟩ := Option.ite_none_right_eq_some.mp taken
    exact ⟨htime, hticks, w, hw, ⟨hw48, hack⟩, hlen⟩

lemma climbing_start (hs : Serving s) (hv : v ∈ s.delivered) (hblocks : Blocks v) :
    Climbing v s.delivered.length s.timeMs s := by
  refine ⟨rfl, ?_, v, hv, hblocks, le_rfl⟩
  cases hhandler : s.handler with
  | none => simp [State.ticks, hhandler]
  | some p =>
    obtain ⟨u, rest⟩ := p
    have hcount := ((hs.rest u rest hhandler).1.sublist.count_le .tick).trans (idt_counts u).2.le
    simp only [State.ticks, hhandler]
    split at hcount
    next hu =>
      subst hu
      obtain rfl | hlt := hs.top 48 rest hhandler v ((hs.isr v).mpr (.inl ⟨hv, hblocks.2⟩))
      · exact absurd (by decide) hblocks.2
      · have := hblocks.1
        omega
    next => exact Nat.le_zero.mp hcount

/-- In every run, the clock counts the timer interrupts handed over. The timer can interrupt again
exactly while every vector from 48 on that was handed over has a handler that ends it. After one
that has none the clock stands still, and as many interrupts follow as there are higher classes at
most. -/
theorem timer_stops_iff (h : Reaches start s) :
    s.timeMs + UInt64.ofNat s.ticks = UInt64.ofNat (s.delivered.count 48) ∧
      (s.handler = none → (s.Above 48 ↔ ∀ v ∈ s.delivered, ¬Blocks v)) ∧
      ∀ v ∈ s.delivered, Blocks v → ∀ s', Reaches s s' →
        s'.timeMs = s.timeMs ∧ s'.delivered.length + v / 16 ≤ s.delivered.length + 15 := by
  have hs := serving_reach h
  refine ⟨hs.time, fun hnone => ?_, fun v hv hblocks s' h' => ?_⟩
  · have hisr : ∀ w, w ∈ s.isr ↔ w ∈ s.delivered ∧ ¬Acks w := by
      intro w
      rw [hs.isr, hnone]
      simp
    constructor
    · intro habove v hv hblocks
      have := habove v ((hisr v).mpr ⟨hv, hblocks.2⟩)
      have := hblocks.1
      omega
    · intro hnever w hw
      obtain ⟨hw, hack⟩ := (hisr w).mp hw
      by_contra hle
      exact hnever w hw ⟨by omega, hack⟩
  · have hrun := h'.invariant (I := fun s₁ => Serving s₁ ∧
      Climbing v s.delivered.length s.timeMs s₁) ⟨hs, climbing_start hs hv hblocks⟩
      fun _ _ _ _ hI taken _ => ⟨serving_step hI.1 taken, climbing_step hI.1 hI.2 taken⟩
    obtain ⟨hs', htime, -, w, hw, -, hlen⟩ := hrun
    have hw256 := (hs'.bound.2 w hw).2
    exact ⟨htime, by omega⟩

/-- The timer, then pin 4, whose handler has returned. -/
def pin4 : State :=
  (Transition.run step (fun _ _ _ => True) [.setFlag true, .request 48, .deliver 48, .act, .act,
    .act, .iret, .request 54, .deliver 54, .act, .iret] start).get (by decide +kernel)

lemma pin4_reaches : Reaches start pin4 := Transition.Reach.run_get _ _

theorem timer_stops_iff_pin4 : ¬pin4.Above 48 ∧ ∀ s', Reaches pin4 s' → s'.timeMs = 1 := by
  have hblocks : 54 ∈ pin4.delivered ∧ Blocks 54 := by decide +kernel
  obtain ⟨-, hiff, hstops⟩ := timer_stops_iff pin4_reaches
  refine ⟨fun h => ?_, fun s' h => ?_⟩
  · exact (hiff (by decide +kernel)).mp h 54 hblocks.1 hblocks.2
  · exact (hstops 54 hblocks.1 hblocks.2 s' h).1.trans (by decide +kernel)

end Fomos.Interrupts.EndOfInterrupt
