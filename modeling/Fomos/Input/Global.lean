import Mathlib
import Fomos.Library.RingWindow

/-!
# The global input

The input drivers record key events in `INPUT`, with the state of each key and the last 64 events
in a ring. Whatever happens at the end of a frame, a key is on when its last event was a press.
-/
namespace Fomos

inductive KeyState
  | off
  | offFromOn
  | offTransientOn
  | onFromOff
  | onTransientOff
  | on
  deriving DecidableEq, Repr

namespace KeyState

/-- `repr(u8)` -/
def toU8 : KeyState → ℕ
  | off => 0
  | offFromOn => 1
  | offTransientOn => 2
  | onFromOff => 128
  | onTransientOff => 129
  | on => 130

def handleIncomingState : KeyState → Bool → KeyState
  | off, true => onFromOff
  | on, false => offFromOn
  | offFromOn, true => onTransientOff
  | onFromOff, false => offTransientOn
  | _, false => off
  | _, true => on

def step : KeyState → KeyState
  | offTransientOn => off
  | offFromOn => off
  | onFromOff => on
  | onTransientOff => on
  | k => k

/-- Whether the state is one of the on states. -/
def IsOn (k : KeyState) : Prop := 128 ≤ k.toU8

theorem isOn_handleIncomingState (k : KeyState) (b : Bool) :
    (k.handleIncomingState b).IsOn ↔ b = true := by
  cases k <;> cases b <;> simp [IsOn, handleIncomingState, toU8]

theorem isOn_step (k : KeyState) : k.step.IsOn ↔ k.IsOn := by
  cases k <;> simp [IsOn, step, toU8]

end KeyState

structure InputEvent where
  trigger : Bool
  key : ℕ
  deriving DecidableEq, Repr

def historySize : ℕ := 64

/-- The length of `keys`. -/
def numKeys : ℕ := 1024

/-- `Input`, with its arrays as functions of the index. -/
structure Input where
  mouseX : UInt64
  mouseY : UInt64
  keys : ℕ → KeyState
  historyLastIndex : ℕ
  historyRing : ℕ → InputEvent

namespace Input

def new : Input where
  mouseX := 0
  mouseY := 0
  keys _ := .off
  historyLastIndex := 0
  historyRing _ := ⟨false, 0⟩

def step (i : Input) : Input := { i with keys := fun key => (i.keys key).step }

/-- A key past the end of `keys` panics. -/
def handleIncomingState (key : ℕ) (b : Bool) (i : Input) : Option Input :=
  let index := (i.historyLastIndex + 1) % 2 ^ 64
  let ring := Function.update i.historyRing (index % historySize) ⟨b, key⟩
  if key < numKeys then
    some { i with
      historyLastIndex := index
      historyRing := ring
      keys := Function.update i.keys key ((i.keys key).handleIncomingState b) }
  else none

end Input

/-- `GLOBAL<T>`, around an atomic cell. -/
structure Global (T : Type) where
  cell : T

namespace Global
variable {T : Type}

def load (g : Global T) : T := g.cell
def store (v : T) (_ : Global T) : Global T := ⟨v⟩

/-- A load, a closure that may panic, and a store. -/
def update (func : T → Option T) (g : Global T) : Option (Global T) := do
  let v ← func g.load
  return g.store v

def read (g : Global T) : T := g.load

end Global

/-- The recorded events of a key, reduced to its last one: whether it was a press. -/
def lastTrigger (key : ℕ) (recorded : List InputEvent) : Option Bool :=
  (recorded.filter fun e => e.key = key).getLast?.map InputEvent.trigger

theorem lastTrigger_append (key : ℕ) (recorded : List InputEvent) (e : InputEvent) :
    lastTrigger key (recorded ++ [e]) =
      if e.key = key then some e.trigger else lastTrigger key recorded := by
  unfold lastTrigger
  rw [List.filter_append]
  split <;> simp_all

/-- The input is what these events make it: the index counts them, the ring holds the last of
them, and a key is on when its last event was a press. -/
structure Reflects (recorded : List InputEvent) (i : Input) : Prop where
  index : i.historyLastIndex = recorded.length % 2 ^ 64
  ring : RingWindow.Holds historySize i.historyRing 1 recorded
  keys : ∀ key < numKeys, (i.keys key).IsOn ↔ lastTrigger key recorded = some true

namespace Reflects
variable {recorded : List InputEvent} {i i' : Input} {key : ℕ} {b : Bool}

theorem new : Reflects [] Input.new where
  index := rfl
  ring := RingWindow.holds_nil
  keys _ _ := by simp [Input.new, KeyState.IsOn, KeyState.toU8, lastTrigger]

theorem step (h : Reflects recorded i) : Reflects recorded i.step :=
  ⟨h.index, h.ring, fun key hkey => (KeyState.isOn_step _).trans (h.keys key hkey)⟩

theorem handleIncomingState (h : Reflects recorded i)
    (hi : i.handleIncomingState key b = some i') : Reflects (recorded ++ [⟨b, key⟩]) i' := by
  unfold Input.handleIncomingState at hi
  split at hi
  · cases hi
    have hindex : (i.historyLastIndex + 1) % 2 ^ 64 = (recorded.length + 1) % 2 ^ 64 := by
      rw [h.index, Nat.mod_add_mod]
    refine ⟨by rw [List.length_append]; exact hindex, ?_, fun key' hkey' => ?_⟩
    · simp only [hindex, RingWindow.slot_of_cursor (n := historySize) (m := 2 ^ 64) (by decide),
        Nat.add_comm recorded.length 1]
      exact h.ring.push
    · rw [lastTrigger_append]
      simp only [Function.update_apply]
      obtain rfl | hne := eq_or_ne key' key
      · simpa using KeyState.isOn_handleIncomingState _ b
      · simpa [hne, hne.symm] using h.keys key' hkey'
  · cases hi

/-- A change of the mouse. -/
theorem mouse (h : Reflects recorded i) (x y : UInt64) :
    Reflects recorded { i with mouseX := x, mouseY := y } := ⟨h.index, h.ring, h.keys⟩

end Reflects
end Fomos
