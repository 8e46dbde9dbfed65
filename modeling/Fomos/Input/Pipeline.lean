import Mathlib
import Fomos.Input.Global
import Fomos.Library.Transition

/-!
# From the input devices to the apps

The drivers' polls and the frames of the app loop are atomic and come in any order. A frame takes a
snapshot of the input, which each app reads from where it stopped at its frame before, and then
steps the keys. What is recorded, and the frames, are kept as a history that no step reads.
-/
namespace Fomos

structure VirtioInputEvent where
  type_ : UInt16
  code : UInt16
  value : UInt32
  deriving DecidableEq, Repr

/-- A device that sends key codes below 1024. -/
def VirtioInputEvent.KeyBelow (evt : VirtioInputEvent) : Prop :=
  evt.type_ = 1 → evt.code.toNat < numKeys

instance (evt : VirtioInputEvent) : Decidable evt.KeyBelow := by
  unfold VirtioInputEvent.KeyBelow
  infer_instance

/-- The key event that is recorded for an event of the device. -/
def VirtioInputEvent.keyEvent (evt : VirtioInputEvent) : Option InputEvent :=
  if evt.type_ = 1 then some ⟨evt.value ≠ 0, evt.code.toNat⟩ else none

/-- `(m as i32 + d).max(0) as usize` -/
def moveMouse (m : UInt64) (d : Int32) : UInt64 :=
  let moved := m.toUInt32.toInt32 + d
  if moved < 0 then 0 else UInt64.ofNat moved.toInt.toNat

/-- What `drive` does to the input for an event. -/
def Input.handleEvent (evt : VirtioInputEvent) (input : Input) : Option Input :=
  if evt.type_ = 0 then some input
  else if evt.type_ = 1 then input.handleIncomingState evt.code.toNat (evt.value ≠ 0)
  else if evt.type_ = 2 then
    let d := evt.value.toInt32
    if evt.code = 0 then some { input with mouseX := moveMouse input.mouseX d }
    else if evt.code = 1 then some { input with mouseY := moveMouse input.mouseY d }
    else some input
  else some input

/-- A frame: its snapshot, what had been recorded, and what each app read. -/
structure Frame where
  input : Input
  recorded : List InputEvent
  reads : List (List InputEvent)

/-- The apps are kept as the `input_history_last_index` of each, which its first call sets. -/
structure Pipeline where
  input : Global Input
  pending : ℕ → List VirtioInputEvent
  apps : List (Option ℕ)
  panicked : Bool
  recorded : List InputEvent
  frames : List Frame

/-- The events at the positions `(c + 1)..=history_last_index` of the ring. -/
def readHistory (c : ℕ) (input : Input) : List InputEvent :=
  let start := (c + 1) % 2 ^ 64
  (List.range' start (input.historyLastIndex + 1 - start)).map fun i =>
    input.historyRing (i % historySize)

namespace Pipeline

/-- The poll of a driver: each used event updates `INPUT`. -/
def drive : List VirtioInputEvent → Pipeline → Pipeline
  | [], s => s
  | evt :: evts, s =>
    match s.input.update (Input.handleEvent evt) with
    | none => { s with panicked := true }
    | some input =>
      drive evts { s with input := input, recorded := s.recorded ++ evt.keyEvent.toList }

/-- One round of the app loop. -/
def frame (s : Pipeline) : Pipeline :=
  let input := s.input.read
  let reads := s.apps.map fun c => readHistory (c.getD input.historyLastIndex) input
  match s.input.update fun e => some e.step with
  | none => { s with panicked := true }
  | some stepped => { s with
      input := stepped
      apps := s.apps.map fun _ => some input.historyLastIndex
      frames := ⟨input, s.recorded, reads⟩ :: s.frames }

/-- A device makes an event available, a driver is polled, or the app loop is. -/
inductive Label
  | arrive (device : ℕ) (evt : VirtioInputEvent)
  | driver (device : ℕ)
  | frame

def step (l : Label) (s : Pipeline) : Option Pipeline :=
  if s.panicked then none
  else
    match l with
    | .arrive device evt =>
      some { s with pending := Function.update s.pending device (s.pending device ++ [evt]) }
    | .driver device =>
      some (drive (s.pending device) { s with pending := Function.update s.pending device [] })
    | .frame => some s.frame

def boot (numApps : ℕ) : Pipeline where
  input := ⟨.new⟩
  pending _ := []
  apps := List.replicate numApps none
  panicked := false
  recorded := []
  frames := []

/-- The devices of the run send key codes below 1024. -/
def KeysBelow : Label → Prop
  | .arrive _ evt => evt.KeyBelow
  | _ => True

instance (l : Label) : Decidable (KeysBelow l) := by
  unfold KeysBelow
  split <;> infer_instance

end Pipeline

/-- The index does not reach the end of its range between two frames, the first of which saw `c`
and the second `new` more events, other than by starting there. -/
def NoWrap (c new : ℕ) : Prop :=
  (c + 1 < 2 ^ 64 ∧ c + new < 2 ^ 64) ∨ (c + 1 = 2 ^ 64 ∧ 0 < new)

instance (c new : ℕ) : Decidable (NoWrap c new) := by
  unfold NoWrap
  infer_instance

/-- An app that reads at most 64 new events reads exactly these, as long as the index does not
wrap. -/
theorem readHistory_eq_iff {old new : List InputEvent} {input : Input}
    (h : Reflects (old ++ new) input) (hnew : new.length ≤ historySize) :
    readHistory (old.length % 2 ^ 64) input = new ↔ NoWrap (old.length % 2 ^ 64) new.length := by
  have hindex := h.index
  rw [List.length_append] at hindex
  have hcount : ∀ {c}, c = old.length % 2 ^ 64 →
      (input.historyLastIndex + 1 - (c + 1) % 2 ^ 64 = new.length ↔ NoWrap c new.length) := by
    intro c hc
    unfold historySize at hnew
    unfold NoWrap
    omega
  rw [← hcount rfl]
  constructor
  · intro heq
    have hlen := congrArg List.length heq
    rwa [readHistory, List.length_map, List.length_range'] at hlen
  · intro hlen
    have hread := h.ring.drop.read hnew
    rw [readHistory, hlen, List.range'_eq_map_range, List.map_map]
    refine Eq.trans (List.map_congr_left fun i _ => ?_) hread
    have hslot : ((old.length % 2 ^ 64 + 1) % 2 ^ 64 + i) % 64 = (1 + old.length + i) % 64 := by
      omega
    exact congrArg input.historyRing hslot

/-- Two frames after one another: each app reads what was recorded between them, if that is at
most 64 events, exactly when the index did not wrap. -/
def FrameExact (f f₀ : Frame) : Prop :=
  ∃ new, f.recorded = f₀.recorded ++ new ∧ (new.length ≤ historySize →
    ∀ read ∈ f.reads, read = new ↔ NoWrap f₀.input.historyLastIndex new.length)

namespace Pipeline

/-- The invariant of the pipeline. -/
structure Consistent (numApps : ℕ) (s : Pipeline) : Prop where
  running : s.panicked = false
  keysBelow : ∀ device, ∀ evt ∈ s.pending device, evt.KeyBelow
  reflects : Reflects s.recorded s.input.cell
  snapshots : ∀ f ∈ s.frames, Reflects f.recorded f.input ∧ f.reads.length = numApps
  exact : s.frames.IsChain FrameExact
  since : ∀ f ∈ s.frames.head?, f.recorded <+: s.recorded
  apps : s.apps = List.replicate numApps (s.frames.head?.map fun f => f.input.historyLastIndex)

namespace Consistent
variable {numApps : ℕ} {s s' : Pipeline} {l : Label} {evts : List VirtioInputEvent}

theorem boot (numApps : ℕ) : Consistent numApps (Pipeline.boot numApps) where
  running := rfl
  keysBelow _ _ hevt := by simp [Pipeline.boot] at hevt
  reflects := .new
  snapshots _ hf := by simp [Pipeline.boot] at hf
  exact := .nil
  since _ hf := by simp [Pipeline.boot] at hf
  apps := rfl

/-- No event of a device with key codes below 1024 panics, and the input goes on to reflect what
is recorded. -/
theorem handleEvent {evt : VirtioInputEvent} {recorded : List InputEvent} {input : Input}
    (h : Reflects recorded input) (hkey : evt.KeyBelow) :
    ∃ input', input.handleEvent evt = some input' ∧
      Reflects (recorded ++ evt.keyEvent.toList) input' := by
  unfold Input.handleEvent VirtioInputEvent.keyEvent
  by_cases hkeyEvent : evt.type_ = 1
  · have hlt := hkey hkeyEvent
    have hsome : ∃ input', input.handleIncomingState evt.code.toNat (evt.value ≠ 0) =
        some input' := by
      simp [Input.handleIncomingState, hlt]
    obtain ⟨input', hinput⟩ := hsome
    refine ⟨input', ?_, ?_⟩
    · simpa [hkeyEvent] using hinput
    · simpa [hkeyEvent] using h.handleIncomingState hinput
  · simp only [hkeyEvent, if_false, Option.toList_none, List.append_nil]
    split
    · exact ⟨_, rfl, h⟩
    · split
      · split
        · exact ⟨_, rfl, h.mouse _ _⟩
        · split
          · exact ⟨_, rfl, h.mouse _ _⟩
          · exact ⟨_, rfl, h⟩
      · exact ⟨_, rfl, h⟩

/-- The poll of a driver. -/
theorem drive (h : Consistent numApps s) (hevts : ∀ evt ∈ evts, evt.KeyBelow) :
    Consistent numApps (Pipeline.drive evts s) := by
  induction evts generalizing s with
  | nil => exact h
  | cons evt evts ih =>
    obtain ⟨input, hinput, hreflects⟩ := handleEvent h.reflects (hevts evt (.head _))
    have hupdate : s.input.update (Input.handleEvent evt) = some ⟨input⟩ := by
      simp [Global.update, Global.load, Global.store, hinput]
    rw [Pipeline.drive, hupdate]
    refine ih ⟨h.running, h.keysBelow, hreflects, h.snapshots, h.exact, fun f hf => ?_, h.apps⟩
      fun e he => hevts e (.tail _ he)
    exact (h.since f hf).trans (List.prefix_append _ _)

/-- A frame. -/
theorem frame (h : Consistent numApps s) : Consistent numApps s.frame where
  running := h.running
  keysBelow := h.keysBelow
  reflects := h.reflects.step
  snapshots f hf := by
    obtain rfl | hf := List.mem_cons.mp hf
    · refine ⟨h.reflects, ?_⟩
      simp [h.apps]
    · exact h.snapshots f hf
  exact := by
    change (⟨s.input.cell, s.recorded, _⟩ :: s.frames).IsChain FrameExact
    refine List.isChain_cons.mpr ⟨fun f₀ hf₀ => ?_, h.exact⟩
    obtain ⟨new, hnew⟩ := h.since f₀ hf₀
    have hindex := (h.snapshots f₀ (List.mem_of_mem_head? hf₀)).1.index
    refine ⟨new, hnew.symm, fun hlen read hread => ?_⟩
    obtain ⟨c, hc, rfl⟩ := List.mem_map.mp hread
    rw [h.apps, Option.mem_def.mp hf₀] at hc
    obtain rfl := List.eq_of_mem_replicate hc
    rw [Option.map_some, Option.getD_some, hindex]
    exact readHistory_eq_iff (hnew ▸ h.reflects) hlen
  since f hf := by
    cases hf
    exact List.prefix_rfl
  apps := by
    change (s.apps.map fun _ => some s.input.cell.historyLastIndex) =
      List.replicate numApps (some s.input.cell.historyLastIndex)
    rw [h.apps, List.map_replicate]

theorem step (h : Consistent numApps s) (hstep : Pipeline.step l s = some s')
    (hkeys : KeysBelow l) : Consistent numApps s' := by
  unfold Pipeline.step at hstep
  rw [h.running] at hstep
  cases l with
  | arrive device evt =>
    cases hstep
    refine ⟨rfl, fun d e he => ?_, h.reflects, h.snapshots, h.exact, h.since, h.apps⟩
    obtain rfl | hne := eq_or_ne d device
    · simp only [Function.update_self, List.mem_append, List.mem_singleton] at he
      obtain he | rfl := he
      · exact h.keysBelow d e he
      · exact hkeys
    · simp only [Function.update_of_ne hne] at he
      exact h.keysBelow d e he
  | driver device =>
    cases hstep
    refine drive ⟨rfl, fun d e he => ?_, h.reflects, h.snapshots, h.exact, h.since, h.apps⟩
      (h.keysBelow device)
    obtain rfl | hne := eq_or_ne d device
    · simp at he
    · simp only [Function.update_of_ne hne] at he
      exact h.keysBelow d e he
  | frame =>
    cases hstep
    exact h.frame

end Consistent
/-- On devices that send key codes below 1024, each app reads at each frame the at most 64 events
recorded since the frame before, as long as the index does not wrap, and each snapshot has a key on
exactly when its last recorded event was a press. -/
theorem input_exact {numApps : ℕ} {s : Pipeline}
    (h : Transition.Reach step (fun _ l _ => KeysBelow l) (boot numApps) s) :
    s.panicked = false ∧ s.frames.IsChain FrameExact ∧
      ∀ f ∈ s.frames, f.reads.length = numApps ∧
        ∀ key < numKeys, (f.input.keys key).IsOn ↔ lastTrigger key f.recorded = some true := by
  have hs : Consistent numApps s :=
    h.invariant (.boot numApps) fun _ _ _ _ hs hstep hkeys => hs.step hstep hkeys
  exact ⟨hs.running, hs.exact, fun f hf =>
    ⟨(hs.snapshots f hf).2, (hs.snapshots f hf).1.keys⟩⟩

/-- Two frames of two apps, with the key 30 pressed on one device and released on another between
them. -/
def twoFrames : List Label :=
  [.frame, .arrive 0 ⟨1, 30, 1⟩, .driver 0, .arrive 1 ⟨1, 30, 0⟩, .driver 1, .frame]

theorem input_exact_twoFrames :
    let s := (Transition.run step (fun _ l _ => KeysBelow l) twoFrames (boot 2)).get (by decide)
    s.panicked = false ∧ s.frames.IsChain FrameExact ∧
      ∀ f ∈ s.frames, f.reads.length = 2 ∧
        ∀ key < numKeys, (f.input.keys key).IsOn ↔ lastTrigger key f.recorded = some true :=
  input_exact (Transition.Reach.run_get _ _)

section Wrap
variable {numApps : ℕ} {s : Pipeline}

/-- Any number of key events may be recorded between two frames. -/
theorem presses (h : Transition.Reach step (fun _ l _ => KeysBelow l) (boot numApps) s)
    (hrun : s.panicked = false) (hpending : s.pending 0 = []) (n : ℕ) :
    ∃ s', Transition.Reach step (fun _ l _ => KeysBelow l) (boot numApps) s' ∧
      s'.panicked = false ∧ s'.pending 0 = [] ∧ s'.frames = s.frames ∧
      ∃ new, s'.recorded = s.recorded ++ new ∧ new.length = n := by
  induction n with
  | zero => exact ⟨s, h, hrun, hpending, rfl, [], by simp, rfl⟩
  | succ n ih =>
    obtain ⟨s', h', hrun', hpending', hframes, new, hnew, hlen⟩ := ih
    let press : VirtioInputEvent := ⟨1, 0, 1⟩
    have hkey : press.KeyBelow := by decide
    let arrived := { s' with pending := Function.update s'.pending 0 [press] }
    have harrive : step (.arrive 0 press) s' = some arrived := by
      simp [step, hrun', hpending', arrived]
    have hevent : ∃ input, s'.input.load.handleEvent press = some input := by
      simp [Input.handleEvent, Input.handleIncomingState, numKeys, press]
    obtain ⟨input, hinput⟩ := hevent
    have hdriver : step (.driver 0) arrived = some { s' with
        input := ⟨input⟩
        pending := Function.update arrived.pending 0 []
        recorded := s'.recorded ++ [⟨true, 0⟩] } := by
      simp [step, drive, arrived, hrun', Global.update, Global.store, hinput,
        VirtioInputEvent.keyEvent, press]
    refine ⟨_, (h'.next harrive hkey).next hdriver trivial, hrun', by simp, hframes,
      new ++ [⟨true, 0⟩], ?_, ?_⟩
    · rw [hnew, List.append_assoc]
    · rw [List.length_append, hlen, List.length_singleton]

/-- After 2 ^ 64 - 2 events the index wraps within the next two, and an app misses them. -/
theorem wrapped_index_loses_events : ¬∀ numApps s,
    Transition.Reach step (fun _ l _ => KeysBelow l) (boot numApps) s →
      s.frames.IsChain fun f f₀ => ∃ new, f.recorded = f₀.recorded ++ new ∧
        (new.length ≤ historySize → ∀ read ∈ f.reads, read = new) := by
  intro hclaim
  have hframe : ∀ {s : Pipeline}, s.panicked = false → step .frame s = some s.frame := by
    intro s hrun
    simp [step, hrun]
  obtain ⟨s₁, h₁, hrun₁, hpending₁, hframes₁, old, hold, hlen₁⟩ :=
    @presses 1 _ .start rfl rfl (2 ^ 64 - 2)
  have h₂ := h₁.next (hframe hrun₁) trivial
  obtain ⟨s₃, h₃, hrun₃, -, hframes₃, new, hnew, hlen₃⟩ := presses h₂ hrun₁ hpending₁ 2
  have h₄ := h₃.next (hframe hrun₃) trivial
  have hs : Consistent 1 s₃.frame :=
    h₄.invariant (.boot 1) fun _ _ _ _ hs hstep hkeys => hs.step hstep hkeys
  have hframes : s₃.frame.frames =
      ⟨s₃.input.cell, s₃.recorded, _⟩ :: ⟨s₁.input.cell, s₁.recorded, _⟩ :: s₁.frames :=
    congrArg (List.cons _) hframes₃
  have hexact := hs.exact
  have hreads := hs.snapshots
  have hwrong := hclaim 1 _ h₄
  rw [hframes] at hexact hreads hwrong
  obtain ⟨new₁, hnew₁, hexact⟩ := hexact.rel
  obtain ⟨new₂, hnew₂, hwrong⟩ := hwrong.rel
  obtain rfl : new₁ = new := List.append_cancel_left (hnew₁.symm.trans hnew)
  obtain rfl : new₂ = new₁ := List.append_cancel_left (hnew₂.symm.trans hnew)
  obtain ⟨read, hread⟩ := List.length_eq_one_iff.mp (hreads _ (.head _)).2
  have hmem : read ∈ [read] := .head _
  rw [← hread] at hmem
  have hlen : new₂.length ≤ historySize := hlen₃.trans_le (by decide)
  have hwrap := (hexact hlen read hmem).mp (hwrong hlen read hmem)
  have hindex := (hreads _ (.tail _ (.head _))).1.index
  have hlen₁ : s₁.recorded.length = 2 ^ 64 - 2 := by
    rw [hold, List.length_append, hlen₁]
    exact Nat.zero_add _
  simp only [hlen₁] at hindex
  simp only [NoWrap, hindex, hlen₃] at hwrap
  omega

end Wrap
end Pipeline
end Fomos
