import Mathlib
import Fomos.Input.VirtioInput

/-!
# From the buffers of the devices to the apps

All input devices with their drivers, call by call, and the app loop, around the one `INPUT`. A
driver is polled until it suspends itself, and the app loop runs in between, while the devices go
on at any time. Seen from `INPUT`, this is the pipeline in which every poll is one step.
-/
namespace Fomos
namespace VirtioInput

/-- The event of an entry of the log that has updated `INPUT`. -/
def Entry.update : Entry → Option VirtioInputEvent
  | .event _ _ evt => some evt
  | _ => none

/-- The events that a driver has passed to `INPUT`. -/
def Driver.updates (s : Driver) : List VirtioInputEvent := s.log.filterMap Entry.update

end VirtioInput
open VirtioInput

/-- `polled` is the driver whose poll has not returned. `consumed` is a history of what has updated
`INPUT`, with the devices that it came from. -/
structure InputSystem where
  drivers : ℕ → Driver
  polled : Option ℕ
  input : Global Input
  apps : List (Option ℕ)
  frames : List Frame
  consumed : List (ℕ × VirtioInputEvent)

namespace InputSystem

/-- The key events among what has updated `INPUT`. -/
def recorded (s : InputSystem) : List InputEvent := s.consumed.filterMap fun e => e.2.keyEvent

/-- What came from one device. -/
def consumedFrom (s : InputSystem) (g : ℕ) : List VirtioInputEvent :=
  (s.consumed.filter fun e => e.1 = g).map Prod.snd

/-- The next call of a driver, on the `INPUT` that all of them share. -/
def call (g : ℕ) (s : InputSystem) : Option InputSystem :=
  (Driver.drive { s.drivers g with input := s.input }).map fun d =>
    { s with
      drivers := Function.update s.drivers g d
      polled := if d.pc = .suspended then none else some g
      input := d.input
      consumed := s.consumed ++ (d.updates.drop (s.drivers g).updates.length).map (Prod.mk g) }

/-- A step of a device. -/
def device (g : ℕ) (l : Driver.Label) (s : InputSystem) : Option InputSystem :=
  (Driver.step l (s.drivers g)).map fun d => { s with drivers := Function.update s.drivers g d }

/-- One round of the app loop. -/
def frame (s : InputSystem) : Option InputSystem := do
  let input := s.input.read
  let reads := s.apps.map fun c => readHistory (c.getD input.historyLastIndex) input
  let stepped ← s.input.update fun e => some e.step
  return { s with
    input := stepped
    apps := s.apps.map fun _ => some input.historyLastIndex
    frames := ⟨input, s.recorded, reads⟩ :: s.frames }

inductive Label
  | call (g : ℕ)
  | deviceRead (g : ℕ)
  | deviceWrite (g id : ℕ) (evt : VirtioInputEvent)
  | devicePush (g id len : ℕ)
  | frame

def step : Label → InputSystem → Option InputSystem
  | .call g, s => if s.polled = none ∨ s.polled = some g then s.call g else none
  | .deviceRead g, s => s.device g .deviceRead
  | .deviceWrite g id evt, s => s.device g (.deviceWrite id evt)
  | .devicePush g id len, s => s.device g (.devicePush id len)
  | .frame, s => if s.polled = none then s.frame else none

def boot (c : ℕ → Driver.Config) (numApps : ℕ) : InputSystem where
  drivers g := Driver.boot (c g)
  polled := none
  input := ⟨.new⟩
  apps := List.replicate numApps none
  frames := []
  consumed := []

/-- What a device returns has a key code below 1024. -/
def KeysBelow (s : InputSystem) : Label → Prop
  | .devicePush g id _ => ((s.drivers g).memory ((s.drivers g).virtio.descs id).addr).KeyBelow
  | _ => True

instance (s : InputSystem) (l : Label) : Decidable (s.KeysBelow l) := by
  unfold KeysBelow
  split <;> infer_instance

/-- The pipeline, where no event waits for its driver. -/
def pipeline (s : InputSystem) : Pipeline where
  input := s.input
  pending _ := []
  apps := s.apps
  panicked := false
  recorded := s.recorded
  frames := s.frames

end InputSystem

/-! ## What a call does to `INPUT` -/

namespace VirtioInput
variable {c : Driver.Config} {s s' : Driver} {p : Pc} {av : List ℕ}
  {pend served : List (UsedElem × VirtioInputEvent)}

/-- Only one call updates `INPUT`, and only this one panics. -/
inductive Driver.Calls (s s' : Driver) : Prop
  | updates {used addr evt input} (pc : s.pc = .update used addr evt)
      (handled : s.input.update (Input.handleEvent evt) = some input) (input : s'.input = input)
      (updates : s'.updates = s.updates ++ [evt]) (returned : s'.returned = s.returned)
      (next : s'.pc = .setWritable (used.id % 2^16) (.main used evt))
  | panics {used addr evt} (pc : s.pc = .update used addr evt)
      (handled : s.input.update (Input.handleEvent evt) = none)
  | keeps (input : s'.input = s.input) (updates : s'.updates = s.updates)
      (returned : s'.returned = s.returned)
      (next : ∀ used addr evt, s'.pc ≠ .panicked used addr evt)

lemma Driver.calls_of_drive (h : s.drive = some s') : s.Calls s' := by
  unfold Driver.drive at h
  split at h
  case h_1 =>
    split at h <;> cases h <;> exact .keeps rfl rfl rfl (by simp)
  case h_2 =>
    split at h <;> cases h
    · exact .keeps rfl (by simp [updates, Entry.update]) rfl (by simp)
    · exact .keeps rfl rfl rfl (by simp)
  case h_5 pc =>
    split at h
    case h_1 handled =>
      cases h
      exact .updates pc handled rfl (by simp [updates, Entry.update]) rfl rfl
    case h_2 handled => exact .panics pc handled
  case h_7 descId caller _ =>
    cases h
    cases caller <;>
      exact .keeps rfl (by simp [updates, Entry.update]) rfl (by simp [back])
  case h_9 => cases h
  all_goals
    cases h
    exact .keeps rfl rfl rfl (by simp)

/-- The event that has updated `INPUT` while its buffer is not available again. -/
def Pc.applied : Pc → List VirtioInputEvent
  | setWritable _ (.main _ evt) | setAvailable _ (.main _ evt) => [evt]
  | _ => []

lemma updates_serve (addr : ℕ → ℕ) (served : List (UsedElem × VirtioInputEvent)) :
    (served.flatMap (Driver.serve addr)).filterMap Entry.update = served.map Prod.snd := by
  induction served with
  | nil => rfl
  | cons x served ih =>
    rw [List.flatMap_cons, List.filterMap_append, ih]
    rfl

lemma updates_logged (p : Pc) (addr : ℕ → ℕ) :
    (p.logged addr).filterMap Entry.update = p.applied := by
  cases p with
  | setWritable _ caller | setAvailable _ caller => cases caller <;> rfl
  | _ => rfl

lemma prefix_applied (p : Pc) (addr : ℕ → ℕ) (memory : ℕ → VirtioInputEvent) :
    p.applied <+: (p.taken addr memory).map Prod.snd := by
  cases p with
  | setWritable _ caller | setAvailable _ caller => cases caller <;> exact List.prefix_rfl
  | _ => exact List.nil_prefix

namespace Driver

lemma Inv.updates_eq (h : Inv c s p av pend served) :
    s.updates = served.map Prod.snd ++ p.applied := by
  obtain ⟨armed, -, hlog⟩ := h.log
  have harmed : (armed.map Entry.available).filterMap Entry.update = [] := by
    simp [Entry.update]
  rw [updates, hlog, List.filterMap_append, List.filterMap_append, harmed, updates_serve,
    updates_logged, List.nil_append]

/-- What has updated `INPUT` is what the device returned first. -/
lemma Inv.prefix_updates (h : Inv c s p av pend served)
    (hinj : Set.InjOn c.addr {i | i < c.queueSize}) : s.updates <+: s.returned.map Prod.snd := by
  obtain ⟨hret, -⟩ := h.content hinj
  rw [h.updates_eq, hret, List.map_append, List.map_append, List.append_assoc,
    List.prefix_append_right_inj]
  exact (prefix_applied ..).trans (List.prefix_append ..)

/-- A poll ends when the used ring is empty. -/
lemma suspends_of_drive (h : s.drive = some s') (hpc : s'.pc = .suspended) :
    s.pc = .nextUsed ∧ s.virtio.nextUsed = none ∧ s' = { s with pc := .suspended } := by
  unfold drive at h
  split at h
  case h_1 =>
    split at h <;> cases h <;> cases hpc
  case h_2 pc =>
    split at h <;> cases h
    · cases hpc
    · exact ⟨pc, by assumption, rfl⟩
  case h_5 =>
    split at h <;> cases h <;> cases hpc
  case h_7 descId caller _ =>
    cases h
    cases caller <;> cases hpc
  case h_9 => cases h
  all_goals
    cases h
    cases hpc

lemma Inv.updates_of_suspends (hn : QueueSize c.queueSize)
    (hinj : Set.InjOn c.addr {i | i < c.queueSize}) (h : Inv c s s.pc av pend served)
    (hdrive : s.drive = some s') (hpc : s'.pc = .suspended) :
    s'.updates = s'.returned.map Prod.snd := by
  obtain ⟨hnext, hnone, rfl⟩ := suspends_of_drive hdrive hpc
  rw [hnext] at h
  have hupdates := h.updates_eq
  obtain ⟨hret, -⟩ := h.content hinj
  cases pend with
  | nil =>
    simp only [Pc.applied, Pc.taken, List.append_nil] at hupdates hret
    exact hupdates.trans (congrArg _ hret.symm)
  | cons x pend =>
    obtain ⟨r, hr, -⟩ := h.used.nextUsed_cons (h.size ▸ hn)
    rw [Virtio.nextUsed, hr] at hnone
    cases hnone

end Driver
end VirtioInput

namespace InputSystem
variable {c : ℕ → Driver.Config} {numApps : ℕ} {s s' : InputSystem} {l : Label} {g g' : ℕ}

/-- The drivers have their buffers in order, `INPUT` has had what they passed on, and the
pipeline has come to the same state. -/
structure Coupled (c : ℕ → Driver.Config) (numApps : ℕ) (s : InputSystem) : Prop where
  each : ∀ g, ∃ av pend served, Driver.Inv (c g) (s.drivers g) (s.drivers g).pc av pend served
  keysBelow : ∀ g, ∀ x ∈ (s.drivers g).returned, x.2.KeyBelow
  consumed : ∀ g, s.consumedFrom g = (s.drivers g).updates
  unpanicked : ∀ g used addr evt, (s.drivers g).pc ≠ .panicked used addr evt
  refines : Transition.Reach Pipeline.step (fun _ l _ => Pipeline.KeysBelow l)
    (Pipeline.boot numApps) s.pipeline

lemma consumedFrom_append (s : InputSystem) (evts : List VirtioInputEvent) (g g' : ℕ) :
    ((s.consumed ++ evts.map (Prod.mk g)).filter fun e => e.1 = g').map Prod.snd =
      s.consumedFrom g' ++ if g' = g then evts else [] := by
  rw [List.filter_append, List.map_append, consumedFrom]
  congr 1
  by_cases h : g' = g
  · simp [h, List.filter_map, Function.comp_def]
  · simp [h, List.filter_map, Function.comp_def, Ne.symm h]

lemma refines_consistent (h : Coupled c numApps s) : Pipeline.Consistent numApps s.pipeline :=
  h.refines.invariant (.boot numApps) fun _ _ _ _ hs hstep hkeys => hs.step hstep hkeys

namespace Coupled

lemma boot (c : ℕ → Driver.Config) (numApps : ℕ) : Coupled c numApps (boot c numApps) where
  each g := ⟨[], [], [], .boot (c g)⟩
  keysBelow g x hx := by cases hx
  consumed g := rfl
  unpanicked g used addr evt := by simp [InputSystem.boot, Driver.boot]
  refines := .start

/-- An event that updates `INPUT` arrives in the pipeline and is taken at once. -/
lemma arrives {evt : VirtioInputEvent} {input : Global Input} (h : Coupled c numApps s)
    (hkey : evt.KeyBelow) (hinput : s.input.update (Input.handleEvent evt) = some input) (g : ℕ)
    (hs' : s'.pipeline = { s.pipeline with
      input := input, recorded := s.recorded ++ evt.keyEvent.toList }) :
    Transition.Reach Pipeline.step (fun _ l _ => Pipeline.KeysBelow l) (Pipeline.boot numApps)
      s'.pipeline := by
  have harrive : Pipeline.step (.arrive g evt) s.pipeline = some { s.pipeline with
      pending := Function.update s.pipeline.pending g [evt] } := rfl
  refine (h.refines.next harrive hkey).next (a := .driver g) ?_ trivial
  have hpending : Function.update (Function.update s.pipeline.pending g [evt]) g [] =
      s.pipeline.pending := by
    funext g'
    simp [pipeline, Function.update_apply]
  simp only [Pipeline.step, Function.update_self, hpending, hs']
  simp [Pipeline.drive, pipeline, hinput]

/-- A driver moves on, and passes some events to `INPUT`. -/
lemma update {d : Driver} {evts : List VirtioInputEvent} (h : Coupled c numApps s)
    (hinv : ∃ av pend served, Driver.Inv (c g) d d.pc av pend served)
    (hkeys : ∀ x ∈ d.returned, x.2.KeyBelow)
    (hdrivers : s'.drivers = Function.update s.drivers g d)
    (hconsumed : s'.consumed = s.consumed ++ evts.map (Prod.mk g))
    (hupdates : d.updates = (s.drivers g).updates ++ evts)
    (hpc : ∀ used addr evt, d.pc ≠ .panicked used addr evt)
    (hrefines : Transition.Reach Pipeline.step (fun _ l _ => Pipeline.KeysBelow l)
      (Pipeline.boot numApps) s'.pipeline) : Coupled c numApps s' := by
  have hfrom : ∀ g', s'.consumedFrom g' = s.consumedFrom g' ++ if g' = g then evts else [] := by
    intro g'
    rw [← consumedFrom_append, ← hconsumed, consumedFrom]
  refine ⟨?_, ?_, ?_, ?_, hrefines⟩ <;> rw [hdrivers]
  · exact (Function.forall_update_iff s.drivers (p := fun g d => ∃ av pend served,
      Driver.Inv (c g) d d.pc av pend served)).mpr ⟨hinv, fun g' _ => h.each g'⟩
  · exact (Function.forall_update_iff s.drivers (p := fun _ d => ∀ x ∈ d.returned,
      x.2.KeyBelow)).mpr ⟨hkeys, fun g' _ => h.keysBelow g'⟩
  · refine (Function.forall_update_iff s.drivers (p := fun g' d =>
      s'.consumedFrom g' = d.updates)).mpr ⟨?_, fun g' hne => ?_⟩
    · rw [hfrom, h.consumed, if_pos rfl, hupdates]
    · rw [hfrom, h.consumed, if_neg hne, List.append_nil]
  · exact (Function.forall_update_iff s.drivers (p := fun _ d => ∀ used addr evt,
      d.pc ≠ .panicked used addr evt)).mpr ⟨hpc, fun g' _ => h.unpanicked g'⟩

lemma call (hn : ∀ g, QueueSize (c g).queueSize)
    (hinj : ∀ g, Set.InjOn (c g).addr {i | i < (c g).queueSize}) (h : Coupled c numApps s)
    (hstep : s.call g = some s') : Coupled c numApps s' := by
  obtain ⟨d, hdrive, rfl⟩ := Option.map_eq_some_iff.mp hstep
  obtain ⟨av, pend, served, hinv⟩ := h.each g
  have hinv : Driver.Inv (c g) { s.drivers g with input := s.input } (s.drivers g).pc av pend
    served := { hinv with }
  have hd := hinv.drive (hn g) hdrive
  -- What is about to update `INPUT` was returned by the device.
  have hkey : ∀ {used addr evt}, (s.drivers g).pc = .update used addr evt → evt.KeyBelow := by
    intro used addr evt hpc
    obtain ⟨hret, -⟩ := hinv.content (hinj g)
    rw [hpc] at hret
    refine h.keysBelow g (used, evt) ?_
    rw [show (s.drivers g).returned = _ from hret]
    simp [Pc.taken]
  cases Driver.calls_of_drive hdrive with
  | @updates used addr evt input pc handled hinput hupdates hreturned next =>
    have hdrop : d.updates.drop (s.drivers g).updates.length = [evt] := by
      rw [hupdates]
      exact List.drop_left
    refine h.update hd (hreturned ▸ h.keysBelow g) rfl rfl ?_ (by simp [next]) ?_
    · rw [hdrop]
      exact hupdates
    · refine h.arrives (hkey pc) handled g ?_
      simp only [pipeline, hinput, recorded, hdrop, List.filterMap_append, List.map_cons,
        List.map_nil, List.filterMap_cons, List.filterMap_nil]
      cases evt.keyEvent <;> rfl
  | @panics used addr evt pc handled =>
    obtain ⟨input, hinput, -⟩ :=
      Pipeline.Consistent.handleEvent (refines_consistent h).reflects (hkey pc)
    have hsome : s.input.update (Input.handleEvent evt) = some ⟨input⟩ := by
      rw [Global.update, show Input.handleEvent evt s.input.load = some input from hinput]
      rfl
    cases handled.symm.trans hsome
  | keeps hinput hupdates hreturned next =>
    have hdrop : d.updates.drop (s.drivers g).updates.length = [] := by
      rw [hupdates]
      exact List.drop_length
    refine h.update hd (hreturned ▸ h.keysBelow g) rfl rfl ?_ next ?_
    · rw [hdrop, List.append_nil]
      exact hupdates
    · have hsame : InputSystem.pipeline { s with
          drivers := Function.update s.drivers g d
          polled := if d.pc = .suspended then none else some g
          input := d.input
          consumed := s.consumed ++
            (d.updates.drop (s.drivers g).updates.length).map (Prod.mk g) } = s.pipeline := by
        simp [pipeline, recorded, hinput, hdrop]
      rw [hsame]
      exact h.refines

lemma device {a : Driver.Label} (hn : ∀ g, QueueSize (c g).queueSize) (h : Coupled c numApps s)
    (hstep : s.device g a = some s') (hdrive : a ≠ .drive) (hother : ∀ input, a ≠ .otherTask input)
    (hkey : ∀ id len, a = .devicePush id len →
      ((s.drivers g).memory ((s.drivers g).virtio.descs id).addr).KeyBelow) :
    Coupled c numApps s' := by
  obtain ⟨d, hd, rfl⟩ := Option.map_eq_some_iff.mp hstep
  obtain ⟨av, pend, served, hinv⟩ := h.each g
  have hinv := hinv.step (hn g) hd
  -- The driver stays where it is.
  have hstays : d.pc = (s.drivers g).pc ∧ d.log = (s.drivers g).log ∧
      ∀ x ∈ d.returned, x.2.KeyBelow := by
    cases a with
    | drive => exact absurd rfl hdrive
    | otherTask input => exact absurd rfl (hother input)
    | deviceRead =>
      obtain ⟨id, -, rfl⟩ := Option.map_eq_some_iff.mp hd
      exact ⟨rfl, rfl, h.keysBelow g⟩
    | deviceWrite id evt =>
      obtain ⟨-, hd⟩ := Option.ite_none_right_eq_some.mp hd
      cases hd
      exact ⟨rfl, rfl, h.keysBelow g⟩
    | devicePush id len =>
      obtain ⟨-, hd⟩ := Option.ite_none_right_eq_some.mp hd
      cases hd
      refine ⟨rfl, rfl, fun x hx => ?_⟩
      obtain hx | hx := List.mem_append.mp hx
      · exact h.keysBelow g x hx
      · rw [List.mem_singleton.mp hx]
        exact hkey id len rfl
  obtain ⟨hpc, hlog, hkeys⟩ := hstays
  have hconsumed : s.consumed = s.consumed ++ ([] : List VirtioInputEvent).map (Prod.mk g) :=
    (List.append_nil s.consumed).symm
  refine h.update hinv hkeys rfl hconsumed ?_ ?_ h.refines
  · rw [List.append_nil, Driver.updates, hlog, Driver.updates]
  · rw [hpc]
    exact h.unpanicked g

lemma step (hn : ∀ g, QueueSize (c g).queueSize)
    (hinj : ∀ g, Set.InjOn (c g).addr {i | i < (c g).queueSize}) (h : Coupled c numApps s)
    (hstep : step l s = some s') (hkeys : s.KeysBelow l) : Coupled c numApps s' := by
  cases l with
  | call g =>
    obtain ⟨-, hcall⟩ := Option.ite_none_right_eq_some.mp hstep
    exact h.call hn hinj hcall
  | deviceRead g => exact h.device hn hstep (by simp) (by simp) (by simp)
  | deviceWrite g id evt => exact h.device hn hstep (by simp) (by simp) (by simp)
  | devicePush g id len =>
    refine h.device hn hstep (by simp) (by simp) ?_
    rintro id' len' ⟨⟩
    exact hkeys
  | frame =>
    obtain ⟨-, hframe⟩ := Option.ite_none_right_eq_some.mp hstep
    cases hframe
    exact ⟨h.each, h.keysBelow, h.consumed, h.unpanicked, h.refines.next (a := .frame) rfl trivial⟩

end Coupled

/-- What the system of the input devices guarantees. -/
structure Delivers (numApps : ℕ) (s : InputSystem) : Prop where
  /-- The pipeline, in which each event is one step, comes to the same `INPUT` and frames. -/
  refines : Transition.Reach Pipeline.step (fun _ l _ => Pipeline.KeysBelow l)
    (Pipeline.boot numApps) s.pipeline
  /-- What has updated `INPUT` is, for each device, what it returned first. -/
  order : ∀ g, s.consumedFrom g <+: (s.drivers g).returned.map Prod.snd
  /-- A poll returns when `INPUT` has had everything. -/
  complete : ∀ g s', s.call g = some s' → s'.polled = none →
    s'.consumedFrom g = (s'.drivers g).returned.map Prod.snd
  unpanicked : ∀ g used addr evt, (s.drivers g).pc ≠ .panicked used addr evt
  /-- Each app reads at each frame the at most 64 key events since the frame before. -/
  frames : s.frames.IsChain FrameExact ∧ ∀ f ∈ s.frames, f.recorded <+: s.recorded

lemma prefix_recorded {frames : List Frame} {recorded : List InputEvent}
    (hchain : frames.IsChain FrameExact)
    (hhead : ∀ f ∈ frames.head?, f.recorded <+: recorded) :
    ∀ f ∈ frames, f.recorded <+: recorded := by
  induction frames generalizing recorded with
  | nil => simp
  | cons f frames ih =>
    have hf := hhead f rfl
    obtain ⟨hfirst, hrest⟩ := List.isChain_cons.mp hchain
    refine List.forall_mem_cons.mpr ⟨hf, ih hrest fun f₀ hf₀ => ?_⟩
    obtain ⟨new, hnew, -⟩ := hfirst f₀ hf₀
    exact (hnew ▸ List.prefix_append _ new).trans hf

/-- A key is pressed and released on the second of two devices, between two frames. -/
def pressAndRelease : List Label :=
  List.replicate 8 (.call 1) ++
    [.deviceRead 1, .deviceRead 1, .deviceWrite 1 0 ⟨1, 30, 1⟩, .devicePush 1 0 8, .frame,
      .deviceWrite 1 1 ⟨1, 30, 0⟩, .devicePush 1 1 8] ++
    List.replicate 14 (.call 1) ++ [.frame]

end InputSystem
end Fomos
