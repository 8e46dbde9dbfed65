import Mathlib
import Fomos.Console.Keys
import Fomos.Input.Pipeline

/-!
# The key codes of the kernel and of the console

The kernel records any 16-bit code, in a key table of 1024, and the console reads what is recorded
as its own enumeration. The two agree on the devices that send no code outside the enumeration.
-/
namespace Fomos

/-- A key event of the device has a code that is one of the console's keys. -/
def VirtioInputEvent.KeyKnown (evt : VirtioInputEvent) : Prop :=
  evt.type_ = 1 → Key.IsDiscriminant evt.code.toNat

lemma VirtioInputEvent.KeyKnown.keyBelow {evt : VirtioInputEvent} (h : evt.KeyKnown) :
    evt.KeyBelow := by
  intro htype
  have := (Key.isDiscriminant_iff _).mp (h htype)
  unfold numKeys
  omega

/-- What a device sends, for any of the devices. -/
def Pipeline.Label.arrival? : Pipeline.Label → Option VirtioInputEvent
  | .arrive _ evt => some evt
  | _ => none

def Pipeline.arrivals (ls : List Pipeline.Label) : List VirtioInputEvent :=
  ls.filterMap Pipeline.Label.arrival?

/-- The kernel has not panicked, and what the apps read are keys of the console. -/
structure Pipeline.KeysAgree (s : Pipeline) : Prop where
  running : s.panicked = false
  reads : ∀ f ∈ s.frames, ∀ read ∈ f.reads, ∀ e ∈ read, Key.IsDiscriminant e.key

namespace Pipeline
variable {s s' : Pipeline} {l : Label} {evts : List VirtioInputEvent}

/-- What is kept as long as the devices send known keys. -/
structure KeysKnown (s : Pipeline) : Prop where
  agree : KeysAgree s
  pending : ∀ device, ∀ evt ∈ s.pending device, evt.KeyKnown
  ring : ∀ i, Key.IsDiscriminant (s.input.cell.historyRing i).key

namespace KeysKnown

lemma boot (numApps : ℕ) : KeysKnown (Pipeline.boot numApps) where
  agree := ⟨rfl, by simp [Pipeline.boot]⟩
  pending _ _ hevt := by simp [Pipeline.boot] at hevt
  ring _ := ⟨.reserved, rfl⟩

/-- An event of a known key is recorded as it is, and nothing else in the ring changes. -/
lemma handleEvent {evt : VirtioInputEvent} {input : Input} (hknown : evt.KeyKnown)
    (hring : ∀ i, Key.IsDiscriminant (input.historyRing i).key) :
    ∃ input', input.handleEvent evt = some input' ∧
      ∀ i, Key.IsDiscriminant (input'.historyRing i).key := by
  unfold Input.handleEvent
  by_cases hkey : evt.type_ = 1
  · have hbelow := hknown.keyBelow hkey
    rw [if_neg (by rw [hkey]; decide), if_pos hkey, Input.handleIncomingState, if_pos hbelow]
    refine ⟨_, rfl, fun i => ?_⟩
    dsimp only
    rw [Function.update_apply]
    split
    · exact hknown hkey
    · exact hring i
  · simp only [hkey, if_false]
    split_ifs
    all_goals exact ⟨_, rfl, hring⟩

lemma drive (h : KeysKnown s) (hevts : ∀ evt ∈ evts, evt.KeyKnown) :
    KeysKnown (Pipeline.drive evts s) := by
  induction evts generalizing s with
  | nil => exact h
  | cons evt evts ih =>
    obtain ⟨input, hinput, hring⟩ := handleEvent (hevts evt (.head _)) h.ring
    have hupdate : s.input.update (Input.handleEvent evt) = some ⟨input⟩ := by
      simp [Global.update, Global.load, Global.store, hinput]
    rw [Pipeline.drive, hupdate]
    apply ih
    · exact ⟨⟨h.agree.running, h.agree.reads⟩, h.pending, hring⟩
    · intro e he
      exact hevts e (.tail _ he)

/-- A frame reads slots of the ring. -/
lemma frame (h : KeysKnown s) : KeysKnown s.frame where
  agree := by
    refine ⟨h.agree.running, fun f hf read hread e he => ?_⟩
    obtain rfl | hf := List.mem_cons.mp hf
    · obtain ⟨c, -, rfl⟩ := List.mem_map.mp hread
      obtain ⟨i, -, rfl⟩ := List.mem_map.mp he
      exact h.ring _
    · exact h.agree.reads f hf read hread e he
  pending := h.pending
  ring := h.ring

lemma step (h : KeysKnown s) (hstep : Pipeline.step l s = some s')
    (hl : ∀ evt ∈ l.arrival?, evt.KeyKnown) : KeysKnown s' := by
  unfold Pipeline.step at hstep
  rw [h.agree.running] at hstep
  cases l with
  | arrive device evt =>
    cases hstep
    refine ⟨⟨rfl, h.agree.reads⟩, fun d e he => ?_, h.ring⟩
    dsimp only at he
    by_cases hd : d = device
    · subst hd
      rw [Function.update_self, List.mem_append, List.mem_singleton] at he
      obtain he | rfl := he
      · exact h.pending d e he
      · exact hl e rfl
    · rw [Function.update_of_ne hd] at he
      exact h.pending d e he
  | driver device =>
    cases hstep
    apply drive _ (h.pending device)
    refine ⟨⟨rfl, h.agree.reads⟩, fun d e he => ?_, h.ring⟩
    dsimp only at he
    by_cases hd : d = device
    · subst hd
      rw [Function.update_self] at he
      cases he
    · rw [Function.update_of_ne hd] at he
      exact h.pending d e he
  | frame =>
    cases hstep
    exact h.frame

lemma run {ls : List Label} (h : KeysKnown s) (hls : ∀ evt ∈ arrivals ls, evt.KeyKnown)
    (hrun : Transition.run Pipeline.step (fun _ _ _ => True) ls s = some s') : KeysKnown s' := by
  induction ls generalizing s with
  | nil =>
    cases hrun
    exact h
  | cons l ls ih =>
    obtain ⟨t, ht, hrest⟩ := Option.bind_eq_some_iff.mp hrun
    rw [if_pos trivial] at hrest
    have harrivals : arrivals (l :: ls) = l.arrival?.toList ++ arrivals ls := by
      unfold arrivals
      rw [List.filterMap_cons]
      cases l.arrival? <;> rfl
    rw [harrivals] at hls
    refine ih (h.step ht fun evt hevt => ?_) (fun evt hevt => ?_) hrest
    · exact hls evt (List.mem_append_left _ (Option.mem_toList.mpr hevt))
    · exact hls evt (List.mem_append_right _ hevt)

end KeysKnown

lemma arrivals_append (ls ls' : List Label) :
    arrivals (ls ++ ls') = arrivals ls ++ arrivals ls' := List.filterMap_append

/-- An event that arrives at an idle driver and is polled. -/
lemma run_arrive_driver (evt : VirtioInputEvent) (hrun : s.panicked = false)
    (hpending : s.pending 0 = []) :
    Transition.run step (fun _ _ _ => True) [.arrive 0 evt, .driver 0] s =
      some (drive [evt] s) := by
  have hself : Function.update s.pending 0 [] = s.pending := by
    rw [← hpending]
    exact Function.update_eq_self 0 s.pending
  have harrive : step (.arrive 0 evt) s =
      some { s with pending := Function.update s.pending 0 [evt] } := by
    simp [step, hrun, hpending]
  have hdriver : step (.driver 0) { s with pending := Function.update s.pending 0 [evt] } =
      some (drive [evt] s) := by
    rw [step, if_neg (by simp [hrun])]
    simp only [Function.update_self, Function.update_idem, hself]
  simp [Transition.run, harrive, hdriver]

/-- A poll that does not panic leaves the frames and what is pending. -/
lemma drive_singleton {evt : VirtioInputEvent} {input : Input}
    (hinput : s.input.load.handleEvent evt = some input) :
    drive [evt] s =
      { s with input := ⟨input⟩, recorded := s.recorded ++ evt.keyEvent.toList } := by
  simp [drive, Global.update, Global.store, hinput]

/-- Known keys can be delivered one at a time. -/
lemma deliver (hevts : ∀ evt ∈ evts, evt.KeyKnown) :
    ∃ ls s, arrivals ls = evts ∧
      Transition.run step (fun _ _ _ => True) ls (boot 1) = some s ∧
      Consistent 1 s ∧ s.pending 0 = [] := by
  induction evts using List.reverseRecOn with
  | nil => exact ⟨[], boot 1, rfl, rfl, .boot 1, rfl⟩
  | append_singleton evts evt ih =>
    have hprefix : ∀ e ∈ evts, e.KeyKnown := by
      intro e he
      exact hevts e (List.mem_append_left _ he)
    obtain ⟨ls, s, hls, hrun, hs, hpending⟩ := ih hprefix
    have hbelow : evt.KeyBelow :=
      (hevts evt (List.mem_append_right _ (.head _))).keyBelow
    obtain ⟨input, hinput, -⟩ := Consistent.handleEvent hs.reflects hbelow
    refine ⟨ls ++ [.arrive 0 evt, .driver 0], drive [evt] s, ?_, ?_, ?_, ?_⟩
    · rw [arrivals_append, hls]
      rfl
    · rw [Transition.run_append, hrun]
      exact run_arrive_driver evt hs.running hpending
    · apply hs.drive
      intro e he
      rwa [List.mem_singleton.mp he]
    · rw [drive_singleton hinput]
      exact hpending

/-- An unknown key panics the kernel or is read by an app. -/
lemma unknown_disagrees {evt : VirtioInputEvent} (hs : Consistent 1 s) (hpending : s.pending 0 = [])
    (hunknown : ¬evt.KeyKnown) :
    ∃ ls s', arrivals ls = [evt] ∧
      Transition.run step (fun _ _ _ => True) ls s = some s' ∧ ¬KeysAgree s' := by
  obtain ⟨htype, hcode⟩ := Classical.not_imp.mp hunknown
  have hframe : step .frame s = some s.frame := by simp [step, hs.running]
  by_cases hbelow : evt.code.toNat < numKeys
  · -- the app has read what came before, so that its next frame reads just this event
    obtain ⟨input, hinput, -⟩ := Consistent.handleEvent hs.frame.reflects fun _ => hbelow
    have hdriven : Consistent 1 (drive [evt] s.frame) := by
      apply hs.frame.drive
      intro e he _
      rwa [List.mem_singleton.mp he]
    refine ⟨[.frame] ++ ([.arrive 0 evt, .driver 0] ++ [.frame]), (drive [evt] s.frame).frame,
      rfl, ?_, ?_⟩
    · have hlast : step .frame (drive [evt] s.frame) = some (drive [evt] s.frame).frame := by
        simp [step, hdriven.running]
      rw [Transition.run_append, Transition.run, hframe]
      change ((Transition.run step (fun _ _ _ => True) ([.arrive 0 evt, .driver 0] ++ [.frame]))
        s.frame) = _
      rw [Transition.run_append, run_arrive_driver evt hs.frame.running hpending]
      simp [Transition.run, hlast]
    · intro hagree
      have hfinal := hdriven.frame
      rw [drive_singleton hinput] at hfinal hagree
      have hexact := hfinal.exact
      have hreads := (hfinal.snapshots _ (.head _)).2
      have hkeys := hagree.reads _ (.head _)
      obtain ⟨new, hnew, hnoWrap⟩ := hexact.rel
      have hevent : new = [⟨evt.value ≠ 0, evt.code.toNat⟩] := by
        have hcancel := List.append_cancel_left hnew
        rw [← hcancel, VirtioInputEvent.keyEvent, if_pos htype]
        rfl
      obtain ⟨read, hread⟩ := List.length_eq_one_iff.mp hreads
      rw [hread] at hnoWrap hkeys
      have hlt : s.input.cell.historyLastIndex < 2 ^ 64 := by
        rw [hs.reflects.index]
        exact Nat.mod_lt _ (by decide)
      have hnew : read = new := by
        apply (hnoWrap (by simp [hevent, historySize]) read (.head _)).mpr
        rw [hevent]
        change NoWrap s.input.cell.historyLastIndex 1
        unfold NoWrap
        omega
      apply hcode
      apply hkeys read (.head _) ⟨evt.value ≠ 0, evt.code.toNat⟩
      rw [hnew, hevent]
      exact .head _
  · refine ⟨[.arrive 0 evt, .driver 0], drive [evt] s, rfl,
      run_arrive_driver evt hs.running hpending, ?_⟩
    intro hagree
    have hpanic : s.input.load.handleEvent evt = none := by
      rw [Input.handleEvent, if_neg (by rw [htype]; decide), if_pos htype,
        Input.handleIncomingState, if_neg hbelow]
    have := hagree.running
    simp [drive, Global.update, hpanic] at this

/-- For each stream of device events: whatever the polls and the frames, the kernel does not panic
and the apps read keys of the console, exactly when the key events of the stream are of such
keys. -/
theorem key_codes_agree_iff (evts : List VirtioInputEvent) :
    (∀ numApps ls s, arrivals ls <+: evts →
      Transition.run step (fun _ _ _ => True) ls (boot numApps) = some s → KeysAgree s) ↔
      ∀ evt ∈ evts, evt.KeyKnown := by
  constructor
  · intro h
    induction evts using List.reverseRecOn with
    | nil => simp
    | append_singleton evts evt ih =>
      have hknown : ∀ e ∈ evts, e.KeyKnown := by
        apply ih
        intro numApps ls s hls
        exact h numApps ls s (hls.trans (List.prefix_append _ _))
      intro e he
      obtain he | he := List.mem_append.mp he
      · exact hknown e he
      · rw [List.mem_singleton.mp he]
        by_contra hunknown
        obtain ⟨ls, s, hls, hrun, hs, hpending⟩ := deliver hknown
        obtain ⟨ls', s', hls', hrun', hdisagree⟩ := unknown_disagrees hs hpending hunknown
        apply hdisagree
        apply h 1 (ls ++ ls') s'
        · rw [arrivals_append, hls, hls']
        · rw [Transition.run_append, hrun]
          exact hrun'
  · intro hknown numApps ls s hls hrun
    refine (KeysKnown.run (.boot numApps) ?_ hrun).agree
    intro e he
    exact hknown e (hls.subset he)

/-- The extra button of a mouse, `BTN_EXTRA`, is recorded and read as no key of the console. -/
theorem extra_button_is_no_key : ¬∀ (evts : List VirtioInputEvent) (numApps : ℕ) (ls : List Label)
    (s : Pipeline), arrivals ls <+: evts →
      Transition.run step (fun _ _ _ => True) ls (boot numApps) = some s → KeysAgree s := by
  intro h
  have hunknown : ¬VirtioInputEvent.KeyKnown ⟨1, 0x114, 1⟩ := by
    intro hknown
    have := (Key.isDiscriminant_iff _).mp (hknown rfl)
    revert this
    decide
  obtain ⟨ls, s, hls, hrun, hdisagree⟩ := unknown_disagrees (.boot 1) rfl hunknown
  exact hdisagree (h [⟨1, 0x114, 1⟩] 1 ls s (by rw [hls]) hrun)

end Pipeline
end Fomos
