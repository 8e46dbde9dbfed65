import Mathlib
import Fomos.Input.Global

/-!
# What a key state says about its frame

`KeyState` documents the states of a key by the level of the key at the last step, its level now,
and what came between. Its transitions keep to that as long as a frame toggles the key at most
twice, with no repeated event after the first toggle.
-/
namespace Fomos

/-- What the input is told between boot and now: events of keys, and the ends of frames. -/
inductive KeyLabel
  | event (key : Fin numKeys) (b : Bool)
  | step
  deriving DecidableEq, Repr

def Input.apply (i : Input) : KeyLabel → Option Input
  | .event key b => i.handleIncomingState key b
  | .step => some i.step

def Input.run (i : Input) (ls : List KeyLabel) : Option Input := ls.foldlM Input.apply i

/-- The level of a key at the last step, and its events since. -/
structure SinceStep where
  last : Bool
  events : List Bool

namespace SinceStep

/-- The level now. -/
def now (h : SinceStep) : Bool := h.events.getLast?.getD h.last

/-- The state that `KeyState` documents. -/
def documented (h : SinceStep) : KeyState :=
  match h.last, h.now with
  | false, true => .onFromOff
  | true, false => .offFromOn
  | false, false => if true ∈ h.events then .offTransientOn else .off
  | true, true => if false ∈ h.events then .onTransientOff else .on

/-- After the events that repeat the level of the last step, at most a toggle and a toggle back. -/
def TogglesOnce (h : SinceStep) : Prop :=
  h.events.dropWhile (· == h.last) <+: [!h.last, h.last]

instance (h : SinceStep) : Decidable h.TogglesOnce := by
  unfold TogglesOnce
  infer_instance

def apply (key : Fin numKeys) (h : SinceStep) : KeyLabel → SinceStep
  | .event key' b => if key' = key then ⟨h.last, h.events ++ [b]⟩ else h
  | .step => ⟨h.now, []⟩

/-- The key is up at boot. -/
def run (key : Fin numKeys) (ls : List KeyLabel) : SinceStep := ls.foldl (apply key) ⟨false, []⟩

end SinceStep

/-- The state of one key. -/
def KeyState.apply (key : Fin numKeys) (k : KeyState) : KeyLabel → KeyState
  | .event key' b => if key' = key then k.handleIncomingState b else k
  | .step => k.step

/-- Events before the first toggle change neither side. -/
lemma SinceStep.drop_repeats {last : Bool} {events : List Bool} (b : List Bool) :
    let h : SinceStep := ⟨last, events ++ b⟩
    let h' : SinceStep := ⟨last, events.dropWhile (· == last) ++ b⟩
    h.documented = h'.documented ∧ (h.TogglesOnce ↔ h'.TogglesOnce) := by
  induction events with
  | nil => exact ⟨rfl, Iff.rfl⟩
  | cons e events ih =>
    by_cases he : e = last
    · subst he
      obtain ⟨hdoc, htoggles⟩ := ih
      simp only [List.dropWhile_cons, beq_self_eq_true, if_true]
      rw [← hdoc, ← htoggles]
      constructor
      · have hlast : (e :: (events ++ b)).getLast?.getD e = (events ++ b).getLast?.getD e := by
          cases events ++ b <;> simp [List.getLast?_cons]
        simp only [documented, now, List.cons_append, hlast, List.mem_cons]
        generalize (events ++ b).getLast?.getD e = level
        cases e <;> cases level <;> simp
      · simp [TogglesOnce]
    · simp [he]

/-- The transitions out of what a frame that toggles once can come to. -/
lemma handleIncomingState_toggles : ∀ last b, ∀ toggles ∈ [[], [!last], [!last, last]],
    ((SinceStep.documented ⟨last, toggles⟩).handleIncomingState b =
        SinceStep.documented ⟨last, toggles ++ [b]⟩ ↔
      SinceStep.TogglesOnce ⟨last, toggles ++ [b]⟩) := by
  decide

/-- What an event does is documented exactly when the key goes on to toggle once. -/
lemma handleIncomingState_documented_iff {h : SinceStep} (b : Bool) (htoggles : h.TogglesOnce) :
    h.documented.handleIncomingState b = SinceStep.documented ⟨h.last, h.events ++ [b]⟩ ↔
      SinceStep.TogglesOnce ⟨h.last, h.events ++ [b]⟩ := by
  have hnow := @SinceStep.drop_repeats h.last h.events []
  have hnext := @SinceStep.drop_repeats h.last h.events [b]
  simp only [List.append_nil] at hnow
  rw [hnow.1, hnext.1, hnext.2]
  apply handleIncomingState_toggles
  simpa using (List.mem_inits _ _).mpr htoggles

/-- The end of a frame leaves the documented state of a frame without events. -/
lemma step_documented (h : SinceStep) : h.documented.step = SinceStep.documented ⟨h.now, []⟩ := by
  unfold SinceStep.documented
  generalize h.now = level
  by_cases hup : true ∈ h.events <;> by_cases hdown : false ∈ h.events <;>
    cases h.last <;> cases level <;> simp [hup, hdown, SinceStep.now, KeyState.step]

/-- One label, from a documented state. -/
lemma apply_documented_iff {key : Fin numKeys} {h : SinceStep} (l : KeyLabel)
    (htoggles : h.TogglesOnce) :
    KeyState.apply key h.documented l = (h.apply key l).documented ↔
      (h.apply key l).TogglesOnce := by
  cases l with
  | event key' b =>
    unfold KeyState.apply SinceStep.apply
    by_cases hkey : key' = key
    · simp only [hkey, if_true]
      exact handleIncomingState_documented_iff b htoggles
    · simp only [hkey, if_false, true_iff]
      exact htoggles
  | step =>
    refine iff_of_true (step_documented h) ?_
    exact List.nil_prefix

/-- The run of the input is that of each key. -/
lemma run_keys (i : Input) (ls : List KeyLabel) (key : Fin numKeys) :
    ∃ i', i.run ls = some i' ∧ i'.keys key = ls.foldl (KeyState.apply key) (i.keys key) := by
  induction ls generalizing i with
  | nil => exact ⟨i, rfl, rfl⟩
  | cons l ls ih =>
    have hl : ∃ i', i.apply l = some i' ∧ i'.keys key = KeyState.apply key (i.keys key) l := by
      cases l with
      | event key' b =>
        refine ⟨_, if_pos key'.isLt, ?_⟩
        simp only [Function.update_apply, KeyState.apply, Fin.val_inj, eq_comm]
        split
        · rename_i heq
          rw [heq]
        · rfl
      | step => exact ⟨_, rfl, rfl⟩
    obtain ⟨i₁, hi₁, hkey₁⟩ := hl
    obtain ⟨i', hi', hkey'⟩ := ih i₁
    refine ⟨i', ?_, by rw [hkey', hkey₁, List.foldl_cons]⟩
    rw [Input.run, List.foldlM_cons, hi₁]
    exact hi'

/-- A key is always in the documented state exactly when in each frame, after repeats of its level
at the last step, it toggles at most once and back. -/
theorem key_documented_iff_togglesOnce (key : Fin numKeys) (ls : List KeyLabel) :
    (∀ ls', ls' <+: ls → (Input.new.run ls').map (fun i => i.keys key) =
        some (SinceStep.run key ls').documented) ↔
      ∀ ls', ls' <+: ls → (SinceStep.run key ls').TogglesOnce := by
  have hrun : ∀ ls', (Input.new.run ls').map (fun i => i.keys key) =
      some (ls'.foldl (KeyState.apply key) .off) := by
    intro ls'
    obtain ⟨i, hi, hkey⟩ := run_keys Input.new ls' key
    rw [hi, Option.map_some, hkey]
    rfl
  simp only [hrun, Option.some.injEq]
  induction ls using List.reverseRecOn with
  | nil => simp [SinceStep.run, SinceStep.documented, SinceStep.now, SinceStep.TogglesOnce]
  | append_singleton ls l ih =>
    have hlast : ∀ P : List KeyLabel → Prop,
        (∀ ls', ls' <+: ls ++ [l] → P ls') ↔ (∀ ls', ls' <+: ls → P ls') ∧ P (ls ++ [l]) := by
      intro P
      simp only [List.prefix_concat_iff, or_imp, forall_and, forall_eq]
      exact and_comm
    rw [hlast, hlast]
    refine (and_congr_left' ih).trans ?_
    apply and_congr_right
    intro htoggles
    have hdoc := ih.mpr htoggles ls List.prefix_rfl
    rw [List.foldl_concat, hdoc]
    unfold SinceStep.run at htoggles ⊢
    rw [List.foldl_concat]
    exact apply_documented_iff l (htoggles ls List.prefix_rfl)

/-- The left mouse button. -/
def btnLeft : Fin numKeys := ⟨272, by decide⟩

/-- Down, up and down again in one frame is not the `OnFromOff` that apps look for. -/
theorem second_press_is_not_onFromOff : ¬∀ (key : Fin numKeys) (ls : List KeyLabel),
    (Input.new.run ls).map (fun i => i.keys key) = some (SinceStep.run key ls).documented := by
  intro h
  have hpress := h btnLeft [.event btnLeft true, .event btnLeft false, .event btnLeft true]
  revert hpress
  decide
end Fomos
