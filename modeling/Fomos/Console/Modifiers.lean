import Mathlib
import Fomos.Console.Cuts

/-!
# The modifier keys of the console

The loop over the new events sets the flags of left shift and right alt. It does not run while the
window is inactive, and ends behind the Enter that it executes, but the next call begins behind all
that was recorded: the flags say which keys are held exactly when what was lost changes neither.
-/
namespace Fomos.Console
open Terminal

/-- Whether a key is held after these events, when it `was` before: its last event was a press. -/
def held (key : Key) (was : Bool) (es : List InputEvent) : Bool :=
  ((es.filter fun e => e.key = key).getLast?.map InputEvent.trigger).getD was

/-- The events up to the first Enter that is pressed while left shift is not held. -/
def upToEnter : Bool → List InputEvent → List InputEvent
  | _, [] => []
  | shift, e :: es =>
    if e.trigger ∧ e.key = .keyEnter ∧ !shift then [e]
    else e :: upToEnter (held .keyLeftShift shift [e]) es

section Held
variable {key : Key} {was : Bool} {es es' : List InputEvent}

lemma held_append (key : Key) (was : Bool) (es es' : List InputEvent) :
    held key was (es ++ es') = held key (held key was es) es' := by
  unfold held
  rw [List.filter_append, List.getLast?_append]
  cases (es'.filter fun e => e.key = key).getLast? <;> rfl

lemma held_cons (key : Key) (was : Bool) (e : InputEvent) (es : List InputEvent) :
    held key was (e :: es) = held key (held key was [e]) es :=
  held_append key was [e] es

lemma held_singleton (key : Key) (was : Bool) (e : InputEvent) :
    held key was [e] = if e.key = key then e.trigger else was := by
  by_cases hkey : e.key = key <;> simp [held, hkey]

end Held

/-- The console follows the keyboard: its flags are set while the keys are held. -/
structure Terminal.Follows {C : Type} (t : Terminal C) (shift altg : Bool) : Prop where
  shift : t.shift = shift
  altg : t.altg = altg

/-- The last atom is the user's. -/
def Terminal.UserLast {C : Type} (t : Terminal C) : Prop :=
  ∃ text older, t.consoleHistory = ⟨true, text⟩ :: older

namespace Terminal
variable {C N E : Type} {fos : Fomoscript C N E} {startTime pid : ℕ} {t t' : Terminal C}
  {e : InputEvent} {text : List Char}

lemma modifiers_shift (e : InputEvent) (t : Terminal C) :
    (modifiers e t).shift = held .keyLeftShift t.shift [e] := by
  rw [held_singleton]
  unfold modifiers
  split
  case h_1 hkey => rw [if_pos hkey]
  case h_2 hkey => rw [hkey, if_neg (by decide)]
  case h_3 hshift _ => rw [if_neg hshift]

lemma modifiers_altg (e : InputEvent) (t : Terminal C) :
    (modifiers e t).altg = held .keyRightAlt t.altg [e] := by
  rw [held_singleton]
  unfold modifiers
  split
  case h_1 hkey => rw [hkey, if_neg (by decide)]
  case h_2 hkey => rw [if_pos hkey]
  case h_3 _ haltg => rw [if_neg haltg]

lemma command_flags (h : t' ∈ (command fos startTime pid text t).terminal?) :
    t'.shift = t.shift ∧ t'.altg = t.altg := by
  unfold command at h
  split at h
  case h_8 =>
    split at h
    · cases hscript : evalScript fos startTime pid text t with
      | none =>
        rw [hscript] at h
        cases h
      | some t₁ =>
        rw [hscript] at h
        obtain ⟨code, -, rfl⟩ := Option.map_eq_some_iff.mp hscript
        cases h
        exact ⟨rfl, rfl⟩
    · cases h
      exact ⟨rfl, rfl⟩
  all_goals
    cases h
  all_goals
    exact ⟨rfl, rfl⟩

/-- Whatever Enter executes, it leaves the flags. -/
lemma enter_flags (h : t' ∈ (enter fos startTime pid text t).terminal?) :
    t'.shift = t.shift ∧ t'.altg = t.altg := by
  unfold enter at h
  split at h
  case h_1 =>
    cases hline : evalLine fos text t with
    | none =>
      rw [hline] at h
      cases h
    | some t₁ =>
      rw [hline] at h
      obtain ⟨code, -, rfl⟩ := Option.map_eq_some_iff.mp hline
      cases h
      split <;> exact ⟨rfl, rfl⟩
  case h_2 => exact command_flags h

lemma enter_userLast (h : t' ∈ (enter fos startTime pid text t).terminal?) : t'.UserLast := by
  obtain ⟨t₁, answer, hleaves, -, -⟩ | ⟨hreset, -⟩ | ⟨hpanic, -⟩ :=
    enter_cases fos startTime pid text t
  · rw [hleaves] at h
    cases h
    exact ⟨_, _, rfl⟩
  · rw [hreset] at h
    cases h
  · rw [hpanic] at h
    cases h

lemma enter_ne_next (t' : Terminal C) : enter fos startTime pid text t ≠ .next t' := by
  intro h
  obtain ⟨t₁, answer, hleaves, -, -⟩ | ⟨hreset, -⟩ | ⟨hpanic, -⟩ :=
    enter_cases fos startTime pid text t
  · rw [hleaves] at h
    cases h
  · rw [hreset] at h
    cases h
  · rw [hpanic] at h
    cases h

/-- One event: the Enter that is executed ends the loop, and every other event is followed. -/
lemma newInput_follows (ht : t.UserLast) :
    ((e.trigger = true ∧ e.key = .keyEnter ∧ t.shift = false) ∧
      (∀ t', newInput fos startTime pid e t ≠ .next t') ∧
      ∀ t' ∈ (newInput fos startTime pid e t).terminal?, t'.UserLast ∧ t'.Follows t.shift t.altg) ∨
    (¬(e.trigger = true ∧ e.key = .keyEnter ∧ t.shift = false) ∧
      ∃ t', newInput fos startTime pid e t = .next t' ∧ t'.UserLast ∧
        t'.Follows (held .keyLeftShift t.shift [e]) (held .keyRightAlt t.altg [e])) := by
  obtain ⟨text, older, hhistory⟩ := id ht
  cases htrigger : e.trigger with
  | false =>
    refine .inr ⟨by simp, modifiers e t, newInput_release htrigger, ?_, modifiers_shift e t,
      modifiers_altg e t⟩
    exact ⟨text, older, by rw [modifiers_consoleHistory, hhistory]⟩
  | true =>
    by_cases henter : e.key = .keyEnter ∧ t.shift = false
    · left
      rw [newInput_enter htrigger henter.1 henter.2 hhistory]
      refine ⟨⟨rfl, henter⟩, enter_ne_next, fun t' ht' => ?_⟩
      obtain ⟨hshift, haltg⟩ := enter_flags ht'
      exact ⟨enter_userLast ht', hshift, haltg⟩
    · right
      refine ⟨fun h => henter h.2, _, newInput_edit htrigger henter hhistory, ⟨_, _, rfl⟩, ?_⟩
      exact ⟨modifiers_shift e t, modifiers_altg e t⟩

/-- The loop follows the events that it comes to. -/
theorem newInputs_follows (es : List InputEvent) (ht : t.UserLast)
    (ht' : t' ∈ (newInputs fos startTime pid es t).terminal?) :
    t'.UserLast ∧ t'.Follows (held .keyLeftShift t.shift (upToEnter t.shift es))
      (held .keyRightAlt t.altg (upToEnter t.shift es)) := by
  induction es generalizing t with
  | nil =>
    cases ht'
    exact ⟨ht, rfl, rfl⟩
  | cons e es ih =>
    obtain ⟨⟨htrigger, hkey, hshift⟩, hends, hdone⟩ | ⟨hnot, t₁, hnext, hlast, hfollows⟩ :=
      newInput_follows (e := e) ht
    · have hend : upToEnter t.shift (e :: es) = [e] :=
        if_pos ⟨htrigger, hkey, by rw [hshift]; rfl⟩
      rw [newInputs_done hends] at ht'
      rw [hend, held_singleton, held_singleton, hkey, if_neg (by decide), if_neg (by decide)]
      exact hdone t' ht'
    · have hgoes : upToEnter t.shift (e :: es) =
          e :: upToEnter (held .keyLeftShift t.shift [e]) es :=
        if_neg (by simpa using hnot)
      rw [newInputs, hnext] at ht'
      have hrest := ih hlast ht'
      rw [hfollows.shift, hfollows.altg] at hrest
      rw [hgoes, held_cons .keyLeftShift, held_cons .keyRightAlt]
      exact hrest

end Terminal

/-- The console reads what was delivered, wherever the index wraps between other calls. -/
lemma Input.Delivers.since_of_noWrap {c : ℕ} {es : List InputEvent} {input : Input}
    (h : input.Delivers c es) (hlen : es.length ≤ historySize)
    (hwrap : NoWrap (c % 2 ^ 64) es.length) : input.since (c % 2 ^ 64) = es := by
  have hindex := h.index
  have hcount : input.historyLastIndex + 1 - (c % 2 ^ 64 + 1) % 2 ^ 64 = es.length := by
    unfold historySize at hlen
    unfold NoWrap at hwrap
    omega
  rw [Input.since, hcount, List.range'_eq_map_range, List.map_map]
  refine Eq.trans (List.map_congr_left fun i _ => ?_) (h.ring.read hlen)
  have hslot : ((c % 2 ^ 64 + 1) % 2 ^ 64 + i) % 64 = (c + 1 + i) % 64 := by omega
  exact congrArg input.historyRing hslot

/-- A call, with the key events recorded since the call before it. -/
structure Call where
  cx : Context
  es : List InputEvent

/-- The presses of a call behind some that came before. -/
def Call.pressing (old keys : List Key) (click : Option Bool) : Call :=
  ⟨.pressing (old ++ keys) click, keys.map fun key => ⟨true, key⟩⟩

/-- A console and the keyboard: how many events were recorded when the store was created, and the
events recorded since. -/
structure Watch (C : Type) where
  store : Option (Store C)
  before : ℕ
  recorded : List InputEvent

namespace Watch
variable {C N E : Type} (fos : Fomoscript C N E) (font : Font)

/-- A call creates the store, and a call that panics or resets the console ends the run. -/
def step (call : Call) (w : Watch C) : Option (Watch C) :=
  match Store.start fos font call.cx w.store with
  | some (some s) => some { w with store := some s, recorded := w.recorded ++ call.es }
  | _ => none

def new (before : ℕ) : Watch C := ⟨none, before, []⟩

/-- What is recorded before a call is at most 64 events, and none at the call that creates the
store. -/
structure Records (w : Watch C) (call : Call) : Prop where
  atMost : call.es.length ≤ historySize
  delivers : call.cx.input.Delivers (w.before + w.recorded.length) call.es
  created : w.store = none → call.es = []

/-- No modifier was held when the store was created. -/
def holds (w : Watch C) (key : Key) : Bool := held key false w.recorded

/-- What the range of positions selects: the new events, unless the index wraps. -/
def selects (w : Watch C) (call : Call) : List InputEvent :=
  let c := (w.before + w.recorded.length) % 2 ^ 64
  if NoWrap c call.es.length then call.es else call.cx.input.since c

/-- The events that the loop of a call comes to: none while the window is inactive, and none behind
an Enter. -/
def comesTo (w : Watch C) (call : Call) : List InputEvent :=
  if call.cx.click.getD (w.store.any Store.active) then
    upToEnter (w.holds .keyLeftShift) (w.selects call)
  else []

/-- The events that the loop does not come to change neither modifier. -/
def LosesNoModifier (w : Watch C) (call : Call) : Prop :=
  ∀ key ∈ [Key.keyLeftShift, Key.keyRightAlt],
    held key (w.holds key) (w.comesTo call) = held key (w.holds key) call.es

instance (w : Watch C) (call : Call) : Decidable (w.LosesNoModifier call) := by
  unfold LosesNoModifier
  infer_instance

/-- The flags of the store say which modifiers are held. -/
def Follows (w : Watch C) : Prop :=
  ∀ s ∈ w.store, s.terminal.Follows (w.holds .keyLeftShift) (w.holds .keyRightAlt)

variable {fos font} {w w' : Watch C} {call : Call}

/-- The positions that a call reads hold what it selects. -/
lemma Records.since (h : w.Records call) :
    call.cx.input.since ((w.before + w.recorded.length) % 2 ^ 64) = w.selects call := by
  simp only [selects]
  split
  case isTrue hwrap => exact h.delivers.since_of_noWrap h.atMost hwrap
  case isFalse => rfl

/-- What holds of the store between calls. -/
structure Ready (w : Watch C) (s : Store C) : Prop where
  step : 0 < s.step
  index : s.inputHistoryLastIndex = (w.before + w.recorded.length) % 2 ^ 64
  userLast : s.terminal.UserLast

structure Invariant (w : Watch C) : Prop where
  created : w.store = none → w.recorded = []
  ready : ∀ s ∈ w.store, w.Ready s
  follows : w.Follows

/-- The store as a call opens it. -/
lemma Invariant.opened (fos : Fomoscript C N E) (h : w.Invariant) (hrecords : w.Records call) :
    (Store.opened fos call.cx w.store).terminal.UserLast ∧
      (Store.opened fos call.cx w.store).terminal.Follows (w.holds .keyLeftShift)
        (w.holds .keyRightAlt) ∧
      Store.newEvents call.cx (Store.opened fos call.cx w.store) =
        if call.cx.click.getD (w.store.any Store.active) then w.selects call else [] := by
  rw [← hrecords.since]
  cases hstore : w.store with
  | none =>
    have hrecorded := h.created hstore
    have hindex := hrecords.delivers.index
    rw [hrecords.created hstore, hrecorded] at hindex
    refine ⟨⟨_, _, rfl⟩, ?_, ?_⟩
    · rw [holds, holds, hrecorded]
      exact ⟨rfl, rfl⟩
    · rw [hrecorded]
      have hstart : (w.before + ([] : List InputEvent).length) % 2 ^ 64 =
          call.cx.input.historyLastIndex := hindex.symm
      rw [hstart]
      rfl
  | some s =>
    have hs := h.ready s hstore
    have hopened : (Store.opened fos call.cx (some s)).terminal = s.terminal := by
      rw [Store.opened, Option.getD_some, Store.welcome_of_started hs.step]
    refine ⟨hopened ▸ hs.userLast, hopened ▸ h.follows s hstore, ?_⟩
    rw [Store.newEvents, Store.opened, Option.getD_some, Store.welcome_of_started hs.step, hs.index]
    rfl

/-- A call of a run. -/
lemma Invariant.step_cases (h : w.Invariant) (hrecords : w.Records call)
    (hstep : step fos font call w = some w') :
    ∃ s, w' = { w with store := some s, recorded := w.recorded ++ call.es } ∧ w'.Ready s ∧
      s.terminal.Follows (held .keyLeftShift (w.holds .keyLeftShift) (w.comesTo call))
        (held .keyRightAlt (w.holds .keyRightAlt) (w.comesTo call)) := by
  obtain ⟨huser, hfollows, hevents⟩ := h.opened fos hrecords
  unfold step at hstep
  split at hstep
  case h_2 => cases hstep
  case h_1 s hstart =>
    cases hstep
    obtain hnone | ⟨t, ht, hclosed⟩ := Store.start_cases hstart
    · cases hnone
    · cases hclosed
      rw [Store.taken, hevents] at ht
      obtain ⟨hlast, hshift, haltg⟩ := newInputs_follows _ huser ht
      rw [hfollows.shift] at hshift haltg
      rw [hfollows.altg] at haltg
      have hcomes : w.comesTo call = upToEnter (w.holds .keyLeftShift)
          (if call.cx.click.getD (w.store.any Store.active) then w.selects call else []) := by
        unfold comesTo
        split <;> rfl
      rw [← hcomes] at hshift haltg
      refine ⟨_, rfl, ⟨Nat.succ_pos _, ?_, hlast⟩, hshift, haltg⟩
      rw [Store.closed, hrecords.delivers.index, List.length_append, Nat.add_assoc]

lemma Follows.iff {s : Store C} (hstore : w'.store = some s) :
    w'.Follows ↔ s.terminal.Follows (w'.holds .keyLeftShift) (w'.holds .keyRightAlt) := by
  rw [Follows, hstore]
  simp

/-- A call that returns follows the keyboard exactly when it loses no modifier. -/
lemma Invariant.follows_iff (h : w.Invariant) (hrecords : w.Records call)
    (hstep : step fos font call w = some w') : w'.Follows ↔ w.LosesNoModifier call := by
  obtain ⟨s, rfl, -, hshift, haltg⟩ := h.step_cases hrecords hstep
  rw [Follows.iff rfl, LosesNoModifier, List.forall_mem_cons, List.forall_mem_singleton]
  simp only [holds, held_append] at *
  constructor
  · intro hfollows
    exact ⟨hshift.symm.trans hfollows.shift, haltg.symm.trans hfollows.altg⟩
  · rintro ⟨hleft, hright⟩
    exact ⟨hshift.trans hleft, haltg.trans hright⟩

/-- From a store that was created while no modifier was held, calls that lose no modifier keep the
flags at what is held, and the next call does so exactly when it loses none, either. -/
theorem flags_follow_iff {before : ℕ}
    (h : Transition.Reach (step fos font) (fun w call _ => w.Records call ∧ w.LosesNoModifier call)
      (new before) w) :
    w.Follows ∧ ∀ call w', w.Records call → step fos font call w = some w' →
      (w'.Follows ↔ w.LosesNoModifier call) := by
  have hw : w.Invariant := by
    apply h.invariant
    · exact ⟨fun _ => rfl, by simp [new], by simp [Follows, new]⟩
    · rintro w call w' - hw hstep ⟨hrecords, hloses⟩
      have hfollows := (hw.follows_iff hrecords hstep).mpr hloses
      obtain ⟨s, rfl, hready, -⟩ := hw.step_cases hrecords hstep
      refine ⟨by simp, ?_, hfollows⟩
      rintro s ⟨⟩
      exact hready
  exact ⟨hw.follows, fun call w' hrecords hstep => hw.follows_iff hrecords hstep⟩

lemma records_pressing {old keys : List Key} {click : Option Bool}
    (hlen : (old ++ keys).length < historySize)
    (hbefore : w.before + w.recorded.length = old.length)
    (hcreated : w.store = none → keys = []) :
    w.Records (Call.pressing old keys click) where
  atMost := by
    rw [List.length_append] at hlen
    rw [Call.pressing, List.length_map]
    omega
  delivers := by
    rw [hbefore]
    exact Store.delivers_pressing old keys click hlen
  created hstore := by rw [Call.pressing, hcreated hstore, List.map_nil]

theorem flags_follow_leftShift :
    ∃ w w' : Watch Unit, step .silent .latin (.pressing [] [] (some true)) (new 0) = some w ∧
      step .silent .latin (.pressing [] [.keyLeftShift] none) w = some w' ∧ w'.Follows := by
  refine ⟨_, _, rfl, rfl, ?_⟩
  have hcreate : (new 0 : Watch Unit).Records (.pressing [] [] (some true)) :=
    records_pressing (by decide) rfl fun _ => rfl
  have hcreated : Transition.Reach (step .silent .latin)
      (fun w call _ => w.Records call ∧ w.LosesNoModifier call) (new 0 : Watch Unit) _ :=
    .next (a := .pressing [] [] (some true)) .start rfl ⟨hcreate, by decide +kernel⟩
  apply ((flags_follow_iff hcreated).2 (.pressing [] [.keyLeftShift] none) _ ?_ rfl).mpr
  · decide +kernel
  · exact records_pressing (by decide) rfl (by simp)

/-- Left shift is pressed while the window is inactive. -/
theorem press_missed : ¬∀ (C N E : Type) (fos : Fomoscript C N E) (font : Font) (before : ℕ)
    (w : Watch C),
      Transition.Reach (step fos font) (fun w call _ => w.Records call) (new before) w →
      w.Follows := by
  intro h
  have hcreate : (new 0 : Watch Unit).Records (.pressing [] [] none) :=
    records_pressing (by decide) rfl fun _ => rfl
  have hcreated : Transition.Reach (step .silent .latin) (fun w call _ => w.Records call)
      (new 0 : Watch Unit) _ := .next (a := .pressing [] [] none) .start rfl hcreate
  have hpress := hcreated.next (a := .pressing [] [.keyLeftShift] none) rfl
    (records_pressing (by decide) rfl (by simp))
  have hflag := (h Unit Unit Unit .silent .latin 0 _ hpress _ rfl).shift
  revert hflag
  decide +kernel

end Watch
end Fomos.Console
