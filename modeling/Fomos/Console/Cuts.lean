import Mathlib
import Fomos.Console.Drawable

/-!
# Key events and calls

The same key events reach the console in more or fewer calls. A call ends its loop at the Enter
that it executes, so the events behind it are lost if they came in the same call: how a sequence is
cut does not matter exactly when these are events that the console would have ignored.
-/
namespace Fomos.Console
open Terminal

/-- The kernel has recorded these events behind the first `c`. -/
structure Input.Delivers (c : ℕ) (es : List InputEvent) (input : Input) : Prop where
  index : input.historyLastIndex = (c + es.length) % 2 ^ 64
  ring : RingWindow.Holds historySize input.historyRing (c + 1) es

namespace Input
variable {c : ℕ} {es : List InputEvent} {input : Input}

/-- The console reads what was delivered, as long as the index does not wrap. -/
theorem Delivers.since (h : input.Delivers c es) (hlen : es.length ≤ historySize)
    (hindex : c + es.length + 1 < 2 ^ 64) : input.since c = es := by
  have hstart : (c + 1) % 2 ^ 64 = c + 1 := Nat.mod_eq_of_lt (by omega)
  have hlast : input.historyLastIndex = c + es.length := by
    rw [h.index]
    exact Nat.mod_eq_of_lt (by omega)
  have hcount : c + es.length + 1 - (c + 1) = es.length := by omega
  rw [Input.since, hstart, hlast, hcount, List.range'_eq_map_range, List.map_map]
  exact h.ring.read hlen

lemma exists_delivers (c : ℕ) (es : List InputEvent) : ∃ input : Input, input.Delivers c es := by
  have hring : ∃ ring, RingWindow.Holds historySize ring (c + 1) es := by
    induction es using List.reverseRecOn with
    | nil => exact ⟨fun _ => ⟨false, .reserved⟩, RingWindow.holds_nil⟩
    | append_singleton es e ih =>
      obtain ⟨ring, hring⟩ := ih
      exact ⟨_, hring.push⟩
  obtain ⟨ring, hring⟩ := hring
  exact ⟨⟨(c + es.length) % 2 ^ 64, ring⟩, rfl, hring⟩

end Input

/-- The sequence cut into calls of at most 64 events each. In each call the window stays active. -/
inductive CutsInto (startTime pid : ℕ) : ℕ → List InputEvent → List Context → Prop
  | nil {c : ℕ} : CutsInto startTime pid c [] []
  | call {c : ℕ} {es rest : List InputEvent} {cx : Context} {cxs : List Context}
      (atMost : es.length ≤ historySize) (startTime_eq : cx.startTime = startTime)
      (pid_eq : cx.pid = pid) (click : cx.click ≠ some false) (delivers : cx.input.Delivers c es)
      (tail : CutsInto startTime pid (c + es.length) rest cxs) :
      CutsInto startTime pid c (es ++ rest) (cx :: cxs)

namespace Terminal
variable {C N E : Type} (fos : Fomoscript C N E) (font : Font) (startTime pid : ℕ)

/-- The event would change nothing: a modifier key does what it last did, or a press neither edits
nor executes. -/
def Ignores (t : Terminal C) (e : InputEvent) : Prop :=
  (e.key = .keyLeftShift → e.trigger = t.shift) ∧ (e.key = .keyRightAlt → e.trigger = t.altg) ∧
    (e.trigger = true → ∀ text older, t.consoleHistory = ⟨true, text⟩ :: older →
      e.key ≠ .keyEnter ∧ ¬(e.key = .keyBackspace ∧ 1 < String.utf8Len text) ∧
        e.key.char t.loc t.shift t.altg = none)

instance (t : Terminal C) (e : InputEvent) : Decidable (t.Ignores e) :=
  decidable_of_iff ((e.key = .keyLeftShift → e.trigger = t.shift) ∧
    (e.key = .keyRightAlt → e.trigger = t.altg) ∧ (e.trigger = true → ∀ text ∈ t.userText,
      e.key ≠ .keyEnter ∧ ¬(e.key = .keyBackspace ∧ 1 < String.utf8Len text) ∧
        e.key.char t.loc t.shift t.altg = none)) (by simp [Ignores, userText_eq_some])

/-- Events taken one after the other, whatever Enter comes between. -/
def feed : List InputEvent → Terminal C → Turn C
  | [], t => .next t
  | e :: es, t =>
    match newInput fos startTime pid e t with
    | .next t => feed es t
    | .breakNewInputs t => feed es t
    | done => done

/-- The first argument is how many more events may come in the call of the last executed Enter:
these are ignored. All of what the terminal shows is drawable, and it is not reset. -/
def SafelyCut : ℕ → List InputEvent → Terminal C → Prop
  | _, [], t => t.drawable font = true
  | behind, e :: es, t => t.drawable font = true ∧ (0 < behind → t.Ignores e) ∧
    match newInput fos startTime pid e t with
    | .next t => SafelyCut (behind - 1) es t
    | .breakNewInputs t => SafelyCut (historySize - 1) es t
    | .reset => False
    | .panic => True

instance SafelyCut.decidable :
    ∀ (behind : ℕ) (es : List InputEvent) (t : Terminal C),
      Decidable (SafelyCut fos font startTime pid behind es t)
  | _, [], t => inferInstanceAs (Decidable (t.drawable font = true))
  | behind, e :: es, t => by
    unfold SafelyCut
    have := fun behind t => decidable behind es t
    cases newInput fos startTime pid e t <;> infer_instance

end Terminal

/-- What the console is compared by. -/
structure View where
  consoleHistory : List Atom
  mode : Mode
  loc : Local
  shift : Bool
  altg : Bool
  deriving DecidableEq, Repr

def Terminal.view {C : Type} (t : Terminal C) : View :=
  ⟨t.consoleHistory, t.mode, t.loc, t.shift, t.altg⟩

/-- What a call shows whose loop ends so: none for a panic, and no view for a reset. -/
def Turn.outcome {C : Type} : Turn C → Option (Option View)
  | next t => some (some t.view)
  | breakNewInputs t => some (some t.view)
  | reset => some none
  | panic => none

/-- A further call. -/
lemma CutsInto.snoc {startTime pid c : ℕ} {es es' : List InputEvent} {cx : Context}
    {cxs : List Context} (h : CutsInto startTime pid c es cxs) (hlen : es'.length ≤ historySize)
    (htime : cx.startTime = startTime) (hpid : cx.pid = pid) (hclick : cx.click ≠ some false)
    (hdelivers : cx.input.Delivers (c + es.length) es') :
    CutsInto startTime pid c (es ++ es') (cxs ++ [cx]) := by
  induction h with
  | nil =>
    have := CutsInto.call hlen htime hpid hclick hdelivers .nil
    rwa [List.append_nil] at this
  | @call c es rest cx' cxs' hlen' htime' hpid' hclick' hdelivers' tail ih =>
    rw [List.append_assoc]
    apply CutsInto.call hlen' htime' hpid' hclick' hdelivers'
    apply ih
    rwa [List.length_append, ← Nat.add_assoc] at hdelivers

namespace Terminal
variable {C N E : Type} {fos : Fomoscript C N E} {font : Font} {startTime pid : ℕ}
  {t t' : Terminal C} {e : InputEvent} {es rest : List InputEvent}

/-- A modifier key that does what it last did. -/
lemma modifiers_eq_self (hshift : e.key = .keyLeftShift → e.trigger = t.shift)
    (haltg : e.key = .keyRightAlt → e.trigger = t.altg) : modifiers e t = t := by
  unfold modifiers
  split
  case h_1 hkey => rw [hshift hkey]
  case h_2 hkey => rw [haltg hkey]
  case h_3 => rfl

/-- The presses that edit nothing. -/
lemma edit_eq_self_iff {key : Key} {text : List Char}
    (henter : ¬(key = .keyEnter ∧ t.shift = false)) :
    edit key t text = text ↔ key ≠ .keyEnter ∧
      ¬(key = .keyBackspace ∧ 1 < String.utf8Len text) ∧ key.char t.loc t.shift t.altg = none := by
  constructor
  · intro hedit
    by_cases hback : key = .keyBackspace ∧ 1 < String.utf8Len text
    · obtain ⟨rfl, hlen⟩ := hback
      rw [edit_keyBackspace, if_pos hlen] at hedit
      have hshorter := congrArg List.length hedit
      rw [List.length_dropLast] at hshorter
      obtain rfl : text = [] := List.eq_nil_of_length_eq_zero (by omega)
      cases hlen
    · rw [edit, if_neg hback] at hedit
      cases hchar : key.char t.loc t.shift t.altg with
      | some c => simp [hchar] at hedit
      | none =>
        refine ⟨?_, hback, rfl⟩
        rintro rfl
        cases hshift : t.shift with
        | true =>
          rw [hchar] at hedit
          simp [hshift] at hedit
        | false => exact henter ⟨rfl, hshift⟩
  · rintro ⟨hkey, hback, hchar⟩
    rw [edit, if_neg hback, hchar]
    apply if_neg
    rintro ⟨henter, -⟩
    exact hkey henter

lemma newInput_of_ignores (h : t.Ignores e) : newInput fos startTime pid e t = .next t := by
  have hmodifiers := modifiers_eq_self h.1 h.2.1
  cases htrigger : e.trigger with
  | false => rw [newInput_release htrigger, hmodifiers]
  | true =>
    by_cases huser : ∃ text older, t.consoleHistory = ⟨true, text⟩ :: older
    · obtain ⟨text, older, hhistory⟩ := huser
      obtain ⟨henter, hback, hchar⟩ := h.2.2 htrigger text older hhistory
      have hkey : ¬(e.key = .keyEnter ∧ t.shift = false) := fun hkey => henter hkey.1
      rw [newInput_edit htrigger hkey hhistory, hmodifiers,
        (edit_eq_self_iff hkey).mpr ⟨henter, hback, hchar⟩, ← hhistory]
    · rw [newInput_ignored, hmodifiers]
      intro text older hhistory
      exact huser ⟨text, older, hhistory⟩

/-- Only an ignored event leaves what the terminal is compared by. -/
lemma ignores_of_view (ht' : t' ∈ (newInput fos startTime pid e t).terminal?)
    (hview : t'.view = t.view) : t.Ignores e := by
  obtain ⟨hhistory, -, -, hshift, haltg⟩ := View.mk.inj hview
  have hmodifier : (modifiers e t).shift = t.shift → (modifiers e t).altg = t.altg →
      (e.key = .keyLeftShift → e.trigger = t.shift) ∧
        (e.key = .keyRightAlt → e.trigger = t.altg) := by
    intro hshift haltg
    constructor
    · intro hkey
      rwa [modifiers, hkey] at hshift
    · intro hkey
      rwa [modifiers, hkey] at haltg
  cases htrigger : e.trigger with
  | false =>
    rw [newInput_release htrigger] at ht'
    cases ht'
    obtain ⟨hleftShift, hrightAlt⟩ := hmodifier hshift haltg
    refine ⟨htrigger ▸ hleftShift, htrigger ▸ hrightAlt, ?_⟩
    simp [htrigger]
  | true =>
    by_cases huser : ∃ text older, t.consoleHistory = ⟨true, text⟩ :: older
    · obtain ⟨text, older, hold⟩ := huser
      by_cases henter : e.key = .keyEnter ∧ t.shift = false
      · -- what Enter leaves is longer by the prompt at least
        rw [newInput_enter htrigger henter.1 henter.2 hold] at ht'
        obtain ⟨t₁, answer, hleaves, -, hanswer⟩ | ⟨hreset, -⟩ | ⟨hpanic, -⟩ :=
          enter_cases fos startTime pid text t
        · rw [hleaves] at ht'
          cases ht'
          have hlonger := congrArg List.length hhistory
          simp only [openPrompt_consoleHistory, hanswer, List.length_cons,
            List.length_append] at hlonger
          omega
        · rw [hreset] at ht'
          cases ht'
        · rw [hpanic] at ht'
          cases ht'
      · rw [newInput_edit htrigger henter hold] at ht'
        cases ht'
        obtain ⟨hleftShift, hrightAlt⟩ := hmodifier hshift haltg
        refine ⟨htrigger ▸ hleftShift, htrigger ▸ hrightAlt, ?_⟩
        intro _ text' older' hold'
        rw [hold'] at hold hhistory
        obtain ⟨hatom, rfl⟩ := List.cons.inj hold
        obtain rfl : text' = text := by simpa using hatom
        rw [modifiers_eq_self hleftShift hrightAlt] at hhistory
        have hedit : edit e.key t text' = text' := by simpa using hhistory
        exact (edit_eq_self_iff henter).mp hedit
    · rw [newInput_ignored] at ht'
      · cases ht'
        obtain ⟨hleftShift, hrightAlt⟩ := hmodifier hshift haltg
        refine ⟨htrigger ▸ hleftShift, htrigger ▸ hrightAlt, ?_⟩
        intro _ text older hold
        exact absurd ⟨text, older, hold⟩ huser
      · intro text older hold
        exact huser ⟨text, older, hold⟩

lemma newInputs_append (es rest : List InputEvent) (t : Terminal C) :
    newInputs fos startTime pid (es ++ rest) t =
      match newInputs fos startTime pid es t with
      | .next t => newInputs fos startTime pid rest t
      | done => done := by
  induction es generalizing t with
  | nil => rfl
  | cons e es ih =>
    rw [List.cons_append, newInputs, newInputs]
    cases newInput fos startTime pid e t with
    | next t => exact ih t
    | breakNewInputs t => rfl
    | reset => rfl
    | panic => rfl

/-- The events that are still to come behind an Enter are ignored, one by one. -/
lemma SafelyCut.ignored {behind : ℕ} (h : SafelyCut fos font startTime pid behind (es ++ rest) t)
    (hlen : es.length ≤ behind) :
    feed fos startTime pid (es ++ rest) t = feed fos startTime pid rest t ∧
      SafelyCut fos font startTime pid (behind - es.length) rest t := by
  induction es generalizing behind with
  | nil => exact ⟨rfl, h⟩
  | cons e es ih =>
    rw [List.length_cons] at hlen
    obtain ⟨-, hignores, hrest⟩ := h
    have hturn : newInput fos startTime pid e t = .next t :=
      newInput_of_ignores (hignores (by omega))
    rw [hturn] at hrest
    obtain ⟨hfeed, hcut⟩ := ih hrest (by omega)
    rw [List.cons_append, feed, hturn, List.length_cons, Nat.add_comm es.length 1, ← Nat.sub_sub]
    exact ⟨hfeed, hcut⟩

/-- The loop of one call leaves what the events leave one by one, or both panic. -/
lemma SafelyCut.newInputs {behind : ℕ}
    (h : SafelyCut fos font startTime pid behind (es ++ rest) t) (hlen : es.length ≤ historySize) :
    (newInputs fos startTime pid es t = .panic ∧ feed fos startTime pid (es ++ rest) t = .panic) ∨
      ∃ t' ∈ (newInputs fos startTime pid es t).terminal?, ∃ behind',
        feed fos startTime pid (es ++ rest) t = feed fos startTime pid rest t' ∧
          SafelyCut fos font startTime pid behind' rest t' := by
  induction es generalizing behind t with
  | nil => exact .inr ⟨t, rfl, behind, rfl, h⟩
  | cons e es ih =>
    rw [List.length_cons] at hlen
    obtain ⟨-, -, hrest⟩ := h
    rw [List.cons_append, feed, Terminal.newInputs]
    cases hturn : newInput fos startTime pid e t with
    | next t' =>
      rw [hturn] at hrest
      exact ih hrest (by omega)
    | breakNewInputs t' =>
      rw [hturn] at hrest
      obtain ⟨hfeed, hcut⟩ := SafelyCut.ignored hrest (by omega)
      exact .inr ⟨t', rfl, _, hfeed, hcut⟩
    | reset =>
      rw [hturn] at hrest
      exact hrest.elim
    | panic => exact .inl ⟨rfl, rfl⟩

lemma SafelyCut.drawable {behind : ℕ} (h : SafelyCut fos font startTime pid behind es t) :
    t.drawable font = true := by
  cases es with
  | nil => exact h
  | cons e es => exact h.1

lemma SafelyCut.front {behind : ℕ}
    (h : SafelyCut fos font startTime pid behind (es ++ rest) t) :
    SafelyCut fos font startTime pid behind es t := by
  induction es generalizing behind t with
  | nil => exact h.drawable
  | cons e es ih =>
    obtain ⟨hdraw, hignores, hrest⟩ := h
    refine ⟨hdraw, hignores, ?_⟩
    cases hturn : newInput fos startTime pid e t with
    | next t' =>
      rw [hturn] at hrest
      exact ih hrest
    | breakNewInputs t' =>
      rw [hturn] at hrest
      exact ih hrest
    | reset =>
      rw [hturn] at hrest
      exact hrest
    | panic => trivial

end Terminal

namespace Store
variable {C N E : Type} (fos : Fomoscript C N E) (font : Font)

def calls (cxs : List Context) (store : Option (Store C)) : Option (Option (Store C)) :=
  Transition.run (start fos font) (fun _ _ _ => True) cxs store

def outcome (cxs : List Context) (s : Store C) : Option (Option View) :=
  (calls fos font cxs (some s)).map (Option.map fun s => s.terminal.view)

/-- A store of an active window, that a call left after the first `c` events. -/
structure Listens (c : ℕ) (s : Store C) : Prop where
  active : s.active = true
  step : 0 < s.step
  index : s.inputHistoryLastIndex = c

variable {fos font} {startTime pid c : ℕ} {s : Store C} {cx : Context} {cxs cxs' : List Context}
  {es es' : List InputEvent}

lemma calls_cons (cx : Context) (cxs : List Context) (store : Option (Store C)) :
    calls fos font (cx :: cxs) store =
      (start fos font cx store).bind (calls fos font cxs) := by
  simp only [calls, Transition.run, if_true]
  rfl

lemma calls_append (cxs cxs' : List Context) (store : Option (Store C)) :
    calls fos font (cxs ++ cxs') store =
      (calls fos font cxs store).bind (calls fos font cxs') :=
  Transition.run_append cxs cxs' store

lemma calls_singleton (cx : Context) (store : Option (Store C)) :
    calls fos font [cx] store = start fos font cx store := by
  rw [calls_cons]
  cases start fos font cx store <;> rfl

/-- The terminal and the new events as a call finds them, if the window stays active. -/
lemma Listens.opened (fos : Fomoscript C N E) (hs : s.Listens c) (hclick : cx.click ≠ some false) :
    (opened fos cx (some s)).terminal = s.terminal ∧
      (Store.opened fos cx (some s)).active = true ∧
      (Store.opened fos cx (some s)).inputHistoryLastIndex = c := by
  rw [Store.opened, Option.getD_some, welcome_of_started hs.step]
  refine ⟨rfl, ?_, hs.index⟩
  cases hclick' : cx.click with
  | none => exact hs.active
  | some click =>
    cases click with
    | true => rfl
    | false => exact absurd hclick' hclick

/-- A call that draws takes what was delivered. -/
lemma Listens.start (fos : Fomoscript C N E) (font : Font) (hs : s.Listens c)
    (hclick : cx.click ≠ some false)
    (hdelivers : cx.input.Delivers c es) (hlen : es.length ≤ historySize)
    (hindex : c + es.length + 1 < 2 ^ 64) :
    Store.start fos font cx (some s) =
      if s.terminal.drawable font = true then
        (Store.opened fos cx (some s)).leave cx
          (newInputs fos cx.startTime cx.pid es s.terminal)
      else none := by
  obtain ⟨hterminal, hactive, hlast⟩ := hs.opened fos hclick
  have hevents : newEvents cx (Store.opened fos cx (some s)) = es := by
    rw [newEvents, if_pos hactive, hlast]
    exact hdelivers.since hlen hindex
  simp only [Store.start, canDraw, title_drawable, Bool.true_and, hterminal, hevents]

lemma Listens.closed (hs : s.Listens c) (hclick : cx.click ≠ some false)
    (hdelivers : cx.input.Delivers c es) (hindex : c + es.length + 1 < 2 ^ 64) (t : Terminal C) :
    ((Store.opened fos cx (some s)).closed cx t).Listens (c + es.length) where
  active := (hs.opened fos hclick).2.1
  step := Nat.succ_pos _
  index := by
    rw [Store.closed, hdelivers.index]
    exact Nat.mod_eq_of_lt (by omega)

/-- Safely cut events make of the terminal what they make of it one by one. -/
theorem outcome_of_safelyCut {behind : ℕ} (hcuts : CutsInto startTime pid c es cxs)
    (hs : s.Listens c) (hindex : c + es.length + 1 < 2 ^ 64)
    (hsafe : SafelyCut fos font startTime pid behind es s.terminal) :
    outcome fos font cxs s =
      (feed fos startTime pid es s.terminal).terminal?.map fun t => some t.view := by
  induction hcuts generalizing s behind with
  | nil => rfl
  | @call c es rest cx cxs hlen htime hpid hclick hdelivers tail ih =>
    rw [List.length_append] at hindex
    rw [outcome, calls_cons, hs.start fos font hclick hdelivers hlen (by omega),
      if_pos hsafe.drawable, htime,
      hpid]
    obtain ⟨hpanic, hfeed⟩ | ⟨t', ht', behind', hfeed, hsafe'⟩ := SafelyCut.newInputs hsafe hlen
    · rw [hpanic, hfeed]
      rfl
    · rw [leave_of_terminal ht', hfeed]
      exact ih (hs.closed hclick hdelivers (by omega) t') (by omega) hsafe'

/-- All cuttings agree, at every moment of the sequence. -/
def CuttingsAgree (fos : Fomoscript C N E) (font : Font) (startTime pid c : ℕ) (s : Store C)
    (es : List InputEvent) : Prop :=
  ∀ es', es' <+: es → ∀ cxs cxs', CutsInto startTime pid c es' cxs →
    CutsInto startTime pid c es' cxs' → outcome fos font cxs s = outcome fos font cxs' s

/-- Calls that have taken the first events, each of them. -/
structure Reached (fos : Fomoscript C N E) (font : Font) (startTime pid c : ℕ) (s₀ : Store C)
    (es : List InputEvent) (cxs : List Context) (s : Store C) : Prop where
  cuts : CutsInto startTime pid c es cxs
  calls : calls fos font cxs (some s₀) = some (some s)
  listens : s.Listens (c + es.length)

lemma leave_view (cx : Context) (s : Store C) (turn : Turn C) :
    (s.leave cx turn).map (Option.map fun s => s.terminal.view) = turn.outcome := by
  cases turn <;> rfl

lemma Reached.outcome {s₀ : Store C} (h : Reached fos font startTime pid c s₀ es cxs s) :
    Store.outcome fos font cxs s₀ = some (some s.terminal.view) := by
  rw [Store.outcome, h.calls]
  rfl

/-- A further call takes the next events, if it can draw. -/
lemma Reached.extend {s₀ : Store C} (h : Reached fos font startTime pid c s₀ es cxs s)
    (hlen : es'.length ≤ historySize) (hindex : c + es.length + es'.length + 1 < 2 ^ 64) :
    ∃ cxs', CutsInto startTime pid c (es ++ es') cxs' ∧
      (s.terminal.drawable font = false → Store.outcome fos font cxs' s₀ = none) ∧
      (s.terminal.drawable font = true →
        Store.outcome fos font cxs' s₀ = (newInputs fos startTime pid es' s.terminal).outcome ∧
        ∀ t ∈ (newInputs fos startTime pid es' s.terminal).terminal?, ∃ s' : Store C,
          s'.terminal = t ∧ Reached fos font startTime pid c s₀ (es ++ es') cxs' s') := by
  obtain ⟨input, hinput⟩ := Input.exists_delivers (c + es.length) es'
  let cx : Context := ⟨startTime, pid, input, none⟩
  have hclick : cx.click ≠ some false := by simp [cx]
  have hcalls : Store.calls fos font (cxs ++ [cx]) (some s₀) = start fos font cx (some s) := by
    rw [calls_append, h.calls, Option.bind_some, calls_singleton]
  have hstart := h.listens.start fos font hclick hinput hlen hindex
  have hcuts := h.cuts.snoc hlen rfl rfl hclick hinput
  refine ⟨cxs ++ [cx], hcuts, fun hdraw => ?_, fun hdraw => ⟨?_, fun t ht => ?_⟩⟩
  · rw [Store.outcome, hcalls, hstart, hdraw]
    rfl
  · rw [Store.outcome, hcalls, hstart, if_pos hdraw, leave_view]
  · refine ⟨(Store.opened fos cx (some s)).closed cx t, rfl, hcuts, ?_, ?_⟩
    · rw [hcalls, hstart, if_pos hdraw]
      exact leave_of_terminal ht
    · rw [List.length_append, ← Nat.add_assoc]
      exact h.listens.closed hclick hinput hindex t

/-- A call after a reset makes a new store. -/
lemma outcome_after_reset {s₀ : Store C} (hcuts : CutsInto startTime pid c es cxs)
    (hreset : outcome fos font cxs s₀ = some none) :
    ∃ cxs', CutsInto startTime pid c es cxs' ∧ outcome fos font cxs' s₀ ≠ some none := by
  obtain ⟨input, hinput⟩ := Input.exists_delivers (c + es.length) []
  let cx : Context := ⟨startTime, pid, input, none⟩
  have hcuts' : CutsInto startTime pid c (es ++ []) (cxs ++ [cx]) :=
    hcuts.snoc (Nat.zero_le _) rfl rfl (by simp [cx]) hinput
  rw [List.append_nil] at hcuts'
  refine ⟨cxs ++ [cx], hcuts', ?_⟩
  have hcalls : calls fos font cxs (some s₀) = some none := by
    obtain ⟨store, hstore, hnone⟩ := Option.map_eq_some_iff.mp hreset
    rw [hstore, Option.map_eq_none_iff.mp hnone]
  have hdraw : (opened fos cx none).canDraw font cx = true := by
    rw [canDraw, title_drawable]
    exact new_drawable font cx
  have hstart : start fos font cx none =
      some (some ((opened fos cx none).closed cx (opened fos cx none).terminal)) := by
    rw [start]
    exact if_pos hdraw
  rw [outcome, calls_append, hcalls, Option.bind_some, calls_singleton, hstart]
  simp

/-- An Enter was executed so far before these events that as many more could have come in its
call. -/
def Open (fos : Fomoscript C N E) (font : Font) (startTime pid c : ℕ) (s₀ : Store C)
    (es : List InputEvent) (behind : ℕ) (t : Terminal C) : Prop :=
  ∃ before inCall cxs s, es = before ++ inCall ∧
    Reached fos font startTime pid c s₀ before cxs s ∧ s.terminal.drawable font = true ∧
    newInputs fos startTime pid inCall s.terminal = .breakNewInputs t ∧
    inCall.length + behind ≤ historySize

/-- The call of the Enter could have taken the next event, too. -/
lemma Open.extend {s₀ : Store C} {behind : ℕ} {t : Terminal C} (e : InputEvent)
    (h : Open fos font startTime pid c s₀ es behind t) (hbehind : 0 < behind)
    (hindex : c + es.length + 2 < 2 ^ 64) :
    Open fos font startTime pid c s₀ (es ++ [e]) (behind - 1) t ∧
      ∃ cxs, CutsInto startTime pid c (es ++ [e]) cxs ∧
        Store.outcome fos font cxs s₀ = some (some t.view) := by
  obtain ⟨before, inCall, cxs, s, rfl, hreached, hdraw, hturn, hroom⟩ := h
  rw [List.length_append] at hindex
  have hturn' : newInputs fos startTime pid (inCall ++ [e]) s.terminal = .breakNewInputs t := by
    rw [newInputs_append, hturn]
  have hlen : (inCall ++ [e]).length = inCall.length + 1 := List.length_append
  rw [List.append_assoc]
  constructor
  · exact ⟨before, inCall ++ [e], cxs, s, rfl, hreached, hdraw, hturn', by omega⟩
  · have hfits : (inCall ++ [e]).length ≤ historySize := by omega
    obtain ⟨cxs', hcuts, -, hcall⟩ := hreached.extend hfits (by omega)
    refine ⟨cxs', hcuts, ?_⟩
    rw [(hcall hdraw).1, hturn']
    rfl

lemma view_of_outcome {turn : Turn C} {v : View} (h : turn.outcome = some (some v)) :
    ∃ t ∈ turn.terminal?, t.view = v := by
  cases turn with
  | next t =>
    cases h
    exact ⟨t, rfl, rfl⟩
  | breakNewInputs t =>
    cases h
    exact ⟨t, rfl, rfl⟩
  | reset => cases h
  | panic => cases h

/-- A call without events would panic at what is not drawable. -/
lemma Reached.drawable {s₀ : Store C} (h : Reached fos font startTime pid c s₀ es cxs s)
    (hindex : c + es.length + 1 < 2 ^ 64) (hagree : CuttingsAgree fos font startTime pid c s₀ es) :
    s.terminal.drawable font = true := by
  by_contra hnot
  have hlen : ([] : List InputEvent).length ≤ historySize := Nat.zero_le _
  obtain ⟨cxs', hcuts, hnone, -⟩ := h.extend hlen hindex
  rw [List.append_nil] at hcuts
  have hsame := hagree es List.prefix_rfl cxs cxs' h.cuts hcuts
  rw [h.outcome, hnone (by simpa using hnot)] at hsame
  cases hsame

/-- Cuttings that agree are safe, seen from the calls that take each event in a call of its own. -/
theorem safelyCut_of_agree {s₀ : Store C} {behind : ℕ}
    (h : Reached fos font startTime pid c s₀ es cxs s)
    (hindex : c + (es ++ es').length + 1 < 2 ^ 64)
    (hagree : CuttingsAgree fos font startTime pid c s₀ (es ++ es'))
    (hopen : 0 < behind → Open fos font startTime pid c s₀ es behind s.terminal) :
    SafelyCut fos font startTime pid behind es' s.terminal := by
  induction es' generalizing es cxs s behind with
  | nil =>
    rw [List.append_nil] at hindex hagree
    exact h.drawable hindex hagree
  | cons e es' ih =>
    rw [List.append_cons] at hindex hagree
    have hlen : (es ++ [e]).length = es.length + 1 := List.length_append
    rw [List.length_append, hlen] at hindex
    have hmoment : es ++ [e] <+: es ++ [e] ++ es' := List.prefix_append _ _
    have hdraw : s.terminal.drawable font = true := by
      apply h.drawable (by omega)
      intro before hbefore
      exact hagree before (hbefore.trans ((List.prefix_append es [e]).trans hmoment))
    have hone : [e].length ≤ historySize := Nat.succ_le_succ (Nat.zero_le _)
    obtain ⟨cxs', hcuts, -, hcall⟩ := h.extend hone (by simp only [List.length_singleton]; omega)
    obtain ⟨houtcome, hreached⟩ := hcall hdraw
    rw [newInputs_singleton] at houtcome hreached
    have hignores : 0 < behind → s.terminal.Ignores e := by
      intro hbehind
      obtain ⟨-, cxs'', hcuts'', houtcome''⟩ := (hopen hbehind).extend e hbehind (by omega)
      rw [hagree _ hmoment cxs' cxs'' hcuts hcuts'', houtcome''] at houtcome
      obtain ⟨t, ht, hview⟩ := view_of_outcome houtcome.symm
      exact ignores_of_view ht hview
    refine ⟨hdraw, hignores, ?_⟩
    cases hturn : newInput fos startTime pid e s.terminal with
    | next t =>
      obtain ⟨s', rfl, hs'⟩ := hreached t (by rw [hturn]; rfl)
      refine ih hs' (by rw [List.length_append, hlen]; omega) hagree fun hbehind => ?_
      have hpositive : 0 < behind := by omega
      rw [newInput_of_ignores (hignores hpositive)] at hturn
      rw [← Turn.next.inj hturn]
      exact ((hopen hpositive).extend e hpositive (by omega)).1
    | breakNewInputs t =>
      obtain ⟨s', rfl, hs'⟩ := hreached t (by rw [hturn]; rfl)
      refine ih hs' (by rw [List.length_append, hlen]; omega) hagree fun _ => ?_
      exact ⟨es, [e], cxs, s, rfl, h, hdraw, by rw [newInputs_singleton, hturn], le_refl _⟩
    | reset =>
      rw [hturn] at houtcome
      obtain ⟨cxs'', hcuts'', hother⟩ := outcome_after_reset hcuts houtcome
      apply hother
      rw [← hagree _ hmoment cxs' cxs'' hcuts hcuts'']
      exact houtcome
    | panic => trivial

/-- A sequence of events leaves the same history, mode, layout and modifiers however it is cut into
calls, at every moment of it, exactly when it is safely cut everywhere. -/
theorem cuttings_agree_iff (fos : Fomoscript C N E) (font : Font) (startTime pid c : ℕ)
    (s : Store C) (es : List InputEvent) (hs : s.Listens c) (hindex : c + es.length + 1 < 2 ^ 64) :
    CuttingsAgree fos font startTime pid c s es ↔
      SafelyCut fos font startTime pid 0 es s.terminal := by
  constructor
  · intro hagree
    have hreached : Reached fos font startTime pid c s [] [] s := ⟨.nil, rfl, hs⟩
    exact safelyCut_of_agree hreached hindex hagree (fun h => absurd h (Nat.lt_irrefl 0))
  · intro hsafe es' hes' cxs cxs' hcuts hcuts'
    obtain ⟨rest, rfl⟩ := hes'
    rw [List.length_append] at hindex
    rw [outcome_of_safelyCut hcuts hs (by omega) hsafe.front,
      outcome_of_safelyCut hcuts' hs (by omega) hsafe.front]

/-- A console at its first prompt, made active. -/
def firstPrompt : Store Unit where
  step := 1
  inputHistoryLastIndex := 0
  active := true
  terminal := (new .silent (.pressing [] none)).welcome.terminal

/-- `help` is executed, and then Enter is released. -/
theorem cuttings_agree_iff_help :
    CuttingsAgree .silent .latin 0 0 0 firstPrompt [⟨true, .keyH⟩, ⟨true, .keyE⟩, ⟨true, .keyL⟩,
      ⟨true, .keyP⟩, ⟨true, .keyEnter⟩, ⟨false, .keyEnter⟩] :=
  (cuttings_agree_iff .silent .latin 0 0 0 firstPrompt [⟨true, .keyH⟩, ⟨true, .keyE⟩,
    ⟨true, .keyL⟩, ⟨true, .keyP⟩, ⟨true, .keyEnter⟩, ⟨false, .keyEnter⟩]
    ⟨rfl, by decide, rfl⟩ (by decide)).mpr (by decide +kernel)

lemma delivers_pressing (before new : List Key) (click : Option Bool)
    (hlen : (before ++ new).length < historySize) :
    (Context.pressing (before ++ new) click).input.Delivers before.length
      (new.map fun key => ⟨true, key⟩) where
  index := by
    rw [Context.pressing, List.length_map, ← List.length_append]
    exact (Nat.mod_eq_of_lt (hlen.trans (by decide))).symm
  ring := by
    intro i hi _
    rw [List.length_map] at hi
    rw [List.length_append] at hlen
    have hslot : (before.length + 1 + i) % historySize = before.length + 1 + i :=
      Nat.mod_eq_of_lt (by omega)
    have hkey : (before ++ new).getD (before.length + 1 + i - 1) .reserved = new[i] := by
      rw [show before.length + 1 + i - 1 = before.length + i by omega,
        List.getD_append_right _ _ _ _ (Nat.le_add_right _ _), Nat.add_sub_cancel_left]
      exact List.getD_eq_getElem _ _ hi
    rw [hslot, List.getElem_map, ← hkey]
    rfl

/-- A letter typed behind an Enter is lost if both come in one call. -/
theorem letter_behind_enter_is_lost : ¬∀ (C N E : Type) (fos : Fomoscript C N E) (font : Font)
    (startTime pid c : ℕ) (s : Store C) (es : List InputEvent), s.Listens c →
      c + es.length + 1 < 2 ^ 64 → feed fos startTime pid es s.terminal ≠ .reset →
      ∀ cxs cxs', CutsInto startTime pid c es cxs → CutsInto startTime pid c es cxs' →
        outcome fos font cxs s = outcome fos font cxs' s := by
  intro h
  have htogether : CutsInto 0 0 0 [⟨true, .keyEnter⟩, ⟨true, .keyA⟩]
      [.pressing [.keyEnter, .keyA] none] :=
    CutsInto.call (by decide) rfl rfl (by decide)
      (delivers_pressing [] [.keyEnter, .keyA] none (by decide)) .nil
  have hapart : CutsInto 0 0 0 [⟨true, .keyEnter⟩, ⟨true, .keyA⟩]
      [.pressing [.keyEnter] none, .pressing [.keyEnter, .keyA] none] :=
    CutsInto.call (by decide) rfl rfl (by decide)
      (delivers_pressing [] [.keyEnter] none (by decide))
      (CutsInto.call (by decide) rfl rfl (by decide)
        (delivers_pressing [.keyEnter] [.keyA] none (by decide)) .nil)
  have hnoReset : feed .silent 0 0 [⟨true, .keyEnter⟩, ⟨true, .keyA⟩] firstPrompt.terminal ≠
      .reset := by
    intro hreset
    have := congrArg Turn.outcome hreset
    revert this
    decide +kernel
  have hsame := h Unit Unit Unit .silent .latin 0 0 0 firstPrompt _ ⟨rfl, by decide, rfl⟩
    (by decide) hnoReset _ _ htogether hapart
  revert hsame
  decide +kernel

end Store
end Fomos.Console
