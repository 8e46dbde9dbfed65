import Mathlib
import Fomos.Console.Store

/-!
# The turns of the console's loop

What an event can do to the terminal: a modifier key sets its flag, a press edits the last atom,
and Enter answers below it and opens a prompt, or resets the console, or panics.
-/
namespace Fomos

namespace Key

lemma char_keyBackspace (loc : Local) (shift altg : Bool) :
    keyBackspace.char loc shift altg = none := by
  cases loc <;> cases shift <;> cases altg <;> decide +kernel

end Key

namespace Console.Terminal
variable {C N E : Type} {fos : Fomoscript C N E} {startTime pid : ℕ} {t t' : Terminal C}
  {e : InputEvent} {text : List Char} {older : List Atom}

@[simp] lemma say_consoleHistory (text : List Char) (t : Terminal C) :
    (t.say text).consoleHistory = ⟨false, text⟩ :: t.consoleHistory := rfl

@[simp] lemma openPrompt_consoleHistory (t : Terminal C) :
    t.openPrompt.consoleHistory = ⟨true, t.mode.prompt⟩ :: t.consoleHistory := rfl

@[simp] lemma openPrompt_mode (t : Terminal C) : t.openPrompt.mode = t.mode := rfl

@[simp] lemma modifiers_consoleHistory (e : InputEvent) (t : Terminal C) :
    (modifiers e t).consoleHistory = t.consoleHistory := by
  unfold modifiers
  split <;> rfl

@[simp] lemma modifiers_mode (e : InputEvent) (t : Terminal C) :
    (modifiers e t).mode = t.mode := by
  unfold modifiers
  split <;> rfl

lemma edit_keyBackspace (t : Terminal C) (text : List Char) :
    edit .keyBackspace t text = if 1 < String.utf8Len text then text.dropLast else text := by
  rw [edit, Key.char_keyBackspace]
  simp

/-- A press at an atom of the user, but for the Enter that executes it. -/
lemma press_edit {key : Key} (h : t.consoleHistory = ⟨true, text⟩ :: older)
    (hkey : ¬(key = .keyEnter ∧ t.shift = false)) :
    press fos startTime pid key t =
      .next { t with consoleHistory := ⟨true, edit key t text⟩ :: older } := by
  rw [press, h]
  exact if_neg (by simpa using hkey)

lemma press_enter (h : t.consoleHistory = ⟨true, text⟩ :: older) (hshift : t.shift = false) :
    press fos startTime pid Key.keyEnter t = enter fos startTime pid text t := by
  rw [press, h]
  exact if_pos (by simpa using hshift)

/-- A press where the last atom is not the user's. -/
lemma press_ignored {key : Key} (h : ∀ text older, t.consoleHistory ≠ ⟨true, text⟩ :: older) :
    press fos startTime pid key t = .next t := by
  unfold press
  split
  · exact absurd ‹_› (h _ _)
  · rfl

/-- The value that Enter shows, if what it executes is a script. -/
def result (fos : Fomoscript C N E) (startTime pid : ℕ) (text : List Char) (t : Terminal C) :
    Option N :=
  match t.mode with
  | .fomoscriptREPL => (Utf8.sliceFrom 4 text).bind fun code => (runLine fos code t.scriptCtx).1
  | .shell =>
    if ">eval ".toList.isPrefixOf text then
      (Utf8.sliceFrom 5 text).map fun code => (runScript fos startTime pid code t.scriptCtx).1
    else none

/-- Newlines and printable characters of basic latin only. -/
def isPlain (text : List Char) : Bool :=
  text.all fun c => c = '\n' || (0x20 ≤ c.toNat && c.toNat ≤ 0x7E)

lemma isPlain_append (text text' : List Char) :
    isPlain (text ++ text') = (isPlain text && isPlain text') := List.all_append

lemma decimal_range {n : ℕ} {c : Char} (h : c ∈ decimal n) : 0x30 ≤ c.toNat ∧ c.toNat ≤ 0x39 := by
  have hdigit := Nat.isDigit_of_mem_toDigits (by decide) (le_refl 10) h
  simpa [Char.isDigit, UInt32.le_iff_toNat_le] using hdigit

lemma isPlain_decimal (n : ℕ) : isPlain (decimal n) = true := by
  apply List.all_eq_true.mpr
  intro c hc
  have hrange := decimal_range hc
  simp only [Bool.or_eq_true, Bool.and_eq_true, decide_eq_true_eq]
  omega

/-- What Enter says: the value of a script, or a text of its own, or nothing. -/
def Answers (fos : Fomoscript C N E) (startTime pid : ℕ) (text : List Char) (t : Terminal C)
    (answer : Option (List Char)) : Prop :=
  match result fos startTime pid text t with
  | some res => answer = some (evalText fos res)
  | none => ∀ a ∈ answer, isPlain a = true

/-- What Enter leaves, if it leaves a terminal: an answer below the history, and a prompt. -/
def Leaves (fos : Fomoscript C N E) (startTime pid : ℕ) (text : List Char) (t : Terminal C)
    (turn : Turn C) : Prop :=
  ∃ t₁ answer, turn = .breakNewInputs (openPrompt t₁) ∧ Answers fos startTime pid text t answer ∧
    t₁.consoleHistory = answer.toList.map (Atom.mk false) ++ t.consoleHistory

lemma Leaves.plain {t₁ : Terminal C} {answer : List Char}
    (hresult : result fos startTime pid text t = none) (hplain : isPlain answer = true)
    (hhistory : t₁.consoleHistory = t.consoleHistory) :
    Leaves fos startTime pid text t (.breakNewInputs (t₁.say answer).openPrompt) := by
  refine ⟨t₁.say answer, some answer, rfl, ?_, ?_⟩
  · rw [Answers, hresult]
    rintro a ⟨⟩
    exact hplain
  · rw [say_consoleHistory, hhistory]
    rfl

lemma result_command {name : String} (hmode : t.mode = .shell) (hname : String.ofList text = name)
    (hnot : ">eval ".toList.isPrefixOf name.toList = false) :
    result fos startTime pid text t = none := by
  have htext : text = name.toList := by
    rw [← hname, String.toList_ofList]
  rw [result, hmode, htext, hnot]
  rfl

lemma command_cases (text : List Char) (hmode : t.mode = .shell) :
    Leaves fos startTime pid text t (command fos startTime pid text t) ∨
      (command fos startTime pid text t = .reset ∧ result fos startTime pid text t = none) := by
  unfold command
  split
  case h_1 hname =>
    exact .inl (.plain (result_command hmode hname (by decide)) (by decide +kernel) rfl)
  case h_2 hname =>
    refine .inl (.plain (result_command hmode hname (by decide)) ?_ rfl)
    rw [isPlain_append, isPlain_decimal]
    decide +kernel
  case h_3 hname =>
    refine .inl (.plain (result_command hmode hname (by decide)) ?_ rfl)
    rw [isPlain_append, isPlain_append, isPlain_decimal]
    decide +kernel
  case h_4 hname =>
    exact .inl (.plain (result_command hmode hname (by decide)) (by decide +kernel) rfl)
  case h_5 hname =>
    exact .inl (.plain (result_command hmode hname (by decide)) (by decide +kernel) rfl)
  case h_6 hname => exact .inr ⟨rfl, result_command hmode hname (by decide)⟩
  case h_7 hname =>
    exact .inl (.plain (result_command hmode hname (by decide)) (by decide +kernel) rfl)
  case h_8 =>
    split
    case isTrue heval =>
      obtain ⟨rest, rfl⟩ := List.isPrefixOf_iff_prefix.mp heval
      have hslice : Utf8.sliceFrom 5 (">eval ".toList ++ rest) = some (' ' :: rest) :=
        Utf8.sliceFrom_append ">eval".toList (' ' :: rest)
      rw [evalScript, hslice]
      refine .inl ⟨_, some (evalText fos (runScript fos startTime pid (' ' :: rest) t.scriptCtx).1),
        rfl, ?_, rfl⟩
      rw [Answers, result, hmode]
      simp only [heval, if_true, hslice, Option.map_some]
    case isFalse heval =>
      refine .inl (.plain ?_ (by decide +kernel) rfl)
      rw [result, hmode]
      exact if_neg heval

/-- Enter always leaves a new prompt, but for a reset, and for a line of the REPL without a fourth
byte to slice at, which panics. -/
theorem enter_cases (fos : Fomoscript C N E) (startTime pid : ℕ) (text : List Char)
    (t : Terminal C) :
    Leaves fos startTime pid text t (enter fos startTime pid text t) ∨
      (enter fos startTime pid text t = .reset ∧ result fos startTime pid text t = none) ∨
      (enter fos startTime pid text t = .panic ∧ t.mode = .fomoscriptREPL ∧
        Utf8.sliceFrom 4 text = none) := by
  rw [enter]
  cases hmode : t.mode with
  | shell => exact (command_cases text hmode).imp_right .inl
  | fomoscriptREPL =>
    cases hslice : Utf8.sliceFrom 4 text with
    | none =>
      refine .inr (.inr ⟨?_, rfl, rfl⟩)
      simp [evalLine, hslice]
    | some code =>
      left
      rcases hline : runLine fos code t.scriptCtx with ⟨_ | res, c, quit⟩
      · refine ⟨t.afterEval c quit, none, ?_, ?_, rfl⟩
        · simp [evalLine, hslice, hline]
        · simp [Answers, result, hmode, hslice, hline]
      · refine ⟨(t.afterEval c quit).say (evalText fos res), some (evalText fos res), ?_, ?_, rfl⟩
        · simp [evalLine, hslice, hline]
        · simp [Answers, result, hmode, hslice, hline]

lemma newInput_release (h : e.trigger = false) :
    newInput fos startTime pid e t = .next (modifiers e t) := by
  rw [newInput, h]
  rfl

lemma newInput_ignored (h : ∀ text older, t.consoleHistory ≠ ⟨true, text⟩ :: older) :
    newInput fos startTime pid e t = .next (modifiers e t) := by
  rw [newInput]
  split
  · apply press_ignored
    simpa using h
  · rfl

/-- Enter is no modifier key. -/
lemma modifiers_enter (h : e.key = .keyEnter) : modifiers e t = t := by
  rw [modifiers, h]

lemma newInput_enter (htrigger : e.trigger = true) (hkey : e.key = .keyEnter)
    (hshift : t.shift = false) (h : t.consoleHistory = ⟨true, text⟩ :: older) :
    newInput fos startTime pid e t = enter fos startTime pid text t := by
  rw [newInput, if_pos htrigger, modifiers_enter hkey, hkey]
  exact press_enter h hshift

lemma newInput_edit (htrigger : e.trigger = true) (hkey : ¬(e.key = .keyEnter ∧ t.shift = false))
    (h : t.consoleHistory = ⟨true, text⟩ :: older) :
    newInput fos startTime pid e t =
      .next { modifiers e t with
        consoleHistory := ⟨true, edit e.key (modifiers e t) text⟩ :: older } := by
  rw [newInput, if_pos htrigger]
  apply press_edit (by rw [modifiers_consoleHistory, h])
  rintro ⟨henter, hshift⟩
  rw [modifiers_enter henter] at hshift
  exact hkey ⟨henter, hshift⟩

/-- An event that ends the loop decides what it leaves. -/
lemma newInputs_done {es : List InputEvent}
    (h : ∀ t', newInput fos startTime pid e t ≠ .next t') :
    newInputs fos startTime pid (e :: es) t = newInput fos startTime pid e t := by
  rw [newInputs]
  split
  · exact absurd ‹_› (h _)
  · rfl

lemma newInputs_singleton (e : InputEvent) (t : Terminal C) :
    newInputs fos startTime pid [e] t = newInput fos startTime pid e t := by
  rw [newInputs]
  split
  · symm
    assumption
  · rfl

/-- The text of the last atom, if it is the user's. -/
def userText (t : Terminal C) : Option (List Char) :=
  match t.consoleHistory with
  | ⟨true, text⟩ :: _ => some text
  | _ => none

lemma userText_eq_some :
    t.userText = some text ↔ ∃ older, t.consoleHistory = ⟨true, text⟩ :: older := by
  unfold userText
  split
  · simp_all
  · rename_i hnot
    exact iff_of_false nofun fun ⟨older, h⟩ => hnot text older h

/-- Each event that the loop comes to meets the guard at the terminal it finds. -/
def EveryTurn (fos : Fomoscript C N E) (startTime pid : ℕ)
    (guard : InputEvent → Terminal C → Prop) : List InputEvent → Terminal C → Prop
  | [], _ => True
  | e :: es, t => guard e t ∧
    ∀ t', newInput fos startTime pid e t = .next t' → EveryTurn fos startTime pid guard es t'

instance EveryTurn.decidable {guard : InputEvent → Terminal C → Prop}
    [∀ e t, Decidable (guard e t)] :
    ∀ (es : List InputEvent) (t : Terminal C), Decidable (EveryTurn fos startTime pid guard es t)
  | [], _ => isTrue trivial
  | e :: es, t =>
    have : Decidable (∀ t', newInput fos startTime pid e t = .next t' →
        EveryTurn fos startTime pid guard es t') :=
      match newInput fos startTime pid e t with
      | .next t' =>
        have : Decidable (EveryTurn fos startTime pid guard es t') := decidable es t'
        decidable_of_iff (EveryTurn fos startTime pid guard es t')
          ⟨fun h _ ht => Turn.next.inj ht ▸ h, fun h => h t' rfl⟩
      | .breakNewInputs _ => isTrue nofun
      | .reset => isTrue nofun
      | .panic => isTrue nofun
    inferInstanceAs (Decidable (_ ∧ _))

lemma EveryTurn.mono {guard guard' : InputEvent → Terminal C → Prop}
    (hguard : ∀ e t, guard e t → guard' e t) {es : List InputEvent}
    (h : EveryTurn fos startTime pid guard es t) : EveryTurn fos startTime pid guard' es t := by
  induction es generalizing t with
  | nil => trivial
  | cons e es ih => exact ⟨hguard e t h.1, fun t' ht' => ih (h.2 t' ht')⟩

/-- What a turn that meets its guard keeps, and no other turn does, holds while the loop runs
exactly when every turn meets the guard. -/
theorem everyTurn_iff {P : Turn C → Prop} {guard : InputEvent → Terminal C → Prop}
    (hstep : ∀ e t, P (.next t) → (P (newInput fos startTime pid e t) ↔ guard e t))
    (es : List InputEvent) (h : P (.next t)) :
    (∀ taken, taken <+: es → P (newInputs fos startTime pid taken t)) ↔
      EveryTurn fos startTime pid guard es t := by
  induction es generalizing t with
  | nil =>
    constructor
    · intro _
      trivial
    · intro _ taken htaken
      rw [List.prefix_nil.mp htaken]
      exact h
  | cons e es ih =>
    constructor
    · intro hall
      have hone : P (newInput fos startTime pid e t) := by
        rw [← newInputs_singleton]
        exact hall [e] ((List.prefix_cons_inj e).mpr List.nil_prefix)
      refine ⟨(hstep e t h).mp hone, fun t' ht' => ?_⟩
      rw [ht'] at hone
      apply (ih hone).mp
      intro taken htaken
      have := hall (e :: taken) ((List.prefix_cons_inj e).mpr htaken)
      rwa [newInputs, ht'] at this
    · rintro ⟨hguard, hrest⟩ taken htaken
      cases taken with
      | nil => exact h
      | cons e' taken =>
        obtain ⟨rfl, hrestTaken⟩ := List.cons_prefix_cons.mp htaken
        have hone := (hstep e' t h).mpr hguard
        by_cases hnext : ∃ t', newInput fos startTime pid e' t = .next t'
        · obtain ⟨t', hturn⟩ := hnext
          rw [hturn] at hone
          rw [newInputs, hturn]
          exact (ih hone).mpr (hrest t' hturn) taken hrestTaken
        · rw [newInputs_done (fun t' ht' => hnext ⟨t', ht'⟩)]
          exact hone

end Console.Terminal

namespace Console.Store
variable {C N E : Type} {fos : Fomoscript C N E} {font : Font} {cx : Context}
  {store store' : Option (Store C)}

/-- What the loop of a call makes of the new events. -/
def taken (fos : Fomoscript C N E) (cx : Context) (store : Option (Store C)) : Turn C :=
  Terminal.newInputs fos cx.startTime cx.pid (newEvents cx (opened fos cx store))
    (opened fos cx store).terminal

lemma leave_of_terminal {s : Store C} {turn : Turn C} {t : Terminal C} (h : t ∈ turn.terminal?) :
    s.leave cx turn = some (some (s.closed cx t)) := by
  cases turn <;> cases h <;> rfl

lemma leave_cases {s : Store C} {turn : Turn C} (h : s.leave cx turn = some store') :
    store' = none ∨ ∃ t ∈ turn.terminal?, store' = some (s.closed cx t) := by
  cases turn with
  | next t =>
    cases h
    exact .inr ⟨t, rfl, rfl⟩
  | breakNewInputs t =>
    cases h
    exact .inr ⟨t, rfl, rfl⟩
  | reset =>
    cases h
    exact .inl rfl
  | panic => cases h

/-- A call returns with the terminal that its loop leaves, or with a dropped store. -/
lemma start_cases (h : start fos font cx store = some store') :
    store' = none ∨ ∃ t ∈ (taken fos cx store).terminal?,
      store' = some ((opened fos cx store).closed cx t) := by
  rw [start] at h
  split at h
  · exact leave_cases h
  · cases h

lemma welcome_of_started {s : Store C} (h : 0 < s.step) : s.welcome = s :=
  if_neg (Nat.pos_iff_ne_zero.mp h)

/-- The store of a console that was called before, with what holds of its terminal. -/
def Left (P : Terminal C → Prop) (store : Option (Store C)) : Prop :=
  ∀ s ∈ store, 0 < s.step ∧ P s.terminal

lemma Left.opened {P : Terminal C → Prop} (hnew : P (new fos cx).welcome.terminal)
    (h : Left P store) : P (opened fos cx store).terminal := by
  cases store with
  | none => exact hnew
  | some s =>
    have hs := h s rfl
    rw [Store.opened, Option.getD_some, welcome_of_started hs.1]
    exact hs.2

/-- What the terminal of a new store has, and every guarded call keeps. -/
theorem reach_left {P : Terminal C → Prop} {guard : Option (Store C) → Context → Prop}
    (hnew : ∀ cx : Context, P (new fos cx).welcome.terminal)
    (hcall : ∀ store cx, P (opened fos cx store).terminal → guard store cx →
      ∀ t ∈ (taken fos cx store).terminal?, P t)
    (h : Transition.Reach (start fos font) (fun store cx _ => guard store cx) none store) :
    Left P store := by
  apply Transition.Reach.invariant _ _ h
  · rintro s ⟨⟩
  · intro store cx store' _ hstore hstart hguard
    obtain rfl | ⟨t, ht, rfl⟩ := start_cases hstart
    · rintro s ⟨⟩
    · rintro s ⟨⟩
      exact ⟨Nat.succ_pos _, hcall store cx (hstore.opened (hnew cx)) hguard t ht⟩

end Console.Store
end Fomos
