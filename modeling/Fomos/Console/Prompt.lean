import Mathlib
import Fomos.Console.Turns

/-!
# The prompt of the console

The last atom of the history begins with the prompt of the mode, and Enter slices it behind the
prompt. A backspace keeps one byte of the atom, which is the prompt of the shell; of the prompt of
the REPL it keeps less.
-/
namespace Fomos.Console
open String

namespace Terminal
variable {C N E : Type} {fos : Fomoscript C N E} {startTime pid : ℕ} {t : Terminal C}
  {e : InputEvent}

def Prompted (t : Terminal C) : Prop :=
  ∃ typed older, t.consoleHistory = ⟨true, t.mode.prompt ++ typed⟩ :: older

/-- A backspace that takes a character of the prompt of the REPL. -/
def DeletesPrompt (e : InputEvent) (t : Terminal C) : Prop :=
  e.trigger = true ∧ e.key = .keyBackspace ∧ t.mode = .fomoscriptREPL ∧
    ∃ older, t.consoleHistory = ⟨true, t.mode.prompt⟩ :: older

instance (e : InputEvent) (t : Terminal C) : Decidable (DeletesPrompt e t) :=
  decidable_of_iff (e.trigger = true ∧ e.key = .keyBackspace ∧ t.mode = .fomoscriptREPL ∧
    t.mode.prompt ∈ t.userText) (by simp [DeletesPrompt, userText_eq_some])

lemma prompted_openPrompt (t : Terminal C) : t.openPrompt.Prompted := by
  refine ⟨[], t.consoleHistory, ?_⟩
  rw [openPrompt_consoleHistory, openPrompt_mode, List.append_nil]

/-- A key other than backspace only adds to the text. -/
lemma edit_adds {key : Key} (hkey : key ≠ .keyBackspace) (t : Terminal C) (text : List Char) :
    ∃ added, edit key t text = text ++ added := by
  rw [edit, if_neg (by simp [hkey])]
  cases key.char t.loc t.shift t.altg with
  | some c => exact ⟨[c], rfl⟩
  | none =>
    by_cases henter : key = .keyEnter ∧ t.shift = true
    · exact ⟨['\n'], if_pos henter⟩
    · refine ⟨[], ?_⟩
      rw [List.append_nil]
      exact if_neg henter

/-- Backspace stays behind the prompt of the shell, and behind that of the REPL if anything is
typed there. -/
lemma backspace_behind_iff (m : Mode) (t : Terminal C) (typed : List Char) :
    (∃ typed', edit .keyBackspace t (m.prompt ++ typed) = m.prompt ++ typed') ↔
      ¬(m = .fomoscriptREPL ∧ typed = []) := by
  rw [edit_keyBackspace]
  obtain rfl | ⟨typed, c, rfl⟩ := List.eq_nil_or_concat typed
  · cases m with
    | shell => exact iff_of_true ⟨[], by decide⟩ (by simp)
    | fomoscriptREPL =>
      apply iff_of_false
      · rintro ⟨typed', htyped⟩
        have hedit : (if 1 < utf8Len (Mode.fomoscriptREPL.prompt ++ []) then
            (Mode.fomoscriptREPL.prompt ++ []).dropLast else Mode.fomoscriptREPL.prompt ++ []) =
              ['f', 'o', 's'] := by decide
        rw [hedit] at htyped
        simp [Mode.prompt] at htyped
      · simp
  · apply iff_of_true
    · have hlen : 1 < utf8Len (m.prompt ++ typed.concat c) := by
        have hprompt : 1 ≤ utf8Len m.prompt := by cases m <;> decide
        have hc := c.utf8Size_pos
        rw [List.concat_eq_append, utf8Len_append, utf8Len_append, utf8Len_cons]
        omega
      refine ⟨typed, ?_⟩
      rw [if_pos hlen, List.concat_eq_append, ← List.append_assoc, List.dropLast_concat]
    · simp

end Terminal

/-- A turn that did not panic has left the terminal prompted. -/
def Turn.Prompted {C : Type} : Turn C → Prop
  | next t => t.Prompted
  | breakNewInputs t => t.Prompted
  | reset => True
  | panic => False

namespace Terminal
variable {C N E : Type} {fos : Fomoscript C N E} {startTime pid : ℕ} {t : Terminal C}

/-- Enter slices behind the prompt, and opens the next one. -/
lemma enter_prompted (h : t.Prompted) {text : List Char} {older : List Atom}
    (htext : t.consoleHistory = ⟨true, text⟩ :: older) :
    (enter fos startTime pid text t).Prompted := by
  obtain ⟨t₁, answer, hleaves, -, -⟩ | ⟨hreset, -⟩ | ⟨-, hmode, hslice⟩ :=
    enter_cases fos startTime pid text t
  · rw [hleaves]
    exact prompted_openPrompt t₁
  · rw [hreset]
    trivial
  · obtain ⟨typed, older', hhistory⟩ := h
    obtain rfl : t.mode.prompt ++ typed = text := by
      rw [hhistory] at htext
      simpa using (List.cons.inj htext).1
    have hprompt := Utf8.sliceFrom_append t.mode.prompt typed
    rw [hmode] at hslice hprompt
    rw [show utf8Len Mode.fomoscriptREPL.prompt = 4 by decide, hslice] at hprompt
    cases hprompt

/-- One event keeps the prompt, and does not panic, exactly when it is no backspace on it. -/
theorem newInput_prompted_iff (e : InputEvent) (t : Terminal C) (h : t.Prompted) :
    (newInput fos startTime pid e t).Prompted ↔ ¬DeletesPrompt e t := by
  obtain ⟨typed, older, hhistory⟩ := id h
  cases htrigger : e.trigger with
  | false =>
    rw [newInput_release htrigger]
    apply iff_of_true
    · exact ⟨typed, older, by rw [modifiers_consoleHistory, modifiers_mode, hhistory]⟩
    · simp [DeletesPrompt, htrigger]
  | true =>
    by_cases henter : e.key = .keyEnter ∧ t.shift = false
    · rw [newInput_enter htrigger henter.1 henter.2 hhistory]
      apply iff_of_true (enter_prompted h hhistory)
      simp [DeletesPrompt, henter.1]
    · rw [newInput_edit htrigger henter hhistory]
      have hedited : (Turn.next { modifiers e t with consoleHistory :=
            ⟨true, edit e.key (modifiers e t) (t.mode.prompt ++ typed)⟩ :: older }).Prompted ↔
          ∃ typed',
            edit e.key (modifiers e t) (t.mode.prompt ++ typed) = t.mode.prompt ++ typed' := by
        simp [Turn.Prompted, Prompted]
      rw [hedited]
      by_cases hkey : e.key = .keyBackspace
      · rw [hkey, backspace_behind_iff]
        simp [DeletesPrompt, htrigger, hkey, hhistory]
      · apply iff_of_true
        · obtain ⟨added, hadded⟩ := edit_adds hkey (modifiers e t) (t.mode.prompt ++ typed)
          exact ⟨typed ++ added, by rw [hadded, List.append_assoc]⟩
        · simp [DeletesPrompt, hkey]

end Terminal

namespace Store
variable {C N E : Type} (fos : Fomoscript C N E) (font : Font)

/-- No event that the next call takes is a backspace on the prompt of the REPL. -/
def PromptSpared (store : Option (Store C)) (cx : Context) : Prop :=
  Terminal.EveryTurn fos cx.startTime cx.pid (fun e t => ¬Terminal.DeletesPrompt e t)
    (newEvents cx (opened fos cx store)) (opened fos cx store).terminal

instance (store : Option (Store C)) (cx : Context) : Decidable (PromptSpared fos store cx) :=
  inferInstanceAs (Decidable (Terminal.EveryTurn ..))

/-- While a call runs, after each event it has taken, the last atom begins with the prompt, and no
slice has panicked. -/
def PromptedThroughout (store : Option (Store C)) (cx : Context) : Prop :=
  ∀ taken, taken <+: newEvents cx (opened fos cx store) →
    (Terminal.newInputs fos cx.startTime cx.pid taken (opened fos cx store).terminal).Prompted

variable {fos font}

lemma promptedThroughout_iff {store : Option (Store C)} {cx : Context}
    (h : (opened fos cx store).terminal.Prompted) :
    PromptedThroughout fos store cx ↔ PromptSpared fos store cx :=
  Terminal.everyTurn_iff Terminal.newInput_prompted_iff _ h

lemma prompted_of_taken {turn : Turn C} (h : turn.Prompted) :
    ∀ t ∈ turn.terminal?, t.Prompted := by
  intro t ht
  cases turn <;> cases ht
  all_goals exact h

/-- After calls that spare the prompt of the REPL, the last atom begins with the prompt of the mode,
and it does throughout the next call, with no slice that panics, exactly when that call spares
it, too. -/
theorem prompt_kept_iff {store : Option (Store C)}
    (h : Transition.Reach (start fos font) (fun store cx _ => PromptSpared fos store cx) none
      store) :
    (∀ s ∈ store, s.terminal.Prompted) ∧
      ∀ cx, PromptedThroughout fos store cx ↔ PromptSpared fos store cx := by
  have hnew : ∀ cx : Context, (new fos cx).welcome.terminal.Prompted :=
    fun _ => ⟨[], _, rfl⟩
  have hleft : Left Terminal.Prompted store := by
    apply reach_left hnew _ h
    intro store cx hopened hspared
    apply prompted_of_taken
    exact (promptedThroughout_iff hopened).mpr hspared _ List.prefix_rfl
  constructor
  · intro s hs
    exact (hleft s hs).2
  · intro cx
    exact promptedThroughout_iff (hleft.opened (hnew cx))

/-- The console executes `repl`, and then a line of two letters, of which one is deleted. -/
theorem prompt_kept_iff_repl :
    ∃ s : Store Unit, s.terminal.mode = .fomoscriptREPL ∧ s.terminal.Prompted ∧
      PromptedThroughout .silent (some s) (.pressing ([.keyR, .keyE, .keyP, .keyL, .keyEnter] ++
        [.keyA, .keyB, .keyBackspace, .keyEnter]) none) := by
  have hrun : ((Transition.run (start .silent .latin)
      (fun store cx _ => PromptSpared .silent store cx)
      [.pressing [] (some true), .pressing [.keyR, .keyE, .keyP, .keyL, .keyEnter] none]
      none).any fun store => store.any fun s => decide (s.terminal.mode = .fomoscriptREPL ∧
        PromptSpared .silent (some s) (.pressing ([.keyR, .keyE, .keyP, .keyL, .keyEnter] ++
          [.keyA, .keyB, .keyBackspace, .keyEnter]) none))) = true := by
    decide +kernel
  simp only [Option.any_eq_true, decide_eq_true_eq] at hrun
  obtain ⟨store, hstore, s, rfl, hmode, hspared⟩ := hrun
  obtain ⟨hprompted, hnext⟩ := prompt_kept_iff (Transition.Reach.start.of_run hstore)
  exact ⟨s, hmode, hprompted s rfl, (hnext _).mpr hspared⟩

/-- The console types and executes `repl`, and then takes a backspace. -/
theorem prompt_lost : ¬∀ (C N E : Type) (fos : Fomoscript C N E) (font : Font)
    (store : Option (Store C)), Transition.Reach (start fos font) (fun _ _ _ => True) none store →
      ∀ s ∈ store, s.terminal.Prompted := by
  intro h
  have hrun : ∃ s : Store Unit, Transition.run (start .silent .latin) (fun _ _ _ => True)
      [.pressing [] (some true), .pressing [.keyR, .keyE, .keyP, .keyL, .keyEnter] none,
        .pressing [.keyR, .keyE, .keyP, .keyL, .keyEnter, .keyBackspace] none] none =
        some (some s) ∧ s.terminal.mode = .fomoscriptREPL ∧
        s.terminal.consoleHistory.head? = some ⟨true, ['f', 'o', 's']⟩ := by
    refine ⟨_, rfl, ?_, ?_⟩
    · rfl
    · rfl
  obtain ⟨s, hs, hmode, hlast⟩ := hrun
  obtain ⟨typed, older, hhistory⟩ :=
    h Unit Unit Unit .silent .latin (some s) (Transition.Reach.start.of_run hs) s rfl
  rw [hhistory, hmode] at hlast
  simp [Mode.prompt] at hlast

end Store
end Fomos.Console
