import Mathlib
import Fomos.Console.Turns

/-!
# The characters of the console

What the console draws is what was typed and answered before. The key table gives printable basic
latin, but for one entry: the superscript two of the French layout, which has no raster.
-/
namespace Fomos
open Console.Terminal

/-- The entry of the key table that is not of basic latin. -/
def Key.IsSuperscript (key : Key) (loc : Local) (shift altg : Bool) : Prop :=
  key = .keyGrave ∧ loc = .fr ∧ shift = false ∧ altg = false

namespace Key

instance (key : Key) (loc : Local) (shift altg : Bool) :
    Decidable (key.IsSuperscript loc shift altg) :=
  inferInstanceAs (Decidable (_ ∧ _))

/-- The whole table is looked through. -/
lemma char_plain {key : Key} {loc : Local} {shift altg : Bool} {c : Char}
    (h : key.char loc shift altg = some c) (hnot : ¬key.IsSuperscript loc shift altg) :
    isPlain [c] = true := by
  have hall : (all.all fun key => [Local.en, Local.fr].all fun loc => [false, true].all fun shift =>
      [false, true].all fun altg => decide (key.IsSuperscript loc shift altg) ||
        (key.char loc shift altg).all fun c => isPlain [c]) = true := by
    decide +kernel
  simp only [List.all_eq_true] at hall
  have hentry := hall key key.mem_all loc (by cases loc <;> decide) shift
    (by cases shift <;> decide)
    altg (by cases altg <;> decide)
  rw [h, decide_eq_false hnot] at hentry
  exact hentry

lemma char_superscript : keyGrave.char .fr false false = some '²' := by decide +kernel

end Key

namespace Font

lemma hasRaster_of_isPlain (font : Font) {text : List Char} (h : isPlain text = true) :
    textDrawable font text = true := by
  rw [isPlain, List.all_eq_true] at h
  rw [textDrawable, List.all_eq_true]
  intro c hc
  have hplain := h c hc
  simp only [Bool.or_eq_true, Bool.and_eq_true, decide_eq_true_eq] at hplain ⊢
  apply hplain.imp_right
  rintro ⟨hlow, hhigh⟩
  exact font.basicLatin c hlow hhigh

lemma superscript_not_drawable (font : Font) : textDrawable font ['²'] = false := by
  have hnone : font.hasRaster '²' = false := by
    apply Bool.eq_false_iff.mpr
    intro h
    have := font.nothingElse _ h
    revert this
    decide
  simp [textDrawable, hnone]

end Font

namespace Console
namespace Terminal
variable {C N E : Type} {fos : Fomoscript C N E} {font : Font} {startTime pid : ℕ}
  {t : Terminal C} {e : InputEvent} {text : List Char} {older : List Atom}

lemma textDrawable_append (text text' : List Char) :
    textDrawable font (text ++ text') = (textDrawable font text && textDrawable font text') :=
  List.all_append

lemma textDrawable_dropLast (h : textDrawable font text = true) :
    textDrawable font text.dropLast = true := by
  rw [textDrawable, List.all_eq_true] at h ⊢
  intro c hc
  exact h c (List.mem_of_mem_dropLast hc)

lemma drawable_of_history (h : t.consoleHistory = ⟨true, text⟩ :: older) :
    t.drawable font = (textDrawable font text && older.all fun a => textDrawable font a.text) := by
  rw [drawable, h]
  rfl

/-- A press types the superscript two. -/
def TypesSuperscript (e : InputEvent) (t : Terminal C) : Prop :=
  e.trigger = true ∧ e.key.IsSuperscript t.loc t.shift t.altg ∧
    ∃ text older, t.consoleHistory = ⟨true, text⟩ :: older

instance (e : InputEvent) (t : Terminal C) : Decidable (TypesSuperscript e t) :=
  decidable_of_iff (e.trigger = true ∧ e.key.IsSuperscript t.loc t.shift t.altg ∧
    t.userText.isSome)
    (by simp [TypesSuperscript, Option.isSome_iff_exists, userText_eq_some])

/-- If the event executes a script, the value that is shown is drawable. -/
def ShowsDrawable (fos : Fomoscript C N E) (font : Font) (startTime pid : ℕ) (e : InputEvent)
    (t : Terminal C) : Prop :=
  e.trigger = true → e.key = .keyEnter → t.shift = false →
    ∀ text older, t.consoleHistory = ⟨true, text⟩ :: older →
      ∀ res ∈ result fos startTime pid text t, textDrawable font (fos.debug res) = true

instance (fos : Fomoscript C N E) (font : Font) (startTime pid : ℕ) (e : InputEvent)
    (t : Terminal C) : Decidable (ShowsDrawable fos font startTime pid e t) :=
  decidable_of_iff (e.trigger = true → e.key = .keyEnter → t.shift = false →
    ∀ text ∈ t.userText, ∀ res ∈ result fos startTime pid text t,
      textDrawable font (fos.debug res) = true) (by simp [ShowsDrawable, userText_eq_some])

lemma edit_drawable_iff (key : Key) (t : Terminal C) (h : textDrawable font text = true) :
    textDrawable font (edit key t text) = true ↔ ¬key.IsSuperscript t.loc t.shift t.altg := by
  have hbase : textDrawable font
      (if key = .keyBackspace ∧ 1 < String.utf8Len text then text.dropLast else text) = true := by
    split
    · exact textDrawable_dropLast h
    · exact h
  rw [edit]
  by_cases hsuper : key.IsSuperscript t.loc t.shift t.altg
  · obtain ⟨rfl, hloc, hshift, haltg⟩ := id hsuper
    rw [hloc, hshift, haltg, Key.char_superscript]
    apply iff_of_false
    · simp [textDrawable_append, font.superscript_not_drawable]
    · exact not_not_intro ⟨rfl, rfl, rfl, rfl⟩
  · apply iff_of_true _ hsuper
    cases hchar : key.char t.loc t.shift t.altg with
    | some c =>
      dsimp only
      rw [textDrawable_append, hbase, font.hasRaster_of_isPlain (Key.char_plain hchar hsuper)]
      rfl
    | none =>
      dsimp only
      split
      · rw [textDrawable_append, hbase]
        rfl
      · exact hbase

/-- The key of the superscript two is no modifier. -/
lemma isSuperscript_modifiers (e : InputEvent) (t : Terminal C) :
    e.key.IsSuperscript (modifiers e t).loc (modifiers e t).shift (modifiers e t).altg ↔
      e.key.IsSuperscript t.loc t.shift t.altg := by
  by_cases hkey : e.key = .keyGrave
  · rw [show modifiers e t = t by rw [modifiers, hkey]]
  · simp [Key.IsSuperscript, hkey]

/-- What Enter leaves is drawable when the value of the script is. -/
lemma Leaves.drawable_iff {turn : Turn C} (h : Leaves fos startTime pid text t turn)
    (ht : t.drawable font = true) :
    (∀ t' ∈ turn.terminal?, t'.drawable font = true) ↔
      ∀ res ∈ result fos startTime pid text t, textDrawable font (fos.debug res) = true := by
  obtain ⟨t₁, answer, rfl, hanswer, hhistory⟩ := h
  have hprompt : textDrawable font t₁.mode.prompt = true := by
    apply font.hasRaster_of_isPlain
    cases t₁.mode <;> decide
  have hleft : t₁.openPrompt.drawable font =
      answer.toList.all fun a => textDrawable font a := by
    rw [drawable_of_history (openPrompt_consoleHistory t₁), hprompt, hhistory, List.all_append,
      List.all_map, ← drawable, ht]
    simp [Function.comp_def]
  have hiff : (∀ t' ∈ (Turn.breakNewInputs t₁.openPrompt).terminal?, t'.drawable font = true) ↔
      ∀ a ∈ answer, textDrawable font a = true := by
    simp [Turn.terminal?, hleft]
  rw [hiff]
  unfold Answers at hanswer
  cases hresult : result fos startTime pid text t with
  | some res =>
    rw [hresult] at hanswer
    have htext : textDrawable font (evalText fos res) = textDrawable font (fos.debug res) := by
      have hlabel : textDrawable font "eval: ".toList = true :=
        font.hasRaster_of_isPlain (by decide +kernel)
      calc textDrawable font (evalText fos res)
          = (textDrawable font "eval: ".toList && textDrawable font (fos.debug res)) :=
            textDrawable_append _ _
        _ = (true && textDrawable font (fos.debug res)) := congrArg (· && _) hlabel
        _ = textDrawable font (fos.debug res) := Bool.true_and _
    simp [hanswer, htext]
  | none =>
    rw [hresult] at hanswer
    apply iff_of_true
    · intro a ha
      exact font.hasRaster_of_isPlain (hanswer a ha)
    · simp

/-- One event keeps the history drawable exactly when it does not type the superscript two or show
a value of a script that is not drawable. -/
theorem newInput_drawable_iff (e : InputEvent) (t : Terminal C)
    (h : ∀ t' ∈ (Turn.next t).terminal?, t'.drawable font = true) :
    (∀ t' ∈ (newInput fos startTime pid e t).terminal?, t'.drawable font = true) ↔
      ¬TypesSuperscript e t ∧ ShowsDrawable fos font startTime pid e t := by
  have ht : t.drawable font = true := h t rfl
  have hsame : ∀ t' : Terminal C, (∀ t'' ∈ (Turn.next t').terminal?, t''.drawable font = true) ↔
      t'.drawable font = true := by
    intro t'
    simp [Turn.terminal?]
  cases htrigger : e.trigger with
  | false =>
    rw [newInput_release htrigger, hsame]
    apply iff_of_true
    · rwa [drawable, modifiers_consoleHistory]
    · simp [TypesSuperscript, ShowsDrawable, htrigger]
  | true =>
    by_cases huser : ∃ text older, t.consoleHistory = ⟨true, text⟩ :: older
    · obtain ⟨text, older, hhistory⟩ := huser
      have hparts := ht
      rw [drawable_of_history hhistory, Bool.and_eq_true] at hparts
      have hother : ∀ text' older', t.consoleHistory = ⟨true, text'⟩ :: older' → text' = text := by
        intro text' older' h'
        rw [hhistory] at h'
        simpa using (List.cons.inj h').1.symm
      by_cases henter : e.key = .keyEnter ∧ t.shift = false
      · have hnot : ¬TypesSuperscript e t := by
          rintro ⟨-, ⟨hkey, -⟩, -⟩
          rw [henter.1] at hkey
          cases hkey
        rw [newInput_enter htrigger henter.1 henter.2 hhistory, and_iff_right hnot]
        have hshows : ShowsDrawable fos font startTime pid e t ↔
            ∀ res ∈ result fos startTime pid text t, textDrawable font (fos.debug res) = true := by
          constructor
          · intro hall
            exact hall htrigger henter.1 henter.2 text older hhistory
          · intro hall _ _ _ text' older' h'
            rwa [hother text' older' h']
        rw [hshows]
        obtain hleaves | ⟨hreset, hresult⟩ | ⟨hpanic, hmode, hslice⟩ :=
          enter_cases fos startTime pid text t
        · exact hleaves.drawable_iff ht
        · rw [hreset]
          apply iff_of_true
          · simp [Turn.terminal?]
          · simp [hresult]
        · rw [hpanic]
          apply iff_of_true
          · simp [Turn.terminal?]
          · simp [result, hmode, hslice]
      · rw [newInput_edit htrigger henter hhistory, hsame, drawable_of_history rfl,
          Bool.and_eq_true,
          and_iff_left hparts.2, edit_drawable_iff _ _ hparts.1, isSuperscript_modifiers]
        have hshows : ShowsDrawable fos font startTime pid e t := by
          intro _ hkey hshift
          exact absurd ⟨hkey, hshift⟩ henter
        rw [and_iff_left hshows]
        simp [TypesSuperscript, htrigger, hhistory]
    · have hnone : ∀ text older, t.consoleHistory ≠ ⟨true, text⟩ :: older := by
        intro text older hhistory
        exact huser ⟨text, older, hhistory⟩
      rw [newInput_ignored hnone, hsame]
      apply iff_of_true
      · rwa [drawable, modifiers_consoleHistory]
      · simp [TypesSuperscript, ShowsDrawable, hnone]

end Terminal

namespace Store
variable {C N E : Type} (fos : Fomoscript C N E) (font : Font)

/-- No event that the next call takes types the superscript two or shows a value of a script that
is not drawable. -/
def TypesDrawable (store : Option (Store C)) (cx : Context) : Prop :=
  Terminal.EveryTurn fos cx.startTime cx.pid
    (fun e t => ¬Terminal.TypesSuperscript e t ∧
      Terminal.ShowsDrawable fos font cx.startTime cx.pid e t)
    (newEvents cx (opened fos cx store)) (opened fos cx store).terminal

instance (store : Option (Store C)) (cx : Context) :
    Decidable (TypesDrawable fos font store cx) :=
  inferInstanceAs (Decidable (Terminal.EveryTurn ..))

/-- While a call runs, after each event it has taken, the history is drawable. -/
def DrawableThroughout (store : Option (Store C)) (cx : Context) : Prop :=
  ∀ taken, taken <+: newEvents cx (opened fos cx store) →
    ∀ t ∈ (Terminal.newInputs fos cx.startTime cx.pid taken
        (opened fos cx store).terminal).terminal?,
      t.drawable font = true

variable {fos font}

lemma drawableThroughout_iff {store : Option (Store C)} {cx : Context}
    (h : (opened fos cx store).terminal.drawable font = true) :
    DrawableThroughout fos font store cx ↔ TypesDrawable fos font store cx := by
  apply Terminal.everyTurn_iff (P := fun turn => ∀ t ∈ turn.terminal?, t.drawable font = true)
    Terminal.newInput_drawable_iff
  rintro t ⟨⟩
  exact h

lemma title_drawable (font : Font) (cx : Context) : (title cx).all font.hasRaster = true := by
  have hfixed : ∀ text : List Char, (∀ c ∈ text, 0x20 ≤ c.toNat ∧ c.toNat ≤ 0x7E) →
      text.all font.hasRaster = true := by
    intro text htext
    apply List.all_eq_true.mpr
    intro c hc
    exact font.basicLatin c (htext c hc).1 (htext c hc).2
  unfold title
  rw [List.all_append, List.all_append, Bool.and_eq_true, Bool.and_eq_true]
  refine ⟨⟨hfixed _ (by simp), hfixed _ fun c hc => ?_⟩, hfixed _ (by simp)⟩
  have hrange := Terminal.decimal_range hc
  omega

lemma new_drawable (font : Font) (cx : Context) :
    (new fos cx).welcome.terminal.drawable font = true := by
  have hwelcome : Terminal.textDrawable font "Welcome to Fomos !".toList = true :=
    font.hasRaster_of_isPlain (by decide +kernel)
  have hprompt : Terminal.textDrawable font ['>'] = true :=
    font.hasRaster_of_isPlain (by decide)
  change (Terminal.textDrawable font ['>'] &&
    (Terminal.textDrawable font "Welcome to Fomos !".toList && true)) = true
  rw [hwelcome, hprompt]
  rfl

/-- After calls that type only what is drawable, all of the history is drawable, so that the next
call draws it, and it is drawable throughout that call exactly when the call types only what is
drawable, too. -/
theorem history_drawable_iff {store : Option (Store C)}
    (h : Transition.Reach (start fos font) (fun store cx _ => TypesDrawable fos font store cx) none
      store) :
    (∀ s ∈ store, s.terminal.drawable font = true) ∧
      (∀ cx, (opened fos cx store).canDraw font cx = true) ∧
      ∀ cx, DrawableThroughout fos font store cx ↔ TypesDrawable fos font store cx := by
  have hleft : Left (fun t => t.drawable font = true) store := by
    apply reach_left (new_drawable font) _ h
    intro store cx hopened htypes
    exact (drawableThroughout_iff hopened).mpr htypes _ List.prefix_rfl
  refine ⟨?_, ?_, ?_⟩
  · intro s hs
    exact (hleft s hs).2
  · intro cx
    rw [canDraw, title_drawable, hleft.opened (new_drawable font cx)]
    rfl
  · intro cx
    exact drawableThroughout_iff (hleft.opened (new_drawable font cx))

/-- The console executes `help`, and then `lang fr`. -/
theorem history_drawable_iff_help :
    ∃ s : Store Unit, s.terminal.consoleHistory.length = 4 ∧
      s.terminal.drawable .latin = true ∧
      (∀ cx, (opened .silent cx (some s)).canDraw .latin cx = true) ∧
      DrawableThroughout .silent .latin (some s) (.pressing ([.keyH, .keyE, .keyL, .keyP,
        .keyEnter] ++ [.keyL, .keyA, .keyN, .keyG, .keySpace, .keyF, .keyR, .keyEnter]) none) := by
  have hrun : ((Transition.run (start .silent .latin)
      (fun store cx _ => TypesDrawable .silent .latin store cx)
      [.pressing [] (some true), .pressing [.keyH, .keyE, .keyL, .keyP, .keyEnter] none]
      none).any fun store => store.any fun s => decide (s.terminal.consoleHistory.length = 4 ∧
        TypesDrawable .silent .latin (some s) (.pressing ([.keyH, .keyE, .keyL, .keyP,
          .keyEnter] ++ [.keyL, .keyA, .keyN, .keyG, .keySpace, .keyF, .keyR, .keyEnter])
            none))) = true := by
    decide +kernel
  simp only [Option.any_eq_true, decide_eq_true_eq] at hrun
  obtain ⟨store, hstore, s, rfl, hlen, htypes⟩ := hrun
  obtain ⟨hdrawable, hdraws, hnext⟩ := history_drawable_iff (Transition.Reach.start.of_run hstore)
  exact ⟨s, hlen, hdrawable s rfl, hdraws, (hnext _).mpr htypes⟩

/-- The console takes the French layout, and then the key above Tab. -/
theorem superscript_is_typed : ¬∀ (C N E : Type) (fos : Fomoscript C N E) (font : Font)
    (store : Option (Store C)), Transition.Reach (start fos font) (fun _ _ _ => True) none store →
      ∀ s ∈ store, s.terminal.drawable font = true := by
  intro h
  have hrun : ∃ s : Store Unit, Transition.run (start .silent .latin) (fun _ _ _ => True)
      [.pressing [] (some true),
        .pressing [.keyL, .keyA, .keyN, .keyG, .keySpace, .keyF, .keyR, .keyEnter] none,
        .pressing [.keyL, .keyA, .keyN, .keyG, .keySpace, .keyF, .keyR, .keyEnter, .keyGrave] none]
      none = some (some s) ∧ s.terminal.drawable .latin = false := by
    refine ⟨_, rfl, ?_⟩
    rfl
  obtain ⟨s, hs, hnot⟩ := hrun
  have := h Unit Unit Unit .silent .latin (some s) (Transition.Reach.start.of_run hs) s rfl
  rw [hnot] at this
  cases this

end Store
end Console
end Fomos
