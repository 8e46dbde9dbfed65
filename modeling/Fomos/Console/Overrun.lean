import Mathlib
import Fomos.Console.Modifiers
import Fomos.Input.Pipeline

/-!
# Overrun of the history

Nothing keeps the console from being overtaken by the ring: when more than 64 events were recorded
since its last frame, the positions of its loop go around the ring more than once, and a slot holds
the same event each time. The loop begins with the newest events and ends at the Enter that it
executes, so it takes no event twice exactly when such an Enter is among these.
-/
namespace Fomos

/-- How many positions an app reads that had stopped at the index `c`, `new` events later. -/
def span (c new : ℕ) : ℕ := (c + new) % 2 ^ 64 + 1 - (c + 1) % 2 ^ 64

/-- What the first `count` positions behind the index `c` find, numbered as it was recorded. -/
def numbersRead (c count recorded : ℕ) : List ℕ :=
  (List.range' ((c + 1) % 2 ^ 64) count).map (RingWindow.latest historySize 1 recorded)

/-- In order, and none twice. -/
def InOrder (numbers : List ℕ) : Prop := numbers.Pairwise (· < ·)

/-- What is taken in order is a subsequence. -/
theorem InOrder.sublist {α : Type} {numbers : List ℕ} {taken recorded : List α}
    (h : InOrder numbers) (htaken : taken.map some = numbers.map (recorded[·]?)) :
    taken.Sublist recorded := by
  have hlt : ∀ k ∈ numbers, k < recorded.length := by
    intro k hk
    have hmem : recorded[k]? ∈ taken.map some := htaken ▸ List.mem_map_of_mem hk
    obtain ⟨e, -, he⟩ := List.mem_map.mp hmem
    exact (List.getElem?_eq_some_iff.mp he.symm).1
  obtain ⟨places, rfl⟩ : ∃ places : List (Fin recorded.length), places.map Fin.val = numbers :=
    ⟨numbers.pmap Fin.mk hlt, by simp [List.map_pmap]⟩
  have hmap : taken = places.map fun k => recorded[k] := by
    apply List.map_injective_iff.mpr (Option.some_injective _)
    rw [htaken, List.map_map, List.map_map]
    apply List.map_congr_left
    intro k _
    exact List.getElem?_eq_getElem k.isLt
  rw [InOrder, List.pairwise_map] at h
  rw [hmap]
  exact List.map_getElem_sublist h

/-- The key of a number, and the first one for a number that is none. -/
def Key.decode (n : ℕ) : Key := (all.find? fun key => key.toUsize = n).getD .reserved

namespace Console

/-- How the console sees an event of the kernel in place. A number that is none of its keys may be
taken for any. -/
def InputEvent.seen (decode : ℕ → Key) (e : Fomos.InputEvent) : InputEvent :=
  ⟨e.trigger, decode e.key⟩

/-- How the console sees the kernel's input. -/
def Input.seen (decode : ℕ → Key) (input : Fomos.Input) : Input :=
  ⟨input.historyLastIndex, fun i => .seen decode (input.historyRing i)⟩

/-- The last `m` events in the ring, of at most 64. -/
def Input.newest (m : ℕ) (input : Input) : List InputEvent :=
  (List.range m).map fun i =>
    input.historyRing ((input.historyLastIndex + 1 + historySize - m + i) % historySize)

/-- An Enter of these events is executed, if left shift is held before them or not. -/
def executesEnter : Bool → List InputEvent → Bool
  | _, [] => false
  | shift, e :: es => (e.trigger && decide (e.key = .keyEnter) && !shift) ||
      executesEnter (held .keyLeftShift shift [e]) es

/-- The events that the loop over these comes to. -/
def Terminal.processed {C N E : Type} (fos : Fomoscript C N E) (startTime pid : ℕ) :
    List InputEvent → Terminal C → List InputEvent
  | [], _ => []
  | e :: es, t => e :: match newInput fos startTime pid e t with
    | .next t => processed fos startTime pid es t
    | _ => []

lemma upToEnter_isPrefix (shift : Bool) (es : List InputEvent) : upToEnter shift es <+: es := by
  induction es generalizing shift with
  | nil => exact List.prefix_rfl
  | cons e es ih =>
    rw [upToEnter]
    split
    · exact List.prefix_append [e] es
    · exact (List.prefix_cons_inj e).mpr (ih _)

/-- Of the events up to an Enter there are at most `m` when it is one of the first `m`. -/
lemma length_upToEnter_le_iff (shift : Bool) (es : List InputEvent) (m : ℕ) :
    (upToEnter shift es).length ≤ m ↔
      es.length ≤ m ∨ executesEnter shift (es.take m) = true := by
  induction es generalizing shift m with
  | nil => simp [upToEnter]
  | cons e es ih =>
    cases m with
    | zero =>
      rw [upToEnter]
      split <;> simp [executesEnter]
    | succ m =>
      rw [List.take_succ_cons, executesEnter, upToEnter]
      by_cases henter : e.trigger ∧ e.key = .keyEnter ∧ !shift
      · rw [if_pos henter]
        simp [henter]
      · rw [if_neg henter, List.length_cons, List.length_cons, Nat.add_le_add_iff_right,
          Nat.add_le_add_iff_right, ih]
        have hnot : (e.trigger && decide (e.key = .keyEnter) && !shift) = false := by
          simpa [and_assoc] using henter
        rw [hnot, Bool.false_or]

/-- The loop ends at the first Enter that is pressed while left shift is not held. -/
lemma Terminal.processed_eq {C N E : Type} {fos : Fomoscript C N E} {startTime pid : ℕ}
    {t : Terminal C} (ht : t.UserLast) (es : List InputEvent) :
    processed fos startTime pid es t = upToEnter t.shift es := by
  induction es generalizing t with
  | nil => rfl
  | cons e es ih =>
    rw [processed]
    obtain ⟨⟨htrigger, hkey, hshift⟩, hends, -⟩ | ⟨hnot, t', hnext, hlast, hfollows⟩ :=
      @newInput_follows C N E fos startTime pid t e ht
    · rw [upToEnter, if_pos ⟨htrigger, hkey, by rw [hshift]; rfl⟩]
      split
      · exact absurd ‹_› (hends _)
      · rfl
    · rw [hnext, upToEnter, if_neg (by simpa using hnot), ← hfollows.shift]
      exact congrArg (e :: ·) (ih hlast)

section Ring
variable {decode : ℕ → Key} {old new : List Fomos.InputEvent} {input : Fomos.Input} {count : ℕ}

lemma historyLastIndex_of_reflects (h : Reflects (old ++ new) input) :
    input.historyLastIndex = (old.length % 2 ^ 64 + new.length) % 2 ^ 64 := by
  rw [h.index, List.length_append]
  exact (Nat.mod_add_mod _ _ _).symm

lemma length_since (h : Reflects (old ++ new) input) :
    ((Input.seen decode input).since (old.length % 2 ^ 64)).length =
      span (old.length % 2 ^ 64) new.length := by
  simp [Input.since, Input.seen, historyLastIndex_of_reflects h, span]

/-- The ring divides the range of the index: the last position finds the newest event. -/
lemma span_end (hpos : 0 < span (old.length % 2 ^ 64) new.length) :
    ((old.length % 2 ^ 64 + 1) % 2 ^ 64 + span (old.length % 2 ^ 64) new.length) % historySize =
      (1 + (old ++ new).length) % historySize := by
  rw [List.length_append]
  unfold span historySize at *
  omega

/-- What the first positions find. -/
lemma take_since (h : Reflects (old ++ new) input) (hnew : historySize < new.length)
    (hcount : count ≤ span (old.length % 2 ^ 64) new.length) :
    (((Input.seen decode input).since (old.length % 2 ^ 64)).take count).map some =
      (numbersRead (old.length % 2 ^ 64) count (old ++ new).length).map
        (((old ++ new).map (InputEvent.seen decode))[·]?) := by
  have hspan : ((Input.seen decode input).since (old.length % 2 ^ 64)).length =
      span (old.length % 2 ^ 64) new.length := length_since h
  have hlen : historySize ≤ (old ++ new).length := by
    rw [List.length_append]
    omega
  rw [Input.since, List.length_map, List.length_range'] at hspan
  rw [Input.since, hspan, numbersRead, ← List.map_take, List.take_range'_of_length_ge hcount,
    List.map_map, List.map_map]
  apply List.map_congr_left
  intro p hp
  obtain ⟨hlow, hhigh⟩ := List.mem_range'_1.mp hp
  have hend := @span_end old new (by omega)
  have hslot : (p + ((old.length % 2 ^ 64 + 1) % 2 ^ 64 +
      span (old.length % 2 ^ 64) new.length - 1 - p) + 1) % historySize =
        (1 + (old ++ new).length) % historySize := by
    rw [← hend]
    congr 1
    omega
  have hread := h.ring.read_latest (by decide) hlen hslot
  rw [Function.comp_apply, Function.comp_apply, List.getElem?_map, hread]
  rfl

/-- The positions begin with the newest events, up to the newest of all. -/
lemma take_since_newest (h : Reflects (old ++ new) input)
    (hpos : 0 < span (old.length % 2 ^ 64) new.length) :
    ((Input.seen decode input).since (old.length % 2 ^ 64)).take
        ((span (old.length % 2 ^ 64) new.length - 1) % historySize + 1) =
      (Input.seen decode input).newest
        ((span (old.length % 2 ^ 64) new.length - 1) % historySize + 1) := by
  have hspan : ((Input.seen decode input).since (old.length % 2 ^ 64)).length =
      span (old.length % 2 ^ 64) new.length := length_since h
  have hindex := historyLastIndex_of_reflects h
  rw [Input.since, List.length_map, List.length_range'] at hspan
  have hle : (span (old.length % 2 ^ 64) new.length - 1) % historySize + 1 ≤
      span (old.length % 2 ^ 64) new.length := by
    have := Nat.mod_le (span (old.length % 2 ^ 64) new.length - 1) historySize
    omega
  rw [Input.since, hspan, ← List.map_take, List.take_range'_of_length_ge hle, Input.newest,
    List.range'_eq_map_range, List.map_map]
  apply List.map_congr_left
  intro i hi
  have hslot : ((old.length % 2 ^ 64 + 1) % 2 ^ 64 + i) % historySize =
      (input.historyLastIndex + 1 + historySize -
        ((span (old.length % 2 ^ 64) new.length - 1) % historySize + 1) + i) % historySize := by
    rw [hindex]
    have := List.mem_range.mp hi
    unfold span historySize at *
    omega
  rw [Function.comp_apply, hslot]
  rfl

variable (decode) (shift : Bool)

lemma length_upToEnter_since_le (h : Reflects (old ++ new) input) :
    (upToEnter shift ((Input.seen decode input).since (old.length % 2 ^ 64))).length ≤
      span (old.length % 2 ^ 64) new.length := by
  exact length_since h ▸ (upToEnter_isPrefix _ _).length_le

/-- What the loop comes to, up to an Enter, by its numbers. -/
lemma upToEnter_since (h : Reflects (old ++ new) input) (hnew : historySize < new.length) :
    let es := upToEnter shift ((Input.seen decode input).since (old.length % 2 ^ 64))
    es.map some = (numbersRead (old.length % 2 ^ 64) es.length (old ++ new).length).map
      (((old ++ new).map (InputEvent.seen decode))[·]?) := by
  intro es
  rw [← take_since h hnew (length_upToEnter_since_le decode shift h)]
  exact congrArg (List.map some) (List.prefix_iff_eq_take.mp (upToEnter_isPrefix shift _))

/-- They are in order exactly when the newest event is not passed. -/
lemma inOrder_upToEnter_iff (h : Reflects (old ++ new) input) (hnew : historySize < new.length) :
    InOrder (numbersRead (old.length % 2 ^ 64) (upToEnter shift
        ((Input.seen decode input).since (old.length % 2 ^ 64))).length (old ++ new).length) ↔
      span (old.length % 2 ^ 64) new.length ≤ historySize ∨
        executesEnter shift ((Input.seen decode input).newest
          ((span (old.length % 2 ^ 64) new.length - 1) % historySize + 1)) = true := by
  have hwindow : historySize ≤ (old ++ new).length := by
    rw [List.length_append]
    omega
  rw [InOrder, numbersRead, RingWindow.latest_pairwise_iff (by decide) hwindow
    (length_upToEnter_since_le decode shift h) span_end, length_upToEnter_le_iff, length_since h]
  obtain hmany | hfew := Nat.lt_or_ge historySize (span (old.length % 2 ^ 64) new.length)
  · have hbeyond : ¬span (old.length % 2 ^ 64) new.length ≤
        (span (old.length % 2 ^ 64) new.length - 1) % historySize + 1 := by
      unfold historySize at *
      omega
    rw [take_since_newest h (by omega), or_iff_right hbeyond, or_iff_right (Nat.not_le.mpr hmany)]
  · apply iff_of_true _ (.inl hfew)
    left
    unfold historySize at *
    omega

end Ring

/-- The kernel's input, and the console as one of the apps. -/
structure Session (C : Type) where
  pipeline : Pipeline
  console : Option (Store C)

namespace Session
variable {C N E : Type}

/-- A step of the pipeline. A frame calls the console. -/
inductive Label
  | arrive (device : ℕ) (evt : VirtioInputEvent)
  | driver (device : ℕ)
  | frame (startTime pid : ℕ) (click : Option Bool)

def Label.pipeline : Label → Pipeline.Label
  | arrive device evt => .arrive device evt
  | driver device => .driver device
  | frame .. => .frame

section Step
variable (decode : ℕ → Key) (fos : Fomoscript C N E) (font : Font)

/-- What the kernel passes to a call of the console. -/
def context (startTime pid : ℕ) (click : Option Bool) (s : Session C) : Context :=
  ⟨startTime, pid, .seen decode s.pipeline.input.read, click⟩

/-- What a step makes of the console's store: none for a panic. -/
def call (s : Session C) : Label → Option (Option (Store C))
  | .frame startTime pid click =>
    Store.start fos font (s.context decode startTime pid click) s.console
  | _ => some s.console

def step (l : Label) (s : Session C) : Option (Session C) :=
  (Pipeline.step l.pipeline s.pipeline).bind fun pipeline =>
    (s.call decode fos font l).map fun console => ⟨pipeline, console⟩

def boot (numApps : ℕ) : Session C := ⟨.boot numApps, none⟩

/-- All that is recorded, as the console sees it. -/
def seen (s : Session C) : List InputEvent := s.pipeline.recorded.map (.seen decode)

/-- The events that the loop of a call comes to. -/
def processed (startTime pid : ℕ) (click : Option Bool) (s : Session C) : List InputEvent :=
  let cx := s.context decode startTime pid click
  let store := Store.opened fos cx s.console
  Terminal.processed fos startTime pid (Store.newEvents cx store) store.terminal

/-- The positions of a call are 64 at most, or an Enter is executed among the events that they begin
with, which are the newest ones. -/
def EndsInTime (c new : ℕ) (store : Store C) (s : Session C) : Prop :=
  span c new ≤ historySize ∨ executesEnter store.terminal.shift
    ((Input.seen decode s.pipeline.input.read).newest ((span c new - 1) % historySize + 1)) = true

instance (c new : ℕ) (store : Store C) (s : Session C) :
    Decidable (s.EndsInTime decode c new store) :=
  inferInstanceAs (Decidable (_ ∨ _))

end Step

/-- The devices of the run send key codes below 1024. -/
def KeysBelow (l : Label) : Prop := Pipeline.KeysBelow l.pipeline

instance (l : Label) : Decidable (KeysBelow l) := by
  unfold KeysBelow
  infer_instance

/-- A store was left by the call of the last frame. -/
structure LeftAt (f : Fomos.Frame) (store : Store C) : Prop where
  step : 0 < store.step
  index : store.inputHistoryLastIndex = f.input.historyLastIndex
  userLast : store.terminal.UserLast

structure Invariant (numApps : ℕ) (s : Session C) : Prop where
  pipeline : Pipeline.Consistent numApps s.pipeline
  console : ∀ store ∈ s.console, ∃ f ∈ s.pipeline.frames.head?, LeftAt f store

variable {decode : ℕ → Key} {fos : Fomoscript C N E} {font : Font} {numApps : ℕ}
  {s s' : Session C} {l : Label} {store : Store C}

lemma drive_frames (evts : List VirtioInputEvent) (p : Pipeline) :
    (Pipeline.drive evts p).frames = p.frames := by
  induction evts generalizing p with
  | nil => rfl
  | cons evt evts ih =>
    rw [Pipeline.drive]
    split
    · rfl
    · exact ih _

variable (fos) in
/-- The terminal of every call ends with an atom of the user. -/
lemma userLast_opened (cx : Context) (h : ∀ store ∈ s.console, 0 < store.step ∧
    store.terminal.UserLast) : (Store.opened fos cx s.console).terminal.UserLast :=
  Store.Left.opened ⟨_, _, rfl⟩ h

lemma leftAt_of_start {cx : Context} {f : Fomos.Frame} (hindex : cx.input.historyLastIndex =
      f.input.historyLastIndex) (hopened : (Store.opened fos cx s.console).terminal.UserLast)
    (hstart : Store.start fos font cx s.console = some (some store)) : LeftAt f store := by
  obtain hnone | ⟨t, ht, hclosed⟩ := Store.start_cases hstart
  · cases hnone
  · cases hclosed
    exact ⟨Nat.succ_pos _, hindex, (Terminal.newInputs_follows _ hopened ht).1⟩

lemma Invariant.step (h : s.Invariant numApps) (hkeys : KeysBelow l)
    (hstep : step decode fos font l s = some s') : s'.Invariant numApps := by
  obtain ⟨p, hp, hcall⟩ := Option.bind_eq_some_iff.mp hstep
  obtain ⟨console, hconsole, rfl⟩ := Option.map_eq_some_iff.mp hcall
  refine ⟨h.pipeline.step hp hkeys, fun store hstore => ?_⟩
  obtain rfl : console = some store := hstore
  unfold Pipeline.step at hp
  rw [h.pipeline.running] at hp
  cases l with
  | arrive device evt =>
    cases hp
    exact h.console store (Option.some.inj hconsole)
  | driver device =>
    cases hp
    obtain ⟨f, hf, hleft⟩ := h.console store (Option.some.inj hconsole)
    exact ⟨f, by rwa [drive_frames], hleft⟩
  | frame startTime pid click =>
    cases hp
    have hopened := userLast_opened fos (s.context decode startTime pid click)
      fun store hstore =>
        let ⟨_, _, hleft⟩ := h.console store hstore
        ⟨hleft.step, hleft.userLast⟩
    exact ⟨⟨s.pipeline.input.cell, s.pipeline.recorded, _⟩, rfl,
      leftAt_of_start rfl hopened hconsole⟩

variable (decode fos) in
/-- The loop of an active console takes what it reads, up to the Enter that it executes. -/
lemma LeftAt.processed_eq {f : Fomos.Frame} (h : LeftAt f store) (hstore : s.console = some store)
    (startTime pid : ℕ) {click : Option Bool} (hactive : click.getD store.active = true) :
    s.processed decode fos startTime pid click = upToEnter store.terminal.shift
      ((Input.seen decode s.pipeline.input.read).since f.input.historyLastIndex) := by
  have hevents : Store.newEvents (s.context decode startTime pid click)
      { store with step := store.step + 1, active := click.getD store.active } =
        (Input.seen decode s.pipeline.input.read).since f.input.historyLastIndex := by
    rw [← h.index]
    exact if_pos hactive
  rw [processed, hstore, Store.opened, Option.getD_some, Store.welcome_of_started h.step,
    ← hevents]
  exact Terminal.processed_eq h.userLast _

/-- A call of the console, with more than 64 events recorded since its last frame, takes them in
order and none twice exactly when it ends in time, and then it takes a subsequence of what is
recorded. -/
theorem overrun_replays
    (h : Transition.Reach (step decode fos font) (fun _ l _ => KeysBelow l) (boot numApps) s)
    (hstore : s.console = some store) :
    ∃ f ∈ s.pipeline.frames.head?, ∃ new, s.pipeline.recorded = f.recorded ++ new ∧
      (historySize < new.length → ∀ startTime pid click, click.getD store.active = true →
        let c := f.input.historyLastIndex
        let processed := s.processed decode fos startTime pid click
        let numbers := numbersRead c processed.length s.pipeline.recorded.length
        processed.map some = numbers.map ((s.seen decode)[·]?) ∧
          (InOrder numbers ↔ s.EndsInTime decode c new.length store) ∧
          (InOrder numbers → processed.Sublist (s.seen decode))) := by
  have hs : s.Invariant numApps := by
    apply h.invariant
    · exact ⟨.boot numApps, by simp [boot]⟩
    · rintro s l s' - hs hstep hkeys
      exact hs.step hkeys hstep
  obtain ⟨f, hf, hleft⟩ := hs.console store hstore
  obtain ⟨new, hnew⟩ := hs.pipeline.since f hf
  refine ⟨f, hf, new, hnew.symm, fun hlen startTime pid click hactive => ?_⟩
  have hindex := (hs.pipeline.snapshots f (List.mem_of_mem_head? hf)).1.index
  have hreflects : Reflects (f.recorded ++ new) s.pipeline.input.read := hnew ▸ hs.pipeline.reflects
  have hprocessed := hleft.processed_eq decode fos hstore startTime pid hactive
  rw [hindex] at hprocessed
  have hread := upToEnter_since decode store.terminal.shift hreflects hlen
  have horder := inOrder_upToEnter_iff decode store.terminal.shift hreflects hlen
  rw [← hprocessed, hnew, ← hindex] at hread horder
  exact ⟨hread, horder, fun h => h.sublist hread⟩

/-- A frame of an active console, and then 32 taps of A and one more key pressed, all taken up by
the driver. -/
def taps (code : UInt16) : List Label :=
  .frame 0 0 (some true) ::
    (List.range 64).map (fun k => .arrive 0 ⟨1, 30, if k % 2 = 0 then 1 else 0⟩) ++
      [.arrive 0 ⟨1, code, 1⟩, .driver 0]

/-- The state behind `taps`. -/
def tapped (code : UInt16) : Option (Session Unit) :=
  Transition.run (step Key.decode .silent .latin) (fun _ l _ => KeysBelow l) (taps code) (boot 1)

lemma reach_tapped {code : UInt16} {s : Session Unit} (h : tapped code = some s) :
    Transition.Reach (step Key.decode .silent .latin) (fun _ l _ => KeysBelow l) (boot 1) s :=
  Transition.Reach.start.of_run h

/-- The key is Enter, which the loop finds first, executes, and ends at. -/
theorem overrun_replays_enter : ∃ s, tapped 28 = some s ∧
    s.processed Key.decode .silent 0 0 none = [⟨true, .keyEnter⟩] ∧
      (s.processed Key.decode .silent 0 0 none).Sublist (s.seen Key.decode) := by
  have htapped : ((tapped 28).any fun s => s.console.any fun store =>
      s.pipeline.frames.head?.any fun f => decide (f.recorded.length = 0 ∧
        historySize < s.pipeline.recorded.length ∧ store.active = true ∧
        s.EndsInTime Key.decode f.input.historyLastIndex s.pipeline.recorded.length store ∧
        s.processed Key.decode .silent 0 0 none = [⟨true, .keyEnter⟩])) = true := by
    decide +kernel
  simp only [Option.any_eq_true, decide_eq_true_eq] at htapped
  obtain ⟨s, hs, store, hstore, f, hf, hnone, hlen, hactive, hends, hprocessed⟩ := htapped
  obtain ⟨f', hf', new, hnew, hcall⟩ := overrun_replays (reach_tapped hs) hstore
  obtain rfl : f = f' := Option.some.inj (hf.symm.trans hf')
  obtain rfl : s.pipeline.recorded = new := by
    rw [hnew, List.eq_nil_of_length_eq_zero hnone, List.nil_append]
  obtain ⟨-, horder, hsublist⟩ := hcall hlen 0 0 none hactive
  exact ⟨s, hs, hprocessed, hsublist (horder.mpr hends)⟩

/-- The key is B: its press is taken first, and again at the end. -/
theorem last_event_replayed : ¬∀ (C N E : Type) (decode : ℕ → Key) (fos : Fomoscript C N E)
    (font : Font) (numApps : ℕ) (s : Session C) (store : Store C),
      Transition.Reach (step decode fos font) (fun _ l _ => KeysBelow l) (boot numApps) s →
        s.console = some store → ∀ f ∈ s.pipeline.frames.head?,
          f.recorded.length + historySize < s.pipeline.recorded.length →
            ∀ startTime pid click, click.getD store.active = true →
              (s.processed decode fos startTime pid click).Sublist (s.seen decode) := by
  intro h
  have htapped : ((tapped 48).any fun s => s.console.any fun store =>
      s.pipeline.frames.head?.any fun f => decide (
        f.recorded.length + historySize < s.pipeline.recorded.length ∧ store.active = true ∧
        ¬(s.processed Key.decode .silent 0 0 none).Sublist (s.seen Key.decode))) = true := by
    decide +kernel
  simp only [Option.any_eq_true, decide_eq_true_eq] at htapped
  obtain ⟨s, hs, store, hstore, f, hf, hlen, hactive, hnot⟩ := htapped
  exact hnot (h Unit Unit Unit _ _ _ _ s store (reach_tapped hs) hstore f hf hlen 0 0 none hactive)

end Session
end Console
end Fomos
