import Mathlib
import Fomos.Console.Keys
import Fomos.Input.Delivery
import Fomos.Library.ReprC

/-!
# What the apps read in place

The kernel calls an app with the address of a `Context`, which leads to its `Input`. Each app has
declared both again: to the console a key is one of its enumeration, to the others a number, and to
all of them the state of a key is a byte.
-/
namespace Fomos
open ReprC
open ReprC.Layout (u8 u64)

namespace Shared

def bool : Layout Bool :=
  u8.ofLeftInverse (fun b => if b then 1 else 0)
    (fun v => if v = 0 then some false else if v = 1 then some true else none) (by decide)

/-- Pointers are as long. -/
def usize : Layout (BitVec 64) := u64

/-- `repr(u8)` -/
def keyState : Layout KeyState :=
  u8.ofLeftInverse (fun k => BitVec.ofNat 8 k.toU8)
    (fun v => ((List.range 6).map KeyState.ofNat).find? fun k => k.toU8 = v.toNat)
    (by intro k; cases k <;> rfl)

end Shared

/-- The key with this value, if there is one. -/
def Key.ofUsize (v : BitVec 64) : Option Key := Key.all.find? fun key => key.toUsize = v.toNat

namespace Key

lemma toUsize_ofUsize {v : BitVec 64} {key : Key} (h : ofUsize v = some key) :
    key.toUsize = v.toNat := by
  simpa using List.find?_some h

lemma isSome_ofUsize (v : BitVec 64) : (ofUsize v).isSome ↔ IsDiscriminant v.toNat := by
  rw [ofUsize, List.find?_isSome]
  constructor
  · rintro ⟨key, -, hkey⟩
    exact ⟨key, of_decide_eq_true hkey⟩
  · rintro ⟨key, hkey⟩
    exact ⟨key, key.mem_all, decide_eq_true hkey⟩

lemma ofUsize_ofNat (key : Key) : ofUsize (BitVec.ofNat 64 key.toUsize) = some key := by
  have hall : ∀ key ∈ all, ofUsize (BitVec.ofNat 64 key.toUsize) = some key := by
    decide +kernel
  exact hall key key.mem_all

end Key

namespace Shared

/-- `repr(usize)` -/
def key : Layout Key := usize.ofLeftInverse (fun k => BitVec.ofNat 64 k.toUsize) Key.ofUsize
  Key.ofUsize_ofNat

/-- A reference to a slice. -/
structure SliceRef where
  data : BitVec 64
  len : BitVec 64
  deriving DecidableEq, Repr

/-- `FBShare`, and `FB` in the apps. -/
structure FBShare where
  pixels : SliceRef
  w : BitVec 64
  h : BitVec 64
  deriving DecidableEq, Repr

/-- The pointers of the kernel's `Context` and of the apps' lead to types of their own. -/
structure Context where
  version : BitVec 8
  startTime : BitVec 64
  log : BitVec 64
  pid : BitVec 64
  fb : FBShare
  calloc : BitVec 64
  cdalloc : BitVec 64
  store : BitVec 64
  input : BitVec 64
  deriving DecidableEq, Repr

/-- `InputEvent`, with what a key is declared as. -/
structure Event (κ : Type) where
  trigger : Bool
  key : κ

/-- `Input`, with what the state of a key and a key are declared as. -/
structure InputOf (σ κ : Type) where
  mouseX : BitVec 64
  mouseY : BitVec 64
  keys : Vector σ numKeys
  historyLastIndex : BitVec 64
  historyRing : Vector (Event κ) historySize

variable {σ σ' κ κ' : Type}

section
open Fields

def sliceRef : Layout SliceRef :=
  (((start SliceRef.mk).field SliceRef.data usize).field SliceRef.len usize).close fun _ => rfl

def fbShare : Layout FBShare :=
  ((((start FBShare.mk).field FBShare.pixels sliceRef).field FBShare.w usize).field FBShare.h
    usize).close fun _ => rfl

def context : Layout Context :=
  ((((((((((start Context.mk).field Context.version u8).field Context.startTime u64).field
    Context.log usize).field Context.pid u64).field Context.fb fbShare).field Context.calloc
    usize).field Context.cdalloc usize).field Context.store usize).field Context.input usize).close
    fun _ => rfl

def event (k : Layout κ) : Layout (Event κ) :=
  (((start Event.mk).field Event.trigger bool).field Event.key k).close fun _ => rfl

def input (s : Layout σ) (k : Layout κ) : Layout (InputOf σ κ) :=
  ((((((start InputOf.mk).field InputOf.mouseX usize).field InputOf.mouseY usize).field
    InputOf.keys (s.array numKeys)).field InputOf.historyLastIndex usize).field
    InputOf.historyRing ((event k).array historySize)).close fun _ => rfl

end

/-- The `Input` of the kernel, -/
def kernelInput : Layout (InputOf KeyState (BitVec 64)) := input keyState usize

/-- of `app_cursor` and `app_background`, -/
def cursorInput : Layout (InputOf (BitVec 8) (BitVec 64)) := input u8 usize

/-- and of `app_console`. -/
def consoleInput : Layout (InputOf (BitVec 8) Key) := input u8 key

def Event.as (g : κ → Option κ') (e : Event κ) : Option (Event κ') :=
  (g e.key).map (Event.mk e.trigger)

/-- An input in the types of somebody else. -/
def InputOf.as (f : σ → Option σ') (g : κ → Option κ') (i : InputOf σ κ) :
    Option (InputOf σ' κ') := do
  let keys ← i.keys.mapM f
  let historyRing ← i.historyRing.mapM (Event.as g)
  return ⟨i.mouseX, i.mouseY, keys, i.historyLastIndex, historyRing⟩

lemma keyState_reads : keyState.Reads u8 fun s => some (BitVec.ofNat 8 s.toU8) :=
  .ofLeftInverse u8 _ _ _

lemma key_reads : usize.Reads key Key.ofUsize := .toLeftInverse usize _ _ _

lemma InputOf.isSome_as {f : σ → Option σ'} {g : κ → Option κ'} (i : InputOf σ κ) :
    (i.as f g).isSome ↔ (∀ s ∈ i.keys.toList, (f s).isSome) ∧
      ∀ e ∈ i.historyRing.toList, (g e.key).isSome := by
  have hring : ∀ e : Event κ, (Event.as g e).isSome = (g e.key).isSome := fun _ => Option.isSome_map
  simp only [← hring, ← Layout.isSome_mapM]
  rw [as]
  cases i.keys.mapM f with
  | none => simp
  | some keys => cases i.historyRing.mapM (Event.as g) <;> simp

lemma event_reads {k : Layout κ} {k' : Layout κ'} {g : κ → Option κ'} (h : k.Reads k' g) :
    (event k).Reads (event k') (Event.as g) := by
  have hreads := (((Fields.Reads.start Event.mk Event.mk).field (Layout.Reads.refl bool)
    Event.trigger Event.trigger).field h Event.key Event.key).close (fun _ => rfl) fun _ => rfl
  refine ⟨hreads.size, hreads.align, fun junk e => (hreads.decode junk e).trans ?_⟩
  simp only [Option.pure_def, Option.bind_eq_bind, Option.bind_some]
  rw [Event.as, Option.map_eq_bind]
  rfl

lemma input_reads {s : Layout σ} {s' : Layout σ'} {k : Layout κ} {k' : Layout κ'}
    {f : σ → Option σ'} {g : κ → Option κ'} (hs : s.Reads s' f) (hk : k.Reads k' g) :
    (input s k).Reads (input s' k') (InputOf.as f g) := by
  have hreads := ((((((Fields.Reads.start InputOf.mk InputOf.mk).field (.refl usize)
    InputOf.mouseX InputOf.mouseX).field (.refl usize) InputOf.mouseY InputOf.mouseY).field
    (hs.array numKeys) InputOf.keys InputOf.keys).field (.refl usize) InputOf.historyLastIndex
    InputOf.historyLastIndex).field ((event_reads hk).array historySize) InputOf.historyRing
    InputOf.historyRing).close (fun _ => rfl) fun _ => rfl
  refine ⟨hreads.size, hreads.align, fun junk i => (hreads.decode junk i).trans ?_⟩
  simp only [Option.pure_def, Option.bind_eq_bind, Option.bind_some]
  rw [InputOf.as]
  cases i.keys.mapM f <;> rfl

/-- The events at the positions `(c + 1)..=history_last_index`, as an app goes over them. -/
def InputOf.readHistory (c : BitVec 64) (i : InputOf σ κ) : List (Event κ) :=
  let start := (c + 1).toNat
  (List.range' start (i.historyLastIndex.toNat + 1 - start)).map fun j =>
    i.historyRing.get ⟨j % historySize, Nat.mod_lt j (Nat.succ_pos 63)⟩

/-- The `Input` that an app comes to from its argument. -/
def inputAt (l : Layout (InputOf σ κ)) (mem : ℕ → BitVec 8) (arg : ℕ) : Option (InputOf σ κ) := do
  let ctx ← context.deref mem arg
  l.deref mem ctx.input.toNat

end Shared
open Shared

def Input.inMemory (i : Input) : InputOf KeyState (BitVec 64) where
  mouseX := i.mouseX.toBitVec
  mouseY := i.mouseY.toBitVec
  keys := Vector.ofFn fun key => i.keys key
  historyLastIndex := BitVec.ofNat 64 i.historyLastIndex
  historyRing := Vector.ofFn fun j =>
    ⟨(i.historyRing j).trigger, BitVec.ofNat 64 (i.historyRing j).key⟩

/-! ## What is in the ring -/

/-- Behind as many empty events as the ring has slots, it holds what was recorded. -/
structure Slots (recorded : List InputEvent) (i : Input) : Prop where
  index : i.historyLastIndex = recorded.length % 2 ^ 64
  ring : RingWindow.Holds historySize i.historyRing 1
    (List.replicate historySize ⟨false, 0⟩ ++ recorded)
  keys : ∀ e ∈ recorded, e.key < numKeys

/-- The events that are still in the ring. -/
def kept (recorded : List InputEvent) : List InputEvent :=
  recorded.drop (recorded.length - historySize)

namespace Slots
variable {recorded : List InputEvent} {i i' : Input} {e : InputEvent}

lemma new : Slots [] Input.new where
  index := rfl
  ring j hj _ := by simp [Input.new]
  keys _ he := by simp at he

lemma handleIncomingState (h : Slots recorded i)
    (hi : i.handleIncomingState e.key e.trigger = some i') : Slots (recorded ++ [e]) i' := by
  unfold Input.handleIncomingState at hi
  split at hi
  case isFalse => cases hi
  case isTrue hkey =>
    cases hi
    have hindex : (i.historyLastIndex + 1) % 2 ^ 64 = (recorded.length + 1) % 2 ^ 64 := by
      rw [h.index, Nat.mod_add_mod]
    refine ⟨by rw [List.length_append]; exact hindex, ?_, fun e' he' => ?_⟩
    · have hpush := h.ring.push (x := e)
      have hslot : (1 + (List.replicate historySize (⟨false, 0⟩ : InputEvent) ++ recorded).length) %
          historySize = (i.historyLastIndex + 1) % 2 ^ 64 % historySize := by
        rw [hindex, List.length_append, List.length_replicate, historySize]
        omega
      rwa [hslot, List.append_assoc] at hpush
    · obtain he' | he' := List.mem_append.mp he'
      · exact h.keys e' he'
      · rwa [List.mem_singleton.mp he']

/-- Each slot holds an empty event or one of those kept, and each of these is in a slot. -/
lemma slots_iff (h : Slots recorded i) {P : InputEvent → Prop} (hempty : P ⟨false, 0⟩) :
    (∀ j < historySize, P (i.historyRing j)) ↔ ∀ e ∈ kept recorded, P e := by
  let all := List.replicate historySize (⟨false, 0⟩ : InputEvent) ++ recorded
  have hlast : all.drop recorded.length =
      List.replicate (historySize - recorded.length) ⟨false, 0⟩ ++ kept recorded := by
    rw [List.drop_append, List.drop_replicate, List.length_replicate, kept]
  have hall : all.take recorded.length ++ all.drop recorded.length = all := List.take_append_drop ..
  have hlength : all.length = historySize + recorded.length := by simp [all]
  have hring := h.ring
  change RingWindow.Holds historySize i.historyRing 1 all at hring
  rw [← hall] at hring
  have hread := hring.drop.read (by rw [List.length_drop, hlength]; omega)
  rw [List.length_drop, hlength, Nat.add_sub_cancel, List.length_take, hlength,
    Nat.min_eq_left (Nat.le_add_left _ _)] at hread
  have hkept : (∀ e ∈ all.drop recorded.length, P e) ↔ ∀ e ∈ kept recorded, P e := by
    rw [hlast, List.forall_mem_append, and_iff_right]
    intro e he
    rwa [List.eq_of_mem_replicate he]
  rw [← hkept, ← hread]
  constructor
  · intro hslots e he
    obtain ⟨j, -, rfl⟩ := List.mem_map.mp he
    exact hslots _ (Nat.mod_lt _ (Nat.succ_pos 63))
  · intro hlist j hj
    refine hlist _ (List.mem_map.mpr ⟨(j + 63 * (1 + recorded.length)) % historySize, ?_, ?_⟩)
    · exact List.mem_range.mpr (Nat.mod_lt _ (Nat.succ_pos 63))
    · have hslot : (1 + recorded.length + (j + 63 * (1 + recorded.length)) % historySize) %
          historySize = j := by
        unfold historySize at hj ⊢
        omega
      rw [hslot]

lemma key_lt (h : Slots recorded i) {j : ℕ} (hj : j < historySize) :
    (i.historyRing j).key < 2 ^ 64 := by
  refine (h.slots_iff (P := fun e => e.key < 2 ^ 64) (by decide)).mpr (fun e he => ?_) j hj
  exact (h.keys e (List.mem_of_mem_drop he)).trans (by decide)

end Slots

/-- What a new `INPUT` has and keeps in whatever is done to it. -/
structure Preserved (P : List InputEvent → Input → Prop) : Prop where
  new : P [] .new
  record : ∀ {recorded i i' e}, P recorded i →
    Input.handleIncomingState e.key e.trigger i = some i' → P (recorded ++ [e]) i'
  mouse : ∀ {recorded i} x y, P recorded i → P recorded { i with mouseX := x, mouseY := y }
  step : ∀ {recorded i}, P recorded i → P recorded i.step

namespace Preserved
variable {P : List InputEvent → Input → Prop}

lemma handleEvent (hP : Preserved P) {recorded : List InputEvent} {i i' : Input}
    {evt : VirtioInputEvent} (h : P recorded i) (hi : i.handleEvent evt = some i') :
    P (recorded ++ evt.keyEvent.toList) i' := by
  unfold Input.handleEvent at hi
  by_cases hkey : evt.type_ = 1
  · rw [if_neg (by rw [hkey]; decide), if_pos hkey] at hi
    rw [VirtioInputEvent.keyEvent, if_pos hkey]
    exact hP.record h hi
  · rw [VirtioInputEvent.keyEvent, if_neg hkey, Option.toList_none, List.append_nil]
    simp only [hkey, if_false] at hi
    split_ifs at hi <;> cases hi
    case pos | neg => exact h
    all_goals exact hP.mouse _ _ h

lemma drive (hP : Preserved P) (evts : List VirtioInputEvent) {s : Pipeline}
    (h : P s.recorded s.input.cell) :
    P (Pipeline.drive evts s).recorded (Pipeline.drive evts s).input.cell ∧
      (Pipeline.drive evts s).frames = s.frames := by
  induction evts generalizing s with
  | nil => exact ⟨h, rfl⟩
  | cons evt evts ih =>
    rw [Pipeline.drive]
    cases hupdate : s.input.update (Input.handleEvent evt) with
    | none => exact ⟨h, rfl⟩
    | some input =>
      obtain ⟨i, hi, hstore⟩ := Option.bind_eq_some_iff.mp hupdate
      cases hstore
      exact ih (hP.handleEvent h hi)

/-- It has it in every frame. -/
lemma forall_frames (hP : Preserved P) {guard : Pipeline → Pipeline.Label → Pipeline → Prop}
    {numApps : ℕ} {s : Pipeline}
    (h : Transition.Reach Pipeline.step guard (Pipeline.boot numApps) s) :
    ∀ f ∈ s.frames, P f.recorded f.input := by
  have hinv : P s.recorded s.input.cell ∧ ∀ f ∈ s.frames, P f.recorded f.input := by
    refine h.invariant (I := fun s => P s.recorded s.input.cell ∧
      ∀ f ∈ s.frames, P f.recorded f.input) ⟨hP.new, by simp [Pipeline.boot]⟩
      fun s l s' _ hs taken _ => ?_
    obtain ⟨-, taken⟩ := Option.ite_none_left_eq_some.mp taken
    cases l with
    | arrive device evt =>
      cases taken
      exact hs
    | driver device =>
      cases taken
      obtain ⟨hdriven, hframes⟩ := hP.drive (s.pending device)
        (s := { s with pending := Function.update s.pending device [] }) hs.1
      refine ⟨hdriven, ?_⟩
      rw [hframes]
      exact hs.2
    | frame =>
      cases taken
      exact ⟨hP.step hs.1, List.forall_mem_cons.mpr hs⟩
  exact hinv.2

end Preserved

lemma Slots.preserved : Preserved Slots where
  new := .new
  record := .handleIncomingState
  mouse _ _ h := ⟨h.index, h.ring, h.keys⟩
  step h := ⟨h.index, h.ring, h.keys⟩

lemma Reflects.preserved : Preserved Reflects where
  new := .new
  record := .handleIncomingState
  mouse x y h := h.mouse x y
  step := .step

/-! ## What an app finds -/

namespace Shared
variable {κ : Type} {toUsize : κ → ℕ} {f : Frame}

/-- An event of an app, as the kernel has recorded it. -/
def Event.recorded (toUsize : κ → ℕ) (e : Event κ) : InputEvent := ⟨e.trigger, toUsize e.key⟩

/-- The memory in which an app is called for a frame, with this address. -/
structure Handed (f : Frame) (mem : ℕ → BitVec 8) (arg : ℕ) (ctx : Context) : Prop where
  context : context.At mem arg ctx
  input : kernelInput.At mem ctx.input.toNat f.input.inMemory

/-- What an app finds of the input of a frame, where it takes a key for `toUsize` of it. -/
structure Finds (toUsize : κ → ℕ) (f : Frame) (i : InputOf (BitVec 8) κ) : Prop where
  mouseX : i.mouseX = f.input.mouseX.toBitVec
  mouseY : i.mouseY = f.input.mouseY.toBitVec
  keys : ∀ key : Fin numKeys,
    128 ≤ (i.keys.get key).toNat ↔ lastTrigger key f.recorded = some true
  historyLastIndex : i.historyLastIndex.toNat = f.recorded.length % 2 ^ 64
  history : ∀ c, (i.readHistory c).map (Event.recorded toUsize) = readHistory c.toNat f.input

/-- An app that has the states of the keys as bytes. -/
lemma inputAt_eq {κ : Type} {k : Layout κ} {g : BitVec 64 → Option κ} {mem : ℕ → BitVec 8}
    {arg : ℕ} {ctx : Context} (hk : usize.Reads k g) (h : Handed f mem arg ctx) :
    inputAt (input u8 k) mem arg =
      f.input.inMemory.as (fun s => some (BitVec.ofNat 8 s.toU8)) g := by
  have hreads := input_reads keyState_reads hk
  rw [inputAt, h.context.deref]
  exact hreads.deref h.input

lemma isSome_as_inMemory {g : BitVec 64 → Option κ} (i : Input) :
    (i.inMemory.as (fun s => some (BitVec.ofNat 8 s.toU8)) g).isSome ↔
      ∀ j < historySize, (g (BitVec.ofNat 64 (i.historyRing j).key)).isSome := by
  rw [InputOf.isSome_as]
  simp [Input.inMemory, Fin.forall_iff]

lemma toNat_toU8 (k : KeyState) : (BitVec.ofNat 8 k.toU8).toNat = k.toU8 := by
  cases k <;> rfl

/-- Keys are looked for among the values `g`. -/
lemma finds {g : BitVec 64 → Option κ} {i : InputOf (BitVec 8) κ}
    (hslots : Slots f.recorded f.input) (hreflects : Reflects f.recorded f.input)
    (hg : ∀ {v k}, g v = some k → toUsize k = v.toNat)
    (h : f.input.inMemory.as (fun s => some (BitVec.ofNat 8 s.toU8)) g = some i) :
    Finds toUsize f i := by
  obtain ⟨keys, hkeys, h⟩ := Option.bind_eq_some_iff.mp h
  obtain ⟨ring, hring, h⟩ := Option.bind_eq_some_iff.mp h
  cases h
  have hkeys := Layout.mapM_vector.mp hkeys
  have hring := Layout.mapM_vector.mp hring
  have hindex : f.input.historyLastIndex < 2 ^ 64 := by
    rw [hslots.index]
    exact Nat.mod_lt _ (Nat.two_pow_pos 64)
  have hlast : (BitVec.ofNat 64 f.input.historyLastIndex).toNat = f.input.historyLastIndex :=
    (BitVec.toNat_ofNat ..).trans (Nat.mod_eq_of_lt hindex)
  refine ⟨rfl, rfl, fun key => ?_, hlast.trans hslots.index, fun c => ?_⟩
  · have hkey := congrArg (Vector.get · key) hkeys
    simp only [Vector.get_map, Input.inMemory, Vector.get_ofFn, Option.some.injEq] at hkey
    rw [← hreflects.keys key key.isLt, KeyState.IsOn, ← toNat_toU8, hkey]
  · have hstart : (c + 1).toNat = (c.toNat + 1) % 2 ^ 64 := BitVec.toNat_add c 1
    rw [InputOf.readHistory, readHistory, List.map_map]
    dsimp only [Input.inMemory]
    rw [hlast, hstart]
    apply List.map_congr_left
    intro j _
    have hj : j % historySize < historySize := Nat.mod_lt j (Nat.succ_pos 63)
    have hevent := congrArg (Vector.get · ⟨j % historySize, hj⟩) hring
    simp only [Vector.get_map, Input.inMemory, Vector.get_ofFn] at hevent
    obtain ⟨k, hk, hevent⟩ := Option.map_eq_some_iff.mp hevent
    have hkey : toUsize k = (f.input.historyRing (j % historySize)).key := by
      rw [hg hk, BitVec.toNat_ofNat, Nat.mod_eq_of_lt (hslots.key_lt hj)]
    rw [Function.comp_apply, ← hevent, Event.recorded, hkey]

/-- What the apps find in the memory of a frame. -/
structure ReadInPlace (f : Frame) (mem : ℕ → BitVec 8) (arg : ℕ) : Prop where
  cursor : ∃ i, inputAt cursorInput mem arg = some i ∧ Finds BitVec.toNat f i
  /-- The console has an `Input` when the events in the ring are of keys that it knows. -/
  valid : (inputAt consoleInput mem arg).isSome ↔
    ∀ e ∈ kept f.recorded, Key.IsDiscriminant e.key
  console : ∀ i, inputAt consoleInput mem arg = some i → Finds Key.toUsize f i

/-- Two frames after one another: going on from the index that it read at the first, the console
reads the events that were recorded between them, if these are at most 64, exactly when the index
did not wrap. -/
def TakesUp (f f₀ : Frame) : Prop :=
  ∃ new, f.recorded = f₀.recorded ++ new ∧ (new.length ≤ historySize →
    ∀ mem arg ctx i mem₀ arg₀ ctx₀ i₀, Handed f mem arg ctx → Handed f₀ mem₀ arg₀ ctx₀ →
      inputAt consoleInput mem arg = some i → inputAt consoleInput mem₀ arg₀ = some i₀ →
      ((i.readHistory i₀.historyLastIndex).map (Event.recorded Key.toUsize) = new ↔
        NoWrap i₀.historyLastIndex.toNat new.length))

lemma readInPlace (hslots : Slots f.recorded f.input) (hreflects : Reflects f.recorded f.input)
    {mem : ℕ → BitVec 8} {arg : ℕ} {ctx : Context} (h : Handed f mem arg ctx) :
    ReadInPlace f mem arg := by
  have hcursor := inputAt_eq (Layout.Reads.refl usize) h
  have hconsole := inputAt_eq key_reads h
  refine ⟨?_, ?_, fun i hi => ?_⟩
  · have hsome := (isSome_as_inMemory (g := some) f.input).mpr fun _ _ => rfl
    obtain ⟨i, hi⟩ := Option.isSome_iff_exists.mp hsome
    refine ⟨i, hcursor.trans hi, finds hslots hreflects (fun hv => ?_) hi⟩
    rw [Option.some.inj hv]
  · rw [consoleInput, hconsole, isSome_as_inMemory,
      ← hslots.slots_iff (P := fun e => Key.IsDiscriminant e.key) ⟨.reserved, rfl⟩]
    refine forall₂_congr fun j hj => ?_
    rw [Key.isSome_ofUsize, BitVec.toNat_ofNat, Nat.mod_eq_of_lt (hslots.key_lt hj)]
  · exact finds hslots hreflects Key.toUsize_ofUsize (hconsole.symm.trans hi)

end Shared

open InputSystem

namespace Shared

def firstContext : Context := ⟨1, 0, 0, 0, ⟨⟨0, 0⟩, 0, 0⟩, 0, 0, 0, 96⟩

/-- The context in the first bytes of the memory, and behind it the input of a frame. -/
def handOver (f : Frame) : ℕ → BitVec 8 :=
  Cells.store 0 (context.encode (fun _ => 0) firstContext)
    (Cells.store 96 (kernelInput.encode (fun _ => 0) f.input.inMemory) fun _ => 0)

lemma handed_handOver (f : Frame) : Handed f (handOver f) 0 firstContext where
  context := by
    refine ⟨dvd_zero _, fun _ => 0, ?_⟩
    rw [← context.length_encode (fun _ => 0) firstContext]
    exact Cells.load_store ..
  input := by
    refine ⟨(by decide : kernelInput.align ∣ 96), fun _ => 0, ?_⟩
    change Cells.load (handOver f) 96 _ = _
    have hapart : Cells.Apart 0 (context.encode (fun _ => 0) firstContext).length 96
        kernelInput.size := by
      rw [context.length_encode]
      exact .inl (by decide : 0 + context.size ≤ 96)
    rw [handOver, Cells.load_store_apart hapart,
      ← kernelInput.length_encode (fun _ => 0) f.input.inMemory]
    exact Cells.load_store ..

end Shared

end Fomos
