import Mathlib
import Fomos.Console.Drawable
import Fomos.Console.Drawing
import Fomos.Console.Prompt

/-!
# A call of the console

`_start` from its first line to its last: the background is sampled and blurred, the mouse moves the
window, the window and the text are drawn, and the new key events are taken. Each of the parts was
looked at by itself; a call is one call of each of them, on the store and the framebuffer that they
share.
-/
namespace Fomos.Console
open Sweep

/-- `FB`, of any size. -/
structure Framebuffer (P : Type) extends Screen, Pixels P

/-- A framebuffer of a size that the console can divide. -/
structure Framebuffer.Divided {P : Type} (fb : Framebuffer P) : Prop where
  div_dvd_w : div ∣ fb.w
  div_dvd_h : div ∣ fb.h
  div_le_w : div ≤ fb.w
  div_le_h : div ≤ fb.h

/-- The fields of `Context` that the console reads. -/
structure WholeContext (P : Type) where
  startTime : ℕ
  pid : ℕ
  input : Input
  mouse : Mouse
  fb : Framebuffer P

/-- All of `Store`. -/
structure WholeStore (C P : Type) extends Store C where
  window : Window
  resizing : Fin 4 → Bool
  moving : Option (ℕ × ℕ)
  b1 : List P
  b2 : List P

/-- What the mouse does to `active`: only a press at no edge changes it. -/
def Geometry.click (m : Mouse) (g : Geometry) : Option Bool :=
  if m.button = 128 ∧ ¬∃ i, (g.resizing i || g.window.edgesAt m i) then
    some (decide (g.window.Contains m))
  else none

/-- What the part that takes key events sees of a context. -/
def WholeContext.keys {P : Type} (click : Option Bool) (cx : WholeContext P) : Context :=
  ⟨cx.startTime, cx.pid, cx.input, click⟩

namespace Buffers
variable {P : Type} (mix : P → P → P) (weigh : List P → P → P)

/-- The one buffer is sampled, and blurred into the other, for a screen of any size. -/
def blurred (fb : Pixels P) (fx : ℤ) (src dst : List P) : Option (List P × List P) :=
  (prepare mix fb src dst).bind fun p =>
    (blur weigh fx (1 - fx) p.1 p.2 fb.wi fb.hi).map fun dst => (p.1, dst)

/-- The buffers change places from one call to the next. -/
def paint (fb : Pixels P) (b : Buffers P) : Option (Buffers P) :=
  let step := b.step + 1
  let fx : ℤ := if step % 2 = 0 then 1 else 0
  let src := if step % 2 = 0 then b.b1 else b.b2
  let dst := if step % 2 = 0 then b.b2 else b.b1
  (blurred mix weigh fb fx src dst).map fun p =>
    ⟨step, if step % 2 = 0 then p.1 else p.2, if step % 2 = 0 then p.2 else p.1⟩

/-- The lengths of the slices behind the sampling. -/
def lengths (pixels : List P) (b : Buffers P) : Slice → ℕ
  | .pixels => pixels.length
  | .src => if b.step % 2 = 0 then b.b1.length else b.b2.length
  | .dst => if b.step % 2 = 0 then b.b2.length else b.b1.length

end Buffers

namespace WholeStore
variable {C N E P : Type} (fos : Fomoscript C N E) (font : Font) (taffy : Taffy) (raster : Raster)
  (mix : P → P → P) (weigh : List P → P → P) (cx : WholeContext P)

def geometry (s : WholeStore C P) : Geometry := ⟨s.window, s.resizing, s.moving, s.active⟩

def buffers (s : WholeStore C P) : Buffers P := ⟨s.step, s.b1, s.b2⟩

def display (s : WholeStore C P) : Display := ⟨s.geometry, s.step, s.b1.length, s.b2.length⟩

def new : WholeStore C P where
  toStore := Store.new fos (cx.keys none)
  window := (Geometry.new cx.pid).window
  resizing := (Geometry.new cx.pid).resizing
  moving := (Geometry.new cx.pid).moving
  b1 := []
  b2 := []

/-- The store that a call finds, with the first call's welcome. -/
def found (store : Option (WholeStore C P)) : WholeStore C P :=
  let s := store.getD (new fos cx)
  { s with toStore := s.toStore.welcome }

/-- The step of the store, and what is done to its buffers. -/
def paint (s : WholeStore C P) : Option (WholeStore C P) :=
  (s.buffers.paint mix weigh cx.fb.toPixels).map fun b =>
    { s with step := b.step, b1 := b.b1, b2 := b.b2 }

def handleMouse (s : WholeStore C P) : WholeStore C P :=
  let g := s.geometry.call cx.fb.toScreen cx.mouse
  { s with active := g.active, window := g.window, resizing := g.resizing, moving := g.moving }

/-- What is drawn: the title, and the texts of the history, the oldest one first. -/
def inputs (s : WholeStore C P) : Inputs where
  mouse := cx.mouse
  title := Store.title (cx.keys none)
  texts := (s.terminal.consoleHistory.map Atom.text).reverse

/-- The pixels that are drawn, and the cells that the window shows. -/
def drawing (s : WholeStore C P) : List Access :=
  cx.fb.drawingWindow taffy s.window ++ cx.fb.drawingTitle raster s.window (s.inputs cx).title ++
    cx.fb.drawingTexts raster s.window (s.inputs cx).texts 0 20

/-- Every index is in range, and every character is in the font. -/
def draws (s : WholeStore C P) : Bool :=
  ((s.drawing taffy raster cx).all fun a =>
    decide (a.index < s.buffers.lengths cx.fb.pixels a.slice)) &&
      s.toStore.canDraw font (cx.keys none)

/-- The new key events are taken, if the console is active. -/
def takeKeys (s : WholeStore C P) : Option (Option (WholeStore C P)) :=
  let turn := Terminal.newInputs fos cx.startTime cx.pid (Store.newEvents (cx.keys none) s.toStore)
    s.terminal
  (s.toStore.leave (cx.keys none) turn).map fun store => store.map fun console =>
    { s with toStore := console }

/-- What the part that blurs gets of a call. -/
def frame (hdivided : cx.fb.Divided) (s : WholeStore C P) : Frame P where
  fb := { cx.fb.toPixels with
    div_dvd_w := hdivided.div_dvd_w
    div_dvd_h := hdivided.div_dvd_h
    div_le_w := hdivided.div_le_w
    div_le_h := hdivided.div_le_h }
  window := (((s.geometry.button cx.mouse).move cx.mouse).resize cx.mouse).window
  drawn := Screen.drawn taffy (s.geometry.call cx.fb.toScreen cx.mouse).window

/-- `_start` -/
def start (store : Option (WholeStore C P)) : Option (Option (WholeStore C P)) :=
  ((found fos cx store).paint mix weigh cx).bind fun s =>
    let s := s.handleMouse cx
    if s.draws font taffy raster cx then s.takeKeys fos cx else none

end WholeStore

/-! ## The indices of the parts -/

namespace Geometry
variable {g : Geometry} {m : Mouse}

lemma call_active (s : Screen) (m : Mouse) (g : Geometry) :
    (g.call s m).active = (g.click m).getD g.active := by
  have hmove : ∀ g : Geometry, (g.move m).active = g.active := by
    intro g
    unfold move
    split <;> rfl
  change ((g.button m).move m).active = _
  rw [hmove]
  unfold button press click
  dsimp only
  split_ifs <;> simp_all

end Geometry

namespace Buffers
variable {P : Type} {mix : P → P → P} {weigh : List P → P → P} {fb : Framebuffer P} {d : Display}
  {src dst dst' : List P} {b b' : Buffers P}

lemma pixel_isSome_iff (c : ℕ × ℕ) :
    (fb.toPixels.pixel c).isSome ↔ fb.toScreen.sampled c < fb.toScreen.len := by
  rw [Pixels.pixel, isSome_getElem?, fb.pixels_length]
  rfl

/-- The screen is sampled exactly when all of these indices are in range. -/
lemma prepare_isSome_iff_sampling (hsrc : d.src = src.length) :
    (prepare mix fb.toPixels src dst).isSome ↔
      ∀ a ∈ fb.sampling (d.src = 0), a.index < d.lengths fb.toScreen a.slice := by
  rw [Screen.sampling, List.forall_mem_flatMap, prepare, ← hsrc]
  by_cases hempty : d.src = 0
  · rw [if_pos hempty, Option.isSome_map, Iter.mapM_isSome_iff]
    apply forall₂_congr
    intro c hc
    simp [hempty, pixel_isSome_iff, Display.lengths]
  · rw [if_neg hempty, Option.isSome_map, sweep_isSome_iff]
    apply forall₂_congr
    intro c hc
    simp [hempty, pixel_isSome_iff, Display.lengths, ← hsrc]

lemma lengths_of_prepare {p : List P × List P} (hsrc : d.src = src.length)
    (hdst : d.dst = dst.length) (h : prepare mix fb.toPixels src dst = some p) :
    p.1.length = d.lengths fb.toScreen .src ∧ p.2.length = d.lengths fb.toScreen .dst := by
  rw [prepare, ← hsrc] at h
  split at h
  · rename_i hempty
    obtain ⟨vs, hvs, rfl⟩ := Option.map_eq_some_iff.mp h
    have hlen := (Iter.length_of_mapM hvs).trans (length_cells _ _)
    simp only [Display.lengths, hempty, if_true, List.length_append, ← hsrc, ← hdst, hlen,
      Nat.zero_add, and_self]
  · rename_i hempty
    obtain ⟨src', hsweep, rfl⟩ := Option.map_eq_some_iff.mp h
    simp only [Display.lengths, hempty, if_false]
    exact ⟨(length_of_sweep hsweep).trans hsrc.symm, hdst.symm⟩

/-- And it is blurred exactly when these are. -/
lemma blur_isSome_iff_blurring {fx fy : ℤ} (hsrc : src.length = d.lengths fb.toScreen .src)
    (hdst : dst.length = d.lengths fb.toScreen .dst) :
    (blur weigh fx fy src dst fb.wi fb.hi).isSome ↔
      ∀ a ∈ fb.blurring fx fy, a.index < d.lengths fb.toScreen a.slice := by
  rw [Screen.blurring, List.forall_mem_flatMap, blur, sweep_isSome_iff]
  apply forall₂_congr
  intro c hc
  rw [Option.isSome_map, Iter.mapM_isSome_iff, List.forall_mem_append, List.forall_mem_map,
    List.forall_mem_singleton, hdst]
  apply and_congr_left'
  apply forall₂_congr
  intro k hk
  rw [get, isSome_getElem?, hsrc]
  rfl

/-- Both are done exactly when all of these indices are in range, and leave the lengths that the
indices are compared with. -/
lemma blurred_spec {fx : ℤ} (hsrc : d.src = src.length) (hdst : d.dst = dst.length) :
    ((blurred mix weigh fb.toPixels fx src dst).isSome ↔
      (∀ a ∈ fb.sampling (d.src = 0), a.index < d.lengths fb.toScreen a.slice) ∧
        ∀ a ∈ fb.blurring fx (1 - fx), a.index < d.lengths fb.toScreen a.slice) ∧
      ∀ p, blurred mix weigh fb.toPixels fx src dst = some p →
        p.1.length = d.lengths fb.toScreen .src ∧ p.2.length = d.lengths fb.toScreen .dst := by
  rw [← @prepare_isSome_iff_sampling P mix fb d src dst hsrc, blurred]
  cases hprepare : prepare mix fb.toPixels src dst with
  | none => simp
  | some p =>
    obtain ⟨hsrc', hdst'⟩ := lengths_of_prepare hsrc hdst hprepare
    rw [Option.bind_some, Option.isSome_map, blur_isSome_iff_blurring hsrc' hdst']
    refine ⟨by simp, fun q hq => ?_⟩
    obtain ⟨dst', hblur, rfl⟩ := Option.map_eq_some_iff.mp hq
    exact ⟨hsrc', (length_of_blur hblur).trans hdst'⟩

lemma paint_spec (h1 : d.b1 = b.b1.length) (h2 : d.b2 = b.b2.length) (hstep : d.step = b.step) :
    let fx : ℤ := if (d.step + 1) % 2 = 0 then 1 else 0
    ((paint mix weigh fb.toPixels b).isSome ↔
      (∀ a ∈ fb.sampling (d.src = 0), a.index < d.lengths fb.toScreen a.slice) ∧
        ∀ a ∈ fb.blurring fx (1 - fx), a.index < d.lengths fb.toScreen a.slice) ∧
      ∀ b', paint mix weigh fb.toPixels b = some b' →
        b'.step = d.step + 1 ∧ b'.lengths fb.pixels = d.lengths fb.toScreen := by
  intro fx
  have hsrc : d.src = (if (d.step + 1) % 2 = 0 then b.b1 else b.b2).length := by
    rw [Display.src, h1, h2]
    split_ifs <;> rfl
  have hdst : d.dst = (if (d.step + 1) % 2 = 0 then b.b2 else b.b1).length := by
    rw [Display.dst, h1, h2]
    split_ifs <;> rfl
  obtain ⟨hsome, hlengths⟩ := @blurred_spec P mix weigh fb d _ _ fx hsrc hdst
  rw [paint, ← hstep, Option.isSome_map]
  refine ⟨hsome, fun b' hb' => ?_⟩
  obtain ⟨p, hp, rfl⟩ := Option.map_eq_some_iff.mp hb'
  obtain ⟨hsrc', hdst'⟩ := hlengths p hp
  refine ⟨rfl, funext fun slice => ?_⟩
  cases slice with
  | pixels => exact fb.pixels_length
  | src =>
    rw [← hsrc', lengths]
    split_ifs <;> rfl
  | dst =>
    rw [← hdst', lengths]
    split_ifs <;> rfl

/-- On a size that can be divided, with the cells that the window shows in range, this is the part
that blurs. -/
lemma call_of_paint {f : Frame P} (hpaint : paint mix weigh f.fb.toPixels b = some b')
    (hinside : windowInside f (if (b.step + 1) % 2 = 0 then b'.b2 else b'.b1) = true) :
    call mix weigh f b = some b' := by
  obtain ⟨p, hp, rfl⟩ := Option.map_eq_some_iff.mp hpaint
  obtain ⟨q, hq, hblur⟩ := Option.bind_eq_some_iff.mp hp
  obtain ⟨dst, hdst, rfl⟩ := Option.map_eq_some_iff.mp hblur
  unfold call pass
  dsimp only at hinside ⊢
  split_ifs at hq hdst hinside ⊢ with heven
  all_goals
    rw [hq, Option.bind_some, hdst, Option.bind_some, if_pos hinside]
    rfl

end Buffers

/-! ## One call -/

namespace WholeStore
variable {C N E P : Type} {fos : Fomoscript C N E} {font : Font} {taffy : Taffy} {raster : Raster}
  {mix : P → P → P} {weigh : List P → P → P} {cx : WholeContext P}
  {store store' : Option (WholeStore C P)} {s s' : WholeStore C P}

lemma paint_display (mix : P → P → P) (weigh : List P → P → P) (cx : WholeContext P)
    (s : WholeStore C P) :
    let fx : ℤ := if (s.step + 1) % 2 = 0 then 1 else 0
    ((s.buffers.paint mix weigh cx.fb.toPixels).isSome ↔
      (∀ a ∈ cx.fb.sampling (s.display.src = 0),
          a.index < s.display.lengths cx.fb.toScreen a.slice) ∧
        ∀ a ∈ cx.fb.blurring fx (1 - fx), a.index < s.display.lengths cx.fb.toScreen a.slice) ∧
      ∀ b, s.buffers.paint mix weigh cx.fb.toPixels = some b →
        b.step = s.step + 1 ∧ b.lengths cx.fb.pixels = s.display.lengths cx.fb.toScreen :=
  Buffers.paint_spec rfl rfl rfl

/-- What the part that takes key events finds. -/
lemma toStore_opened {b : Buffers P} (fos : Fomoscript C N E) (cx : WholeContext P)
    (store : Option (WholeStore C P)) (hstep : b.step = (found fos cx store).step + 1) :
    (handleMouse cx { found fos cx store with step := b.step, b1 := b.b1, b2 := b.b2 }).toStore =
      Store.opened fos (cx.keys ((found fos cx store).geometry.click cx.mouse))
        (store.map toStore) := by
  have hactive := Geometry.call_active cx.fb.toScreen cx.mouse (found fos cx store).geometry
  have hfound : (found fos cx store).toStore = ((store.map toStore).getD
      (Store.new fos (cx.keys ((found fos cx store).geometry.click cx.mouse)))).welcome := by
    cases store <;> rfl
  change Store.mk b.step (found fos cx store).inputHistoryLastIndex
    ((found fos cx store).geometry.call cx.fb.toScreen cx.mouse).active
    (found fos cx store).terminal = _
  rw [hstep, hactive, Store.opened, ← hfound]
  rfl

/-- The mouse moves the same window, and the same is drawn, whatever was painted before. -/
lemma handleMouse_parts (taffy : Taffy) (raster : Raster) (cx : WholeContext P)
    (s : WholeStore C P) (b : Buffers P) :
    let s' := handleMouse cx { s with step := b.step, b1 := b.b1, b2 := b.b2 }
    s'.geometry = s.geometry.call cx.fb.toScreen cx.mouse ∧ s'.buffers = b ∧
      s'.drawing taffy raster cx = (s.handleMouse cx).drawing taffy raster cx :=
  ⟨rfl, rfl, rfl⟩

/-- The window and the text are drawn exactly when these indices are in range. -/
lemma draws_iff {d : Display}
    (hlengths : s.buffers.lengths cx.fb.pixels = d.lengths cx.fb.toScreen) :
    s.draws font taffy raster cx = true ↔
      (∀ a ∈ s.drawing taffy raster cx, a.index < d.lengths cx.fb.toScreen a.slice) ∧
        s.toStore.canDraw font (cx.keys none) = true := by
  rw [draws, Bool.and_eq_true, List.all_eq_true, hlengths]
  simp only [decide_eq_true_eq]

/-- Taking the keys changes what the other parts have left no more. -/
lemma takeKeys_eq_some_iff :
    s.takeKeys fos cx = some store' ↔
      s.toStore.leave (cx.keys none) (Terminal.newInputs fos cx.startTime cx.pid
          (Store.newEvents (cx.keys none) s.toStore) s.terminal) = some (store'.map toStore) ∧
        ∀ s' ∈ store', s'.geometry = s.geometry ∧ s'.buffers = s.buffers := by
  constructor
  · intro h
    obtain ⟨left, hleave, rfl⟩ := Option.map_eq_some_iff.mp h
    obtain rfl | ⟨t, -, rfl⟩ := Store.leave_cases hleave
    · exact ⟨hleave, nofun⟩
    · refine ⟨hleave, ?_⟩
      rintro _ ⟨⟩
      exact ⟨rfl, rfl⟩
  · rintro ⟨hleave, hparts⟩
    rw [takeKeys, hleave]
    cases store' with
    | none => rfl
    | some s' =>
      obtain ⟨hgeometry, hbuffers⟩ := hparts s' rfl
      obtain ⟨console, window, resizing, moving, b1, b2⟩ := s'
      simp only [geometry, buffers, Geometry.mk.injEq, Buffers.mk.injEq] at hgeometry hbuffers
      obtain ⟨rfl, rfl, rfl, -⟩ := hgeometry
      obtain ⟨-, rfl, rfl⟩ := hbuffers
      rfl

/-- The indices of a call are those of its painting and of its drawing. -/
lemma inRange_iff (mix : P → P → P) (weigh : List P → P → P) (s : WholeStore C P) :
    s.display.InRange cx.fb.toScreen taffy raster (s.inputs cx) ↔
      (s.buffers.paint mix weigh cx.fb.toPixels).isSome ∧
        ∀ a ∈ (s.handleMouse cx).drawing taffy raster cx,
          a.index < s.display.lengths cx.fb.toScreen a.slice := by
  rw [(paint_display mix weigh cx s).1]
  unfold Display.InRange Display.accesses drawing
  simp only [List.forall_mem_append, and_assoc]
  rfl

/-- A call returns exactly when all of its indices are in range and the part that takes key events
returns, and then each part has been called once on what the call found. -/
theorem start_eq_some_iff :
    start fos font taffy raster mix weigh cx store = some store' ↔
      let s := found fos cx store
      s.display.InRange cx.fb.toScreen taffy raster (s.inputs cx) ∧
        Store.start fos font (cx.keys (s.geometry.click cx.mouse)) (store.map toStore) =
          some (store'.map toStore) ∧
        ∀ s' ∈ store', s'.geometry = s.geometry.call cx.fb.toScreen cx.mouse ∧
          s.buffers.paint mix weigh cx.fb.toPixels = some s'.buffers := by
  dsimp only
  rw [inRange_iff mix weigh, start, paint]
  cases hpaint : (found fos cx store).buffers.paint mix weigh cx.fb.toPixels with
  | none => simp
  | some b =>
    obtain ⟨hstep, hlengths⟩ := (paint_display mix weigh cx _).2 b hpaint
    have hopened := toStore_opened fos cx store hstep
    rw [Option.map_some, Option.bind_some, Store.start, ← hopened]
    obtain ⟨hgeometry, hbuffers, hdrawing⟩ :=
      handleMouse_parts taffy raster cx (found fos cx store) b
    dsimp only
    generalize handleMouse cx { found fos cx store with
      step := b.step, b1 := b.b1, b2 := b.b2 } = s at hopened hgeometry hbuffers hdrawing
    have hdraws := @draws_iff C P font taffy raster cx s (found fos cx store).display
      (hbuffers ▸ hlengths)
    rw [← hdrawing, ← hgeometry, ← hbuffers]
    constructor
    · intro h
      split at h
      · rename_i hdrawn
        obtain ⟨hall, hcan⟩ := hdraws.mp hdrawn
        obtain ⟨hleave, hparts⟩ := takeKeys_eq_some_iff.mp h
        refine ⟨⟨rfl, hall⟩, (if_pos hcan).trans hleave, fun s' hs' => ?_⟩
        obtain ⟨hgeometry', hbuffers'⟩ := hparts s' hs'
        exact ⟨hgeometry', congrArg some hbuffers'.symm⟩
      · cases h
    · rintro ⟨⟨-, hall⟩, hstart, hparts⟩
      split at hstart
      · rename_i hcan
        rw [if_pos (hdraws.mpr ⟨hall, hcan⟩)]
        refine takeKeys_eq_some_iff.mpr ⟨hstart, fun s' hs' => ?_⟩
        obtain ⟨hgeometry', hbuffers'⟩ := hparts s' hs'
        exact ⟨hgeometry', (Option.some.inj hbuffers').symm⟩
      · cases hstart

/-- The window and the lengths of the buffers are what the part that counts indices leaves. -/
lemma start_display (h : start fos font taffy raster mix weigh cx store = some (some s')) :
    (found fos cx store).display.call cx.fb.toScreen taffy raster
      ((found fos cx store).inputs cx) = some s'.display := by
  obtain ⟨hinRange, -, hparts⟩ := start_eq_some_iff.mp h
  obtain ⟨hgeometry, hpaint⟩ := hparts s' rfl
  obtain ⟨hstep, hlengths⟩ := (paint_display mix weigh cx _).2 _ hpaint
  have hgeometry' : (found fos cx store).display.geometry.call cx.fb.toScreen cx.mouse =
      s'.geometry := hgeometry.symm
  have hstep' : s'.step = (found fos cx store).display.step + 1 := hstep
  rw [Display.call, if_pos hinRange, ← hlengths, ← hstep']
  change some (Display.mk ((found fos cx store).display.geometry.call _ cx.mouse) _ _ _) = _
  rw [hgeometry']
  unfold display Buffers.lengths buffers
  split_ifs <;> rfl

lemma start_geometry (h : start fos font taffy raster mix weigh cx store = some (some s')) :
    s'.geometry = (found fos cx store).geometry.call cx.fb.toScreen cx.mouse :=
  ((start_eq_some_iff.mp h).2.2 s' rfl).1

lemma start_buffers (hdivided : cx.fb.Divided)
    (h : start fos font taffy raster mix weigh cx store = some (some s')) :
    (found fos cx store).buffers.call mix weigh
      ((found fos cx store).frame taffy cx hdivided) = some s'.buffers := by
  obtain ⟨hinRange, -, hparts⟩ := start_eq_some_iff.mp h
  obtain ⟨-, hpaint⟩ := hparts s' rfl
  obtain ⟨hstep, hlengths⟩ := (paint_display mix weigh cx _).2 _ hpaint
  have hshown : (if ((found fos cx store).buffers.step + 1) % 2 = 0 then s'.b2 else s'.b1).length =
      (found fos cx store).display.lengths cx.fb.toScreen .dst := by
    rw [← congrFun hlengths .dst]
    have hstep' : s'.buffers.step = (found fos cx store).buffers.step + 1 := hstep
    rw [Buffers.lengths, ← hstep']
    split_ifs <;> rfl
  apply Buffers.call_of_paint hpaint
  have hclamp : ((found fos cx store).frame taffy cx hdivided).window.clamp
      ((found fos cx store).frame taffy cx hdivided).fb.toSize =
        ((found fos cx store).display.geometry.call cx.fb.toScreen cx.mouse).window := rfl
  rw [Buffers.windowInside, hclamp]
  simp only [List.all_eq_true, List.mem_range'_1, Bool.or_eq_true, decide_eq_true_eq]
  rintro y ⟨hy, hy2⟩ x ⟨hx, hx2⟩
  rw [or_iff_not_imp_left, Bool.not_eq_true]
  intro hdrawn
  have hmem : (⟨.dst, x / div + y / div * (cx.fb.w / div)⟩ : Access) ∈ cx.fb.drawingWindow taffy
      ((found fos cx store).display.geometry.call cx.fb.toScreen cx.mouse).window :=
    Screen.mem_drawingWindow.mpr ⟨x, y, hx, by omega, hy, by omega, .inr ⟨hdrawn, rfl⟩⟩
  have hlt := hinRange ⟨.dst, x / div + y / div * (cx.fb.w / div)⟩ (by
    simp only [Display.accesses, List.mem_append]
    exact .inl (.inl (.inr hmem)))
  exact hlt.trans_eq hshown.symm

/-- A call returns exactly when its indices are in range and the part that takes key events
returns. -/
theorem start_isSome_iff :
    (start fos font taffy raster mix weigh cx store).isSome ↔
      (found fos cx store).display.InRange cx.fb.toScreen taffy raster
          ((found fos cx store).inputs cx) ∧
        (Store.start fos font (cx.keys ((found fos cx store).geometry.click cx.mouse))
          (store.map toStore)).isSome := by
  constructor
  · intro h
    obtain ⟨store', hstart⟩ := Option.isSome_iff_exists.mp h
    obtain ⟨hinRange, hconsole, -⟩ := start_eq_some_iff.mp hstart
    exact ⟨hinRange, by rw [hconsole]; rfl⟩
  · rintro ⟨hinRange, hconsole⟩
    obtain ⟨console, hconsole⟩ := Option.isSome_iff_exists.mp hconsole
    obtain ⟨b, hb⟩ := Option.isSome_iff_exists.mp ((inRange_iff mix weigh _).mp hinRange).1
    have hstep := ((paint_display mix weigh cx _).2 b hb).1
    have hopened := toStore_opened fos cx store hstep
    obtain ⟨hgeometry, hbuffers, -⟩ := handleMouse_parts taffy raster cx (found fos cx store) b
    generalize handleMouse cx { found fos cx store with
      step := b.step, b1 := b.b1, b2 := b.b2 } = s at hopened hgeometry hbuffers
    refine Option.isSome_iff_exists.mpr
      ⟨console.map fun console => { s with toStore := console }, start_eq_some_iff.mpr
        ⟨hinRange, hconsole.trans ?_, ?_⟩⟩
    · cases console <;> rfl
    · obtain rfl | ⟨t, -, rfl⟩ := Store.start_cases hconsole
      · exact nofun
      · rintro _ ⟨⟩
        rw [← hopened]
        exact ⟨hgeometry, hb.trans (congrArg some hbuffers.symm)⟩

/-! ## Runs -/

/-- What a call finds of a store, apart from its terminal: the welcome changes nothing else. -/
lemma found_parts (fos : Fomoscript C N E) (cx : WholeContext P)
    (store : Option (WholeStore C P)) :
    (found fos cx store).geometry = (store.elim (.new cx.pid) geometry) ∧
      (found fos cx store).buffers = (store.elim .new buffers) := by
  cases store with
  | none => exact ⟨rfl, rfl⟩
  | some s =>
    have hwelcome : s.toStore.welcome.step = s.step ∧ s.toStore.welcome.active = s.active := by
      unfold Store.welcome
      split <;> exact ⟨rfl, rfl⟩
    exact ⟨congrArg (Geometry.mk _ _ _) hwelcome.2,
      congrArg (fun step => Buffers.mk step _ _) hwelcome.1⟩

/-- The run of a part since the store was made: what it has when it is made, and what a call of it
makes of what the call has found. -/
theorem reach_part {α β : Type} {part : WholeStore C P → α} {step : β → α → Option α}
    {init : ℕ → α} {guard : Option (WholeStore C P) → WholeContext P → Prop}
    (hfound : ∀ cx store, part (found fos cx store) = store.elim (init cx.pid) part)
    (hstep : ∀ store cx s', guard store cx →
      start fos font taffy raster mix weigh cx store = some (some s') →
        ∃ b, step b (part (found fos cx store)) = some (part s'))
    (h : Transition.Reach (start fos font taffy raster mix weigh)
      (fun store cx _ => guard store cx) none store) :
    ∀ s ∈ store, ∃ pid, Transition.Reach step (fun _ _ _ => True) (init pid) (part s) := by
  apply h.invariant
  · exact nofun
  · rintro store cx _ - hstore hstart hguard s' rfl
    obtain ⟨b, hb⟩ := hstep store cx s' hguard hstart
    rw [hfound] at hb
    cases store with
    | none => exact ⟨cx.pid, Transition.Reach.start.next hb trivial⟩
    | some s =>
      obtain ⟨pid, hs⟩ := hstore s rfl
      exact ⟨pid, hs.next hb trivial⟩

/-- The window, in a run of the console. -/
theorem reach_geometry (h : Transition.Reach (start fos font taffy raster mix weigh)
    (fun _ _ _ => True) none store) :
    ∀ s ∈ store, ∃ pid,
      Transition.Reach Geometry.step (fun _ _ _ => True) (.new pid) s.geometry := by
  apply reach_part (fun cx store => (found_parts fos cx store).1) _ h
  intro store cx s' _ hstart
  exact ⟨(cx.fb.toScreen, cx.mouse), congrArg some (start_geometry hstart).symm⟩

/-- The lengths of the buffers, on one screen. -/
theorem reach_display {screen : Screen} (h : Transition.Reach
    (start fos font taffy raster mix weigh) (fun _ cx _ => cx.fb.toScreen = screen) none store) :
    ∀ s ∈ store, ∃ pid, Transition.Reach (Display.call screen taffy raster) (fun _ _ _ => True)
      (.new pid) s.display := by
  apply reach_part _ _ h
  · intro cx store
    obtain ⟨hgeometry, hbuffers⟩ := found_parts fos cx store
    change Display.mk (found fos cx store).geometry (found fos cx store).buffers.step
      (found fos cx store).buffers.b1.length (found fos cx store).buffers.b2.length = _
    rw [hgeometry, hbuffers]
    cases store <;> rfl
  · rintro store cx s' rfl hstart
    exact ⟨_, start_display hstart⟩

/-- The buffers, on framebuffers that the console can divide. -/
theorem reach_buffers (h : Transition.Reach (start fos font taffy raster mix weigh)
    (fun _ cx _ => cx.fb.Divided) none store) :
    ∀ s ∈ store, Transition.Reach (Buffers.call mix weigh) (fun _ _ _ => True) .new s.buffers := by
  have hreach : ∀ s ∈ store, ∃ pid : ℕ, Transition.Reach (Buffers.call mix weigh)
      (fun _ _ _ => True) ((fun _ => Buffers.new) pid) s.buffers := by
    apply reach_part (fun cx store => (found_parts fos cx store).2) _ h
    intro store cx s' hdivided hstart
    exact ⟨_, start_buffers hdivided hstart⟩
  exact fun s hs => (hreach s hs).elim fun _ h => h

/-- The terminal, with what holds of the key events of each call. -/
theorem reach_console (guard : Option (Store C) → Context → Prop)
    (h : Transition.Reach (start fos font taffy raster mix weigh) (fun store cx _ =>
      guard (store.map toStore) (cx.keys ((found fos cx store).geometry.click cx.mouse)))
      none store) :
    Transition.Reach (Store.start fos font) (fun store cx _ => guard store cx) none
      (store.map toStore) := by
  have hmap : Transition.Reach (Store.start fos font) (fun store cx _ => guard store cx)
      ((none : Option (WholeStore C P)).map toStore) (store.map toStore) := by
    apply h.map
    intro store cx store' hstart hguard
    exact ⟨_, (start_eq_some_iff.mp hstart).2.1, hguard⟩
  exact hmap

end WholeStore

/-! ## Calls that return -/

namespace Terminal
variable {C N E : Type} (fos : Fomoscript C N E)

/-- An event that deletes nothing of a prompt, types nothing that the font does not have, and
executes no script. -/
structure IsPlain (startTime pid : ℕ) (e : InputEvent) (t : Terminal C) : Prop where
  spared : ¬DeletesPrompt e t
  drawable : ¬TypesSuperscript e t
  noScript : e.trigger = true → e.key = .keyEnter → t.shift = false → ∀ text ∈ t.userText,
    result fos startTime pid text t = none

instance (startTime pid : ℕ) (e : InputEvent) (t : Terminal C) :
    Decidable (IsPlain fos startTime pid e t) :=
  decidable_of_iff (¬DeletesPrompt e t ∧ ¬TypesSuperscript e t ∧ (e.trigger = true →
    e.key = .keyEnter → t.shift = false → ∀ text ∈ t.userText,
      (result fos startTime pid text t).isNone))
    ⟨fun ⟨hspared, hdrawable, hnone⟩ => ⟨hspared, hdrawable, by simpa using hnone⟩,
      fun h => ⟨h.spared, h.drawable, by simpa using h.noScript⟩⟩

end Terminal

namespace Store
variable {C N E : Type} (fos : Fomoscript C N E)

/-- All key events of a call are plain. -/
def TakesPlain (store : Option (Store C)) (cx : Context) : Prop :=
  Terminal.EveryTurn fos cx.startTime cx.pid (Terminal.IsPlain fos cx.startTime cx.pid)
    (newEvents cx (opened fos cx store)) (opened fos cx store).terminal

instance (store : Option (Store C)) (cx : Context) : Decidable (TakesPlain fos store cx) :=
  inferInstanceAs (Decidable (Terminal.EveryTurn ..))

variable {fos} {store : Option (Store C)} {cx : Context} {turn : Turn C} {s : Store C}

lemma TakesPlain.spared (h : TakesPlain fos store cx) : PromptSpared fos store cx :=
  h.mono fun _ _ hplain => hplain.spared

lemma TakesPlain.drawable (font : Font) (h : TakesPlain fos store cx) :
    TypesDrawable fos font store cx := by
  refine h.mono fun e t hplain => ⟨hplain.drawable, ?_⟩
  intro htrigger hkey hshift text older hhistory res hres
  rw [hplain.noScript htrigger hkey hshift text
    (Terminal.userText_eq_some.mpr ⟨older, hhistory⟩)] at hres
  cases hres

lemma leave_isSome (h : turn.Prompted) : (s.leave cx turn).isSome := by
  cases turn with
  | panic => exact h.elim
  | _ => rfl

/-- In a run of plain calls the part that takes key events returns. -/
lemma start_isSome_of_plain {font : Font} (h : Transition.Reach (start fos font)
    (fun store cx _ => TakesPlain fos store cx) none store) (hplain : TakesPlain fos store cx) :
    (start fos font cx store).isSome := by
  have hnew : ∀ cx : Context, (new fos cx).welcome.terminal.drawable font = true ∧
      (new fos cx).welcome.terminal.Prompted :=
    fun cx => ⟨new_drawable font cx, [], _, rfl⟩
  have hleft : Left (fun t => t.drawable font = true ∧ t.Prompted) store := by
    apply reach_left hnew _ h
    rintro store cx ⟨hdrawable, hprompted⟩ hplain t ht
    constructor
    · exact (drawableThroughout_iff hdrawable).mpr (hplain.drawable font) _ List.prefix_rfl t ht
    · exact prompted_of_taken
        ((promptedThroughout_iff hprompted).mpr hplain.spared _ List.prefix_rfl) t ht
  obtain ⟨hdrawable, hprompted⟩ := hleft.opened (hnew cx)
  have htaken := (promptedThroughout_iff hprompted).mpr hplain.spared _ List.prefix_rfl
  rw [start, canDraw, title_drawable, hdrawable]
  exact leave_isSome htaken

end Store

namespace WholeStore
variable {C N E P : Type} {fos : Fomoscript C N E} {font : Font} {taffy : Taffy} {raster : Raster}
  {mix : P → P → P} {weigh : List P → P → P} {cx : WholeContext P}
  {store : Option (WholeStore C P)}

/-- On one screen a call finds buffers that are empty or as long as it asks for. -/
lemma filled_found {screen : Screen} (hw : 4 ≤ screen.w) (hh : 4 ≤ screen.h)
    (cx : WholeContext P) (h : Transition.Reach (start fos font taffy raster mix weigh)
      (fun _ cx _ => cx.fb.toScreen = screen) none store) :
    (found fos cx store).display.Filled screen := by
  cases hstore : store with
  | none => exact .inl ⟨rfl, rfl⟩
  | some s =>
    obtain ⟨pid, hs⟩ := reach_display h s hstore
    have hfilled : s.display.Filled screen := Display.filled_of_reach hw hh hs
    exact hfilled

/-- All key events of a call are plain. -/
def TakesPlain (fos : Fomoscript C N E) (store : Option (WholeStore C P)) (cx : WholeContext P) :
    Prop :=
  Store.TakesPlain fos (store.map toStore)
    (cx.keys ((found fos cx store).geometry.click cx.mouse))

instance (store : Option (WholeStore C P)) (cx : WholeContext P) :
    Decidable (TakesPlain fos store cx) :=
  inferInstanceAs (Decidable (Store.TakesPlain ..))

/-- On a screen that loses at most one column and one row when it is divided, or which the header
covers, and with plain key events, every call of the console returns. -/
theorem start_returns {screen : Screen} (hw : 4 ≤ screen.w) (hh : 4 ≤ screen.h)
    (hexact : screen.h ≤ 22 → screen.w ≤ 2 ^ 24) (hdivides : Display.Divides screen)
    (h : Transition.Reach (start fos font taffy raster mix weigh) (fun store cx _ =>
      cx.fb.toScreen = screen ∧ TakesPlain fos store cx) none store)
    (hscreen : cx.fb.toScreen = screen) (hplain : TakesPlain fos store cx) :
    (start fos font taffy raster mix weigh cx store).isSome := by
  rw [start_isSome_iff]
  constructor
  · have hfilled := filled_found hw hh cx (h.mono fun _ _ _ hguard => hguard.1)
    rw [hscreen, Display.inRange_iff hw hh hfilled]
    obtain ⟨hx2, hy2⟩ := Window.clamp_lt screen
      ((((found fos cx store).geometry.button cx.mouse).move cx.mouse).resize cx.mouse).window
    exact Display.backgroundInside_of_divides hw hh hexact hdivides hx2 hy2
  · exact Store.start_isSome_of_plain
      (reach_console (Store.TakesPlain fos) (h.mono fun _ _ _ hguard => hguard.2)) hplain

/-- A call on a blank screen, with these keys pressed so far. -/
def onFullHd (mouse : Mouse) (keys : List Key) : WholeContext Unit where
  startTime := 0
  pid := 0
  input := (Context.pressing keys none).input
  mouse := mouse
  fb := { Geometry.fullHd with
    pixels := List.replicate (1920 * 1080) ()
    pixels_length := List.length_replicate }

/-- The first window is made active, and then `help` is executed while the button is held. -/
theorem start_returns_help :
    let start := start .silent .latin Display.fixedHeader ⟨8, fun _ => []⟩ (fun v _ => v)
      (fun _ p => p)
    ∃ store, start (onFullHd Geometry.pressed []) none = some store ∧
      (start (onFullHd { Geometry.pressed with button := 130 }
        [.keyH, .keyE, .keyL, .keyP, .keyEnter]) store).isSome := by
  intro start
  have hfirst : TakesPlain .silent none (onFullHd Geometry.pressed []) := by
    decide +kernel
  have hreturns := @start_returns Unit Unit Unit Unit .silent .latin Display.fixedHeader
    ⟨8, fun _ => []⟩ (fun v _ => v) (fun _ p => p) _ none Geometry.fullHd (by decide) (by decide)
    (by decide) (.inl (by decide)) .start rfl hfirst
  obtain ⟨store, hstart⟩ := Option.isSome_iff_exists.mp hreturns
  refine ⟨store, hstart, ?_⟩
  have hnext : ((Store.start .silent .latin (.pressing [] (some true)) none).all fun console =>
      decide (Store.TakesPlain .silent console
        (.pressing [.keyH, .keyE, .keyL, .keyP, .keyEnter] none))) = true := by
    decide +kernel
  have hconsole : Store.start .silent .latin (.pressing [] (some true)) none =
      some (store.map toStore) := (start_eq_some_iff.mp hstart).2.1
  rw [hconsole, Option.all_some, decide_eq_true_eq] at hnext
  exact start_returns (by decide) (by decide) (by decide) (.inl (by decide))
    (Transition.Reach.start.next hstart ⟨rfl, hfirst⟩) rfl hnext

end WholeStore
end Fomos.Console
