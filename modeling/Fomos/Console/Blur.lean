import Mathlib
import Fomos.Library.Iter
import Fomos.Library.Sweep

/-!
# The background of the console

The console keeps a picture of the screen behind its window, a quarter of it in each direction, in
two buffers that a call averages and blurs in turn. The first call makes them as large as its
framebuffer asks for, and every later call indexes them by the framebuffer that it gets.
-/
namespace Fomos.Console
open Sweep

def ksize : ℕ := 5
def kh : ℤ := ksize / 2
def div : ℕ := 4

/-- The size of a screen, with its quarter in either direction. -/
structure Size where
  w : ℕ
  h : ℕ
  deriving DecidableEq, Repr

def Size.wi (s : Size) : ℕ := s.w / div
def Size.hi (s : Size) : ℕ := s.h / div

/-- The pixels of a screen. -/
structure Pixels (P : Type) extends Size where
  pixels : List P
  pixels_length : pixels.length = w * h

/-- `FB`, the `FBShare` of the kernel, of a size that the console can divide. -/
structure FBShare (P : Type) extends Pixels P where
  div_dvd_w : div ∣ w
  div_dvd_h : div ∣ h
  div_le_w : div ≤ w
  div_le_h : div ≤ h

/-- The corners of the window, which the mouse moves. -/
structure Window where
  x : ℕ
  y : ℕ
  x2 : ℕ
  y2 : ℕ

/-- The corners after the checks at the end of the mouse's handling. -/
def Window.clamp (s : Size) (win : Window) : Window where
  x := if 10000 < win.x then 0 else win.x
  y := if 10000 < win.y then 0 else win.y
  x2 := if s.w ≤ win.x2 then s.w - 1 else win.x2
  y2 := if s.h ≤ win.y2 then s.h - 1 else win.y2

/-- What a call gets. Some of the window's pixels are drawn otherwise than by the background. -/
structure Frame (P : Type) where
  fb : FBShare P
  window : Window
  drawn : ℕ → ℕ → Bool

/-- The part of `Store` that holds the background. -/
structure Buffers (P : Type) where
  step : ℕ
  b1 : List P
  b2 : List P

namespace Pixels
variable {P : Type} (fb : Pixels P)

/-- The length of the buffers that the framebuffer asks for. -/
def size : ℕ := fb.wi * fb.hi

/-- The pixel that a cell of the background stands for. -/
def pixel (c : ℕ × ℕ) : Option P := fb.pixels[c.1 * div + c.2 * div * (fb.wi * div)]?

end Pixels

namespace Buffers
variable {P : Type}

def new : Buffers P := ⟨0, [], []⟩

def get (x y : ℤ) (src : List P) (wi hi : ℤ) : Option P :=
  let x := if x < 0 then 0 else if wi - 1 ≤ x then wi - 1 else x
  let y := if y < 0 then 0 else if hi - 1 ≤ y then hi - 1 else y
  src[x.toNat + y.toNat * wi.toNat]?

/-- `weigh` is the sum of the samples by the kernel's weights, put into the pixel. -/
def blur (weigh : List P → P → P) (fx fy : ℤ) (src dst : List P) (wi hi : ℕ) : Option (List P) :=
  sweep wi (fun c => ((List.range ksize).mapM fun k : ℕ =>
    get (c.1 + fx * (k - kh)) (c.2 + fy * (k - kh)) src wi hi).map weigh) (cells wi hi) dst

/-- The window shows the background wherever nothing else was drawn. -/
def windowInside (f : Frame P) (dst : List P) : Bool :=
  let win := f.window.clamp f.fb.toSize
  (List.range' win.y (win.y2 + 1 - win.y)).all fun y =>
    (List.range' win.x (win.x2 + 1 - win.x)).all fun x =>
      f.drawn x y || decide (x / div + y / div * (f.fb.w / div) < dst.length)

/-- The buffers before they are blurred: filled by the first call, and by the others averaged.
`mix` is the average of the pixel of the screen and that of the buffer. -/
def prepare (mix : P → P → P) (fb : Pixels P) (src dst : List P) : Option (List P × List P) :=
  if src.length = 0 then
    ((cells fb.wi fb.hi).mapM fb.pixel).map fun vs => (src ++ vs, dst ++ vs)
  else
    (sweep fb.wi (fun c => (fb.pixel c).map mix) (cells fb.wi fb.hi) src).map fun src => (src, dst)

/-- A pass over the two buffers, of which the first is averaged and the second is shown. -/
def pass (mix : P → P → P) (weigh : List P → P → P) (f : Frame P) (fx : ℤ) (src dst : List P) :
    Option (List P × List P) :=
  (prepare mix f.fb.toPixels src dst).bind fun p =>
    (blur weigh fx (1 - fx) p.1 p.2 f.fb.wi f.fb.hi).bind fun dst =>
      if windowInside f dst then some (p.1, dst) else none

/-- The background's part of a call: none if an index is out of the range of its slice. -/
def call (mix : P → P → P) (weigh : List P → P → P) (f : Frame P) (b : Buffers P) :
    Option (Buffers P) :=
  let step := b.step + 1
  if step % 2 = 0 then (pass mix weigh f 1 b.b1 b.b2).map fun p => ⟨step, p.1, p.2⟩
  else (pass mix weigh f 0 b.b2 b.b1).map fun p => ⟨step, p.2, p.1⟩

def calls (mix : P → P → P) (weigh : List P → P → P) (fs : List (Frame P)) (b : Buffers P) :
    Option (Buffers P) :=
  fs.foldlM (fun b f => call mix weigh f b) b

end Buffers

namespace FBShare
variable {P : Type} (fb : FBShare P)

lemma wi_pos : 0 < fb.wi := Nat.div_pos fb.div_le_w (by decide)

lemma hi_pos : 0 < fb.hi := Nat.div_pos fb.div_le_h (by decide)

lemma wi_mul_div : fb.wi * div = fb.w := Nat.div_mul_cancel fb.div_dvd_w

lemma hi_mul_div : fb.hi * div = fb.h := Nat.div_mul_cancel fb.div_dvd_h

lemma size_pos : 0 < fb.size := Nat.mul_pos fb.wi_pos fb.hi_pos

/-- Every cell of the background stands for a pixel of the screen. -/
lemma pixel_isSome {c : ℕ × ℕ} (hc : c ∈ cells fb.wi fb.hi) : (fb.pixel c).isSome := by
  obtain ⟨hx, hy⟩ := mem_cells.mp hc
  have hx' : c.1 * div < fb.w := by
    rw [← fb.wi_mul_div]
    exact Nat.mul_lt_mul_of_pos_right hx (by decide)
  have hy' : c.2 * div < fb.h := by
    rw [← fb.hi_mul_div]
    exact Nat.mul_lt_mul_of_pos_right hy (by decide)
  have hindex : index fb.w (c.1 * div, c.2 * div) < fb.pixels.length := by
    rw [fb.pixels_length]
    exact index_lt hx' hy'
  rw [Pixels.pixel, fb.wi_mul_div]
  exact Option.isSome_iff_exists.mpr ⟨_, List.getElem?_eq_getElem hindex⟩

end FBShare

namespace Buffers
open FBShare
variable {P : Type} {mix : P → P → P} {weigh : List P → P → P} {fx fy : ℤ} {src dst dst' : List P}
  {wi hi n : ℕ} {f : Frame P} {b b' : Buffers P}

/-- The clamped coordinates lie in the grid. -/
lemma get_isSome (hw : 0 < wi) (hh : 0 < hi) (hsrc : wi * hi ≤ src.length) (x y : ℤ) :
    (get x y src wi hi).isSome := by
  have hclamp : ∀ (z : ℤ) (m : ℕ), 0 < m →
      (if z < 0 then 0 else if (m : ℤ) - 1 ≤ z then (m : ℤ) - 1 else z).toNat < m := by
    intro z m hm
    split_ifs <;> omega
  have hindex := (@index_lt wi hi (_, _) (hclamp x wi hw) (hclamp y hi hh)).trans_le hsrc
  exact Option.isSome_iff_exists.mpr ⟨_, List.getElem?_eq_getElem hindex⟩

/-- Blurring writes each cell of the grid. -/
lemma blur_isSome_iff (hw : 0 < wi) (hh : 0 < hi) (hsrc : wi * hi ≤ src.length) :
    (blur weigh fx fy src dst wi hi).isSome ↔ wi * hi ≤ dst.length := by
  apply sweep_cells_isSome_iff hw hh
  intro c _
  have hsamples : ∀ k ∈ List.range ksize,
      (get (c.1 + fx * (k - kh)) (c.2 + fy * (k - kh)) src wi hi).isSome := by
    intro k _
    exact get_isSome hw hh hsrc _ _
  rw [Option.isSome_map]
  exact Iter.mapM_isSome_iff.mpr hsamples

lemma length_of_blur (h : blur weigh fx fy src dst wi hi = some dst') : dst'.length = dst.length :=
  length_of_sweep h

/-- The window shows only cells of the background. -/
lemma windowInside_of_size (h : f.fb.size ≤ dst.length) : windowInside f dst = true := by
  rw [windowInside]
  simp only [List.all_eq_true, List.mem_range', Nat.one_mul, Bool.or_eq_true, decide_eq_true_eq]
  rintro y ⟨i, hi, rfl⟩ x ⟨j, hj, rfl⟩
  right
  have hy : (f.window.clamp f.fb.toSize).y + i < f.fb.h := by
    have := f.fb.div_le_h
    simp only [Window.clamp, div] at hi this ⊢
    split_ifs at hi ⊢ <;> omega
  have hx : (f.window.clamp f.fb.toSize).x + j < f.fb.w := by
    have := f.fb.div_le_w
    simp only [Window.clamp, div] at hj this ⊢
    split_ifs at hj ⊢ <;> omega
  have hcell := @index_lt f.fb.wi f.fb.hi (((f.window.clamp f.fb.toSize).x + j) / div,
    ((f.window.clamp f.fb.toSize).y + i) / div)
    (Nat.div_lt_div_of_lt_of_dvd f.fb.div_dvd_w hx) (Nat.div_lt_div_of_lt_of_dvd f.fb.div_dvd_h hy)
  exact hcell.trans_le h

/-- Both buffers have the length that the first call gave them. -/
structure Filled (n : ℕ) (b : Buffers P) : Prop where
  pos : 0 < n
  b1 : b.b1.length = n
  b2 : b.b2.length = n

/-- The first call fills both buffers. -/
lemma prepare_empty (mix : P → P → P) (fb : FBShare P) :
    ∃ vs, prepare mix fb.toPixels [] [] = some (vs, vs) ∧ vs.length = fb.size := by
  obtain ⟨vs, hvs⟩ := Option.isSome_iff_exists.mp
    (Iter.mapM_isSome_iff.mpr fun c hc => @pixel_isSome P fb c hc)
  refine ⟨vs, ?_, (Iter.length_of_mapM hvs).trans (length_cells _ _)⟩
  rw [prepare, if_pos List.length_nil, hvs]
  rfl

/-- A later call averages one of them. -/
lemma prepare_isSome_iff (fb : FBShare P) (hsrc : src.length ≠ 0) :
    (prepare mix fb.toPixels src dst).isSome ↔ fb.size ≤ src.length := by
  rw [prepare, if_neg hsrc, Option.isSome_map]
  apply sweep_cells_isSome_iff fb.wi_pos fb.hi_pos
  intro c hc
  rw [Option.isSome_map]
  exact fb.pixel_isSome hc

lemma length_of_prepare {src' dst' : List P} {fb : FBShare P} (hsrc : src.length ≠ 0)
    (h : prepare mix fb.toPixels src dst = some (src', dst')) :
    src'.length = src.length ∧ dst' = dst := by
  rw [prepare, if_neg hsrc] at h
  obtain ⟨src'', hsweep, heq⟩ := Option.map_eq_some_iff.mp h
  cases heq
  exact ⟨length_of_sweep hsweep, rfl⟩

/-- Blurring and showing what is long enough. -/
lemma blur_shown (hsrc : f.fb.size ≤ src.length) (hdst : f.fb.size ≤ dst.length) :
    ∃ dst', blur weigh fx fy src dst f.fb.wi f.fb.hi = some dst' ∧ dst'.length = dst.length ∧
      windowInside f dst' = true := by
  have hsome : (blur weigh fx fy src dst f.fb.wi f.fb.hi).isSome :=
    (blur_isSome_iff f.fb.wi_pos f.fb.hi_pos hsrc).mpr hdst
  obtain ⟨dst', hblur⟩ := Option.isSome_iff_exists.mp hsome
  have hlen := length_of_blur hblur
  exact ⟨dst', hblur, hlen, windowInside_of_size (hdst.trans_eq hlen.symm)⟩

/-- The pass of the first call makes both buffers as long as its framebuffer asks for. -/
lemma pass_empty (mix : P → P → P) (weigh : List P → P → P) (f : Frame P) (fx : ℤ) :
    ∃ p, pass mix weigh f fx [] [] = some p ∧ p.1.length = f.fb.size ∧
      p.2.length = f.fb.size := by
  obtain ⟨vs, hprepare, hlen⟩ := prepare_empty mix f.fb
  obtain ⟨dst', hblur, hlen', hshown⟩ := blur_shown hlen.ge hlen.ge
  refine ⟨(vs, dst'), ?_, hlen, hlen'.trans hlen⟩
  rw [pass, hprepare, Option.bind_some, hblur, Option.bind_some, if_pos hshown]

/-- A pass over filled buffers comes to its end exactly when they are as long as it asks for. -/
lemma pass_isSome_iff (hn : 0 < n) (hsrc : src.length = n) (hdst : dst.length = n) :
    (pass mix weigh f fx src dst).isSome ↔ f.fb.size ≤ n := by
  have hne : src.length ≠ 0 := by omega
  have hprepared : (prepare mix f.fb.toPixels src dst).isSome ↔ f.fb.size ≤ n := by
    rw [prepare_isSome_iff f.fb hne, hsrc]
  rw [← hprepared]
  constructor
  · intro h
    obtain ⟨p, hp⟩ := Option.isSome_iff_exists.mp h
    obtain ⟨q, hq, -⟩ := Option.bind_eq_some_iff.mp hp
    exact Option.isSome_iff_exists.mpr ⟨q, hq⟩
  · intro h
    have hsize := hprepared.mp h
    obtain ⟨⟨src', dst'⟩, hprepare⟩ := Option.isSome_iff_exists.mp h
    obtain ⟨hlen, rfl⟩ := length_of_prepare hne hprepare
    obtain ⟨dst'', hblur, -, hshown⟩ :=
      blur_shown (hsize.trans_eq (hlen.trans hsrc).symm) (hsize.trans_eq hdst.symm)
    rw [pass, hprepare, Option.bind_some, hblur, Option.bind_some, if_pos hshown]
    rfl

lemma length_of_pass {p : List P × List P} (hsrc : src.length ≠ 0)
    (h : pass mix weigh f fx src dst = some p) :
    p.1.length = src.length ∧ p.2.length = dst.length := by
  obtain ⟨⟨src', dst'⟩, hprepare, hrest⟩ := Option.bind_eq_some_iff.mp h
  obtain ⟨dst'', hblur, hrest⟩ := Option.bind_eq_some_iff.mp hrest
  obtain ⟨hlen, rfl⟩ := length_of_prepare hsrc hprepare
  split at hrest
  · cases hrest
    exact ⟨hlen, length_of_blur hblur⟩
  · cases hrest

/-- The first call fills the buffers. -/
theorem call_new (mix : P → P → P) (weigh : List P → P → P) (f : Frame P) :
    ∃ b, call mix weigh f new = some b ∧ b.Filled f.fb.size := by
  obtain ⟨p, hp, hsrc, hdst⟩ := pass_empty mix weigh f 0
  refine ⟨⟨1, p.2, p.1⟩, ?_, f.fb.size_pos, hdst, hsrc⟩
  change (pass mix weigh f 0 [] []).map (fun p => (⟨1, p.2, p.1⟩ : Buffers P)) = _
  rw [hp]
  rfl

/-- A later call keeps their length, if they are long enough for it. -/
theorem Filled.call_isSome_iff (mix : P → P → P) (weigh : List P → P → P) (h : b.Filled n)
    (f : Frame P) :
    (call mix weigh f b).isSome ↔ f.fb.size ≤ n := by
  rw [call]
  split
  · rw [Option.isSome_map]
    exact pass_isSome_iff h.pos h.b1 h.b2
  · rw [Option.isSome_map]
    exact pass_isSome_iff h.pos h.b2 h.b1

theorem Filled.call (h : b.Filled n) (hcall : call mix weigh f b = some b') : b'.Filled n := by
  have hpos := h.pos
  rw [Buffers.call] at hcall
  split at hcall
  · obtain ⟨p, hp, rfl⟩ := Option.map_eq_some_iff.mp hcall
    obtain ⟨hsrc, hdst⟩ := length_of_pass (by rw [h.b1]; omega) hp
    exact ⟨hpos, hsrc.trans h.b1, hdst.trans h.b2⟩
  · obtain ⟨p, hp, rfl⟩ := Option.map_eq_some_iff.mp hcall
    obtain ⟨hsrc, hdst⟩ := length_of_pass (by rw [h.b2]; omega) hp
    exact ⟨hpos, hdst.trans h.b1, hsrc.trans h.b2⟩

theorem Filled.calls_isSome_iff (h : b.Filled n) (fs : List (Frame P)) :
    (calls mix weigh fs b).isSome ↔ ∀ f ∈ fs, f.fb.size ≤ n := by
  induction fs generalizing b with
  | nil => simp [calls]
  | cons f fs ih =>
    rw [calls, List.foldlM_cons, List.forall_mem_cons, ← h.call_isSome_iff mix weigh]
    cases hcall : Buffers.call mix weigh f b with
    | none => simp
    | some b' =>
      simp only [Option.isSome_some, true_and]
      exact ih (h.call hcall)

lemma calls_cons_isSome_iff (mix : P → P → P) (weigh : List P → P → P) (first : Frame P)
    (fs : List (Frame P)) :
    (calls mix weigh (first :: fs) new).isSome ↔ ∀ f ∈ fs, f.fb.size ≤ first.fb.size := by
  obtain ⟨b, hb, hfilled⟩ := call_new mix weigh first
  rw [calls, List.foldlM_cons, hb]
  exact hfilled.calls_isSome_iff fs

/-- Every index into the buffers is in their range, through any sequence of calls, exactly when no
call's framebuffer asks for longer buffers than that of the first. -/
theorem buffers_suffice_iff (mix : P → P → P) (weigh : List P → P → P) (fs : List (Frame P)) :
    (calls mix weigh fs new).isSome ↔
      ∀ first ∈ fs.head?, ∀ f ∈ fs, f.fb.size ≤ first.fb.size := by
  cases fs with
  | nil => simp [calls]
  | cons first fs =>
    rw [calls_cons_isSome_iff]
    simp

/-- A blank screen of 320 cells in width, and the console's first window. -/
def wideScreen (rows : ℕ) (hrows : 0 < rows) : Frame Unit where
  fb := {
    pixels := List.replicate (1280 * (div * rows)) ()
    w := 1280
    h := div * rows
    pixels_length := List.length_replicate
    div_dvd_w := by decide
    div_dvd_h := Nat.dvd_mul_right _ _
    div_le_w := by decide
    div_le_h := Nat.le_mul_of_pos_right _ hrows }
  window := ⟨100, 100, 1000, 700⟩
  drawn _ _ := false

/-- The screen grows from 1280 × 720 to 1280 × 800. -/
theorem grown_screen_overruns : ¬∀ (P : Type) (mix : P → P → P) (weigh : List P → P → P)
    (fs : List (Frame P)), (calls mix weigh fs new).isSome := by
  intro h
  have hsome := h Unit (fun v _ => v) (fun _ p => p)
    [wideScreen 180 (by decide), wideScreen 200 (by decide)]
  have hsize := (calls_cons_isSome_iff _ _ _ _).mp hsome _ (.head _)
  revert hsize
  decide

end Buffers
end Fomos.Console
