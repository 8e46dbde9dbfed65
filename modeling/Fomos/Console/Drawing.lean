import Mathlib
import Fomos.Console.Geometry

/-!
# The indices of a call

A call samples the screen into a buffer of a quarter of its size in each direction, blurs it into
the other one, and draws its window, the title and the text. Where the window shows the background
it divides the position of a pixel by four, which leads out of the buffer beside the last whole
block of four pixels.
-/
namespace Fomos.Console
open Sweep

/-- The slices that a call indexes. -/
inductive Slice
  | pixels
  | src
  | dst
  deriving DecidableEq

structure Access where
  slice : Slice
  index : ℕ

/-- The layout of the header by `taffy`, in a root of the window's size: its full width, and 20
points or less if the window is not as high. An `f32` holds the coordinates below `2 ^ 24`. -/
structure Taffy where
  width : Window → ℕ
  height : Window → ℕ
  width_eq : ∀ win, win.x ≤ win.x2 → win.x2 < 2 ^ 24 → width win = win.x2 - win.x
  height_eq : ∀ win, win.y ≤ win.y2 → height win = min 20 (win.y2 - win.y)

/-- The rasters of `noto_sans_mono_bitmap`: the lengths of the rows. -/
structure Raster where
  width : ℕ
  rows : Char → List ℕ

/-- What a call gets, with the title and the texts of the history that it draws. -/
structure Inputs where
  mouse : Mouse
  title : List Char
  texts : List (List Char)

/-- `Store`, with the buffers given by their lengths. -/
structure Display where
  geometry : Geometry
  step : ℕ
  b1 : ℕ
  b2 : ℕ

namespace Screen
variable (s : Screen)

/-- `pixels.len()` -/
def len : ℕ := s.w * s.h

/-- The pixel that a cell stands for. -/
def sampled (c : ℕ × ℕ) : ℕ := c.1 * div + c.2 * div * (s.wi * div)

/-- The first call fills the buffers with what it samples, and the others average. -/
def sampling (empty : Bool) : List Access :=
  (cells s.wi s.hi).flatMap fun c =>
    ⟨.pixels, s.sampled c⟩ :: if empty then [] else [⟨.src, index s.wi c⟩]

/-- The cell that `get` reads. -/
def getIndex (x y : ℤ) : ℕ :=
  let x := if x < 0 then 0 else if (s.wi : ℤ) - 1 ≤ x then (s.wi : ℤ) - 1 else x
  let y := if y < 0 then 0 else if (s.hi : ℤ) - 1 ≤ y then (s.hi : ℤ) - 1 else y
  x.toNat + y.toNat * s.wi

def blurring (fx fy : ℤ) : List Access :=
  (cells s.wi s.hi).flatMap fun c =>
    (List.range ksize).map (fun k : ℕ =>
      ⟨.src, s.getIndex (c.1 + fx * (k - kh)) (c.2 + fy * (k - kh))⟩) ++ [⟨.dst, index s.wi c⟩]

/-- The header and the border, in whichever color. -/
def drawn (taffy : Taffy) (win : Window) (x y : ℕ) : Bool :=
  (decide (win.x ≤ x) && decide (x ≤ win.x + taffy.width win) && decide (win.y ≤ y) &&
      decide (y ≤ win.y + taffy.height win)) ||
    decide (x = win.x) || decide (x = win.x2) || decide (y = win.y) || decide (y = win.y2)

def drawingWindow (taffy : Taffy) (win : Window) : List Access :=
  (List.range' win.y (win.y2 + 1 - win.y)).flatMap fun y =>
    (List.range' win.x (win.x2 + 1 - win.x)).flatMap fun x =>
      ⟨.pixels, x + y * s.w⟩ ::
        if drawn taffy win x y then [] else [⟨.dst, x / div + y / div * (s.w / div)⟩]

/-- A character at the cursor, clipped. -/
def drawingChar (win : Window) (rows : List ℕ) (cursorX cursorY : ℕ) : List Access :=
  rows.zipIdx.flatMap fun (row, rowI) =>
    (List.range row).filterMap fun colI =>
      let x := (win.x + colI + 2 + cursorX) % 2 ^ 64
      let y := (win.y + rowI + 2 + cursorY) % 2 ^ 64
      if x = 0 ∨ s.w ≤ x ∨ y = 0 ∨ s.h ≤ y ∨ win.x2 ≤ x ∨ win.y2 ≤ y then none
      else some ⟨.pixels, x + y * s.w⟩

def drawingTitle (raster : Raster) (win : Window) (title : List Char) : List Access :=
  title.zipIdx.flatMap fun (c, i) => s.drawingChar win (raster.rows c) (i * raster.width) 0

/-- The texts, from the cursor on. -/
def drawingTexts (raster : Raster) (win : Window) : List (List Char) → ℕ → ℕ → List Access
  | [], _, _ => []
  | [] :: texts, _, cursorY => drawingTexts raster win texts 0 (cursorY + 16)
  | (c :: cs) :: texts, cursorX, cursorY =>
    if c = '\n' then drawingTexts raster win (cs :: texts) 0 (cursorY + 16)
    else s.drawingChar win (raster.rows c) cursorX cursorY ++
      drawingTexts raster win (cs :: texts) (cursorX + raster.width) cursorY
  termination_by texts => (texts.map fun text => text.length + 1).sum

end Screen

namespace Display

/-- The window of the app `pid`, before its first call. -/
def new (pid : ℕ) : Display := ⟨.new pid, 0, 0, 0⟩

variable (s : Screen) (taffy : Taffy) (raster : Raster) (i : Inputs) (d : Display)

/-- The buffers that a call averages and shows. -/
def src : ℕ := if (d.step + 1) % 2 = 0 then d.b1 else d.b2
def dst : ℕ := if (d.step + 1) % 2 = 0 then d.b2 else d.b1

/-- The lengths of the slices once the screen is sampled. -/
def lengths : Slice → ℕ
  | .pixels => s.len
  | .src => if d.src = 0 then s.wi * s.hi else d.src
  | .dst => if d.src = 0 then d.dst + s.wi * s.hi else d.dst

/-- All that a call indexes. -/
def accesses : List Access :=
  let win := (d.geometry.call s i.mouse).window
  let fx : ℤ := if (d.step + 1) % 2 = 0 then 1 else 0
  s.sampling (d.src = 0) ++ s.blurring fx (1 - fx) ++ s.drawingWindow taffy win ++
    s.drawingTitle raster win i.title ++ s.drawingTexts raster win i.texts 0 20

/-- All indices of a call are in range. -/
def InRange : Prop := ∀ a ∈ d.accesses s taffy raster i, a.index < d.lengths s a.slice

instance : Decidable (d.InRange s taffy raster i) := by
  unfold InRange
  infer_instance

/-- A call, which an index that is out of range ends. -/
def call : Option Display :=
  if d.InRange s taffy raster i then
    some { geometry := d.geometry.call s i.mouse
           step := d.step + 1
           b1 := d.lengths s (if (d.step + 1) % 2 = 0 then .src else .dst)
           b2 := d.lengths s (if (d.step + 1) % 2 = 0 then .dst else .src) }
  else none

end Display

namespace Screen
variable {s : Screen} {win : Window} {a : Access}

lemma wi_pos (hw : 4 ≤ s.w) : 0 < s.wi := Nat.div_pos hw (by decide)

lemma hi_pos (hh : 4 ≤ s.h) : 0 < s.hi := Nat.div_pos hh (by decide)

lemma wi_mul_div_le (s : Screen) : s.wi * div ≤ s.w := Nat.div_mul_le_self _ _

lemma hi_mul_div_le (s : Screen) : s.hi * div ≤ s.h := Nat.div_mul_le_self _ _

lemma sampled_lt {c : ℕ × ℕ} (hc : c ∈ cells s.wi s.hi) : s.sampled c < s.len := by
  obtain ⟨hx, hy⟩ := mem_cells.mp hc
  have hx' : c.1 * div < s.wi * div := Nat.mul_lt_mul_of_pos_right hx (by decide)
  have hy' : c.2 * div < s.hi * div := Nat.mul_lt_mul_of_pos_right hy (by decide)
  calc s.sampled c = index (s.wi * div) (c.1 * div, c.2 * div) := rfl
    _ < s.wi * div * (s.hi * div) := index_lt hx' hy'
    _ ≤ s.len := Nat.mul_le_mul s.wi_mul_div_le s.hi_mul_div_le

lemma getIndex_lt (hw : 4 ≤ s.w) (hh : 4 ≤ s.h) (x y : ℤ) : s.getIndex x y < s.wi * s.hi := by
  have hclamp : ∀ (z : ℤ) (m : ℕ), 0 < m →
      (if z < 0 then 0 else if (m : ℤ) - 1 ≤ z then (m : ℤ) - 1 else z).toNat < m := by
    intro z m hm
    split_ifs <;> omega
  exact @index_lt s.wi s.hi (_, _) (hclamp x s.wi (wi_pos hw)) (hclamp y s.hi (hi_pos hh))

/-- A pixel of the screen. -/
lemma pixel_lt {x y : ℕ} (hx : x < s.w) (hy : y < s.h) : x + y * s.w < s.len :=
  @index_lt s.w s.h (x, y) hx hy

lemma mem_sampling {empty : Bool} (ha : a ∈ s.sampling empty) :
    (a.slice = .pixels ∧ a.index < s.len) ∨
      (empty = false ∧ a.slice = .src ∧ a.index < s.wi * s.hi) := by
  obtain ⟨c, hc, ha⟩ := List.mem_flatMap.mp ha
  obtain rfl | ha := List.mem_cons.mp ha
  · exact .inl ⟨rfl, sampled_lt hc⟩
  · cases empty with
    | true => cases ha
    | false =>
      obtain rfl := List.mem_singleton.mp ha
      obtain ⟨hx, hy⟩ := mem_cells.mp hc
      exact .inr ⟨rfl, rfl, index_lt hx hy⟩

lemma mem_blurring (hw : 4 ≤ s.w) (hh : 4 ≤ s.h) {fx fy : ℤ} (ha : a ∈ s.blurring fx fy) :
    a.slice ≠ .pixels ∧ a.index < s.wi * s.hi := by
  obtain ⟨c, hc, ha⟩ := List.mem_flatMap.mp ha
  obtain ha | ha := List.mem_append.mp ha
  · obtain ⟨k, -, rfl⟩ := List.mem_map.mp ha
    exact ⟨by simp, getIndex_lt hw hh _ _⟩
  · obtain rfl := List.mem_singleton.mp ha
    obtain ⟨hx, hy⟩ := mem_cells.mp hc
    exact ⟨by simp, index_lt hx hy⟩

lemma mem_drawingWindow {taffy : Taffy} : a ∈ s.drawingWindow taffy win ↔
    ∃ x y, win.x ≤ x ∧ x ≤ win.x2 ∧ win.y ≤ y ∧ y ≤ win.y2 ∧
      (a = ⟨.pixels, x + y * s.w⟩ ∨
        (drawn taffy win x y = false ∧ a = ⟨.dst, x / div + y / div * (s.w / div)⟩)) := by
  unfold drawingWindow
  simp only [List.mem_flatMap, List.mem_range'_1, List.mem_cons]
  constructor
  · rintro ⟨y, ⟨hy, hy2⟩, x, ⟨hx, hx2⟩, ha⟩
    refine ⟨x, y, hx, by omega, hy, by omega, ha.imp_right fun ha => ?_⟩
    cases hdrawn : drawn taffy win x y <;> simp_all
  · rintro ⟨x, y, hx, hx2, hy, hy2, ha⟩
    refine ⟨y, ⟨hy, by omega⟩, x, ⟨hx, by omega⟩, ha.imp_right fun ⟨hdrawn, ha⟩ => ?_⟩
    simp [hdrawn, ha]

lemma mem_drawingChar {rows : List ℕ} {cursorX cursorY : ℕ}
    (ha : a ∈ s.drawingChar win rows cursorX cursorY) : a.slice = .pixels ∧ a.index < s.len := by
  obtain ⟨⟨row, rowI⟩, -, ha⟩ := List.mem_flatMap.mp ha
  obtain ⟨colI, -, ha⟩ := List.mem_filterMap.mp ha
  dsimp only at ha
  split at ha
  case isTrue => cases ha
  case isFalse hclip =>
    cases ha
    simp only [not_or, Nat.not_le] at hclip
    obtain ⟨-, hx, -, hy, -⟩ := hclip
    exact ⟨rfl, pixel_lt hx hy⟩

lemma mem_drawingTitle {raster : Raster} {title : List Char}
    (ha : a ∈ s.drawingTitle raster win title) : a.slice = .pixels ∧ a.index < s.len := by
  obtain ⟨⟨c, i⟩, -, ha⟩ := List.mem_flatMap.mp ha
  exact mem_drawingChar ha

lemma mem_drawingTexts {raster : Raster} {texts : List (List Char)} {cursorX cursorY : ℕ}
    (ha : a ∈ s.drawingTexts raster win texts cursorX cursorY) :
    a.slice = .pixels ∧ a.index < s.len := by
  fun_induction drawingTexts s raster win texts cursorX cursorY with
  | case1 => cases ha
  | case2 cursorX cursorY texts ih => exact ih ha
  | case3 cursorX cursorY texts cs ih => exact ih ha
  | case4 cursorX cursorY texts c cs hc ih =>
    obtain ha | ha := List.mem_append.mp ha
    · exact mem_drawingChar ha
    · exact ih ha

end Screen

/-- The window on the screen, as a call leaves it. -/
lemma Window.clamp_lt (s : Screen) (win : Window) :
    (win.clamp s.toSize).x2 < s.w ∧ (win.clamp s.toSize).y2 < s.h := by
  have hw := s.w_pos
  have hh := s.h_pos
  unfold Window.clamp
  constructor
  all_goals
    dsimp only
    split_ifs <;> omega

namespace Display
variable {s : Screen} {taffy : Taffy} {raster : Raster} {i : Inputs} {d d' : Display}

/-- The buffers are empty before the first call, and have a cell for each four by four pixels
after it. -/
def Filled (s : Screen) (d : Display) : Prop :=
  (d.b1 = 0 ∧ d.b2 = 0) ∨ (d.b1 = s.wi * s.hi ∧ d.b2 = s.wi * s.hi)

lemma Filled.lengths (h : d.Filled s) (hw : 4 ≤ s.w) (hh : 4 ≤ s.h) :
    d.lengths s .src = s.wi * s.hi ∧ d.lengths s .dst = s.wi * s.hi := by
  have hpos : 0 < s.wi * s.hi := Nat.mul_pos (Screen.wi_pos hw) (Screen.hi_pos hh)
  unfold Display.lengths src dst
  dsimp only
  obtain ⟨h1, h2⟩ | ⟨h1, h2⟩ := h
  · simp [h1, h2]
  · rw [h1, h2]
    simp [hpos.ne']

/-- Where the window shows the background, it finds a cell. -/
def BackgroundInside (s : Screen) (taffy : Taffy) (win : Window) : Prop :=
  ∀ x y, win.x ≤ x → x ≤ win.x2 → win.y ≤ y → y ≤ win.y2 → Screen.drawn taffy win x y = false →
    x / div + y / div * (s.w / div) < s.wi * s.hi

/-- Only the background can be out of range. -/
lemma inRange_iff (hw : 4 ≤ s.w) (hh : 4 ≤ s.h) (hd : d.Filled s) :
    d.InRange s taffy raster i ↔
      BackgroundInside s taffy (d.geometry.call s i.mouse).window := by
  obtain ⟨hsrc, hdst⟩ := hd.lengths hw hh
  have hinside :=
    Window.clamp_lt s (((d.geometry.button i.mouse).move i.mouse).resize i.mouse).window
  constructor
  · intro h x y hx hx2 hy hy2 hdrawn
    have hmem : (⟨.dst, x / div + y / div * (s.w / div)⟩ : Access) ∈
        s.drawingWindow taffy (d.geometry.call s i.mouse).window :=
      Screen.mem_drawingWindow.mpr ⟨x, y, hx, hx2, hy, hy2, .inr ⟨hdrawn, rfl⟩⟩
    have := h ⟨.dst, x / div + y / div * (s.w / div)⟩ (by simp [accesses, hmem])
    rwa [hdst] at this
  · intro h a ha
    simp only [accesses, List.mem_append] at ha
    obtain (((ha | ha) | ha) | ha) | ha := ha
    · obtain ⟨hslice, hlt⟩ | ⟨-, hslice, hlt⟩ := Screen.mem_sampling ha
      · rw [hslice]
        exact hlt
      · rw [hslice, hsrc]
        exact hlt
    · obtain ⟨hslice, hlt⟩ := Screen.mem_blurring hw hh ha
      obtain ⟨slice, index⟩ := a
      cases slice with
      | pixels => exact absurd rfl hslice
      | src => exact hlt.trans_eq hsrc.symm
      | dst => exact hlt.trans_eq hdst.symm
    · obtain ⟨x, y, hx, hx2, hy, hy2, rfl | ⟨hdrawn, rfl⟩⟩ := Screen.mem_drawingWindow.mp ha
      · exact Screen.pixel_lt (hx2.trans_lt hinside.1) (hy2.trans_lt hinside.2)
      · exact (h x y hx hx2 hy hy2 hdrawn).trans_eq hdst.symm
    · obtain ⟨hslice, hlt⟩ := Screen.mem_drawingTitle ha
      rw [hslice]
      exact hlt
    · obtain ⟨hslice, hlt⟩ := Screen.mem_drawingTexts ha
      rw [hslice]
      exact hlt

lemma filled_call (hw : 4 ≤ s.w) (hh : 4 ≤ s.h) (hd : d.Filled s)
    (hcall : d.call s taffy raster i = some d') :
    d'.geometry = d.geometry.call s i.mouse ∧ d'.Filled s := by
  obtain ⟨hsrc, hdst⟩ := hd.lengths hw hh
  unfold call at hcall
  split at hcall
  · cases hcall
    refine ⟨rfl, .inr ?_⟩
    dsimp only
    split <;> simp [hsrc, hdst]
  · cases hcall

/-- A screen whose size loses at most one column and one row when it is divided by four, or which
the header covers. -/
def Divides (s : Screen) : Prop := (s.w % 4 ≤ 1 ∧ s.h % 4 ≤ 1) ∨ s.h ≤ 22

/-- On such a screen every window finds its background. -/
lemma backgroundInside_of_divides (hw : 4 ≤ s.w) (hh : 4 ≤ s.h) (hexact : s.h ≤ 22 → s.w ≤ 2 ^ 24)
    (h : Divides s) {win : Window} (hx2 : win.x2 < s.w) (hy2 : win.y2 < s.h) :
    BackgroundInside s taffy win := by
  intro x y hx hxx hy hyy hdrawn
  simp only [Screen.drawn, Bool.or_eq_false_iff, Bool.and_eq_false_iff, decide_eq_false_iff_not]
    at hdrawn
  obtain ⟨⟨⟨⟨hheader, hleft⟩, hright⟩, htop⟩, hbottom⟩ := hdrawn
  obtain ⟨hw4, hh4⟩ | hlow := h
  · have hcell := @index_lt s.wi s.hi (x / div, y / div) (by unfold Size.wi div; omega)
      (by unfold Size.hi div; omega)
    exact hcell
  · -- the header reaches down to the last row
    have hwidth := taffy.width_eq win (hx.trans hxx) (by have := hexact hlow; omega)
    have hheight := taffy.height_eq win (hy.trans hyy)
    omega

/-- The whole screen as a window shows a pixel that has no cell, if the screen is not divided. -/
lemma divides_of_backgroundInside (hw : 4 ≤ s.w)
    (h : BackgroundInside s taffy ⟨0, 0, s.w - 1, s.h - 1⟩) : Divides s := by
  by_contra hnot
  unfold Divides at hnot
  have hheight := taffy.height_eq ⟨0, 0, s.w - 1, s.h - 1⟩ (Nat.zero_le _)
  have hcell := h (s.w - 2) (s.h - 2) (Nat.zero_le _) (by dsimp only; omega) (Nat.zero_le _)
    (by dsimp only; omega) ?_
  · unfold Size.wi Size.hi div at hcell
    by_cases hrow : s.h % 4 ≤ 1
    · have hx : (s.w - 2) / 4 = s.w / 4 := by omega
      have hy : (s.h - 2) / 4 + 1 = s.h / 4 := by omega
      rw [hx, ← hy, Nat.mul_comm, Nat.mul_add] at hcell
      omega
    · have hy : (s.h - 2) / 4 = s.h / 4 := by omega
      rw [hy, Nat.mul_comm] at hcell
      omega
  · simp only [Screen.drawn, Bool.or_eq_false_iff, Bool.and_eq_false_iff, decide_eq_false_iff_not]
    dsimp only at hheight
    omega

variable (s taffy raster)

/-- Whatever the mouse and the history do, every index of every call is in range. -/
def Safe (pid : ℕ) : Prop :=
  ∀ d, Transition.Reach (call s taffy raster) (fun _ _ _ => True) (new pid) d → ∀ i,
    d.InRange s taffy raster i

variable {s taffy raster}

lemma filled_of_reach {pid : ℕ} (hw : 4 ≤ s.w) (hh : 4 ≤ s.h)
    (h : Transition.Reach (call s taffy raster) (fun _ _ _ => True) (new pid) d) : d.Filled s := by
  apply h.invariant
  · exact .inl ⟨rfl, rfl⟩
  · rintro d i d' - hd hstep -
    exact (filled_call hw hh hd hstep).2

end Display

namespace Geometry
variable {s : Screen} {g : Geometry} {m : Mouse}

/-- The mouse at the far end of its range. -/
def farAway (button : ℕ) : Mouse := ⟨button, 2 ^ 64 - 1, 2 ^ 64 - 1, by decide, by decide⟩

/-- No button is pressed, and the window is clamped to this screen. -/
structure Idle (s : Screen) (g : Geometry) : Prop where
  resizing : ∀ i, g.resizing i = false
  moving : g.moving = none
  x_le : g.window.x ≤ 10000
  y_le : g.window.y ≤ 10000
  x2_lt : g.window.x2 < s.w
  y2_lt : g.window.y2 < s.h

/-- A press at edges, a drag far away, and the release. -/
def pull (s : Screen) (m : Mouse) (g : Geometry) : Geometry :=
  ((g.call s m).call s (farAway 130)).call s (farAway 0)

/-- A window that is not moved has its edges resized. -/
lemma call_of_not_moving (h : (g.button m).moving = none) :
    g.call s m =
      ⟨(resized m (g.button m).resizing g.window).clamp s.toSize, (g.button m).resizing, none,
        (g.button m).active⟩ := by
  have hmove : (g.button m).move m = g.button m := by
    rw [move, h]
  rw [call, hmove, resize, button_window, h]
  rfl

/-- A press at an edge starts no move. -/
lemma button_of_edge (hm : m.button = 128) (hedge : ∃ i, (g.press m).resizing i = true) :
    (g.button m).resizing = (g.press m).resizing ∧ (g.button m).moving = g.moving := by
  have hbutton : g.button m = g.press m := by
    rw [button, if_neg (by omega), if_pos hm]
  rw [hbutton]
  refine ⟨rfl, ?_⟩
  revert hedge
  unfold press
  dsimp only
  split_ifs with hany
  · intro _
    rfl
  all_goals
    intro hedge
    exact absurd hedge hany

lemma clamp_resized_farAway (hg : g.Idle s) (f : Fin 4 → Bool) (button : ℕ) :
    (resized (farAway button) f ((resized m f g.window).clamp s.toSize)).clamp s.toSize =
      pulled s f g.window := by
  have hw := s.w_lt
  have hh := s.h_lt
  obtain ⟨-, -, hx, hy, hx2, hy2⟩ := hg
  unfold Window.clamp resized pulled farAway
  simp only [Window.mk.injEq]
  refine ⟨?_, ?_, ?_, ?_⟩
  all_goals split_ifs <;> omega

lemma clamp_pulled (hg : g.Idle s) (f : Fin 4 → Bool) :
    (pulled s f g.window).clamp s.toSize = pulled s f g.window := by
  have hw := s.w_pos
  have hh := s.h_pos
  obtain ⟨-, -, hx, hy, hx2, hy2⟩ := hg
  unfold Window.clamp pulled
  simp only [Window.mk.injEq]
  refine ⟨?_, ?_, ?_, ?_⟩
  all_goals split_ifs <;> omega

lemma idle_pulled (hg : g.Idle s) (f : Fin 4 → Bool) (active : Bool) :
    Idle s ⟨pulled s f g.window, fun _ => false, none, active⟩ := by
  have hw := s.w_pos
  have hh := s.h_pos
  obtain ⟨-, -, hx, hy, hx2, hy2⟩ := hg
  refine ⟨fun _ => rfl, rfl, ?_, ?_, ?_, ?_⟩
  all_goals
    dsimp only [pulled]
    split_ifs <;> omega

/-- Pulling takes the edges at which the mouse was pressed to the borders of the screen. -/
lemma pull_spec (hg : g.Idle s) (hm : m.button = 128)
    (hedge : ∃ i, (g.press m).resizing i = true) :
    (g.pull s m).Idle s ∧ (g.pull s m).window = pulled s (g.press m).resizing g.window := by
  obtain ⟨hflags, hmoving⟩ := button_of_edge hm hedge
  rw [hg.moving] at hmoving
  generalize (g.press m).resizing = f at hflags ⊢
  have hpress : g.call s m =
      ⟨(resized m f g.window).clamp s.toSize, f, none, (g.button m).active⟩ := by
    rw [call_of_not_moving hmoving, hflags]
  have hdrag : (g.call s m).call s (farAway 130) =
      ⟨pulled s f g.window, f, none, (g.button m).active⟩ := by
    rw [hpress, call_of_not_moving rfl, ← clamp_resized_farAway hg f 130]
    rfl
  have hrelease : g.pull s m =
      ⟨pulled s f g.window, fun _ => false, none, (g.button m).active⟩ := by
    rw [pull, hdrag, call_of_not_moving rfl]
    exact congrArg (fun win => (⟨win, _, none, _⟩ : Geometry)) (clamp_pulled hg f)
  rw [hrelease]
  exact ⟨idle_pulled hg f _, rfl⟩

lemma near_self {a : ℕ} (ha : a < 2 ^ 64) : near a a = true := by
  have hzero : (a + (2 ^ 64 - a)) % 2 ^ 64 = 0 := by omega
  unfold near
  rw [hzero]
  rfl

/-- The edges at which a press is. -/
lemma press_resizing (m : Mouse) (g : Geometry) :
    (g.press m).resizing 0 = (g.resizing 0 || (near g.window.y m.my &&
      (decide (g.window.x ≤ m.mx) && decide (m.mx ≤ g.window.x2)))) ∧
    (g.press m).resizing 1 = (g.resizing 1 || near g.window.x2 m.mx) ∧
    (g.press m).resizing 2 = (g.resizing 2 || (near g.window.y2 m.my &&
      (decide (g.window.x ≤ m.mx) && decide (m.mx ≤ g.window.x2)))) ∧
    (g.press m).resizing 3 = (g.resizing 3 || near g.window.x m.mx) := by
  unfold press
  dsimp only
  split_ifs <;> exact ⟨rfl, rfl, rfl, rfl⟩

/-- The mouse can make the window as large as the screen, pulling one edge after the other. -/
lemma exists_full {R : Geometry → Prop} (hcall : ∀ g m, R g → R (g.call s m)) (hg : g.Idle s)
    (hR : R g) : ∃ g₀ m, R g₀ ∧ (g₀.call s m).window = ⟨0, 0, s.w - 1, s.h - 1⟩ := by
  have hw := s.w_lt
  have hh := s.h_lt
  -- the left edge
  let left : Mouse := ⟨128, g.window.x, 0, by have := hg.x_le; omega, by decide⟩
  have hleft : (g.press left).resizing 3 = true := by
    rw [(press_resizing left g).2.2.2, near_self left.mx_lt, Bool.or_true]
  obtain ⟨hidle₁, hwindow₁⟩ := pull_spec hg rfl ⟨3, hleft⟩
  have hx₁ : (g.pull s left).window.x = 0 := by
    rw [hwindow₁, pulled, hleft]
    rfl
  generalize hg₁ : g.pull s left = g₁ at hidle₁ hx₁
  have hR₁ : R g₁ := hg₁ ▸ hcall _ _ (hcall _ _ (hcall _ _ hR))
  -- the right and the upper edge
  let corner : Mouse := ⟨128, g₁.window.x2, g₁.window.y, by have := hidle₁.x2_lt; omega,
    by have := hidle₁.y_le; omega⟩
  obtain ⟨htop, hright, -, -⟩ := press_resizing corner g₁
  rw [near_self corner.mx_lt, Bool.or_true] at hright
  rw [near_self corner.my_lt, hx₁, decide_eq_true (Nat.zero_le _),
    decide_eq_true (le_refl _)] at htop
  rw [Bool.and_self, Bool.and_self, Bool.or_true] at htop
  obtain ⟨hidle₂, hwindow₂⟩ := pull_spec hidle₁ rfl ⟨1, hright⟩
  have hcorner : (g₁.pull s corner).window.x = 0 ∧ (g₁.pull s corner).window.y = 0 ∧
      (g₁.pull s corner).window.x2 = s.w - 1 := by
    rw [hwindow₂, pulled, htop, hright, hx₁]
    exact ⟨ite_self _, rfl, rfl⟩
  generalize hg₂ : g₁.pull s corner = g₂ at hidle₂ hcorner
  have hR₂ : R g₂ := hg₂ ▸ hcall _ _ (hcall _ _ (hcall _ _ hR₁))
  obtain ⟨hx₂, hy₂, hx2₂⟩ := hcorner
  -- the lower edge
  let below : Mouse := ⟨128, 0, g₂.window.y2, by decide, by have := hidle₂.y2_lt; omega⟩
  have hbottom := (press_resizing below g₂).2.2.1
  rw [near_self below.my_lt, hx₂, decide_eq_true (Nat.zero_le _),
    decide_eq_true (Nat.zero_le _)] at hbottom
  rw [Bool.and_self, Bool.and_self, Bool.or_true] at hbottom
  obtain ⟨-, hwindow₃⟩ := pull_spec hidle₂ rfl ⟨2, hbottom⟩
  refine ⟨_, farAway 0, hcall _ (farAway 130) (hcall _ below hR₂), ?_⟩
  change (g₂.pull s below).window = _
  rw [hwindow₃, pulled, hbottom, hx₂, hy₂, hx2₂]
  simp only [ite_self, if_true]

/-- A call without the mouse leaves a new window idle. -/
lemma idle_first (s : Screen) (pid : ℕ) : ((new pid).call s (farAway 0)).Idle s := by
  have hclamped := Window.clamped_clamp s (new pid).window
  have hinside := Window.clamp_lt s (new pid).window
  rw [call_of_not_moving rfl]
  exact ⟨fun _ => rfl, rfl, hclamped.x_le, hclamped.y_le, hinside.1, hinside.2⟩

end Geometry

namespace Display
variable {s : Screen} {taffy : Taffy} {raster : Raster}

/-- Whatever the mouse and the keys do, all indices are in range on a screen that loses at most one
column and one row when it is divided by four, or that the header covers, and on no other one. -/
theorem safe_iff_divides (hw : 4 ≤ s.w) (hh : 4 ≤ s.h) (hexact : s.h ≤ 22 → s.w ≤ 2 ^ 24)
    (pid : ℕ) : Safe s taffy raster pid ↔ Divides s := by
  constructor
  · intro hsafe
    let R (g : Geometry) : Prop := ∃ d, Transition.Reach (call s taffy raster)
      (fun _ _ _ => True) (new pid) d ∧ d.geometry = g
    have hcall : ∀ g m, R g → R (g.call s m) := by
      rintro g m ⟨d, hd, rfl⟩
      have hrange := hsafe d hd ⟨m, [], []⟩
      have hsome : call s taffy raster ⟨m, [], []⟩ d = some _ := if_pos hrange
      exact ⟨_, hd.next hsome trivial, rfl⟩
    have hfirst : R ((Geometry.new pid).call s (Geometry.farAway 0)) :=
      hcall _ _ ⟨new pid, .start, rfl⟩
    obtain ⟨g₀, m, ⟨d, hd, rfl⟩, hfull⟩ :=
      Geometry.exists_full hcall (Geometry.idle_first s pid) hfirst
    have hrange := (inRange_iff hw hh (filled_of_reach hw hh hd)).mp (hsafe d hd ⟨m, [], []⟩)
    rw [hfull] at hrange
    exact divides_of_backgroundInside hw hrange
  · intro hdivides d hd i
    rw [inRange_iff hw hh (filled_of_reach hw hh hd)]
    obtain ⟨hx2, hy2⟩ := Window.clamp_lt s
      (((d.geometry.button i.mouse).move i.mouse).resize i.mouse).window
    exact backgroundInside_of_divides hw hh hexact hdivides hx2 hy2

/-- The layout that the header asks for. -/
def fixedHeader : Taffy where
  width win := win.x2 - win.x
  height win := min 20 (win.y2 - win.y)
  width_eq _ _ _ := rfl
  height_eq _ _ := rfl

theorem safe_iff_divides_fullHd : Safe Geometry.fullHd fixedHeader ⟨8, fun _ => []⟩ 0 := by
  apply (safe_iff_divides (by decide) (by decide) (by decide) 0).mpr
  exact .inl (by decide)

/-- On a screen of 106 by 124 pixels the first call already shows a pixel without a cell. -/
theorem last_columns_out_of_range : ¬∀ (s : Screen) (taffy : Taffy) (raster : Raster) (pid : ℕ),
    4 ≤ s.w → 4 ≤ s.h → Safe s taffy raster pid := by
  intro h
  let s : Screen := ⟨⟨106, 124⟩, by decide, by decide, by decide⟩
  have hsafe := h s fixedHeader ⟨8, fun _ => []⟩ 0 (by decide) (by decide) (new 0) .start
    ⟨Geometry.farAway 0, [], []⟩
  have hbackground := (inRange_iff (by decide) (by decide) (.inl ⟨rfl, rfl⟩)).mp hsafe
  have hcell := hbackground 104 122 (by decide) (by decide) (by decide) (by decide) (by decide)
  revert hcell
  decide

end Display
end Fomos.Console
