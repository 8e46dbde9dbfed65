import Mathlib
import Fomos.Console.Blur
import Fomos.Library.Transition

/-!
# The window and the mouse

A press inside the window starts to move it, and a press at an edge to resize it there. A moved
window has its four edges moved, and then clamped each by itself: it keeps its size as long as no
edge leaves the screen.
-/
namespace Fomos.Console

/-- The size of a framebuffer. Its pixels, of four bytes each, are a slice. -/
structure Screen extends Size where
  w_pos : 0 < w
  h_pos : 0 < h
  bytes : w * h * 4 < 2 ^ 63

/-- What a call reads of the mouse: `keys[272]` and the position. -/
structure Mouse where
  button : ℕ
  mx : ℕ
  my : ℕ
  mx_lt : mx < 2 ^ 64
  my_lt : my < 2 ^ 64

/-- The part of `Store` that the mouse changes. -/
structure Geometry where
  window : Window
  resizing : Fin 4 → Bool
  moving : Option (ℕ × ℕ)
  active : Bool

/-- `(a as isize - b as isize).abs() < 10`, where the least number is its own absolute value. -/
def near (a b : ℕ) : Bool :=
  let d := (a + (2 ^ 64 - b)) % 2 ^ 64
  d < 10 || d = 2 ^ 63 || 2 ^ 64 - 10 < d

/-- `(a as isize + (b as isize - c as isize)) as usize` -/
def moved (a b c : ℕ) : ℕ := (a + b + (2 ^ 64 - c)) % 2 ^ 64

namespace Window
variable (m : Mouse) (win : Window)

/-- The mouse is between the left and the right edge. -/
def across : Bool := decide (win.x ≤ m.mx) && decide (m.mx ≤ win.x2)

/-- The edges at which a press is, in the order of `resizing`. -/
def edgesAt : Fin 4 → Bool
  | 0 => near win.y m.my && win.across m
  | 1 => near win.x2 m.mx
  | 2 => near win.y2 m.my && win.across m
  | 3 => near win.x m.mx

/-- The mouse is in the window. -/
def Contains : Prop := win.across m ∧ win.y ≤ m.my ∧ m.my ≤ win.y2

instance : Decidable (win.Contains m) := by
  unfold Contains
  infer_instance

end Window

namespace Geometry

/-- The window of the app `pid`. -/
def new (pid : ℕ) : Geometry where
  window := ⟨(100 + pid * 100) % 2 ^ 64, (100 + pid * 100) % 2 ^ 64, (1000 + pid * 100) % 2 ^ 64,
    (700 + pid * 100) % 2 ^ 64⟩
  resizing _ := false
  moving := none
  active := false

/-- A press, at an edge or not. -/
def press (m : Mouse) (g : Geometry) : Geometry :=
  let resizing i := g.resizing i || g.window.edgesAt m i
  if ∃ i, resizing i then { g with resizing := resizing }
  else if g.window.Contains m then
    { g with resizing := resizing, moving := some (m.mx, m.my), active := true }
  else { g with resizing := resizing, active := false }

/-- What the button does: 128 is the state of a key that was just pressed. -/
def button (m : Mouse) (g : Geometry) : Geometry :=
  if m.button < 128 then { g with resizing := fun _ => false, moving := none }
  else if m.button = 128 then g.press m
  else g

def move (m : Mouse) (g : Geometry) : Geometry :=
  match g.moving with
  | none => g
  | some (x0, y0) =>
    { g with
      window := ⟨moved g.window.x m.mx x0, moved g.window.y m.my y0, moved g.window.x2 m.mx x0,
        moved g.window.y2 m.my y0⟩
      moving := some (m.mx, m.my) }

def resize (m : Mouse) (g : Geometry) : Geometry :=
  { g with window :=
    { y := if g.resizing 0 then m.my else g.window.y
      x2 := if g.resizing 1 then m.mx else g.window.x2
      y2 := if g.resizing 2 then m.my else g.window.y2
      x := if g.resizing 3 then m.mx else g.window.x } }

/-- The mouse's part of a call. -/
def call (s : Screen) (m : Mouse) (g : Geometry) : Geometry :=
  let g := ((g.button m).move m).resize m
  { g with window := g.window.clamp s.toSize }

/-- The edges that are resized, at the mouse. -/
def resized (m : Mouse) (f : Fin 4 → Bool) (win : Window) : Window where
  x := if f 3 then m.mx else win.x
  y := if f 0 then m.my else win.y
  x2 := if f 1 then m.mx else win.x2
  y2 := if f 2 then m.my else win.y2

/-- The edges that are pulled leave the screen, and are clamped to it. -/
def pulled (s : Screen) (f : Fin 4 → Bool) (win : Window) : Window where
  x := if f 3 then 0 else win.x
  y := if f 0 then 0 else win.y
  x2 := if f 1 then s.w - 1 else win.x2
  y2 := if f 2 then s.h - 1 else win.y2

def step (l : Screen × Mouse) (g : Geometry) : Option Geometry := some (g.call l.1 l.2)

end Geometry

/-- A number of pixels, as an `isize`. -/
def isize (d : ℤ) : ℤ := d.bmod (2 ^ 64)

/-- An edge `a` of the left or upper side, or `b` of the others, stays where it was put. -/
def LowStays (a : ℤ) : Prop := 0 ≤ a ∧ a ≤ 10000
def HighStays (size : ℕ) (b : ℤ) : Prop := 0 ≤ b ∧ b < size

instance (a : ℤ) : Decidable (LowStays a) := inferInstanceAs (Decidable (_ ∧ _))

instance (size : ℕ) (b : ℤ) : Decidable (HighStays size b) := inferInstanceAs (Decidable (_ ∧ _))

/-- The two edges `a` and `b`, moved by `d`, stay on a screen of this size and below 10000, or both
leave it and the window is as large as the screen. -/
def AxisFits (size a b : ℕ) (d : ℤ) : Prop :=
  (LowStays (a + d) ∧ a + d < size ∧ HighStays size (b + d)) ∨
    (¬LowStays (a + d) ∧ ¬HighStays size (b + d) ∧ (b : ℤ) - a = size - 1)

instance (size a b : ℕ) (d : ℤ) : Decidable (AxisFits size a b d) :=
  inferInstanceAs (Decidable (_ ∨ _))

/-- Where a press puts an edge: to the mouse at `m` if it is at this edge, and else by `d` on. -/
def put (pulled : Bool) (edge m : ℕ) (d : ℤ) : ℤ := if pulled then m else edge + d

/-- The two edges `a` and `b` are put to `a'` and `b'`. Those that stay, and the border of the
screen for an edge that does not, are as far apart as before. -/
def PutFits (size a b : ℕ) (a' b' : ℤ) : Prop :=
  (LowStays a' ∧ a' < size ∧ HighStays size b' ∧ b' - a' = b - a) ∨
    (LowStays a' ∧ a' < size ∧ ¬HighStays size b' ∧ size - 1 - a' = b - a) ∨
    (¬LowStays a' ∧ HighStays size b' ∧ b' = b - a) ∨
    (¬LowStays a' ∧ ¬HighStays size b' ∧ (b : ℤ) - a = size - 1)

instance (size a b : ℕ) (a' b' : ℤ) : Decidable (PutFits size a b a' b') :=
  inferInstanceAs (Decidable (_ ∨ _))

/-- All of the window is on the screen. -/
structure Window.Inside (s : Screen) (win : Window) : Prop where
  x_lt : win.x < s.w
  x2_lt : win.x2 < s.w
  y_lt : win.y < s.h
  y2_lt : win.y2 < s.h

instance (s : Screen) (win : Window) : Decidable (win.Inside s) :=
  decidable_of_iff (win.x < s.w ∧ win.x2 < s.w ∧ win.y < s.h ∧ win.y2 < s.h)
    ⟨fun ⟨hx, hx2, hy, hy2⟩ => ⟨hx, hx2, hy, hy2⟩, fun ⟨hx, hx2, hy, hy2⟩ => ⟨hx, hx2, hy, hy2⟩⟩

/-- What a call asks for that finds a drag from `p` on: a release, and a press that begins a new
drag, leave the window where it is, a press at an edge pulls it, and otherwise the window follows
the mouse. -/
def Window.DragFits (s : Screen) (m : Mouse) (p : ℕ × ℕ) (win : Window) : Prop :=
  let dx := isize (m.mx - p.1)
  let dy := isize (m.my - p.2)
  if m.button < 128 then win.Inside s
  else if m.button = 128 ∧ ∃ i, win.edgesAt m i then
    PutFits s.w win.x win.x2 (put (win.edgesAt m 3) win.x m.mx dx)
        (put (win.edgesAt m 1) win.x2 m.mx dx) ∧
      PutFits s.h win.y win.y2 (put (win.edgesAt m 0) win.y m.my dy)
        (put (win.edgesAt m 2) win.y2 m.my dy)
  else if m.button = 128 ∧ win.Contains m then win.Inside s
  else AxisFits s.w win.x win.x2 dx ∧ AxisFits s.h win.y win.y2 dy

instance (s : Screen) (m : Mouse) (p : ℕ × ℕ) (win : Window) : Decidable (win.DragFits s m p) := by
  unfold Window.DragFits
  infer_instance

/-- The window is on the screen, and as large as another one. -/
structure Window.KeptOn (s : Screen) (win win' : Window) : Prop where
  inside : win'.Inside s
  width : (win'.x2 : ℤ) - win'.x = win.x2 - win.x
  height : (win'.y2 : ℤ) - win'.y = win.y2 - win.y

lemma isize_bounds (d : ℤ) : -2 ^ 63 ≤ isize d ∧ isize d < 2 ^ 63 :=
  ⟨Int.le_bmod (by decide), Int.bmod_lt (by decide)⟩

lemma moved_eq {a m m₀ : ℕ} (hm₀ : m₀ < 2 ^ 64) :
    (moved a m m₀ : ℤ) = (a + isize (m - m₀)) % 2 ^ 64 := by
  have hmod : isize (m - m₀) % 2 ^ 64 = ((m : ℤ) - m₀) % 2 ^ 64 := Int.bmod_emod
  unfold moved
  push_cast [Nat.cast_sub hm₀.le]
  omega

section Axis
variable {size a b A B : ℕ} {a' b' d : ℤ}

/-- An edge that wraps from where it is put. -/
structure PutTo (A : ℕ) (a' : ℤ) : Prop where
  mod : (A : ℤ) = a' % 2 ^ 64
  ge : -2 ^ 63 ≤ a'
  lt : a' < 2 ^ 64

/-- The edges of one direction, put to `a'` and `b'` and clamped each by itself. -/
lemma axis_put_iff (hsize : 0 < size ∧ size < 2 ^ 63) (ha : PutTo A a') (hb : PutTo B b') :
    ((if 10000 < A then 0 else A) < size ∧ (if size ≤ B then size - 1 else B) < size ∧
      ((if size ≤ B then size - 1 else B : ℕ) : ℤ) - (if 10000 < A then 0 else A : ℕ) =
        b - a) ↔ PutFits size a b a' b' := by
  obtain ⟨hA, ha, ha'⟩ := ha
  obtain ⟨hB, hb, hb'⟩ := hb
  unfold PutFits LowStays HighStays
  split_ifs <;> omega

/-- Edges that are both moved keep their distance. -/
lemma putFits_moved :
    PutFits size a b (a + d) (b + d) ↔ AxisFits size a b d := by
  unfold PutFits AxisFits LowStays HighStays
  omega

lemma putFits_unmoved (ha : a ≤ 10000) :
    PutFits size a b a b ↔ a < size ∧ b < size := by
  unfold PutFits LowStays HighStays
  omega

lemma putTo_self (ha : a < 2 ^ 64) : PutTo a a := by
  constructor <;> omega

lemma putTo_moved {m m₀ : ℕ} (ha : a < 2 ^ 63) (hm₀ : m₀ < 2 ^ 64) :
    PutTo (moved a m m₀) (a + isize (m - m₀)) := by
  obtain ⟨hlow, hhigh⟩ := isize_bounds ((m : ℤ) - m₀)
  exact ⟨moved_eq hm₀, by omega, by omega⟩

lemma putTo_put {m m₀ : ℕ} (pulled : Bool) (ha : a < 2 ^ 63) (hm : m < 2 ^ 64)
    (hm₀ : m₀ < 2 ^ 64) :
    PutTo (if pulled then m else moved a m m₀) (put pulled a m (isize (m - m₀))) := by
  cases pulled with
  | true => exact putTo_self hm
  | false => exact putTo_moved ha hm₀

end Axis

namespace Screen

lemma w_lt (s : Screen) : s.w < 2 ^ 63 := by
  have := Nat.le_mul_of_pos_right s.w s.h_pos
  have := s.bytes
  omega

lemma h_lt (s : Screen) : s.h < 2 ^ 63 := by
  have := Nat.le_mul_of_pos_left s.h s.w_pos
  have := s.bytes
  omega

end Screen

/-- The corners as a call leaves them. -/
structure Window.Clamped (win : Window) : Prop where
  x_le : win.x ≤ 10000
  y_le : win.y ≤ 10000
  x2_lt : win.x2 < 2 ^ 63
  y2_lt : win.y2 < 2 ^ 63

lemma Window.clamped_clamp (s : Screen) (win : Window) : (win.clamp s.toSize).Clamped := by
  have hw := s.w_lt
  have hh := s.h_lt
  unfold Window.clamp
  constructor
  all_goals
    dsimp only
    split_ifs <;> omega

lemma Window.keptOn_clamp_iff {win win' : Window} {x x2 y y2 : ℤ} (s : Screen)
    (hx : PutTo win'.x x) (hx2 : PutTo win'.x2 x2) (hy : PutTo win'.y y)
    (hy2 : PutTo win'.y2 y2) :
    win.KeptOn s (win'.clamp s.toSize) ↔
      PutFits s.w win.x win.x2 x x2 ∧ PutFits s.h win.y win.y2 y y2 := by
  rw [← axis_put_iff ⟨s.w_pos, s.w_lt⟩ hx hx2, ← axis_put_iff ⟨s.h_pos, s.h_lt⟩ hy hy2]
  constructor
  · rintro ⟨⟨hxs, hx2s, hys, hy2s⟩, hwidth, hheight⟩
    exact ⟨⟨hxs, hx2s, hwidth⟩, hys, hy2s, hheight⟩
  · rintro ⟨⟨hxs, hx2s, hwidth⟩, hys, hy2s, hheight⟩
    exact ⟨⟨hxs, hx2s, hys, hy2s⟩, hwidth, hheight⟩

/-- A window that is only clamped is kept when it is on the screen. -/
lemma Window.Clamped.keptOn_clamp_iff {win : Window} (h : win.Clamped) (s : Screen) :
    win.KeptOn s (win.clamp s.toSize) ↔ win.Inside s := by
  obtain ⟨hx, hy, hx2, hy2⟩ := h
  rw [Window.keptOn_clamp_iff s (putTo_self (by omega)) (putTo_self (by omega))
    (putTo_self (by omega)) (putTo_self (by omega)), putFits_unmoved hx,
    putFits_unmoved hy]
  constructor
  · rintro ⟨⟨hxs, hx2s⟩, hys, hy2s⟩
    exact ⟨hxs, hx2s, hys, hy2s⟩
  · rintro ⟨hxs, hx2s, hys, hy2s⟩
    exact ⟨⟨hxs, hx2s⟩, hys, hy2s⟩

namespace Geometry
variable {g : Geometry} {m : Mouse}

/-- A window that is moved has been clamped by the call before. -/
structure Sound (g : Geometry) : Prop where
  x_lt : g.window.x < 2 ^ 64
  y_lt : g.window.y < 2 ^ 64
  x2_lt : g.window.x2 < 2 ^ 64
  y2_lt : g.window.y2 < 2 ^ 64
  moving : ∀ p ∈ g.moving, p.1 < 2 ^ 64 ∧ p.2 < 2 ^ 64 ∧ g.window.Clamped

@[simp] lemma button_window (m : Mouse) (g : Geometry) : (g.button m).window = g.window := by
  unfold button press
  dsimp only
  split_ifs <;> rfl

/-- The window is moved from where the mouse was at the last call, or from where it is. -/
lemma button_moving {p : ℕ × ℕ} (h : (g.button m).moving = some p) :
    g.moving = some p ∨ p = (m.mx, m.my) := by
  unfold button press at h
  dsimp only at h
  split_ifs at h
  · exact .inl h
  · exact .inr (Option.some.inj h).symm
  · exact .inl h
  · exact .inl h

lemma sound_new (pid : ℕ) : (new pid).Sound where
  x_lt := Nat.mod_lt _ (by decide)
  y_lt := Nat.mod_lt _ (by decide)
  x2_lt := Nat.mod_lt _ (by decide)
  y2_lt := Nat.mod_lt _ (by decide)
  moving p hp := by cases hp

lemma move_moving {p : ℕ × ℕ} (h : (g.move m).moving = some p) : p = (m.mx, m.my) := by
  unfold move at h
  split at h
  case h_1 hnone =>
    rw [hnone] at h
    cases h
  case h_2 => exact (Option.some.inj h).symm

lemma sound_call (s : Screen) (m : Mouse) (g : Geometry) : (g.call s m).Sound := by
  have hclamped := Window.clamped_clamp s (((g.button m).move m).resize m).window
  refine ⟨?_, ?_, ?_, ?_, ?_⟩
  · exact hclamped.x_le.trans_lt (by decide)
  · exact hclamped.y_le.trans_lt (by decide)
  · exact hclamped.x2_lt.trans (by decide)
  · exact hclamped.y2_lt.trans (by decide)
  · intro p hp
    rw [move_moving hp]
    exact ⟨m.mx_lt, m.my_lt, hclamped⟩

lemma sound_of_reach {pid : ℕ} (h : Transition.Reach step (fun _ _ _ => True) (new pid) g) :
    g.Sound := by
  apply h.invariant (sound_new pid)
  rintro g ⟨s, m⟩ g' - - hstep -
  cases hstep
  exact sound_call s m g

lemma call_window (s : Screen) (m : Mouse) (g : Geometry) :
    (g.call s m).window = (((g.button m).move m).resize m).window.clamp s.toSize := rfl

/-- The window as the mouse leaves it that drags it from `p` on. -/
lemma resize_move {p : ℕ × ℕ} (h : g.moving = some p) (m : Mouse) :
    ((g.move m).resize m).window =
      { x := if g.resizing 3 then m.mx else moved g.window.x m.mx p.1
        y := if g.resizing 0 then m.my else moved g.window.y m.my p.2
        x2 := if g.resizing 1 then m.mx else moved g.window.x2 m.mx p.1
        y2 := if g.resizing 2 then m.my else moved g.window.y2 m.my p.2 } := by
  rw [move, h]
  rfl

/-- Such a window is kept exactly when the edges that are put fit in both directions. -/
lemma keptOn_resize_move_iff {p : ℕ × ℕ} (s : Screen) (h : g.moving = some p)
    (hp : p.1 < 2 ^ 64 ∧ p.2 < 2 ^ 64) (hclamped : g.window.Clamped) :
    Window.KeptOn s g.window (((g.move m).resize m).window.clamp s.toSize) ↔
      PutFits s.w g.window.x g.window.x2 (put (g.resizing 3) g.window.x m.mx (isize (m.mx - p.1)))
          (put (g.resizing 1) g.window.x2 m.mx (isize (m.mx - p.1))) ∧
        PutFits s.h g.window.y g.window.y2 (put (g.resizing 0) g.window.y m.my (isize (m.my - p.2)))
          (put (g.resizing 2) g.window.y2 m.my (isize (m.my - p.2))) := by
  have hlow : ∀ {a : ℕ}, a ≤ 10000 → a < 2 ^ 63 := fun ha => ha.trans_lt (by decide)
  rw [resize_move h, Window.keptOn_clamp_iff s (putTo_put _ (hlow hclamped.x_le) m.mx_lt hp.1)
    (putTo_put _ hclamped.x2_lt m.mx_lt hp.1) (putTo_put _ (hlow hclamped.y_le) m.my_lt hp.2)
    (putTo_put _ hclamped.y2_lt m.my_lt hp.2)]

/-- A call that drags the window without an edge. -/
lemma keptOn_move_iff {p : ℕ × ℕ} (s : Screen) (h : g.moving = some p)
    (hp : p.1 < 2 ^ 64 ∧ p.2 < 2 ^ 64) (hclamped : g.window.Clamped)
    (hresizing : ∀ i, g.resizing i = false) :
    Window.KeptOn s g.window (((g.move m).resize m).window.clamp s.toSize) ↔
      AxisFits s.w g.window.x g.window.x2 (isize (m.mx - p.1)) ∧
        AxisFits s.h g.window.y g.window.y2 (isize (m.my - p.2)) := by
  rw [keptOn_resize_move_iff s h hp hclamped]
  simp only [hresizing, put, Bool.false_eq_true, if_false, putFits_moved]

/-- A drag that begins where the mouse is moves nothing. -/
lemma axisFits_start_iff {s : Screen} {win : Window} (hclamped : win.Clamped) (m : Mouse) :
    (AxisFits s.w win.x win.x2 (isize (m.mx - m.mx)) ∧
        AxisFits s.h win.y win.y2 (isize (m.my - m.my))) ↔ win.Inside s := by
  have hx := hclamped.x_le
  have hy := hclamped.y_le
  have hzero : isize 0 = 0 := rfl
  rw [sub_self, sub_self, hzero]
  unfold AxisFits LowStays HighStays
  constructor
  · intro h
    constructor <;> omega
  · rintro ⟨hxs, hx2, hys, hy2⟩
    constructor <;> omega

/-- In every reachable state in which the window is moved and resized nowhere, and for every mouse
and screen, the call keeps the window on the screen and as large as it was exactly when its edges
fit where the call puts them. -/
theorem drag_keeps_size_iff {pid : ℕ}
    (h : Transition.Reach step (fun _ _ _ => True) (new pid) g) (s : Screen) (m : Mouse)
    {p : ℕ × ℕ} (hmoving : g.moving = some p) (hresizing : ∀ i, g.resizing i = false) :
    Window.KeptOn s g.window (g.call s m).window ↔ g.window.DragFits s m p := by
  obtain ⟨hpx, hpy, hclamped⟩ := (sound_of_reach h).moving p hmoving
  unfold Window.DragFits
  split_ifs with hrelease hedge hinside
  · -- the release ends the drag, and the window is only clamped
    have hbutton : g.button m = { g with resizing := fun _ => false, moving := none } :=
      if_pos hrelease
    rw [call_window, hbutton]
    exact hclamped.keptOn_clamp_iff s
  · have hbutton : g.button m = { g with resizing := g.window.edgesAt m } := by
      simp [button, hedge.1, press, hresizing, hedge.2]
    rw [call_window, hbutton]
    exact keptOn_resize_move_iff (g := { g with resizing := g.window.edgesAt m }) s hmoving
      ⟨hpx, hpy⟩ hclamped
  · -- the drag begins anew where the mouse is
    have hnone : ∀ i, g.window.edgesAt m i = false := by
      simpa [hinside.1] using hedge
    have hbutton : g.button m =
        { g with resizing := fun _ => false, moving := some (m.mx, m.my), active := true } := by
      simp [button, hinside.1, press, hresizing, hnone, hinside.2]
    rw [call_window, hbutton, ← axisFits_start_iff hclamped m]
    exact keptOn_move_iff (p := (m.mx, m.my)) (g := { g with
      resizing := fun _ => false, moving := some (m.mx, m.my), active := true }) s rfl
      ⟨m.mx_lt, m.my_lt⟩ hclamped fun _ => rfl
  · have hbutton : ∃ active,
        g.button m = { g with resizing := fun _ => false, active := active } := by
      have hsame : g.resizing = fun _ => false := funext hresizing
      by_cases hpress : m.button = 128
      · have hnone : ∀ i, g.window.edgesAt m i = false := by
          simpa [hpress] using hedge
        have houtside : ¬g.window.Contains m := fun hcontains => hinside ⟨hpress, hcontains⟩
        exact ⟨false, by simp [button, hpress, press, hresizing, hnone, houtside]⟩
      · exact ⟨g.active, by rw [button, if_neg hrelease, if_neg hpress, ← hsame]⟩
    obtain ⟨active, hbutton⟩ := hbutton
    rw [call_window, hbutton]
    exact keptOn_move_iff (g := { g with resizing := fun _ => false, active := active }) s hmoving
      ⟨hpx, hpy⟩ hclamped fun _ => rfl

def fullHd : Screen := ⟨⟨1920, 1080⟩, by decide, by decide, by decide⟩

/-- The mouse, pressed in the middle of the first window. -/
def pressed : Mouse := ⟨128, 500, 400, by decide, by decide⟩

lemma reach_pressed :
    Transition.Reach step (fun _ _ _ => True) (new 0) ((new 0).call fullHd pressed) :=
  .next (a := (fullHd, pressed)) .start rfl trivial

/-- It is held and moved to the right and down, and then released where it is. -/
theorem drag_keeps_size_inside :
    Window.KeptOn fullHd ((new 0).call fullHd pressed).window
      (((new 0).call fullHd pressed).call fullHd ⟨130, 520, 410, by decide, by decide⟩).window ∧
    Window.KeptOn fullHd ((new 0).call fullHd pressed).window
      (((new 0).call fullHd pressed).call fullHd ⟨0, 520, 410, by decide, by decide⟩).window :=
  ⟨(drag_keeps_size_iff reach_pressed fullHd ⟨130, 520, 410, by decide, by decide⟩
      (show _ = some (500, 400) from rfl) (by decide)).mpr (by decide),
    (drag_keeps_size_iff reach_pressed fullHd ⟨0, 520, 410, by decide, by decide⟩
      (show _ = some (500, 400) from rfl) (by decide)).mpr (by decide)⟩

/-- It is held, and moved over the left border by 100 pixels. -/
theorem border_squeezes_window : ¬∀ (pid : ℕ) (g : Geometry),
    Transition.Reach step (fun _ _ _ => True) (new pid) g → ∀ (s : Screen) (m : Mouse) (p : ℕ × ℕ),
      g.moving = some p → (∀ i, g.resizing i = false) →
        Window.KeptOn s g.window (g.call s m).window := by
  intro h
  have hwidth := (h 0 _ reach_pressed fullHd ⟨130, 300, 400, by decide, by decide⟩ (500, 400) rfl
    (by decide)).width
  revert hwidth
  decide

end Geometry
end Fomos.Console
