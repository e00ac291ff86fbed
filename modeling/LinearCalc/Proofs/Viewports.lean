import LinearCalc.View.Viewport
import Mathlib.Algebra.Order.Ring.Rat
import Mathlib.Tactic.FieldSimp
import Mathlib.Tactic.Linarith
import Mathlib.Tactic.NormNum
import Mathlib.Tactic.Ring

set_option autoImplicit false

/-! # Viewports in exact arithmetic

A viewport that is dragged and zoomed goes on showing the plane as it should (`moveAll_consistent`).
With rational numbers nothing is rounded, so that the laws hold exactly: a drag moves what is on the
canvas by just so many pixels, zooming leaves the middle of the canvas where it is, and the bounds
are what the canvas shows. All of them need the zoom to be positive, and no motion changes that.
-/

namespace LinearCalc

/-- What is done to a viewport: its content is dragged, or the wheel is turned. -/
inductive Motion where
  | drag (dx dy : ℚ)
  | wheel (turn : ℚ)

/-- The position is moved by so much to the right and down. -/
def Position.shift (p : Position ℚ) (dx dy : ℚ) : Position ℚ := ⟨p.x + dx, p.y + dy⟩

/-- The position belongs to the rectangle, whose sides count. -/
def Bounds.Contains (b : Bounds ℚ) (p : Position ℚ) : Prop :=
  (b.minX ≤ p.x ∧ p.x ≤ b.maxX) ∧ b.minY ≤ p.y ∧ p.y ≤ b.maxY

/-- The position belongs to the canvas, whose sides count. -/
def Canvas.Contains (c : Canvas ℚ) (s : Position ℚ) : Prop :=
  (0 ≤ s.x ∧ s.x ≤ c.width) ∧ 0 ≤ s.y ∧ s.y ≤ c.height

namespace Viewport

def move (v : Viewport ℚ) : Motion → Except DivisionByZero (Viewport ℚ)
  | .drag dx dy => v.pan dx dy
  | .wheel turn => .ok (v.zoomBy turn)

def moveAll (v : Viewport ℚ) : List Motion → Except DivisionByZero (Viewport ℚ)
  | [] => .ok v
  | motion :: more => do
    let moved ← v.move motion
    moved.moveAll more

variable {v : Viewport ℚ}

/-! ## What the operations give -/

theorem divide?_of_ne {a b : ℚ} (h : b ≠ 0) : divide? a b = .ok (a / b) := by
  rw [divide?, if_neg]
  rwa [beq_iff_eq]

theorem toGraph_eq (h : v.zoom ≠ 0) (c : Canvas ℚ) (s : Position ℚ) :
    v.toGraph c s = .ok ⟨(s.x - c.middle.x) / v.zoom + v.centre.x,
      v.centre.y - (s.y - c.middle.y) / v.zoom⟩ := by
  rw [toGraph, divide?_of_ne h, divide?_of_ne h]
  rfl

theorem pan_eq (h : v.zoom ≠ 0) (dx dy : ℚ) :
    v.pan dx dy = .ok ⟨⟨v.centre.x - dx / v.zoom, v.centre.y + dy / v.zoom⟩, v.zoom⟩ := by
  rw [pan, divide?_of_ne h, divide?_of_ne h]
  rfl

theorem bounds_eq (h : v.zoom ≠ 0) (c : Canvas ℚ) :
    v.bounds c = .ok ⟨(0 - c.middle.x) / v.zoom + v.centre.x,
      (c.width - c.middle.x) / v.zoom + v.centre.x,
      v.centre.y - (c.height - c.middle.y) / v.zoom,
      v.centre.y - (0 - c.middle.y) / v.zoom⟩ := by
  rw [bounds, toGraph_eq h, toGraph_eq h]
  rfl

/-- One turn of the wheel changes the zoom by a tenth. -/
theorem zoomBy_eq (v : Viewport ℚ) (turn : ℚ) :
    v.zoomBy turn = ⟨v.centre, v.zoom * if 0 < turn then 9 / 10 else 11 / 10⟩ := by
  by_cases hturn : 0 < turn
  · have hfactor : (0.9 : ℚ) = 9 / 10 := by norm_num
    simp only [zoomBy, zoomStep, zoomFactor, hturn, decide_true, if_true, hfactor]
  · have hfactor : (1.1 : ℚ) = 11 / 10 := by norm_num
    simp only [zoomBy, zoomStep, zoomFactor, hturn, decide_false, if_false, hfactor,
      Bool.false_eq_true]

/-! ## The plane and the canvas -/

theorem toGraph_toScreen (h : v.zoom ≠ 0) (c : Canvas ℚ) (p : Position ℚ) :
    v.toGraph c (v.toScreen c p) = .ok p := by
  rw [toGraph_eq h, toScreen]
  congr 2
  · field_simp
    ring
  · field_simp
    ring

theorem toScreen_toGraph (h : v.zoom ≠ 0) (c : Canvas ℚ) (s : Position ℚ) :
    ∃ p, v.toGraph c s = .ok p ∧ v.toScreen c p = s := by
  refine ⟨_, toGraph_eq h c s, ?_⟩
  rw [toScreen]
  congr 1
  · field_simp
    ring
  · field_simp
    ring

/-- **The canvas shows just what lies in the bounds.** -/
theorem contains_iff (h : 0 < v.zoom) (c : Canvas ℚ) :
    ∃ b, v.bounds c = .ok b ∧ ∀ p, b.Contains p ↔ c.Contains (v.toScreen c p) := by
  refine ⟨_, bounds_eq h.ne' c, fun p => and_congr (and_congr ?left ?right) ?vertical⟩
  case left =>
    rw [← le_sub_iff_add_le, div_le_iff₀ h, sub_le_iff_le_add]
    rfl
  case right =>
    rw [← sub_le_iff_le_add, le_div_iff₀ h, le_sub_iff_add_le]
    rfl
  case vertical =>
    -- what is low in the plane is far down on the canvas
    have hlow : v.centre.y - (c.height - c.middle.y) / v.zoom ≤ p.y
        ↔ (v.toScreen c p).y ≤ c.height := by
      rw [sub_le_comm, le_div_iff₀ h, le_sub_iff_add_le]
      rfl
    have hhigh : p.y ≤ v.centre.y - (0 - c.middle.y) / v.zoom ↔ 0 ≤ (v.toScreen c p).y := by
      rw [le_sub_comm, div_le_iff₀ h, sub_le_iff_le_add]
      rfl
    rw [and_comm]
    exact and_congr hhigh hlow

/-! ## Drags -/

/-- A drag moves what is on the canvas. -/
theorem exists_pan (h : v.zoom ≠ 0) (dx dy : ℚ) :
    ∃ w, v.pan dx dy = .ok w ∧ w.zoom = v.zoom ∧
      ∀ c p, w.toScreen c p = (v.toScreen c p).shift dx dy := by
  refine ⟨_, pan_eq h dx dy, rfl, fun c p => ?_⟩
  rw [toScreen, toScreen, Position.shift]
  congr 1
  · field_simp
    ring
  · field_simp
    ring

/-- Two drags are one, as far as both together. -/
theorem pan_of_pan {w : Viewport ℚ} (h : v.zoom ≠ 0) {dx dy : ℚ} (hw : v.pan dx dy = .ok w)
    (dx' dy' : ℚ) : w.pan dx' dy' = v.pan (dx + dx') (dy + dy') := by
  obtain ⟨⟨x, y⟩, zoom⟩ := w
  rw [pan_eq h, Except.ok.injEq, mk.injEq, Position.mk.injEq] at hw
  obtain ⟨⟨rfl, rfl⟩, rfl⟩ := hw
  have hagain := pan_eq (v := ⟨⟨v.centre.x - dx / v.zoom, v.centre.y + dy / v.zoom⟩, v.zoom⟩) h
  rw [hagain, pan_eq h, add_div, add_div, sub_sub, add_assoc]

/-- A drag back undoes a drag. -/
theorem pan_neg {w : Viewport ℚ} (h : v.zoom ≠ 0) {dx dy : ℚ} (hw : v.pan dx dy = .ok w) :
    w.pan (-dx) (-dy) = .ok v := by
  rw [pan_of_pan h hw, add_neg_cancel, add_neg_cancel, pan_eq h]
  simp only [zero_div, sub_zero, add_zero]

/-! ## Zooming -/

/-- The middle of the canvas shows the centre. -/
theorem toGraph_middle (h : v.zoom ≠ 0) (c : Canvas ℚ) :
    v.toGraph c c.middle = .ok v.centre := by
  rw [toGraph_eq h]
  simp only [sub_self, zero_div, zero_add, sub_zero]

theorem zoomBy_pos (h : 0 < v.zoom) (turn : ℚ) : 0 < (v.zoomBy turn).zoom := by
  rw [zoomBy_eq]
  refine mul_pos h ?_
  split <;> norm_num

/-- Zooming moves what is on the canvas away from the middle or closer to it. -/
theorem toScreen_zoomBy (v : Viewport ℚ) (turn : ℚ) (c : Canvas ℚ) (p : Position ℚ) :
    let factor : ℚ := if 0 < turn then 9 / 10 else 11 / 10
    ((v.zoomBy turn).toScreen c p).x - c.middle.x
        = factor * ((v.toScreen c p).x - c.middle.x) ∧
      ((v.zoomBy turn).toScreen c p).y - c.middle.y
        = factor * ((v.toScreen c p).y - c.middle.y) := by
  intro factor
  rw [zoomBy_eq, toScreen, toScreen]
  constructor
  · ring
  · ring

/-! ## Runs -/

/-- A viewport and a canvas go together as they should. -/
structure Consistent (v : Viewport ℚ) (c : Canvas ℚ) : Prop where
  /-- The plane is found again from the canvas. -/
  toGraph_toScreen : ∀ p, v.toGraph c (v.toScreen c p) = .ok p
  /-- The canvas is found again from the plane. -/
  toScreen_toGraph : ∀ s, ∃ p, v.toGraph c s = .ok p ∧ v.toScreen c p = s
  /-- Drags move everything by as much as they say, add up, and can be undone. -/
  drag : ∀ dx dy, ∃ w, v.pan dx dy = .ok w ∧
    (∀ p, w.toScreen c p = (v.toScreen c p).shift dx dy) ∧
    (∀ dx' dy', w.pan dx' dy' = v.pan (dx + dx') (dy + dy')) ∧ w.pan (-dx) (-dy) = .ok v
  /-- Turning the wheel keeps the middle and scales the rest. -/
  wheel : ∀ turn, ∃ p, v.toGraph c c.middle = .ok p ∧ (v.zoomBy turn).toGraph c c.middle = .ok p ∧
    let factor : ℚ := if 0 < turn then 9 / 10 else 11 / 10
    ∀ q, ((v.zoomBy turn).toScreen c q).x - c.middle.x
        = factor * ((v.toScreen c q).x - c.middle.x) ∧
      ((v.zoomBy turn).toScreen c q).y - c.middle.y
        = factor * ((v.toScreen c q).y - c.middle.y)
  /-- The bounds are what is visible. -/
  bounds : ∃ b, v.bounds c = .ok b ∧ ∀ p, b.Contains p ↔ c.Contains (v.toScreen c p)

/-- **A viewport with a positive zoom is consistent.** -/
theorem consistent (h : 0 < v.zoom) (c : Canvas ℚ) : v.Consistent c where
  toGraph_toScreen := Viewport.toGraph_toScreen h.ne' c
  toScreen_toGraph := Viewport.toScreen_toGraph h.ne' c
  drag dx dy := by
    obtain ⟨w, hw, -, hscreen⟩ := exists_pan h.ne' dx dy
    exact ⟨w, hw, hscreen c, pan_of_pan h.ne' hw, pan_neg h.ne' hw⟩
  wheel turn := by
    have hcentre : (v.zoomBy turn).toGraph c c.middle = .ok v.centre :=
      toGraph_middle (zoomBy_pos h turn).ne' c
    exact ⟨v.centre, toGraph_middle h.ne' c, hcentre, toScreen_zoomBy v turn c⟩
  bounds := contains_iff h c

/-- A motion keeps the zoom positive. -/
theorem exists_move (h : 0 < v.zoom) (motion : Motion) :
    ∃ w, v.move motion = .ok w ∧ 0 < w.zoom := by
  cases motion with
  | drag dx dy =>
      obtain ⟨w, hw, hzoom, -⟩ := exists_pan h.ne' dx dy
      exact ⟨w, hw, hzoom ▸ h⟩
  | wheel turn => exact ⟨v.zoomBy turn, rfl, zoomBy_pos h turn⟩

/-- **No motions fail, and none makes the zoom zero or negative.** -/
theorem exists_moveAll (h : 0 < v.zoom) (motions : List Motion) :
    ∃ w, v.moveAll motions = .ok w ∧ 0 < w.zoom := by
  induction motions generalizing v with
  | nil => exact ⟨v, rfl, h⟩
  | cons motion more ih =>
      obtain ⟨moved, hmoved, hzoom⟩ := exists_move h motion
      obtain ⟨w, hw, hpos⟩ := ih hzoom
      refine ⟨w, ?_, hpos⟩
      rw [moveAll, hmoved]
      exact hw

/-- **After any motions a viewport is consistent with every canvas.** Whatever is dragged and
however often the wheel is turned, nothing fails and the zoom stays positive; the plane and the
canvas are found again from one another; the next drag moves the content by just as much as it says
and can be undone; the next turn of the wheel keeps the middle of the canvas; and the bounds are
what can be seen. No canvas is asked to have positive sides. -/
theorem moveAll_consistent (h : 0 < v.zoom) (motions : List Motion) :
    ∃ w, v.moveAll motions = .ok w ∧ 0 < w.zoom ∧
      ∀ c : Canvas ℚ, w.Consistent c := by
  obtain ⟨w, hw, hzoom⟩ := exists_moveAll h motions
  exact ⟨w, hw, hzoom, consistent hzoom⟩

/-- A drag and a turn of the wheel of the viewport that is shown first. -/
theorem moveAll_consistent_drag :
    (0 : ℚ) < (⟨⟨0, 0⟩, 50⟩ : Viewport ℚ).zoom ∧
      ∃ w, (⟨⟨0, 0⟩, 50⟩ : Viewport ℚ).moveAll [.drag 30 (-40), .wheel 1] = .ok w ∧ 0 < w.zoom ∧
        w.Consistent defaultCanvas := by
  have hzoom : (0 : ℚ) < (⟨⟨0, 0⟩, 50⟩ : Viewport ℚ).zoom := by norm_num
  obtain ⟨w, hw, hpos, hconsistent⟩ := moveAll_consistent hzoom [.drag 30 (-40), .wheel 1]
  exact ⟨hzoom, w, hw, hpos, hconsistent defaultCanvas⟩

end Viewport
end LinearCalc
