import ShapeOutline.Proofs.RealScalar
import ShapeOutline.Shape.Facing

/-! Parts of a frame whose sides may be zero, and the frame seen along an arrow: how
far ahead a point is and how far across, whichever way the arrow faces. -/

namespace ShapeOutline
noncomputable section

namespace Frame

structure Sized (f : Frame ℝ) : Prop where
  w_nonneg : 0 ≤ f.w
  h_nonneg : 0 ≤ f.h

/-- A point within the sides of the frame. -/
def Covers (f : Frame ℝ) (p : Point ℝ) : Prop := (0 ≤ p.x ∧ p.x ≤ f.w) ∧ 0 ≤ p.y ∧ p.y ≤ f.h

/-- The points of the plane within the sides. -/
def rect (f : Frame ℝ) : Set (ℝ × ℝ) := Set.Icc 0 f.w ×ˢ Set.Icc 0 f.h

theorem rect_convex (f : Frame ℝ) : Convex ℝ f.rect := (convex_Icc 0 f.w).prod (convex_Icc 0 f.h)

theorem ofSides_sized (w h : ℝ) (a : Adjustments ℝ) : (ofSides w h a).Sized := by
  have hside (v : ℝ) : 0 ≤ dimensionOrZero v := by
    rw [dimensionOrZero_real]
    split_ifs with hv
    · exact le_rfl
    · exact not_lt.1 hv
  exact ⟨hside w, hside h⟩

variable {f : Frame ℝ}

theorem Sized.ss_nonneg (hf : f.Sized) : 0 ≤ f.ss := by
  rw [ss, Scalar.min_real]
  exact le_min hf.w_nonneg hf.h_nonneg

theorem pinned_mem (name : String) (default : ℝ) {lo hi : ℝ} (h : lo ≤ hi) :
    lo ≤ f.pinned name default lo hi ∧ f.pinned name default lo hi ≤ hi := pin_mem _ h

theorem shortPart_real (f : Frame ℝ) (a : ℝ) : f.shortPart a = f.ss * a / 100000 := rfl

theorem Sized.shortPart_nonneg (hf : f.Sized) {a : ℝ} (ha : 0 ≤ a) : 0 ≤ f.shortPart a := by
  have hss := hf.ss_nonneg
  rw [shortPart_real]
  positivity

theorem Sized.shortPart_le (hf : f.Sized) {a b : ℝ} (h : a ≤ b) :
    f.shortPart a ≤ f.shortPart b := by
  have hmul := mul_le_mul_of_nonneg_left h hf.ss_nonneg
  rw [shortPart_real, shortPart_real]
  linarith

theorem heightPart_real (f : Frame ℝ) (a : ℝ) : f.heightPart a = f.h * a / 100000 := rfl

theorem Sized.heightPart_le (hf : f.Sized) {a b : ℝ} (h : a ≤ b) :
    f.heightPart a ≤ f.heightPart b := by
  have hmul := mul_le_mul_of_nonneg_left h hf.h_nonneg
  rw [heightPart_real, heightPart_real]
  linarith

/-- A length as a part of the short side gives the length back, unless the frame is flat. -/
theorem shortPart_divOrZero_le {length : ℝ} (h : 0 ≤ length) :
    f.shortPart (divOrZero length f.ss) ≤ length / 100000 := by
  rw [shortPart_real, divOrZero_real]
  rcases eq_or_ne f.ss 0 with h0 | h0
  · rw [h0, zero_mul, zero_div]
    positivity
  · rw [mul_div_cancel₀ _ h0]

theorem divOrZero_nonneg {a b : ℝ} (ha : 0 ≤ a) (hb : 0 ≤ b) : 0 ≤ divOrZero a b := by
  rw [divOrZero_real]
  exact div_nonneg ha hb

end Frame

namespace Shape.Facing

variable (d : Facing) (f : Frame ℝ) (p : Point ℝ)

/-- How far a point is ahead, from the side that the arrow leaves behind. -/
def reach : ℝ :=
  match d with
  | right => p.x
  | left => f.w - p.x
  | down => p.y
  | up => f.h - p.y

/-- How far across the arrow a point is. -/
def offset : ℝ :=
  match d with
  | right | left => p.y
  | down | up => p.x

@[simp] theorem reach_right : right.reach f p = p.x := rfl
@[simp] theorem reach_left : left.reach f p = f.w - p.x := rfl
@[simp] theorem reach_down : down.reach f p = p.y := rfl
@[simp] theorem reach_up : up.reach f p = f.h - p.y := rfl
@[simp] theorem along_right : right.along f = f.w := rfl
@[simp] theorem along_left : left.along f = f.w := rfl
@[simp] theorem along_down : down.along f = f.h := rfl
@[simp] theorem along_up : up.along f = f.h := rfl
@[simp] theorem offset_right : right.offset p = p.y := rfl
@[simp] theorem offset_left : left.offset p = p.y := rfl
@[simp] theorem offset_down : down.offset p = p.x := rfl
@[simp] theorem offset_up : up.offset p = p.x := rfl

def opposite : Facing → Facing
  | right => left
  | left => right
  | down => up
  | up => down

@[simp] theorem along_opposite : d.opposite.along f = d.along f := by cases d <;> rfl

@[simp] theorem reach_opposite : d.opposite.reach f p = d.along f - d.reach f p := by
  cases d <;> simp [opposite]

@[simp] theorem offset_opposite : d.opposite.offset p = d.offset p := by cases d <;> rfl

/-- An arrow is designed pointing right, where its coordinates are the reach and the offset. -/
@[simp] theorem reach_point : d.reach f ((d.reflection f).point p) = p.x := by
  cases d <;> simp [reflection, Reflection.point, Reflection.flip, Reflection.identity,
    Reflection.leftRight, Reflection.transpose]

@[simp] theorem offset_point : d.offset ((d.reflection f).point p) = p.y := by
  cases d <;> simp [reflection, Reflection.point, Reflection.flip, Reflection.identity,
    Reflection.leftRight, Reflection.transpose]

theorem covers_iff : f.Covers p ↔
    (0 ≤ d.reach f p ∧ d.reach f p ≤ d.along f) ∧ 0 ≤ d.offset p ∧ d.offset p ≤ d.across f := by
  unfold Frame.Covers
  cases d <;> simp [across] <;> tauto

variable {f}

theorem ss_le_along : f.ss ≤ d.along f := by
  cases d
  exacts [f.ss_le_w, f.ss_le_w, f.ss_le_h, f.ss_le_h]

theorem ss_le_across : f.ss ≤ d.across f := by
  cases d
  exacts [f.ss_le_h, f.ss_le_h, f.ss_le_w, f.ss_le_w]

end Shape.Facing

end
end ShapeOutline
