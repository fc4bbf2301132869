import ShapeOutline.Proofs.FrameParts
import ShapeOutline.Proofs.Trace

/-! The legs of a path: its strokes, each with where the pen is before and after it. A
quarter of a circle takes the pen from one tangent along the axes to the other. -/

namespace ShapeOutline
noncomputable section

def Stroke.IsStraight : Stroke ℝ → Prop
  | .line _ | .close => True
  | _ => False

structure Leg where
  trail : Trail
  stroke : Stroke ℝ
  target : Point ℝ

namespace Leg

def vector (l : Leg) : Point ℝ := l.target - l.trail.pen

def drawn (l : Leg) : Set Plane := l.trail.drawn l.stroke

/-- Along one of the axes, if it is straight. -/
def Level (l : Leg) : Prop := l.stroke.IsStraight → l.vector.x = 0 ∨ l.vector.y = 0

/-- Where an arc of a circle and a straight leg follow each other, the leg is across the radius. -/
@[mk_iff]
structure Meets (k l : Leg) : Prop where
  entering : ∀ radii start sweep, l.stroke = .arc radii start sweep → k.stroke.IsStraight →
    (bearing start).dot k.vector = 0
  leaving : ∀ radii start sweep, k.stroke = .arc radii start sweep → l.stroke.IsStraight →
    (bearing (start + sweep)).dot l.vector = 0

end Leg

theorem mem_segment_across {x x' y : ℝ} {p : Plane} :
    p ∈ segment ℝ (x, y) (x', y) ↔ p.2 = y ∧ p.1 ∈ Set.uIcc x x' := by
  rw [← Prod.image_mk_segment_left, segment_eq_uIcc]
  constructor
  · rintro ⟨a, ha, rfl⟩
    exact ⟨rfl, ha⟩
  · exact fun ⟨hy, hx⟩ => ⟨p.1, hx, Prod.ext rfl hy.symm⟩

theorem mem_segment_down {x y y' : ℝ} {p : Plane} :
    p ∈ segment ℝ (x, y) (x, y') ↔ p.1 = x ∧ p.2 ∈ Set.uIcc y y' := by
  rw [← Prod.image_mk_segment_right, segment_eq_uIcc]
  constructor
  · rintro ⟨a, ha, rfl⟩
    exact ⟨rfl, ha⟩
  · exact fun ⟨hx, hy⟩ => ⟨p.2, hy, Prod.ext hx.symm rfl⟩

namespace Path

def trail (p : Path ℝ) : Trail := ⟨p.pen, p.start⟩

/-- The strokes as the path goes on with them. -/
def legs (p : Path ℝ) : Sketch ℝ → List Leg
  | [] => []
  | s :: rest => ⟨p.trail, s, (p.stroke s).pen⟩ :: (p.stroke s).legs rest

theorem trail_stroke (p : Path ℝ) (s : Stroke ℝ) :
    (p.stroke s).trail = p.trail.after (.stroke s) := by
  cases s with
  | move q => rfl
  | line q => rfl
  | cubic a b q => rfl
  | quad a q => rfl
  | close => rfl
  | arc radii start sweep =>
    cases h : isDegenerate radii sweep with
    | true => simp [stroke, arcTo, Trail.after, h]
    | false => simp [stroke, arcTo_eq p start h, Trail.after, h, trail]

/-- Where the pen is, with nothing written yet. -/
def bare (t : Trail) : Path ℝ := ⟨[], t.pen, t.start⟩

theorem empty_eq : (empty : Path ℝ) = bare ⟨⟨0, 0⟩, ⟨0, 0⟩⟩ := by
  have hzero : (Point.zero : Point ℝ) = ⟨0, 0⟩ := by
    ext <;> exact Scalar.zero_real
  rw [empty, hzero]
  rfl

/-- What a path has written does not count for its legs. -/
theorem legs_bare (p : Path ℝ) (s : Sketch ℝ) : (bare p.trail).legs s = p.legs s := by
  induction s generalizing p with
  | nil => rfl
  | cons c rest ih =>
    have htrail : ((bare p.trail).stroke c).trail = (p.stroke c).trail := by
      rw [trail_stroke, trail_stroke]
      rfl
    have hpen : ((bare p.trail).stroke c).pen = (p.stroke c).pen := congrArg Trail.pen htrail
    -- both go on from the same trail
    rw [legs, legs, hpen, ← ih, htrail, ih]
    rfl

@[simp] theorem legs_nil (p : Path ℝ) : p.legs [] = [] := rfl

theorem legs_append (p : Path ℝ) (s rest : Sketch ℝ) :
    p.legs (s ++ rest) = p.legs s ++ (p.draw s).legs rest := by
  induction s generalizing p with
  | nil => rfl
  | cons c s ih => exact congrArg (_ :: ·) (ih (p.stroke c))

theorem legs_cons (t : Trail) (c : Stroke ℝ) (rest : Sketch ℝ) :
    (bare t).legs (c :: rest) =
      ⟨t, c, (t.after (.stroke c)).pen⟩ :: (bare (t.after (.stroke c))).legs rest := by
  have htrail : ((bare t).stroke c).trail = t.after (.stroke c) := trail_stroke (bare t) c
  have hpen : ((bare t).stroke c).pen = (t.after (.stroke c)).pen := congrArg Trail.pen htrail
  rw [legs, hpen, ← legs_bare, htrail]
  rfl

section Strokes

variable (t : Trail) (q : Point ℝ) (rest : Sketch ℝ)

@[simp] theorem legs_move : (bare t).legs (.move q :: rest) =
    ⟨t, .move q, q⟩ :: (bare ⟨q, q⟩).legs rest := legs_cons t _ rest

@[simp] theorem legs_line : (bare t).legs (.line q :: rest) =
    ⟨t, .line q, q⟩ :: (bare ⟨q, t.start⟩).legs rest := legs_cons t _ rest

@[simp] theorem legs_close : (bare t).legs (.close :: rest) =
    ⟨t, .close, t.start⟩ :: (bare ⟨t.start, t.start⟩).legs rest := legs_cons t _ rest

end Strokes

section Arcs

variable {radii pen q start : Point ℝ} {deg sweep : ℝ} (rest : Sketch ℝ)

theorem legs_arc (hr : radii.Positive) (hs : sweep ≠ 0) (hle : |sweep| ≤ 360)
    (hq : pen - spoke radii deg + spoke radii (deg + sweep) = q) :
    (bare ⟨pen, start⟩).legs (.arc radii deg sweep :: rest) =
      ⟨⟨pen, start⟩, .arc radii deg sweep, q⟩ :: (bare ⟨q, start⟩).legs rest := by
  have hafter : (⟨pen, start⟩ : Trail).after (.stroke (.arc radii deg sweep)) = ⟨q, start⟩ := by
    simp only [Trail.after, isDegenerate_eq_false.2 ⟨hr, hs⟩, Bool.false_eq_true, if_false,
      drawnSweep_of_abs_le hle, ← hq]
    rfl
  rw [legs_cons, hafter]

/-- An arc without an extent leaves the pen where it is. -/
theorem legs_flat (h : ¬radii.Positive) :
    (bare ⟨pen, start⟩).legs (.arc radii deg sweep :: rest) =
      ⟨⟨pen, start⟩, .arc radii deg sweep, pen⟩ :: (bare ⟨pen, start⟩).legs rest := by
  have hd : isDegenerate radii sweep = true := by
    by_contra hd
    exact h (isDegenerate_eq_false.1 (Bool.eq_false_iff.2 hd)).1
  have hafter : (⟨pen, start⟩ : Trail).after (.stroke (.arc radii deg sweep)) = ⟨pen, start⟩ := by
    simp only [Trail.after, hd, if_true]
  rw [legs_cons, hafter]

end Arcs

/-- Each prefix of a sketch leaves the pen at an end of a leg. -/
theorem exists_leg_of_prefix (p : Path ℝ) (s : Sketch ℝ) (n : ℕ) :
    (p.draw (s.take n)).pen = p.pen ∨ ∃ l ∈ p.legs s, (p.draw (s.take n)).pen = l.target := by
  induction s generalizing p n with
  | nil => simp [draw]
  | cons c rest ih =>
    cases n with
    | zero => exact .inl rfl
    | succ n =>
      right
      rw [legs]
      rcases ih (p.stroke c) n with h | ⟨l, hl, h⟩
      · exact ⟨_, List.mem_cons_self, h⟩
      · exact ⟨l, List.mem_cons_of_mem _ hl, h⟩

/-- The pen keeps to the frame if the legs do; before the first one it is in the corner. -/
theorem pen_covers {f : Frame ℝ} (hf : f.Sized) {s : Sketch ℝ}
    (h : ∀ l ∈ empty.legs s, f.Covers l.target) (n : ℕ) :
    f.Covers (Sketch.path (s.take n)).pen := by
  rcases empty.exists_leg_of_prefix s n with hpen | ⟨l, hl, hpen⟩
  · rw [Sketch.path, hpen, empty_eq]
    exact ⟨⟨le_rfl, hf.w_nonneg⟩, le_rfl, hf.h_nonneg⟩
  · rw [Sketch.path, hpen]
    exact h l hl

end Path

theorem spoke_circle {r : ℝ} (hr : 0 < r) (deg : ℝ) : spoke ⟨r, r⟩ deg = bearing deg * r := by
  have hspread : spread ⟨r, r⟩ deg = r := by
    have hsq : (r * (bearing deg).x) ^ 2 + (r * (bearing deg).y) ^ 2 = r ^ 2 := by
      linear_combination r ^ 2 * bearing_norm deg
    rw [spread, hsq, Real.sqrt_sq hr.le]
  rw [spoke_eq ⟨hr, hr⟩, spokeLength, hspread, mul_div_cancel_right₀ _ hr.ne']

variable {t : Trail} {r : ℝ}

/-- An arc of a circle, also of one that has shrunk to a point. -/
theorem Trail.after_circle (t : Trail) (hr : 0 ≤ r) (start : ℝ) {sweep : ℝ} (hs : sweep ≠ 0)
    (hle : |sweep| ≤ 360) :
    t.after (.stroke (.arc ⟨r, r⟩ start sweep)) =
      ⟨t.pen - bearing start * r + bearing (start + sweep) * r, t.start⟩ := by
  rcases hr.eq_or_lt with rfl | hpos
  · have h : isDegenerate (⟨0, 0⟩ : Point ℝ) sweep = true := by simp [isDegenerate]
    have hpen : t.pen - bearing start * (0 : ℝ) + bearing (start + sweep) * (0 : ℝ) = t.pen := by
      ext <;> simp
    simp only [Trail.after, h, if_true, hpen]
  · have h : isDegenerate (⟨r, r⟩ : Point ℝ) sweep = false :=
      isDegenerate_eq_false.2 ⟨⟨hpos, hpos⟩, hs⟩
    simp only [Trail.after, h, Bool.false_eq_true, if_false, drawnSweep_of_abs_le hle, arcEnd,
      arcCenter, ellipsePoint_eq, spoke_circle hpos]

-- A quarter circle is named for the way the pen goes before it and after it.
theorem bearing_up_right : bearing (180 + 90) = ⟨0, -1⟩ := by
  rw [show (180 : ℝ) + 90 = 270 by norm_num, bearing_threeQuarters]

theorem bearing_right_down : bearing (270 + 90) = ⟨1, 0⟩ := by
  rw [show (270 : ℝ) + 90 = 0 + 360 by norm_num, bearing_add_full, bearing_zero]

theorem bearing_up_left : bearing (-90) = ⟨0, -1⟩ := by
  rw [bearing_neg, bearing_ninety]

theorem bearing_left_down : bearing (270 + -90) = ⟨-1, 0⟩ := by
  rw [show (270 : ℝ) + -90 = 180 by norm_num, bearing_half]

namespace Path

variable {x y : ℝ} {start : Point ℝ} (rest : Sketch ℝ)

theorem legs_circle (hr : 0 ≤ r) {deg sweep : ℝ} (hs : sweep ≠ 0) (hle : |sweep| ≤ 360)
    {pen q : Point ℝ} (hq : pen - bearing deg * r + bearing (deg + sweep) * r = q) :
    (bare ⟨pen, start⟩).legs (.arc ⟨r, r⟩ deg sweep :: rest) =
      ⟨⟨pen, start⟩, .arc ⟨r, r⟩ deg sweep, q⟩ :: (bare ⟨q, start⟩).legs rest := by
  rw [legs_cons, Trail.after_circle _ hr _ hs hle, hq]

theorem legs_up_right (hr : 0 ≤ r) :
    (bare ⟨⟨x, y⟩, start⟩).legs (.arc ⟨r, r⟩ 180 90 :: rest) =
      ⟨⟨⟨x, y⟩, start⟩, .arc ⟨r, r⟩ 180 90, ⟨x + r, y - r⟩⟩ ::
        (bare ⟨⟨x + r, y - r⟩, start⟩).legs rest := by
  refine legs_circle rest hr (by norm_num) (by norm_num) ?_
  rw [bearing_half, bearing_up_right]
  ext <;> simp [sub_eq_add_neg]

theorem legs_right_down (hr : 0 ≤ r) :
    (bare ⟨⟨x, y⟩, start⟩).legs (.arc ⟨r, r⟩ 270 90 :: rest) =
      ⟨⟨⟨x, y⟩, start⟩, .arc ⟨r, r⟩ 270 90, ⟨x + r, y + r⟩⟩ ::
        (bare ⟨⟨x + r, y + r⟩, start⟩).legs rest := by
  refine legs_circle rest hr (by norm_num) (by norm_num) ?_
  rw [bearing_threeQuarters, bearing_right_down]
  ext <;> simp

theorem legs_down_left (hr : 0 ≤ r) :
    (bare ⟨⟨x, y⟩, start⟩).legs (.arc ⟨r, r⟩ 0 90 :: rest) =
      ⟨⟨⟨x, y⟩, start⟩, .arc ⟨r, r⟩ 0 90, ⟨x - r, y + r⟩⟩ ::
        (bare ⟨⟨x - r, y + r⟩, start⟩).legs rest := by
  refine legs_circle rest hr (by norm_num) (by norm_num) ?_
  rw [zero_add, bearing_zero, bearing_ninety]
  ext <;> simp

theorem legs_left_up (hr : 0 ≤ r) :
    (bare ⟨⟨x, y⟩, start⟩).legs (.arc ⟨r, r⟩ 90 90 :: rest) =
      ⟨⟨⟨x, y⟩, start⟩, .arc ⟨r, r⟩ 90 90, ⟨x - r, y - r⟩⟩ ::
        (bare ⟨⟨x - r, y - r⟩, start⟩).legs rest := by
  refine legs_circle rest hr (by norm_num) (by norm_num) ?_
  rw [show (90 : ℝ) + 90 = 180 by norm_num, bearing_ninety, bearing_half]
  ext <;> simp [sub_eq_add_neg]

theorem legs_up_left (hr : 0 ≤ r) :
    (bare ⟨⟨x, y⟩, start⟩).legs (.arc ⟨r, r⟩ 0 (-90) :: rest) =
      ⟨⟨⟨x, y⟩, start⟩, .arc ⟨r, r⟩ 0 (-90), ⟨x - r, y - r⟩⟩ ::
        (bare ⟨⟨x - r, y - r⟩, start⟩).legs rest := by
  refine legs_circle rest hr (by norm_num) (by norm_num) ?_
  rw [zero_add, bearing_zero, bearing_up_left]
  ext <;> simp [sub_eq_add_neg]

theorem legs_left_down (hr : 0 ≤ r) :
    (bare ⟨⟨x, y⟩, start⟩).legs (.arc ⟨r, r⟩ 270 (-90) :: rest) =
      ⟨⟨⟨x, y⟩, start⟩, .arc ⟨r, r⟩ 270 (-90), ⟨x - r, y + r⟩⟩ ::
        (bare ⟨⟨x - r, y + r⟩, start⟩).legs rest := by
  refine legs_circle rest hr (by norm_num) (by norm_num) ?_
  rw [bearing_threeQuarters, bearing_left_down]
  ext <;> simp [sub_eq_add_neg, add_comm]

end Path

namespace Trail

theorem drawn_circle (hr : 0 ≤ r) (t : Trail) {deg sweep : ℝ} (hs : sweep ≠ 0)
    (hle : |sweep| ≤ 360) {p : Plane} (hp : p ∈ t.drawn (.arc ⟨r, r⟩ deg sweep)) :
    0 < r ∧ p ∈ Point.place '' arcCurve (t.pen - bearing deg * r) ⟨r, r⟩ deg sweep := by
  rcases hr.eq_or_lt with rfl | hpos
  · have h : isDegenerate (⟨0, 0⟩ : Point ℝ) sweep = true := by simp [isDegenerate]
    simp [drawn, curve, h] at hp
  · have h : isDegenerate (⟨r, r⟩ : Point ℝ) sweep = false :=
      isDegenerate_eq_false.2 ⟨⟨hpos, hpos⟩, hs⟩
    simp only [drawn, curve, h, Bool.false_eq_true, if_false, arcCenter, spoke_circle hpos,
      drawnSweep_of_abs_le hle] at hp
    exact ⟨hpos, hp⟩

end Trail

/-- The points of a circle about `center` in a quadrant. -/
theorem mem_quadrant {center : Point ℝ} {deg : ℝ} (hr : 0 < r) {p : Plane}
    (hp : p ∈ Point.place '' arcCurve center ⟨r, r⟩ deg 90) :
    (p.1 - center.x) ^ 2 + (p.2 - center.y) ^ 2 = r ^ 2 ∧
      0 ≤ (bearing deg).x * (p.2 - center.y) - (bearing deg).y * (p.1 - center.x) ∧
      0 ≤ (bearing deg).x * (p.1 - center.x) + (bearing deg).y * (p.2 - center.y) := by
  obtain ⟨hoff, hcross, hdot⟩ := (mem_arc_quarter ⟨hr, hr⟩ deg).1 hp
  refine ⟨?_, hcross, hdot⟩
  have hr2 : r ^ 2 ≠ 0 := by positivity
  apply mul_left_cancel₀ hr2
  rw [offEllipse] at hoff
  linear_combination hoff

namespace Trail

variable {x y : ℝ} {start : Point ℝ} {p : Plane}

theorem drawn_up_right (hr : 0 ≤ r) (hp : p ∈ drawn ⟨⟨x, y⟩, start⟩ (.arc ⟨r, r⟩ 180 90)) :
    0 < r ∧ (p.1 - (x + r)) ^ 2 + (p.2 - y) ^ 2 = r ^ 2 ∧ p.1 ≤ x + r ∧ p.2 ≤ y := by
  obtain ⟨hpos, hp⟩ := drawn_circle hr _ (by norm_num) (by norm_num) hp
  obtain ⟨hnorm, hcross, hdot⟩ := mem_quadrant hpos hp
  simp only [bearing_half, Point.sub_x, Point.sub_y, Point.mul_x, Point.mul_y] at hnorm hcross hdot
  refine ⟨hpos, ?_, ?_, ?_⟩ <;> linarith

theorem drawn_right_down (hr : 0 ≤ r) (hp : p ∈ drawn ⟨⟨x, y⟩, start⟩ (.arc ⟨r, r⟩ 270 90)) :
    0 < r ∧ (p.1 - x) ^ 2 + (p.2 - (y + r)) ^ 2 = r ^ 2 ∧ x ≤ p.1 ∧ p.2 ≤ y + r := by
  obtain ⟨hpos, hp⟩ := drawn_circle hr _ (by norm_num) (by norm_num) hp
  obtain ⟨hnorm, hcross, hdot⟩ := mem_quadrant hpos hp
  simp only [bearing_threeQuarters, Point.sub_x, Point.sub_y, Point.mul_x, Point.mul_y]
    at hnorm hcross hdot
  refine ⟨hpos, ?_, ?_, ?_⟩ <;> linarith

theorem drawn_up_left (hr : 0 ≤ r) (hp : p ∈ drawn ⟨⟨x, y⟩, start⟩ (.arc ⟨r, r⟩ 0 (-90))) :
    0 < r ∧ (p.1 - (x - r)) ^ 2 + (p.2 - y) ^ 2 = r ^ 2 ∧ x - r ≤ p.1 ∧ p.2 ≤ y := by
  obtain ⟨hpos, hp⟩ := drawn_circle hr _ (by norm_num) (by norm_num) hp
  rw [arcCurve_neg, zero_sub] at hp
  obtain ⟨hnorm, hcross, hdot⟩ := mem_quadrant hpos hp
  simp only [bearing_up_left, bearing_zero, Point.sub_x, Point.sub_y, Point.mul_x, Point.mul_y]
    at hnorm hcross hdot
  refine ⟨hpos, ?_, ?_, ?_⟩ <;> linarith

theorem drawn_left_down (hr : 0 ≤ r) (hp : p ∈ drawn ⟨⟨x, y⟩, start⟩ (.arc ⟨r, r⟩ 270 (-90))) :
    0 < r ∧ (p.1 - x) ^ 2 + (p.2 - (y + r)) ^ 2 = r ^ 2 ∧ p.1 ≤ x ∧ p.2 ≤ y + r := by
  obtain ⟨hpos, hp⟩ := drawn_circle hr _ (by norm_num) (by norm_num) hp
  rw [arcCurve_neg, show (270 : ℝ) - 90 = 180 by norm_num] at hp
  obtain ⟨hnorm, hcross, hdot⟩ := mem_quadrant hpos hp
  simp only [bearing_half, bearing_threeQuarters, Point.sub_x, Point.sub_y, Point.mul_x,
    Point.mul_y] at hnorm hcross hdot
  refine ⟨hpos, ?_, ?_, ?_⟩ <;> linarith

end Trail

end
end ShapeOutline
