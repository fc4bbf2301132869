import Mathlib
import ShapeOutline.Frame
import ShapeOutline.Layer
import ShapeOutline.Proofs.Ellipse

/-! Lengths multiplied by a positive factor. Sums, differences and the smaller of
two lengths are multiplied with them, quotients and angles stay the same, and no
comparison changes its outcome. The equations take the factor out of every
operation on numbers and points, and into the parts of a sketch. -/

namespace ShapeOutline
noncomputable section

structure Factor where
  val : ℝ
  pos : 0 < val

namespace Factor

instance : SMul Factor ℝ := ⟨fun k x => x * k.val⟩
instance : SMul Factor (Point ℝ) := ⟨fun k p => p.stretch ⟨k.val, k.val⟩⟩
instance : SMul Factor (Stroke ℝ) := ⟨fun k s => s.stretch ⟨k.val, k.val⟩⟩

variable {β : Type} [SMul Factor β]

instance : SMul Factor (List β) := ⟨fun k l => l.map (k • ·)⟩
instance : SMul Factor (Option β) := ⟨fun k o => o.map (k • ·)⟩

/-- The adjustments are parts of the sides and stay as they are. -/
@[simps] instance frame : SMul Factor (Frame ℝ) where
  smul k f := ⟨k • f.w, k • f.h, f.adjustments⟩

/-- The extents of a reflection are lengths. -/
instance : SMul Factor (Reflection ℝ) := ⟨fun k t => ⟨t.swap, k • t.flipX, k • t.flipY⟩⟩

instance : SMul Factor (Layer ℝ) := ⟨fun k l => { l with sketch := k • l.sketch }⟩

variable (k : Factor)

section Numbers

variable (a b c : ℝ)

theorem smul_def : k • a = a * k.val := rfl

@[simp] theorem smul_zero : k • (0 : ℝ) = 0 := zero_mul _

@[simp] theorem add_smul : k • a + k • b = k • (a + b) := (add_mul ..).symm

@[simp] theorem sub_smul : k • a - k • b = k • (a - b) := (sub_mul ..).symm

@[simp] theorem neg_smul : -(k • a) = k • -a := (neg_mul ..).symm

@[simp] theorem smul_mul : k • a * b = k • (a * b) := mul_right_comm ..

@[simp] theorem mul_smul : a * (k • b) = k • (a * b) := (mul_assoc ..).symm

@[simp] theorem smul_div : k • a / b = k • (a / b) := mul_div_right_comm ..

/-- A ratio of lengths. -/
@[simp high] theorem smul_div_smul : k • a / k • b = a / b := mul_div_mul_right _ _ k.pos.ne'

@[simp] theorem smul_lt_smul : k • a < k • b ↔ a < b := mul_lt_mul_iff_left₀ k.pos

@[simp] theorem smul_le_smul : k • a ≤ k • b ↔ a ≤ b := mul_le_mul_iff_left₀ k.pos

@[simp] theorem smul_pos : 0 < k • a ↔ 0 < a := by rw [← smul_lt_smul k 0 a, smul_zero]

@[simp] theorem smul_neg_iff : k • a < 0 ↔ a < 0 := by rw [← smul_lt_smul k a 0, smul_zero]

@[simp] theorem smul_nonpos : k • a ≤ 0 ↔ a ≤ 0 := by rw [← smul_le_smul k a 0, smul_zero]

@[simp] theorem smul_eq_zero : k • a = 0 ↔ a = 0 := mul_eq_zero_iff_right k.pos.ne'

@[simp] theorem min_smul :
    @min ℝ Scalar.instMinScalar (k • a) (k • b) = k • @min ℝ Scalar.instMinScalar a b := by
  rw [Scalar.min_real, Scalar.min_real]
  exact (min_mul_of_nonneg _ _ k.pos.le).symm

@[simp] theorem min_smul_zero :
    @min ℝ Scalar.instMinScalar (k • a) 0 = k • @min ℝ Scalar.instMinScalar a 0 := by
  rw [← min_smul, smul_zero]

@[simp] theorem max_smul :
    @max ℝ Scalar.instMaxScalar (k • a) (k • b) = k • @max ℝ Scalar.instMaxScalar a b := by
  rw [Scalar.max_real, Scalar.max_real]
  exact (max_mul_of_nonneg _ _ k.pos.le).symm

@[simp] theorem max_smul_zero :
    @max ℝ Scalar.instMaxScalar (k • a) 0 = k • @max ℝ Scalar.instMaxScalar a 0 := by
  rw [← max_smul, smul_zero]

@[simp] theorem pin_smul : pin (k • a) (k • b) (k • c) = k • pin a b c := by
  simp only [pin, smul_lt_smul, max_smul]
  split_ifs <;> rfl

@[simp high] theorem divOrZero_smul_smul : divOrZero (k • a) (k • b) = divOrZero a b := by
  rw [divOrZero_real, divOrZero_real, smul_div_smul]

@[simp] theorem divOrZero_smul : divOrZero (k • a) b = k • divOrZero a b := by
  rw [divOrZero_real, divOrZero_real, smul_div]

@[simp] theorem abs_smul : Scalar.abs (k • a) = k • Scalar.abs a := by
  rw [Scalar.abs_real, Scalar.abs_real, smul_def, abs_mul, abs_of_pos k.pos]
  rfl

/-- The side of a square whose area is multiplied twice. -/
@[simp] theorem sqrt_smul_smul : Scalar.sqrt (k • k • a) = k • Scalar.sqrt a := by
  change √(a * k.val * k.val) = √a * k.val
  rw [mul_assoc, Real.sqrt_mul' _ (mul_self_nonneg _), Real.sqrt_mul_self k.pos.le]

@[simp] theorem hypot_smul : Scalar.hypot (k • a) (k • b) = k • Scalar.hypot a b := by
  change √((a * k.val) ^ 2 + (b * k.val) ^ 2) = √(a ^ 2 + b ^ 2) * k.val
  rw [mul_pow, mul_pow, ← add_mul, Real.sqrt_mul' _ (sq_nonneg _), Real.sqrt_sq k.pos.le]

@[simp] theorem atan2_smul : Scalar.atan2 (k • a) (k • b) = Scalar.atan2 a b := by
  change Complex.arg ⟨b * k.val, a * k.val⟩ = Complex.arg ⟨b, a⟩
  rw [← Complex.arg_real_mul ⟨b, a⟩ k.pos]
  congr 1
  apply Complex.ext <;> simp [mul_comm]

end Numbers

section Points

variable (a b : ℝ) (p q d : Point ℝ)

@[simp] theorem smul_mk : k • (⟨a, b⟩ : Point ℝ) = ⟨k • a, k • b⟩ := rfl
@[simp] theorem smul_x : (k • p).x = k • p.x := rfl
@[simp] theorem smul_y : (k • p).y = k • p.y := rfl

@[simp] theorem add_point : k • p + k • q = k • (p + q) := by ext <;> simp
@[simp] theorem sub_point : k • p - k • q = k • (p - q) := by ext <;> simp
@[simp] theorem smul_point_mul : k • p * b = k • (p * b) := by ext <;> simp
@[simp] theorem point_mul_smul : p * (k • b) = k • (p * b) := by ext <;> simp
@[simp] theorem smul_point_div : k • p / b = k • (p / b) := by
  ext
  · exact k.smul_div p.x b
  · exact k.smul_div p.y b

@[simp] theorem smul_stretch : (k • p).stretch q = k • p.stretch q := by ext <;> simp

@[simp] theorem dot_smul : p.dot (k • q) = k • p.dot q := by simp [Point.dot]

@[simp] theorem smul_dot : (k • p).dot q = k • p.dot q := by simp [Point.dot]

@[simp] theorem norm_smul : (k • p).norm = k • p.norm := by simp [Point.norm, Point.normSq]

@[simp] theorem heading_mk : (⟨k • a, k • b⟩ : Point ℝ).heading = (⟨a, b⟩ : Point ℝ).heading := by
  simp [Point.heading]

@[simp] theorem heading_smul : (k • p).heading = p.heading := k.heading_mk p.x p.y

@[simp] theorem angle_smul : (k • p).angle = p.angle := by simp [Point.angle]

@[simp] theorem direction_smul : (k • p).direction = p.direction := by
  have hpos : 0 < 1 / (k • p.norm) ↔ 0 < 1 / p.norm := by
    rw [one_div_pos, one_div_pos, smul_pos]
  simp only [Point.direction, norm_smul, Scalar.isFinite_real, Scalar.one_real, Scalar.zero_real,
    Bool.true_and, decide_eq_true_eq]
  by_cases h : 0 < 1 / p.norm
  · rw [if_pos (hpos.2 h), if_pos h, smul_point_mul, ← point_mul_smul, ← smul_div, smul_div_smul]
  · rw [if_neg (hpos.not.2 h), if_neg h]

@[simp] theorem direction_mk :
    (⟨k • a, k • b⟩ : Point ℝ).direction = (⟨a, b⟩ : Point ℝ).direction :=
  k.direction_smul ⟨a, b⟩

/-- The crossings of a line with a circle move with the line and the circle. -/
@[simp] theorem circleCrossings_smul :
    (k • p).circleCrossings d (k • a) =
      (p.circleCrossings d a).map fun c => (k • c.1, k • c.2) := by
  simp only [Point.circleCrossings, Point.normSq, smul_dot, dot_smul, smul_mul, mul_smul, sub_smul,
    neg_smul, smul_neg_iff, sqrt_smul_smul, add_smul, smul_div, Scalar.zero_real]
  split_ifs <;> rfl

@[simp] theorem ellipseRadius_smul : ellipseRadius (k • p) a = k • ellipseRadius p a := by
  simp [ellipseRadius]

@[simp] theorem visualToParametric_smul :
    visualToParametric (k • p) a = visualToParametric p a := by
  simp [visualToParametric]

@[simp] theorem parametricToVisual_smul :
    parametricToVisual (k • p) a = parametricToVisual p a := by
  simp [parametricToVisual]

@[simp] theorem ellipsePoint_smul : ellipsePoint (k • p) (k • q) a = k • ellipsePoint p q a := by
  simp [ellipsePoint]

@[simp] theorem polar_smul : polar (k • p) (k • q) a = k • polar p q a := by simp [polar]

end Points

section Lists

variable (x : β) (l m : List β)

@[simp] theorem smul_nil : k • ([] : List β) = [] := rfl
@[simp] theorem smul_cons : k • (x :: l) = k • x :: k • l := rfl
@[simp] theorem smul_append : k • (l ++ m) = k • l ++ k • m := List.map_append
@[simp] theorem smul_reverse : k • l.reverse = (k • l).reverse := List.map_reverse
@[simp] theorem smul_some : k • some x = some (k • x) := rfl
@[simp] theorem smul_none : k • (none : Option β) = none := rfl

@[simp] theorem smul_flatMap {γ : Type} (l : List γ) (f : γ → List β) :
    k • l.flatMap f = l.flatMap fun x => k • f x :=
  List.map_flatMap

@[simp] theorem smul_map {γ : Type} (l : List γ) (f : γ → β) :
    k • l.map f = l.map fun x => k • f x :=
  List.map_map

end Lists

section Sketches

variable (a b c d : ℝ) (p q r : Point ℝ) (ps : List (Point ℝ))

@[simp] theorem smul_move : k • Stroke.move p = .move (k • p) := rfl
@[simp] theorem smul_line : k • Stroke.line p = .line (k • p) := rfl
@[simp] theorem smul_cubic : k • Stroke.cubic p q r = .cubic (k • p) (k • q) (k • r) := rfl
@[simp] theorem smul_quad : k • Stroke.quad p q = .quad (k • p) (k • q) := rfl
@[simp] theorem smul_arc : k • Stroke.arc p a b = .arc (k • p) a b := rfl
@[simp] theorem smul_close : k • (Stroke.close : Stroke ℝ) = .close := rfl

@[simp] theorem smul_lines : k • Sketch.lines ps = Sketch.lines (k • ps) := by
  simp only [Sketch.lines, smul_map, smul_line]
  exact (List.map_map ..).symm

@[simp] theorem smul_polygon : k • Sketch.polygon ps = Sketch.polygon (k • ps) := by
  cases ps with
  | nil => rfl
  | cons p ps => simp [Sketch.polygon]

@[simp] theorem smul_rect :
    k • Sketch.rect a b c d = Sketch.rect (k • a) (k • b) (k • c) (k • d) := by
  simp [Sketch.rect]

@[simp] theorem smul_ellipse :
    k • Sketch.ellipse a b c d = Sketch.ellipse (k • a) (k • b) (k • c) (k • d) := by
  simp [Sketch.ellipse]

variable (t : Reflection ℝ) (s : Sketch ℝ)

theorem flip_smul (extent : Option ℝ) :
    Reflection.flip (k • extent) (k • a) = k • Reflection.flip extent a := by
  cases extent with
  | none => rfl
  | some e => exact k.sub_smul e a

theorem point_smul : (k • t).point (k • p) = k • t.point p := by
  obtain ⟨swap, flipX, flipY⟩ := t
  cases swap <;> exact Point.ext (k.flip_smul _ flipX) (k.flip_smul _ flipY)

theorem stroke_smul (s : Stroke ℝ) : (k • t).stroke (k • s) = k • t.stroke s := by
  cases s with
  | move p => simp [Reflection.stroke, point_smul]
  | line p => simp [Reflection.stroke, point_smul]
  | cubic p q r => simp [Reflection.stroke, point_smul]
  | quad p q => simp [Reflection.stroke, point_smul]
  | arc p start sweep =>
    obtain ⟨swap, flipX, flipY⟩ := t
    cases swap <;> cases flipX <;> cases flipY <;> rfl
  | close => rfl

@[simp] theorem smul_reflect : k • s.reflect t = (k • s).reflect (k • t) := by
  change (s.map _).map _ = (s.map _).map _
  rw [List.map_map, List.map_map]
  exact List.map_congr_left fun a _ => (k.stroke_smul t a).symm

@[simp] theorem smul_identity : k • (.identity : Reflection ℝ) = .identity := rfl
@[simp] theorem smul_transpose : k • (.transpose : Reflection ℝ) = .transpose := rfl
@[simp] theorem smul_leftRight : k • Reflection.leftRight a = .leftRight (k • a) := rfl
@[simp] theorem smul_upsideDown : k • Reflection.upsideDown a = .upsideDown (k • a) := rfl

@[simp] theorem smul_fill (m : FillMode) : k • Layer.fill s m = .fill (k • s) m := rfl
@[simp] theorem smul_shade (m : FillMode) : k • Layer.shade s m = .shade (k • s) m := rfl
@[simp] theorem smul_stroke : k • Layer.stroke s = .stroke (k • s) := rfl
@[simp] theorem smul_solid : k • Layer.solid s = .solid (k • s) := rfl

end Sketches

section Frames

variable (f : Frame ℝ) (name : String) (a b c : ℝ)

@[simp] theorem ss_smul : (k • f).ss = k • f.ss := k.min_smul ..
@[simp] theorem hc_smul : (k • f).hc = k • f.hc := k.smul_div ..
@[simp] theorem vc_smul : (k • f).vc = k • f.vc := k.smul_div ..
@[simp] theorem center_smul : (k • f).center = k • f.center := by simp [Frame.center]
@[simp] theorem half_smul : (k • f).half = k • f.half := by simp [Frame.half]

@[simp] theorem widthPart_smul : (k • f).widthPart a = k • f.widthPart a := by
  simp [Frame.widthPart]

@[simp] theorem heightPart_smul : (k • f).heightPart a = k • f.heightPart a := by
  simp [Frame.heightPart]

@[simp] theorem shortPart_smul : (k • f).shortPart a = k • f.shortPart a := by
  simp [Frame.shortPart]

@[simp] theorem adjustment_smul : (k • f).adjustment name a = f.adjustment name a := rfl
@[simp] theorem pinned_smul : (k • f).pinned name a b c = f.pinned name a b c := rfl
@[simp] theorem turn_smul : (k • f).turn name a = f.turn name a := rfl

@[simp] theorem maxWidthRatio_smul : (k • f).maxWidthRatio = f.maxWidthRatio := by
  simp [Frame.maxWidthRatio]

@[simp] theorem maxHeightRatio_smul : (k • f).maxHeightRatio = f.maxHeightRatio := by
  simp [Frame.maxHeightRatio]

end Frames

end Factor

end
end ShapeOutline
