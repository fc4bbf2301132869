import Mathlib
import ShapeOutline.Layer
import ShapeOutline.Frame
import ShapeOutline.Proofs.ExtendedReal

/-! Data of real numbers as data of extended numbers. Where an operation is
defined, it gives the extension of what it gives on the reals. The equations take
the extension out of every operation on numbers and points, and into the parts of
a sketch, so a drawing of extended data is the extension of a drawing. -/

namespace ShapeOutline
noncomputable section

/-- Data of real numbers that has a counterpart of extended numbers. -/
class Extend (β : Type) (γ : outParam Type) where
  extend : β → γ

export Extend (extend)

namespace Extended

variable {β γ : Type} [Extend β γ]

instance : Extend ℝ Extended := ⟨real⟩
instance : Extend (List β) (List γ) := ⟨List.map extend⟩
instance : Extend (Option β) (Option γ) := ⟨Option.map extend⟩
@[simps] instance point : Extend (Point ℝ) (Point Extended) := ⟨fun p => ⟨extend p.x, extend p.y⟩⟩

section Numbers

variable (a b c : ℝ)

@[simp] theorem zero_extended :
    @OfNat.ofNat Extended 0 (instOfNatScalar 0) = extend (0 : ℝ) := congrArg real Nat.cast_zero

@[simp] theorem one_extended :
    @OfNat.ofNat Extended 1 (instOfNatScalar 1) = extend (1 : ℝ) := congrArg real Nat.cast_one

@[simp] theorem ofNat_extended (n : ℕ) [n.AtLeastTwo] :
    @OfNat.ofNat Extended n (instOfNatScalar n) = extend (OfNat.ofNat n : ℝ) := rfl

@[simp] theorem scalar_ofNat (n : ℕ) :
    (Scalar.ofNat n : Extended) = extend (Scalar.ofNat n : ℝ) := rfl

@[simp] theorem ofScientific_extended (m : ℕ) (s : Bool) (e : ℕ) :
    @OfScientific.ofScientific Extended instOfScientificScalar m s e =
      extend (@OfScientific.ofScientific ℝ instOfScientificScalar m s e) := rfl

@[simp] theorem pi_extended : (Scalar.pi : Extended) = extend (Scalar.pi : ℝ) := rfl

@[simp] theorem extend_add : extend a + extend b = extend (a + b) := rfl

@[simp] theorem extend_sub : extend a - extend b = extend (a - b) := rfl

@[simp] theorem extend_mul : extend a * extend b = extend (a * b) := rfl

@[simp] theorem extend_neg : -extend a = extend (-a) := rfl

@[simp] theorem extend_div (h : b ≠ 0) : extend a / extend b = extend (a / b) := by
  change (if b = 0 then undefined else real (a / b)) = _
  rw [if_neg h]
  rfl

@[simp] theorem extend_lt : extend a < extend b ↔ a < b := Iff.rfl

@[simp] theorem extend_le : extend a ≤ extend b ↔ a ≤ b := Iff.rfl

@[simp] theorem extend_beq : (extend a == extend b) = @BEq.beq ℝ instBEqScalar a b := rfl

@[simp] theorem isFinite_extend : Scalar.isFinite (extend a) = true := rfl

@[simp] theorem isNaN_extend : Scalar.isNaN (extend a) = false := by
  simp [Scalar.isNaN]

@[simp] theorem ite_extend (p : Prop) [Decidable p] (x y : β) :
    (if p then extend x else extend y) = extend (if p then x else y) := (apply_ite extend ..).symm

@[simp] theorem min_extend :
    min (extend a) (extend b) = extend (@min ℝ Scalar.instMinScalar a b) := by
  change (if Scalar.isNaN (extend a) then _ else if extend b < extend a then _ else _) =
    extend (if Scalar.isNaN a then _ else if b < a then _ else _)
  simp [Scalar.isNaN_real]

@[simp] theorem max_extend :
    max (extend a) (extend b) = extend (@max ℝ Scalar.instMaxScalar a b) := by
  change (if Scalar.isNaN (extend a) then _ else if extend a < extend b then _ else _) =
    extend (if Scalar.isNaN a then _ else if a < b then _ else _)
  simp [Scalar.isNaN_real]

@[simp] theorem abs_extend : Scalar.abs (extend a) = extend (Scalar.abs a) := by
  simp [Scalar.abs]

@[simp] theorem clamp_extend :
    Scalar.clamp (extend a) (extend b) (extend c) = extend (Scalar.clamp a b c) := by
  simp [Scalar.clamp]

@[simp] theorem pin_extend : pin (extend a) (extend b) (extend c) = extend (pin a b c) := by
  simp [pin]

/-- A quotient by zero is caught before it is formed. -/
@[simp] theorem divOrZero_extend :
    divOrZero (extend a) (extend b) = extend (divOrZero a b) := by
  by_cases h : b = 0 <;> simp [divOrZero, Scalar.beq_real, h]

@[simp] theorem radians_extend : radians (extend a) = extend (radians a) := by
  simp [radians]

@[simp] theorem degrees_extend : degrees (extend a) = extend (degrees a) := by
  have hpi : (Scalar.pi : ℝ) ≠ 0 := Real.pi_ne_zero
  simp [degrees, hpi]

@[simp] theorem sin_extend : Scalar.sin (extend a) = extend (Scalar.sin a) := rfl

@[simp] theorem cos_extend : Scalar.cos (extend a) = extend (Scalar.cos a) := rfl

@[simp] theorem atan2_extend : Scalar.atan2 (extend a) (extend b) = extend (Scalar.atan2 a b) := rfl

@[simp] theorem hypot_extend : Scalar.hypot (extend a) (extend b) = extend (Scalar.hypot a b) := rfl

@[simp] theorem round_extend : Scalar.round (extend a) = extend (Scalar.round a) := rfl

theorem tan_extend (h : Real.cos a ≠ 0) : Scalar.tan (extend a) = extend (Scalar.tan a) := if_pos h

theorem asin_extend (h : -1 ≤ a) (h' : a ≤ 1) : Scalar.asin (extend a) = extend (Scalar.asin a) :=
  if_pos ⟨h, h'⟩

@[simp] theorem sqrt_extend (h : 0 ≤ a) : Scalar.sqrt (extend a) = extend (Scalar.sqrt a) :=
  if_pos h

@[simp] theorem emod_extend (h : b ≠ 0) :
    Scalar.emod (extend a) (extend b) = extend (Scalar.emod a b) := if_neg h

@[simp] theorem numeral_extend : numeral (extend a) = numeral a := by
  simp [numeral, Scalar.beq_real]
  rfl

end Numbers

section Points

variable (a b : ℝ) (p q : Point ℝ)

@[simp] theorem mk_extend : (⟨extend a, extend b⟩ : Point Extended) = extend (⟨a, b⟩ : Point ℝ) :=
  rfl

@[simp] theorem zero_point : (.zero : Point Extended) = extend (.zero : Point ℝ) := by
  simp [Point.zero]

@[simp] theorem add_point : extend p + extend q = extend (p + q) := rfl
@[simp] theorem sub_point : extend p - extend q = extend (p - q) := rfl
@[simp] theorem neg_point : -extend p = extend (-p) := rfl
@[simp] theorem point_mul : extend p * extend a = extend (p * a) := rfl
@[simp] theorem point_div (h : a ≠ 0) : extend p / extend a = extend (p / a) :=
  congrArg₂ Point.mk (extend_div p.x a h) (extend_div p.y a h)

@[simp] theorem stretch_extend : (extend p).stretch (extend q) = extend (p.stretch q) := rfl

@[simp] theorem dot_extend : (extend p).dot (extend q) = extend (p.dot q) := rfl

@[simp] theorem norm_extend : (extend p).norm = extend p.norm := by
  have h : 0 ≤ p.normSq := add_nonneg (mul_self_nonneg p.x) (mul_self_nonneg p.y)
  exact sqrt_extend p.normSq h

@[simp] theorem heading_extend : (extend p).heading = extend p.heading := by simp [Point.heading]

@[simp] theorem angle_extend : (extend p).angle = extend p.angle := by simp [Point.angle]

/-- Only the zero vector has no direction, and its reciprocal length is not looked at. -/
@[simp] theorem direction_extend : (extend p).direction = extend p.direction := by
  by_cases h : p.norm = 0
  · have hk : extend (1 : ℝ) / extend (0 : ℝ) = undefined := if_pos rfl
    have hfinite : Scalar.isFinite undefined = false := rfl
    simp [Point.direction, h, hk, hfinite]
  · simp [Point.direction, h]

/-- A discriminant is taken the root of only if it is not negative. -/
@[simp] theorem circleCrossings_extend :
    (extend p).circleCrossings (extend q) (extend a) =
      (p.circleCrossings q a).map fun c => (extend c.1, extend c.2) := by
  simp only [Point.circleCrossings, Point.normSq, dot_extend, ofNat_extended, zero_extended,
    extend_beq, extend_mul, extend_sub, extend_lt, Scalar.zero_real, Scalar.beq_real,
    decide_eq_true_eq]
  by_cases ha : q.dot q = 0
  · simp only [ha, if_true]
    rfl
  · simp only [ha, if_false]
    split_ifs with hd
    · rfl
    · have hden : 2 * q.dot q ≠ 0 := mul_ne_zero two_ne_zero ha
      simp [sqrt_extend _ (not_lt.1 hd), hden]

@[simp] theorem ellipseRadius_extend :
    ellipseRadius (extend p) (extend a) = extend (ellipseRadius p a) := by
  simp [ellipseRadius]

@[simp] theorem visualToParametric_extend :
    visualToParametric (extend p) (extend a) = extend (visualToParametric p a) := by
  simp [visualToParametric]

@[simp] theorem parametricToVisual_extend :
    parametricToVisual (extend p) (extend a) = extend (parametricToVisual p a) := by
  simp [parametricToVisual]

@[simp] theorem ellipsePoint_extend :
    ellipsePoint (extend p) (extend q) (extend a) = extend (ellipsePoint p q a) := by
  simp [ellipsePoint]

@[simp] theorem polar_extend : polar (extend p) (extend q) (extend a) = extend (polar p q a) := by
  simp [polar]

@[simp] theorem sweepBetween_extend :
    sweepBetween (extend a) (extend b) = extend (sweepBetween a b) := by
  simp [sweepBetween]

@[simp] theorem isFinite_point : (extend p).isFinite = true := rfl

@[simp] theorem sameText_extend : (extend p).sameText (extend q) = p.sameText q := by
  simp [Point.sameText]

end Points

section Lists

variable (x : β) (l m : List β)

@[simp] theorem extend_nil : extend ([] : List β) = [] := rfl
@[simp] theorem extend_cons : extend (x :: l) = extend x :: extend l := rfl
@[simp] theorem extend_append : extend (l ++ m) = extend l ++ extend m := List.map_append
@[simp] theorem extend_reverse : extend l.reverse = (extend l).reverse := List.map_reverse
@[simp] theorem extend_some : extend (some x) = some (extend x) := rfl
@[simp] theorem extend_none : extend (none : Option β) = none := rfl

@[simp] theorem extend_flatMap {δ : Type} (l : List δ) (f : δ → List β) :
    extend (l.flatMap f) = l.flatMap fun x => extend (f x) :=
  List.map_flatMap

@[simp] theorem extend_map {δ : Type} (l : List δ) (f : δ → β) :
    extend (l.map f) = l.map fun x => extend (f x) :=
  List.map_map

end Lists

instance command : Extend (Command ℝ) (Command Extended) where
  extend
    | .move p => .move (extend p)
    | .line p => .line (extend p)
    | .cubic a b p => .cubic (extend a) (extend b) (extend p)
    | .quad a p => .quad (extend a) (extend p)
    | .arc radii rotation large sweep p =>
      .arc (extend radii) (extend rotation) large sweep (extend p)
    | .close => .close

@[simps] instance path : Extend (Path ℝ) (Path Extended) where
  extend p := ⟨extend p.commands, extend p.pen, extend p.start⟩

instance stroke : Extend (Stroke ℝ) (Stroke Extended) where
  extend
    | .move p => .move (extend p)
    | .line p => .line (extend p)
    | .cubic a b p => .cubic (extend a) (extend b) (extend p)
    | .quad a p => .quad (extend a) (extend p)
    | .arc radii start sweep => .arc (extend radii) (extend start) (extend sweep)
    | .close => .close

section Paths

variable (p : Path ℝ)

theorem push_extend (c : Command ℝ) : (extend p).push (extend c) = extend (p.push c) := by
  have hcommands : extend p.commands ++ [extend c] = extend (p.commands ++ [c]) := by simp
  cases c <;> exact congrArg (Path.mk · _ _) hcommands

theorem arcSegment_extend (pen radii : Point ℝ) (start sweep : ℝ) :
    arcSegment (extend pen) (extend radii) (extend start) (extend sweep) =
      let s := arcSegment pen radii start sweep
      ⟨extend s.target, extend s.center, s.large, s.sweep⟩ := by
  simp [arcSegment]

theorem pushArc_extend (radii : Point ℝ) (start sweep : ℝ) :
    (extend p).pushArc (extend radii) (extend start) (extend sweep) =
      extend (p.pushArc radii start sweep) := by
  simp only [Path.pushArc, path_extend_pen, arcSegment_extend, zero_extended, Scalar.zero_real]
  exact push_extend p (.arc radii 0 _ _ _)

theorem isDegenerate_extend (radii : Point ℝ) (sweep : ℝ) :
    isDegenerate (extend radii) (extend sweep) = isDegenerate radii sweep := by
  simp [isDegenerate]

theorem needsHalves_extend (sweep : ℝ) (pen target : Point ℝ) :
    needsHalves (extend sweep) (extend pen) (extend target) = needsHalves sweep pen target := by
  simp [needsHalves]

theorem arcTo_extend (radii : Point ℝ) (start sweep : ℝ) :
    (extend p).arcTo (extend radii) (extend start) (extend sweep) =
      extend (p.arcTo radii start sweep) := by
  simp only [Path.arcTo, isDegenerate_extend, path_extend_pen, ofNat_extended, extend_neg,
    clamp_extend, arcSegment_extend, needsHalves_extend, extend_div _ _ (two_ne_zero (α := ℝ)),
    extend_add, pushArc_extend, ite_extend]

theorem stroke_extend (s : Stroke ℝ) : (extend p).stroke (extend s) = extend (p.stroke s) := by
  cases s with
  | move a => exact push_extend p (.move a)
  | line a => exact push_extend p (.line a)
  | cubic a b c => exact push_extend p (.cubic a b c)
  | quad a b => exact push_extend p (.quad a b)
  | arc radii start sweep => exact arcTo_extend p radii start sweep
  | close => exact push_extend p .close

theorem draw_extend (s : Sketch ℝ) : (extend p).draw (extend s) = extend (p.draw s) := by
  induction s generalizing p with
  | nil => rfl
  | cons a rest ih =>
    change ((extend p).stroke (extend a)).draw (extend rest) = extend ((p.stroke a).draw rest)
    rw [stroke_extend, ih]

theorem path_extend (s : Sketch ℝ) : Sketch.path (extend s) = extend s.path := by
  have hempty : (.empty : Path Extended) = extend (.empty : Path ℝ) := by simp [Path.empty]; rfl
  rw [Sketch.path, hempty, draw_extend]
  rfl

/-- Nothing undefined is written. -/
theorem isFinite_path : (extend p).isFinite = true := by
  refine List.all_eq_true.2 fun c hc => ?_
  obtain ⟨d, -, rfl⟩ := List.mem_map.1 hc
  cases d <;> rfl

end Paths

section Sketches

variable (a b c d : ℝ) (p q r : Point ℝ) (ps : List (Point ℝ)) (t : Reflection ℝ) (s : Sketch ℝ)

@[simp] theorem extend_move : extend (Stroke.move p) = .move (extend p) := rfl
@[simp] theorem extend_line : extend (Stroke.line p) = .line (extend p) := rfl
@[simp] theorem extend_cubic :
    extend (Stroke.cubic p q r) = .cubic (extend p) (extend q) (extend r) := rfl
@[simp] theorem extend_quad : extend (Stroke.quad p q) = .quad (extend p) (extend q) := rfl
@[simp] theorem extend_arc :
    extend (Stroke.arc p a b) = .arc (extend p) (extend a) (extend b) := rfl
@[simp] theorem extend_close : extend (Stroke.close : Stroke ℝ) = .close := rfl

@[simp] theorem extend_lines : extend (Sketch.lines ps) = Sketch.lines (extend ps) := by
  simp only [Sketch.lines, extend_map, extend_line]
  exact (List.map_map ..).symm

@[simp] theorem extend_polygon : extend (Sketch.polygon ps) = Sketch.polygon (extend ps) := by
  cases ps with
  | nil => rfl
  | cons p ps => simp [Sketch.polygon]

@[simp] theorem extend_rect :
    extend (Sketch.rect a b c d) = Sketch.rect (extend a) (extend b) (extend c) (extend d) := by
  simp [Sketch.rect]

@[simp] theorem extend_ellipse :
    extend (Sketch.ellipse a b c d) =
      Sketch.ellipse (extend a) (extend b) (extend c) (extend d) := by
  simp [Sketch.ellipse]

instance reflection : Extend (Reflection ℝ) (Reflection Extended) where
  extend t := ⟨t.swap, extend t.flipX, extend t.flipY⟩

theorem flip_extend (extent : Option ℝ) :
    Reflection.flip (extend extent) (extend a) = extend (Reflection.flip extent a) := by
  cases extent <;> rfl

theorem reflectedPoint_extend : (extend t).point (extend p) = extend (t.point p) := by
  obtain ⟨swap, flipX, flipY⟩ := t
  cases swap <;> exact congrArg₂ Point.mk (flip_extend _ flipX) (flip_extend _ flipY)

theorem angles_extend : (extend t).angles (extend a) (extend b) =
    (extend (t.angles a b).1, extend (t.angles a b).2) := by
  obtain ⟨swap, flipX, flipY⟩ := t
  cases swap <;> cases flipX <;> cases flipY <;> rfl

theorem reflectedStroke_extend (s : Stroke ℝ) :
    (extend t).stroke (extend s) = extend (t.stroke s) := by
  cases s with
  | move p => simp [Reflection.stroke, reflectedPoint_extend]
  | line p => simp [Reflection.stroke, reflectedPoint_extend]
  | cubic p q r => simp [Reflection.stroke, reflectedPoint_extend]
  | quad p q => simp [Reflection.stroke, reflectedPoint_extend]
  | arc p start sweep =>
    have hradii : (extend t).radii (extend p) = extend (t.radii p) := by
      obtain ⟨swap, flipX, flipY⟩ := t
      cases swap <;> rfl
    simp [Reflection.stroke, angles_extend, hradii]
  | close => rfl

@[simp] theorem extend_reflect : extend (s.reflect t) = Sketch.reflect (extend t) (extend s) := by
  change (s.map _).map _ = (s.map _).map _
  rw [List.map_map, List.map_map]
  exact List.map_congr_left fun a _ => (reflectedStroke_extend t a).symm

@[simp] theorem extend_identity : extend (.identity : Reflection ℝ) = .identity := rfl
@[simp] theorem extend_transpose : extend (.transpose : Reflection ℝ) = .transpose := rfl
@[simp] theorem extend_leftRight : extend (Reflection.leftRight a) = .leftRight (extend a) := rfl
@[simp] theorem extend_upsideDown : extend (Reflection.upsideDown a) = .upsideDown (extend a) := rfl

instance layer : Extend (Layer ℝ) (Layer Extended) where
  extend l := ⟨extend l.sketch, l.mode, l.stroked, l.silhouette⟩

variable (m : FillMode)

@[simp] theorem extend_fill : extend (Layer.fill s m) = .fill (extend s) m := rfl
@[simp] theorem extend_shade : extend (Layer.shade s m) = .shade (extend s) m := rfl
@[simp] theorem extend_stroke : extend (Layer.stroke s) = .stroke (extend s) := rfl
@[simp] theorem extend_solid : extend (Layer.solid s) = .solid (extend s) := rfl

end Sketches

instance adjustments : Extend (Adjustments ℝ) (Adjustments Extended) where
  extend a := ⟨a.entries.map fun e => (e.1, extend e.2)⟩

@[simps] instance frame : Extend (Frame ℝ) (Frame Extended) where
  extend f := ⟨extend f.w, extend f.h, extend f.adjustments⟩

section Frames

variable (f : Frame ℝ) (name : String) (a b c : ℝ)

theorem getD_extend (s : Adjustments ℝ) :
    (extend s).getD name (extend a) = extend (s.getD name a) := by
  have hlookup (es : List (String × ℝ)) :
      (es.map fun e => (e.1, extend e.2)).lookup name = extend (es.lookup name) := by
    induction es with
    | nil => rfl
    | cons e es ih =>
      obtain ⟨key, v⟩ := e
      simp only [List.map_cons, List.lookup_cons, ih]
      cases name == key <;> rfl
  change Option.getD (List.lookup name (s.entries.map _)) _ = _
  rw [hlookup]
  cases h : s.entries.lookup name <;> simp [Adjustments.getD, Adjustments.get?, h]

@[simp] theorem ss_extend : (extend f).ss = extend f.ss := by simp [Frame.ss]
@[simp] theorem hc_extend : (extend f).hc = extend f.hc := by simp [Frame.hc]
@[simp] theorem vc_extend : (extend f).vc = extend f.vc := by simp [Frame.vc]
@[simp] theorem center_extend : (extend f).center = extend f.center := by simp [Frame.center]
@[simp] theorem half_extend : (extend f).half = extend f.half := by simp [Frame.half]

@[simp] theorem widthPart_extend : (extend f).widthPart (extend a) = extend (f.widthPart a) := by
  simp [Frame.widthPart]

@[simp] theorem heightPart_extend :
    (extend f).heightPart (extend a) = extend (f.heightPart a) := by
  simp [Frame.heightPart]

@[simp] theorem shortPart_extend : (extend f).shortPart (extend a) = extend (f.shortPart a) := by
  simp [Frame.shortPart]

@[simp] theorem adjustment_extend :
    (extend f).adjustment name (extend a) = extend (f.adjustment name a) :=
  getD_extend name a f.adjustments

@[simp] theorem pinned_extend :
    (extend f).pinned name (extend a) (extend b) (extend c) = extend (f.pinned name a b c) := by
  simp [Frame.pinned]

@[simp] theorem angleOf_extend :
    (extend f).angleOf name (extend a) = extend (f.angleOf name a) := by
  simp [Frame.angleOf]

@[simp] theorem turn_extend : (extend f).turn name (extend a) = extend (f.turn name a) := by
  simp [Frame.turn]

/-- A ratio to the short side is formed only if there is one. -/
@[simp] theorem maxWidthRatio_extend : (extend f).maxWidthRatio = extend f.maxWidthRatio := by
  by_cases h : 0 < f.ss
  · simp [Frame.maxWidthRatio, h, h.ne']
  · simp [Frame.maxWidthRatio, h]

@[simp] theorem maxHeightRatio_extend : (extend f).maxHeightRatio = extend f.maxHeightRatio := by
  by_cases h : 0 < f.ss
  · simp [Frame.maxHeightRatio, h, h.ne']
  · simp [Frame.maxHeightRatio, h]

/-- A side that is not a length counts as zero. -/
theorem dimensionOrZero_eq (v : Extended) : ∃ side : ℝ, dimensionOrZero v = extend side := by
  cases v with
  | real x =>
    refine ⟨dimensionOrZero x, ?_⟩
    change dimensionOrZero (extend x) = _
    by_cases h : x < 0 <;>
      simp [dimensionOrZero, dimension, h, Scalar.isNaN_real]
  | undefined =>
    refine ⟨0, ?_⟩
    have hnan : Scalar.isNaN undefined = true := rfl
    simp [dimensionOrZero, dimension, hnan]

/-- Whatever the sides are, the frame is one of real numbers. -/
theorem ofSides_eq (w h : Extended) (s : Adjustments ℝ) :
    ∃ f : Frame ℝ, Frame.ofSides w h (extend s) = extend f := by
  obtain ⟨x, hx⟩ := dimensionOrZero_eq w
  obtain ⟨y, hy⟩ := dimensionOrZero_eq h
  refine ⟨⟨x, y, s⟩, ?_⟩
  rw [Frame.ofSides, hx, hy]
  rfl

end Frames

end Extended
end
end ShapeOutline
