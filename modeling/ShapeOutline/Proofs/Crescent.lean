import Mathlib
import ShapeOutline.Preset.Sketch
import ShapeOutline.Proofs.BaseLine
import ShapeOutline.Proofs.FrameParts

/-! The crescent of a moon. Its inner arc runs on an ellipse of the shape of the outer
one, larger by a ratio that follows from the part of the width that the crescent
leaves free; the ellipse passes through both corners and the point that is asked for. -/

namespace ShapeOutline
noncomputable section

open Shape

theorem onRay_heading (center : Point ℝ) {v : Point ℝ} (hv : v.y ≠ 0) :
    OnRay center (bearing v.heading) (center + v) := by
  set z : ℂ := ⟨v.x, v.y⟩ with hz
  have hz0 : z ≠ 0 := fun h => hv (congrArg Complex.im h)
  have hangle : radians v.heading = z.arg := radians_degrees z.arg
  refine ⟨‖z‖, norm_pos_iff.2 hz0, ?_⟩
  have hre : ‖z‖ * Real.cos z.arg = v.x := Complex.norm_mul_cos_arg z
  have him : ‖z‖ * Real.sin z.arg = v.y := Complex.norm_mul_sin_arg z
  ext
  · rw [Point.add_x, Point.add_x, Point.mul_x, bearing, hangle, mul_comm, hre]
  · rw [Point.add_y, Point.add_y, Point.mul_y, bearing, hangle, mul_comm, him]

/-- A vector to a point of an ellipse is the spoke at its angle. -/
theorem spoke_heading {radii v : Point ℝ} (hr : radii.Positive) (hv : v.y ≠ 0)
    (h : OnEllipse ⟨0, 0⟩ radii v) : spoke radii v.heading = v := by
  have hzero (p : Point ℝ) : (⟨0, 0⟩ : Point ℝ) + p = p := by
    ext <;> simp
  have hray := onRay_heading ⟨0, 0⟩ hv
  rw [hzero] at hray
  have hpoint := ellipsePoint_of_onRay hr h hray
  rwa [ellipsePoint_eq, hzero] at hpoint

/-- Downwards and not to the right. -/
theorem heading_mem {x y : ℝ} (hx : x ≤ 0) (hy : 0 < y) :
    90 ≤ (⟨x, y⟩ : Point ℝ).heading ∧ (⟨x, y⟩ : Point ℝ).heading < 180 := by
  set z : ℂ := ⟨x, y⟩ with hz
  have hheading : (⟨x, y⟩ : Point ℝ).heading = degrees z.arg := rfl
  rw [hheading, le_degrees_iff, ← degrees_radians 180, degrees_lt_degrees, radians_quarter,
    radians_half]
  constructor
  · rw [← not_lt, Complex.arg_lt_pi_div_two_iff]
    rintro (h | h | h)
    · exact absurd h (not_lt.2 hx)
    · exact absurd h (not_lt.2 hy.le)
    · exact hy.ne' (congrArg Complex.im h)
  · exact Complex.arg_lt_pi_iff.2 (.inr hy.ne')

theorem heading_flip {x y : ℝ} (hy : 0 < y) :
    (⟨x, -y⟩ : Point ℝ).heading = -(⟨x, y⟩ : Point ℝ).heading := by
  set z : ℂ := ⟨x, y⟩ with hz
  have harg : z.arg ≠ Real.pi := (Complex.arg_lt_pi_iff.2 (.inr hy.ne')).ne
  change degrees (Complex.arg (starRingEnd ℂ z)) = -degrees z.arg
  rw [Complex.arg_conj, if_neg harg, degrees_real, degrees_real, neg_mul]

namespace Shape.Crescent

/-- The part of the width that the crescent leaves free. -/
def gap (f : Frame ℝ) : ℝ := 1 - f.pinned "adj" 50000 0 87500 / 100000

/-- How much larger the ellipse of the inner arc is than the one of the outer arc. -/
def ratio (f : Frame ℝ) : ℝ := (1 + gap f ^ 2) / (2 * gap f)

theorem gap_mem (f : Frame ℝ) : 0 < gap f ∧ gap f ≤ 1 := by
  obtain ⟨h, h'⟩ := f.pinned_mem "adj" 50000 (show (0 : ℝ) ≤ 87500 by norm_num)
  rw [gap]
  constructor <;> linarith

theorem ofFrame_eq {f : Frame ℝ} (hw : 0 < f.w) (hh : 0 < f.h) :
    let dx := f.w * (gap f - ratio f)
    let start := (⟨dx, -(f.h / 2)⟩ : Point ℝ).heading
    ofFrame f = ⟨⟨f.w * ratio f, f.h / 2 * ratio f⟩, start,
      (⟨dx, f.h / 2⟩ : Point ℝ).heading - 360 - start⟩ := by
  intro dx start
  have hss : f.ss ≠ 0 := by
    rw [Frame.ss, Scalar.min_real]
    exact (lt_min hw hh).ne'
  obtain ⟨hgap, -⟩ := gap_mem f
  set a := f.pinned "adj" 50000 0 87500 with ha
  have hpart : f.shortPart a = f.ss * (1 - gap f) := by
    rw [Frame.shortPart_real, gap]
    ring
  have hinner : divOrZero (f.shortPart a * f.w) f.ss = f.w * (1 - gap f) := by
    rw [divOrZero_real, hpart]
    field_simp
  have hacross : 2 * divOrZero (f.ss * f.ss) (f.ss - f.shortPart a) -
      divOrZero (f.shortPart a * f.shortPart a) (f.ss - f.shortPart a) =
        2 * f.ss * (1 - gap f + ratio f) := by
    have hrest : f.ss - f.shortPart a = f.ss * gap f := by
      rw [hpart]
      ring
    rw [divOrZero_real, divOrZero_real, hrest, hpart, ratio]
    field_simp
    ring
  have hrx : (divOrZero ((2 * f.ss * (1 - gap f + ratio f) - f.shortPart a) * f.w) f.ss -
      f.w * (1 - gap f)) / 2 = f.w * ratio f := by
    rw [divOrZero_real, hpart]
    field_simp
    ring
  have hry : divOrZero ((2 * f.ss * (1 - gap f + ratio f) / 2 - f.shortPart a) * (f.h / 2)) f.ss =
      f.h / 2 * ratio f := by
    rw [divOrZero_real, hpart]
    field_simp
    ring
  have hdx : f.w - f.w * (1 - gap f) - f.w * ratio f = dx := by ring
  simp only [ofFrame, Scalar.zero_real, ← ha, hinner, hacross, hrx, hry, hdx]
  rfl

variable {f : Frame ℝ} (hw : 0 < f.w) (hh : 0 < f.h)

theorem ratio_pos (f : Frame ℝ) : 0 < ratio f := by
  obtain ⟨hgap, -⟩ := gap_mem f
  rw [ratio]
  positivity

theorem gap_le_ratio (f : Frame ℝ) : gap f ≤ ratio f := by
  obtain ⟨hgap, hgap'⟩ := gap_mem f
  have hsq : gap f ^ 2 ≤ 1 := pow_le_one₀ hgap.le hgap'
  rw [ratio, le_div_iff₀ (by positivity)]
  linarith

include hw hh

theorem radii_positive : (ofFrame f).radii.Positive := by
  have hratio := ratio_pos f
  rw [ofFrame_eq hw hh]
  exact ⟨by positivity, by positivity⟩

/-- The corners are where the fitted ellipse is cut by the right side of the frame. -/
theorem onEllipse_corner {y : ℝ} (hy : y ^ 2 = (f.h / 2) ^ 2) :
    OnEllipse ⟨0, 0⟩ (ofFrame f).radii ⟨f.w * (gap f - ratio f), y⟩ := by
  obtain ⟨hgap, -⟩ := gap_mem f
  have hratio := ratio_pos f
  -- the ratio is the one for which the corners lie on the ellipse
  have hfit : (gap f - ratio f) ^ 2 + 1 = ratio f ^ 2 := by
    rw [ratio]
    field_simp
    ring
  rw [ofFrame_eq hw hh, OnEllipse, sub_zero, sub_zero, mul_div_mul_left _ _ hw.ne', div_pow,
    div_pow, hy, mul_pow]
  field_simp
  linarith

theorem spoke_start : spoke (ofFrame f).radii (ofFrame f).start =
    ⟨f.w * (gap f - ratio f), -(f.h / 2)⟩ := by
  have hstart : (ofFrame f).start = (⟨f.w * (gap f - ratio f), -(f.h / 2)⟩ : Point ℝ).heading := by
    rw [ofFrame_eq hw hh]
  rw [hstart]
  exact spoke_heading (radii_positive hw hh) (neg_ne_zero.2 (half_pos hh).ne')
    (onEllipse_corner hw hh (neg_sq _))

theorem spoke_stop : spoke (ofFrame f).radii ((ofFrame f).start + (ofFrame f).sweep) =
    ⟨f.w * (gap f - ratio f), f.h / 2⟩ := by
  have hr := radii_positive hw hh
  have hstop : (ofFrame f).start + (ofFrame f).sweep + 360 =
      (⟨f.w * (gap f - ratio f), f.h / 2⟩ : Point ℝ).heading := by
    rw [ofFrame_eq hw hh]
    ring
  rw [← spoke_add_full hr, hstop]
  exact spoke_heading hr (half_pos hh).ne' (onEllipse_corner hw hh rfl)

/-- The arc turns backwards around the leftmost point, at a half turn. -/
theorem sweep_mem : -180 ≤ (ofFrame f).sweep ∧ (ofFrame f).sweep < 0 ∧
    -180 ≤ (ofFrame f).start ∧ (ofFrame f).start + (ofFrame f).sweep ≤ -180 := by
  have hdx : f.w * (gap f - ratio f) ≤ 0 :=
    mul_nonpos_of_nonneg_of_nonpos hw.le (sub_nonpos.2 (gap_le_ratio f))
  obtain ⟨hlo, hhi⟩ := heading_mem hdx (half_pos hh)
  rw [ofFrame_eq hw hh, heading_flip (half_pos hh)]
  refine ⟨?_, ?_, ?_, ?_⟩ <;> simp only <;> linarith

theorem arcSegment_meets :
    arcCenter ⟨f.w, 0⟩ (ofFrame f).radii (ofFrame f).start =
        ⟨f.w * (1 - gap f + ratio f), f.vc⟩ ∧
      arcEnd ⟨f.w, 0⟩ (ofFrame f).radii (ofFrame f).start (ofFrame f).sweep = ⟨f.w, f.h⟩ := by
  have hcenter : arcCenter ⟨f.w, 0⟩ (ofFrame f).radii (ofFrame f).start =
      ⟨f.w * (1 - gap f + ratio f), f.vc⟩ := by
    rw [arcCenter, spoke_start hw hh]
    ext
    · rw [Point.sub_x]
      ring
    · rw [Point.sub_y, zero_sub, neg_neg]
      rfl
  refine ⟨hcenter, ?_⟩
  rw [arcEnd, hcenter, ellipsePoint_eq, spoke_stop hw hh]
  ext
  · rw [Point.add_x]
    ring
  · rw [Point.add_y]
    exact add_halves f.h

theorem widthPart_eq : f.widthPart (f.pinned "adj" 50000 0 87500) =
    f.w * (1 - gap f + ratio f) - (ofFrame f).radii.x := by
  rw [ofFrame_eq hw hh, Frame.widthPart, gap]
  ring

theorem leftmost_mem : (⟨f.widthPart (f.pinned "adj" 50000 0 87500), f.vc⟩ : Point ℝ) ∈
    arcCurve ⟨f.w * (1 - gap f + ratio f), f.vc⟩ (ofFrame f).radii (ofFrame f).start
      (ofFrame f).sweep := by
  have hr := radii_positive hw hh
  obtain ⟨-, -, hlo, hhi⟩ := sweep_mem hw hh
  refine ⟨-180, ?_, ?_⟩
  · rw [Set.uIcc_of_ge (by linarith)]
    exact ⟨hhi, hlo⟩
  · rw [ellipsePoint_eq, ← spoke_add_full hr, show (-180 : ℝ) + 360 = 180 by norm_num,
      spoke_half hr, widthPart_eq hw hh]
    ext
    · exact (sub_eq_add_neg _ _).symm
    · exact add_zero f.vc

end Shape.Crescent

/-- A point of an ellipse is to the right of its leftmost one. -/
theorem leftmost_or_lt {center radii q : Point ℝ} (hr : radii.Positive)
    (h : OnEllipse center radii q) :
    q = ⟨center.x - radii.x, center.y⟩ ∨ center.x - radii.x < q.x := by
  rcases lt_or_ge (center.x - radii.x) q.x with hlt | hge
  · exact .inr hlt
  · left
    rw [OnEllipse] at h
    -- no square is more than one, so the one along the width is all there is
    have hwidth : ((q.x - center.x) / radii.x) ^ 2 ≤ 1 := by
      linarith [sq_nonneg ((q.y - center.y) / radii.y)]
    have hx : (q.x - center.x) / radii.x = -1 :=
      le_antisymm ((div_le_iff₀ hr.1).2 (by linarith))
        (abs_le.1 ((sq_le_one_iff_abs_le_one _).1 hwidth)).1
    have hy : ((q.y - center.y) / radii.y) ^ 2 = 0 := by
      rw [hx] at h
      linarith
    rw [div_eq_iff hr.1.ne'] at hx
    rw [sq_eq_zero_iff, div_eq_zero_iff, or_iff_left hr.2.ne'] at hy
    ext
    · exact (sub_eq_iff_eq_add.1 hx).trans (by ring)
    · exact sub_eq_zero.1 hy

/-- An arc of at most a half turn is one command. -/
theorem Path.arcTo_short (p : Path ℝ) {radii : Point ℝ} {start sweep : ℝ} (hr : radii.Positive)
    (hs : sweep ≠ 0) (hle : |sweep| ≤ 180) :
    p.arcTo radii start sweep =
      p.push (.arc radii 0 false (decide (0 < sweep)) (arcEnd p.pen radii start sweep)) := by
  have hsweep : drawnSweep sweep = sweep := drawnSweep_of_abs_le (by linarith)
  have hwhole : ¬(needsHalves sweep p.pen (arcEnd p.pen radii start sweep) = true) := by
    rw [needsHalves_iff, not_or, not_and]
    exact ⟨by linarith, fun h => absurd h (not_lt.2 hle)⟩
  have hcuts : cuts sweep p.pen (arcEnd p.pen radii start sweep) = [sweep] := if_neg hwhole
  rw [Path.arcTo_eq p start (isDegenerate_eq_false.2 ⟨hr, hs⟩), hsweep, hcuts]
  simp only [arcChain, arcCommand, not_lt.2 hle, decide_false]
  rfl

section Moon

variable {f : Frame ℝ} (hw : 0 < f.w) (hh : 0 < f.h)
include hw hh

/-- The outer arc is half of the ellipse about the middle of the right side. -/
theorem arcEnd_upper : arcEnd ⟨f.w, f.h⟩ ⟨f.w, f.h / 2⟩ 90 180 = ⟨f.w, 0⟩ := by
  have hr : Point.Positive ⟨f.w, f.h / 2⟩ := ⟨hw, half_pos hh⟩
  rw [arcEnd, ellipsePoint_eq, arcCenter, spoke_ninety hr, show (90 : ℝ) + 180 = 270 by norm_num,
    spoke_threeQuarters hr]
  ext
  · simp
  · rw [Point.add_y, Point.sub_y]
    ring

theorem moon_upper : Sketch.path ((moon f).take 2) =
    (Path.empty.push (.move ⟨f.w, f.h⟩)).push (.arc ⟨f.w, f.h / 2⟩ 0 false true ⟨f.w, 0⟩) := by
  change (Path.empty.push (.move ⟨f.w, f.h⟩)).arcTo ⟨f.w, f.h / 2⟩ 90 180 = _
  rw [Path.arcTo_short _ ⟨hw, half_pos hh⟩ (by norm_num) (by norm_num)]
  have hpen : (Path.empty.push (.move ⟨f.w, f.h⟩)).pen = ⟨f.w, f.h⟩ := rfl
  rw [hpen, arcEnd_upper hw hh]
  simp

theorem moon_commands : (Sketch.path (moon f)).commands =
    [.move ⟨f.w, f.h⟩, .arc ⟨f.w, f.h / 2⟩ 0 false true ⟨f.w, 0⟩,
      .arc (Crescent.ofFrame f).radii 0 false false ⟨f.w, f.h⟩, .close] := by
  obtain ⟨hlo, hneg, -, -⟩ := Crescent.sweep_mem hw hh
  obtain ⟨-, hend⟩ := Crescent.arcSegment_meets hw hh
  have hpath : Sketch.path (moon f) =
      ((Sketch.path ((moon f).take 2)).arcTo (Crescent.ofFrame f).radii (Crescent.ofFrame f).start
        (Crescent.ofFrame f).sweep).push .close := rfl
  have hle : |(Crescent.ofFrame f).sweep| ≤ 180 := abs_le.2 ⟨hlo, by linarith⟩
  rw [hpath, Path.arcTo_short _ (Crescent.radii_positive hw hh) hneg.ne hle, moon_upper hw hh]
  have hpen (p : Path ℝ) (radii q : Point ℝ) : (p.push (.arc radii 0 false true q)).pen = q := rfl
  rw [hpen, hend, decide_eq_false hneg.not_gt]
  rfl

/-- In every frame and for every adjustment the inner arc of a moon starts at the upper right
corner, turns backwards about a centre on the middle line by at most a half turn, ends where the
outline began, and reaches furthest to the left at the point the adjustment asks for. -/
theorem moon_meets_corners :
    let moon := Preset.moon.sketch f
    let inner := Crescent.ofFrame f
    let pen := (Sketch.path (moon.take 2)).pen
    let arc := arcSegment pen inner.radii inner.start inner.sweep
    let curve := arcCurve arc.center inner.radii inner.start inner.sweep
    let leftmost : Point ℝ := ⟨f.widthPart (f.pinned "adj" 50000 0 87500), f.vc⟩
    moon = [.move ⟨f.w, f.h⟩, .arc ⟨f.w, f.h / 2⟩ 90 180,
        .arc inner.radii inner.start inner.sweep, .close] ∧
      pen = ⟨f.w, 0⟩ ∧ arc.center.y = f.vc ∧ arc.target = ⟨f.w, f.h⟩ ∧
      (-180 ≤ inner.sweep ∧ inner.sweep < 0) ∧
      (leftmost ∈ curve ∧ ∀ q ∈ curve, q = leftmost ∨ leftmost.x < q.x) ∧
      (Sketch.path moon).commands =
        [.move ⟨f.w, f.h⟩, .arc ⟨f.w, f.h / 2⟩ 0 false true ⟨f.w, 0⟩,
          .arc inner.radii 0 false false ⟨f.w, f.h⟩, .close] := by
  intro moon inner pen arc curve leftmost
  have hpen : pen = ⟨f.w, 0⟩ := by
    simp only [pen, moon]
    exact congrArg Path.pen (moon_upper hw hh)
  have harc : arc = arcSegment ⟨f.w, 0⟩ inner.radii inner.start inner.sweep := by rw [← hpen]
  obtain ⟨hcenter, htarget⟩ := Crescent.arcSegment_meets hw hh
  have hcenter' : arc.center = ⟨f.w * (1 - Crescent.gap f + Crescent.ratio f), f.vc⟩ := by
    rw [harc, arcSegment_eq]
    exact hcenter
  have htarget' : arc.target = ⟨f.w, f.h⟩ := by
    rw [harc, arcSegment_eq]
    exact htarget
  obtain ⟨hlo, hneg, -, -⟩ := Crescent.sweep_mem hw hh
  refine ⟨rfl, hpen, by rw [hcenter'], htarget', ⟨hlo, hneg⟩, ⟨?_, fun q hq => ?_⟩,
    moon_commands hw hh⟩
  · simp only [curve, hcenter']
    exact Crescent.leftmost_mem hw hh
  · simp only [curve, hcenter'] at hq
    have hr := Crescent.radii_positive hw hh
    have h := leftmost_or_lt hr (onEllipse_of_mem_arcCurve hr hq)
    rwa [← Crescent.widthPart_eq hw hh] at h

end Moon

/-- A wide frame, with the adjustment left out. -/
theorem moon_meets_corners_wide :
    let f : Frame ℝ := ⟨200, 100, .empty⟩
    (0 < f.w ∧ 0 < f.h) ∧
    (let moon := Preset.moon.sketch f
    let inner := Crescent.ofFrame f
    let pen := (Sketch.path (moon.take 2)).pen
    let arc := arcSegment pen inner.radii inner.start inner.sweep
    let curve := arcCurve arc.center inner.radii inner.start inner.sweep
    let leftmost : Point ℝ := ⟨f.widthPart (f.pinned "adj" 50000 0 87500), f.vc⟩
    moon = [.move ⟨f.w, f.h⟩, .arc ⟨f.w, f.h / 2⟩ 90 180,
        .arc inner.radii inner.start inner.sweep, .close] ∧
      pen = ⟨f.w, 0⟩ ∧ arc.center.y = f.vc ∧ arc.target = ⟨f.w, f.h⟩ ∧
      (-180 ≤ inner.sweep ∧ inner.sweep < 0) ∧
      (leftmost ∈ curve ∧ ∀ q ∈ curve, q = leftmost ∨ leftmost.x < q.x) ∧
      (Sketch.path moon).commands =
        [.move ⟨f.w, f.h⟩, .arc ⟨f.w, f.h / 2⟩ 0 false true ⟨f.w, 0⟩,
          .arc inner.radii 0 false false ⟨f.w, f.h⟩, .close]) := by
  intro f
  have hw : 0 < f.w := by norm_num [f]
  have hh : 0 < f.h := by norm_num [f]
  exact ⟨⟨hw, hh⟩, moon_meets_corners hw hh⟩

end
end ShapeOutline
