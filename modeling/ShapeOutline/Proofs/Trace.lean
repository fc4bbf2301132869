import ShapeOutline.Proofs.ArcFlags
import ShapeOutline.Proofs.Enclosure
import ShapeOutline.Proofs.Trail

/-! The trace of a sketch: the points of the plane that its strokes run through. A
sub-path that is left open is closed by a straight line, as it is where it is
filled. -/

namespace ShapeOutline
noncomputable section

def Point.place (p : Point ℝ) : Plane := (p.x, p.y)

@[simp] theorem Point.place_mk (x y : ℝ) : (⟨x, y⟩ : Point ℝ).place = (x, y) := rfl

/-- The points of a quadratic curve and of a cubic one. -/
def quadPoint (p a q : Plane) (t : ℝ) : Plane :=
  (1 - t) ^ 2 • p + (2 * (1 - t) * t) • a + t ^ 2 • q

def cubicPoint (p a b q : Plane) (t : ℝ) : Plane :=
  (1 - t) ^ 3 • p + (3 * (1 - t) ^ 2 * t) • a + (3 * (1 - t) * t ^ 2) • b + t ^ 3 • q

namespace Trail

/-- The points that a stroke runs through. -/
def drawn (t : Trail) : Stroke ℝ → Set Plane
  | .move _ => segment ℝ t.pen.place t.start.place
  | .line p => segment ℝ t.pen.place p.place
  | .cubic a b p => cubicPoint t.pen.place a.place b.place p.place '' Set.Icc 0 1
  | .quad a p => quadPoint t.pen.place a.place p.place '' Set.Icc 0 1
  | .arc radii start sweep => Point.place '' t.curve (.stroke (.arc radii start sweep))
  | .close => segment ℝ t.pen.place t.start.place

def trace (t : Trail) : Sketch ℝ → Set Plane
  | [] => segment ℝ t.pen.place t.start.place
  | s :: rest => t.drawn s ∪ (t.after (.stroke s)).trace rest

end Trail

/-- Without a place to start from nothing is drawn. -/
def Sketch.trace : Sketch ℝ → Set Plane
  | .move p :: rest => Trail.trace ⟨p, p⟩ rest
  | _ => ∅

section Strokes

variable (p a b pen start : Point ℝ) (t : Trail) (s : Sketch ℝ)

@[simp] theorem Sketch.trace_move : Sketch.trace (.move p :: s) = Trail.trace ⟨p, p⟩ s := rfl

namespace Trail

@[simp] theorem trace_nil : t.trace [] = segment ℝ t.pen.place t.start.place := rfl

@[simp] theorem trace_move :
    t.trace (.move p :: s) = segment ℝ t.pen.place t.start.place ∪ Trail.trace ⟨p, p⟩ s :=
  rfl

@[simp] theorem trace_line :
    t.trace (.line p :: s) = segment ℝ t.pen.place p.place ∪ Trail.trace ⟨p, t.start⟩ s :=
  rfl

@[simp] theorem trace_quad :
    t.trace (.quad a p :: s) =
      quadPoint t.pen.place a.place p.place '' Set.Icc 0 1 ∪ Trail.trace ⟨p, t.start⟩ s :=
  rfl

@[simp] theorem trace_close :
    t.trace (.close :: s) =
      segment ℝ t.pen.place t.start.place ∪ Trail.trace ⟨t.start, t.start⟩ s :=
  rfl

variable {radii : Point ℝ} {sweep : ℝ} (from' : ℝ)

theorem trace_arc (hr : radii.Positive) (hs : sweep ≠ 0) :
    t.trace (.arc radii from' sweep :: s) =
      Point.place '' arcCurve (arcCenter t.pen radii from') radii from' (drawnSweep sweep) ∪
        Trail.trace ⟨arcEnd t.pen radii from' (drawnSweep sweep), t.start⟩ s := by
  simp only [trace, drawn, curve, after, isDegenerate_eq_false.2 ⟨hr, hs⟩, Bool.false_eq_true,
    if_false]

/-- An arc without an extent is left out. -/
theorem trace_arc_of_not_positive (hr : ¬radii.Positive) :
    t.trace (.arc radii from' sweep :: s) = t.trace s := by
  have h : isDegenerate radii sweep = true := by
    by_contra h
    exact hr (isDegenerate_eq_false.1 (Bool.eq_false_iff.2 h)).1
  simp only [trace, drawn, curve, after, h, if_true, Set.image_empty, Set.empty_union]

end Trail

end Strokes

theorem dot_real (a b : Point ℝ) : a.dot b = a.x * b.x + a.y * b.y := rfl

/-- Some angle is that of a vector, the least turn away from a given one. -/
theorem exists_bearing (deg : ℝ) {v : Point ℝ} (hv : 0 < v.x ^ 2 + v.y ^ 2) :
    ∃ turn m : ℝ, 0 < m ∧ v = bearing (deg + turn) * m ∧ turn ≤ 180 ∧
      (0 ≤ cross (bearing deg) v → 0 ≤ turn) ∧
      (0 ≤ cross (bearing deg) v → 0 ≤ (bearing deg).dot v → turn ≤ 90) := by
  -- the vector, turned back by the given angle
  set z : ℂ := ⟨(bearing deg).dot v, cross (bearing deg) v⟩
  have hunit := bearing_norm deg
  have hsq : ‖z‖ ^ 2 = v.x ^ 2 + v.y ^ 2 := by
    rw [← Complex.normSq_eq_norm_sq, Complex.normSq_mk, dot_real, cross]
    linear_combination (v.x ^ 2 + v.y ^ 2) * hunit
  have hnorm : 0 < ‖z‖ := by
    rw [← hsq] at hv
    exact lt_of_le_of_ne (norm_nonneg z) (sq_pos_iff.1 hv).symm
  have hpi := Real.pi_pos
  have hrad : radians (z.arg * 180 / Real.pi) = z.arg := by
    rw [radians_real]
    field_simp
  have hre : ‖z‖ * Real.cos z.arg = (bearing deg).dot v := Complex.norm_mul_cos_arg z
  have him : ‖z‖ * Real.sin z.arg = cross (bearing deg) v := Complex.norm_mul_sin_arg z
  refine ⟨z.arg * 180 / Real.pi, ‖z‖, hnorm, ?_, ?_, ?_, ?_⟩
  · rw [dot_real] at hre
    rw [cross] at him
    ext
    · simp only [Point.mul_x, bearing, radians_add, hrad, Real.cos_add]
      simp only [bearing] at hre him hunit
      linear_combination -v.x * hunit - Real.cos (radians deg) * hre + Real.sin (radians deg) * him
    · simp only [Point.mul_y, bearing, radians_add, hrad, Real.sin_add]
      simp only [bearing] at hre him hunit
      linear_combination -v.y * hunit - Real.sin (radians deg) * hre - Real.cos (radians deg) * him
  · rw [div_le_iff₀ hpi]
    linarith [Complex.arg_le_pi z]
  · intro h
    have harg : 0 ≤ z.arg := Complex.arg_nonneg_iff.2 h
    positivity
  · intro h h'
    have harg : |z.arg| ≤ Real.pi / 2 := Complex.abs_arg_le_pi_div_two_iff.2 h'
    rw [div_le_iff₀ hpi]
    linarith [le_abs_self z.arg]

section Arcs

variable {center radii q : Point ℝ}

theorem onEllipse_sq : OnEllipse center radii q →
    0 < (q - center).x ^ 2 + (q - center).y ^ 2 := by
  intro h
  by_contra hle
  have hx : (q - center).x = 0 := by nlinarith [sq_nonneg (q - center).x, sq_nonneg (q - center).y]
  have hy : (q - center).y = 0 := by nlinarith [sq_nonneg (q - center).x, sq_nonneg (q - center).y]
  rw [OnEllipse] at h
  rw [Point.sub_x] at hx
  rw [Point.sub_y] at hy
  simp [hx, hy] at h

variable (hr : radii.Positive)

include hr

/-- A ray from the centre leaves the ellipse at one point. -/
theorem ellipsePoint_of_onRay {deg : ℝ} (h : OnEllipse center radii q)
    (hray : OnRay center (bearing deg) q) : ellipsePoint center radii deg = q := by
  obtain ⟨m, hm, rfl⟩ := hray
  have hn := spokeLength_pos hr deg
  have h' := onEllipse_spoke hr center (visualToParametric radii deg)
  change OnEllipse center radii (center + spoke radii deg) at h'
  rw [spoke_eq hr] at h'
  simp only [OnEllipse, Point.add_x, Point.add_y, Point.mul_x, Point.mul_y, add_sub_cancel_left]
    at h h'
  set k := ((bearing deg).x / radii.x) ^ 2 + ((bearing deg).y / radii.y) ^ 2
  have hk : k * m ^ 2 = 1 := by rw [← h]; simp only [k]; ring
  have hk' : k * spokeLength radii deg ^ 2 = 1 := by rw [← h']; simp only [k]; ring
  have hk0 : k ≠ 0 := by rintro h0; simp [h0] at hk
  have hsq : spokeLength radii deg ^ 2 = m ^ 2 := mul_left_cancel₀ hk0 (hk'.trans hk.symm)
  have heq : spokeLength radii deg = m := by
    rwa [sq_eq_sq₀ hn.le hm.le] at hsq
  rw [ellipsePoint_eq, spoke_eq hr, heq]

theorem onEllipse_of_mem_arcCurve {deg sweep : ℝ} (h : q ∈ arcCurve center radii deg sweep) :
    OnEllipse center radii q := by
  obtain ⟨d, -, rfl⟩ := h
  exact onEllipse_spoke hr center _

theorem cross_ellipsePoint (deg d : ℝ) :
    cross (bearing deg) (ellipsePoint center radii d - center) =
      spokeLength radii d * Real.sin (radians (d - deg)) := by
  have hspoke : ellipsePoint center radii d - center = bearing d * spokeLength radii d := by
    rw [← spoke_eq hr, ellipsePoint_eq]
    ext <;> simp
  rw [hspoke, radians_sub, Real.sin_sub]
  simp only [cross, bearing, Point.mul_x, Point.mul_y]
  ring

theorem dot_ellipsePoint (deg d : ℝ) :
    (bearing deg).dot (ellipsePoint center radii d - center) =
      spokeLength radii d * Real.cos (radians (d - deg)) := by
  have hspoke : ellipsePoint center radii d - center = bearing d * spokeLength radii d := by
    rw [← spoke_eq hr, ellipsePoint_eq]
    ext <;> simp
  rw [hspoke, radians_sub, Real.cos_sub]
  simp only [dot_real, bearing, Point.mul_x, Point.mul_y]
  ring

/-- A half turn of an ellipse is its part on one side of a diameter. -/
theorem mem_arcCurve_half (deg : ℝ) :
    q ∈ arcCurve center radii deg 180 ↔
      OnEllipse center radii q ∧ 0 ≤ cross (bearing deg) (q - center) := by
  constructor
  · rintro ⟨d, hd, rfl⟩
    rw [Set.uIcc_of_le (by linarith)] at hd
    refine ⟨onEllipse_spoke hr center _, ?_⟩
    rw [cross_ellipsePoint hr]
    refine mul_nonneg (spokeLength_pos hr d).le (Real.sin_nonneg_of_nonneg_of_le_pi ?_ ?_)
    · rw [radians_real]
      have hpi := Real.pi_pos
      have hd' : 0 ≤ d - deg := by linarith [hd.1]
      positivity
    · rw [radians_real]
      nlinarith [Real.pi_pos, hd.2]
  · rintro ⟨h, hcross⟩
    obtain ⟨turn, m, hm, hv, hturn, hnonneg, -⟩ := exists_bearing deg (onEllipse_sq h)
    refine ⟨deg + turn, ?_, ellipsePoint_of_onRay hr h ⟨m, hm, ?_⟩⟩
    · rw [Set.uIcc_of_le (by linarith)]
      constructor <;> linarith [hnonneg hcross]
    · rw [← hv]
      ext <;> simp

/-- A quarter turn is the part in a quadrant. -/
theorem mem_arcCurve_quarter (deg : ℝ) :
    q ∈ arcCurve center radii deg 90 ↔
      OnEllipse center radii q ∧ 0 ≤ cross (bearing deg) (q - center) ∧
        0 ≤ (bearing deg).dot (q - center) := by
  constructor
  · rintro ⟨d, hd, rfl⟩
    rw [Set.uIcc_of_le (by linarith)] at hd
    have hpi := Real.pi_pos
    have hd' : 0 ≤ d - deg := by linarith [hd.1]
    have hle : radians (d - deg) ≤ Real.pi / 2 := by
      rw [radians_real]
      nlinarith [hd.2]
    have hge : 0 ≤ radians (d - deg) := by
      rw [radians_real]
      positivity
    have hlength := (spokeLength_pos hr d).le
    refine ⟨onEllipse_spoke hr center _, ?_, ?_⟩
    · rw [cross_ellipsePoint hr]
      exact mul_nonneg hlength (Real.sin_nonneg_of_nonneg_of_le_pi hge (by linarith))
    · rw [dot_ellipsePoint hr]
      exact mul_nonneg hlength (Real.cos_nonneg_of_mem_Icc ⟨by linarith, hle⟩)
  · rintro ⟨h, hcross, hdot⟩
    obtain ⟨turn, m, hm, hv, -, hnonneg, hright⟩ := exists_bearing deg (onEllipse_sq h)
    refine ⟨deg + turn, ?_, ellipsePoint_of_onRay hr h ⟨m, hm, ?_⟩⟩
    · rw [Set.uIcc_of_le (by linarith)]
      constructor <;> linarith [hnonneg hcross, hright hcross hdot]
    · rw [← hv]
      ext <;> simp

omit hr in
theorem arcCurve_neg (deg sweep : ℝ) :
    arcCurve center radii deg (-sweep) = arcCurve center radii (deg - sweep) sweep := by
  rw [arcCurve, arcCurve, sub_add_cancel, ← sub_eq_add_neg, Set.uIcc_comm]

end Arcs

theorem bearing_add_full (deg : ℝ) : bearing (deg + 360) = bearing deg := by
  have hturns : deg + 360 = deg + 180 + 180 := by ring
  rw [hturns, bearing_add_half, bearing_add_half]
  ext <;> simp

theorem bearing_zero : bearing 0 = ⟨1, 0⟩ := by
  ext <;> simp [bearing, radians_real]

theorem bearing_ninety : bearing 90 = ⟨0, 1⟩ := by
  ext <;> simp [bearing, radians_quarter]

theorem bearing_half : bearing 180 = ⟨-1, 0⟩ := by
  ext <;> simp [bearing, radians_half]

theorem bearing_threeQuarters : bearing 270 = ⟨0, -1⟩ := by
  have h := bearing_add_half 90
  rw [bearing_ninety] at h
  norm_num at h
  rw [h]
  ext <;> simp

theorem spread_congr (radii : Point ℝ) {a b : ℝ} (h : bearing a = bearing b) :
    spread radii a = spread radii b := by
  rw [spread, spread, h]

section Spokes

variable {radii : Point ℝ} (hr : radii.Positive)

include hr

theorem spoke_add_full (deg : ℝ) : spoke radii (deg + 360) = spoke radii deg := by
  rw [spoke_eq hr, spoke_eq hr, spokeLength, spread_congr radii (bearing_add_full deg),
    bearing_add_full, spokeLength]

/-- At a right angle a spoke is a radius. -/
theorem spoke_quarters (m : ℤ) :
    spoke radii (90 * m) =
      ⟨radii.x * (bearing (90 * m)).x, radii.y * (bearing (90 * m)).y⟩ := by
  rw [spoke_phase hr, phase_quarters]
  rfl

theorem spoke_zero : spoke radii 0 = ⟨radii.x, 0⟩ := by
  simpa [bearing_zero] using spoke_quarters hr 0

theorem spoke_ninety : spoke radii 90 = ⟨0, radii.y⟩ := by
  simpa [bearing_ninety] using spoke_quarters hr 1

theorem spoke_half : spoke radii 180 = ⟨-radii.x, 0⟩ := by
  have h := spoke_quarters hr 2
  norm_num [bearing_half] at h
  exact h

theorem spoke_threeQuarters : spoke radii 270 = ⟨0, -radii.y⟩ := by
  have h := spoke_quarters hr 3
  norm_num [bearing_threeQuarters] at h
  exact h

theorem spoke_450 : spoke radii 450 = ⟨0, radii.y⟩ := by
  have h := spoke_add_full hr 90
  norm_num [spoke_ninety hr] at h
  exact h

theorem spoke_540 : spoke radii 540 = ⟨-radii.x, 0⟩ := by
  have h := spoke_add_full hr 180
  norm_num [spoke_half hr] at h
  exact h

end Spokes

theorem drawnSweep_of_abs_le {sweep : ℝ} (h : |sweep| ≤ 360) : drawnSweep sweep = sweep := by
  rw [drawnSweep_eq, if_neg (not_lt.2 (abs_le.1 h).1), if_neg (not_lt.2 (abs_le.1 h).2)]

/-- An arc from the pen about a centre, and the rest from where it stops. -/
theorem Trail.trace_arc_about (center next : Point ℝ) {t : Trail} {radii : Point ℝ} {deg sweep : ℝ}
    (hr : radii.Positive) (hs : sweep ≠ 0) (hle : |sweep| ≤ 360)
    (hpen : t.pen = center + spoke radii deg) (hnext : center + spoke radii (deg + sweep) = next)
    (s : Sketch ℝ) :
    t.trace (.arc radii deg sweep :: s) =
      Point.place '' arcCurve center radii deg sweep ∪ Trail.trace ⟨next, t.start⟩ s := by
  have hcenter : arcCenter t.pen radii deg = center := by
    rw [hpen, ← ellipsePoint_eq, arcCenter_ellipsePoint]
  rw [Trail.trace_arc _ _ _ hr hs, drawnSweep_of_abs_le hle, arcEnd, hcenter, ellipsePoint_eq,
    hnext]

/-- Less than zero within an ellipse, zero on it and more beyond. -/
def offEllipse (center radii : Point ℝ) (p : Plane) : ℝ :=
  (radii.y * (p.1 - center.x)) ^ 2 + (radii.x * (p.2 - center.y)) ^ 2 - (radii.x * radii.y) ^ 2

section Sides

variable {center radii : Point ℝ} {p : Plane} (hr : radii.Positive)

include hr

theorem onEllipse_iff : OnEllipse center radii ⟨p.1, p.2⟩ ↔ offEllipse center radii p = 0 := by
  have hx := hr.1.ne'
  have hy := hr.2.ne'
  rw [OnEllipse, offEllipse]
  field_simp
  constructor <;> intro h <;> linarith

theorem mem_arc_half (deg : ℝ) :
    p ∈ Point.place '' arcCurve center radii deg 180 ↔
      offEllipse center radii p = 0 ∧
        0 ≤ (bearing deg).x * (p.2 - center.y) - (bearing deg).y * (p.1 - center.x) := by
  rw [← onEllipse_iff hr]
  constructor
  · rintro ⟨q, hq, rfl⟩
    exact (mem_arcCurve_half hr deg).1 hq
  · exact fun h => ⟨⟨p.1, p.2⟩, (mem_arcCurve_half hr deg).2 h, rfl⟩

theorem mem_arc_quarter (deg : ℝ) :
    p ∈ Point.place '' arcCurve center radii deg 90 ↔
      offEllipse center radii p = 0 ∧
        0 ≤ (bearing deg).x * (p.2 - center.y) - (bearing deg).y * (p.1 - center.x) ∧
        0 ≤ (bearing deg).x * (p.1 - center.x) + (bearing deg).y * (p.2 - center.y) := by
  rw [← onEllipse_iff hr]
  constructor
  · rintro ⟨q, hq, rfl⟩
    exact (mem_arcCurve_quarter hr deg).1 hq
  · exact fun h => ⟨⟨p.1, p.2⟩, (mem_arcCurve_quarter hr deg).2 h, rfl⟩

theorem offEllipse_of_mem_arc {deg sweep : ℝ}
    (h : p ∈ Point.place '' arcCurve center radii deg sweep) : offEllipse center radii p = 0 := by
  obtain ⟨q, hq, rfl⟩ := h
  exact (onEllipse_iff hr).1 (onEllipse_of_mem_arcCurve hr hq)

end Sides

end
end ShapeOutline
