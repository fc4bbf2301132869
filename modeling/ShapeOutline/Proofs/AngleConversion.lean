import ShapeOutline.Proofs.EllipseArcs

/-! The two angles of a point of an ellipse. Its parametric angle and the visual one are
found from each other up to whole turns, either way by a map of angles that goes around
with them: it stays in the quadrant, keeps the right angles and never turns back. -/

namespace ShapeOutline
noncomputable section

theorem modEq_iff_bearing {a b : ℝ} : a ≡ b [PMOD 360] ↔ bearing a = bearing b := by
  constructor
  · intro h
    obtain ⟨n, rfl⟩ := AddCommGroup.modEq_iff_eq_add_zsmul.1 h
    rw [zsmul_eq_mul, mul_comm, bearing_add_turns]
  · intro h
    have hangle : ((radians b : ℝ) : Real.Angle) = (radians a : ℝ) :=
      Real.Angle.cos_sin_inj (congrArg Point.x h).symm (congrArg Point.y h).symm
    obtain ⟨n, hn⟩ := Real.Angle.angle_eq_iff_two_pi_dvd_sub.1 hangle
    refine AddCommGroup.modEq_iff_eq_add_zsmul.2 ⟨n, ?_⟩
    have hdegrees := congrArg degrees hn
    rw [← radians_sub, degrees_radians, degrees_real] at hdegrees
    have hpi := Real.pi_ne_zero
    have hturns : 2 * Real.pi * n * (180 / Real.pi) = n * 360 := by
      field_simp
      ring
    rw [zsmul_eq_mul]
    linarith

theorem bearing_degrees (rad : ℝ) : bearing (degrees rad) = ⟨Real.cos rad, Real.sin rad⟩ := by
  rw [bearing, radians_degrees]

variable {radii : Point ℝ}

theorem ellipseRadius_eq_iff (hr : radii.Positive) {s t : ℝ} :
    ellipseRadius radii s = ellipseRadius radii t ↔ degrees s ≡ degrees t [PMOD 360] := by
  rw [modEq_iff_bearing, bearing_degrees, bearing_degrees, ellipseRadius_inj hr, Point.ext_iff]

/-- Points that are seen at different angles are different. -/
theorem spoke_eq_iff (hr : radii.Positive) {a b : ℝ} :
    spoke radii a = spoke radii b ↔ a ≡ b [PMOD 360] := by
  rw [modEq_iff_bearing]
  refine ⟨fun h => ?_, spoke_congr hr⟩
  have hpa := spokeLength_pos hr a
  have hpb := spokeLength_pos hr b
  rw [spoke_eq hr, spoke_eq hr] at h
  have hx : (bearing a).x * spokeLength radii a = (bearing b).x * spokeLength radii b :=
    congrArg Point.x h
  have hy : (bearing a).y * spokeLength radii a = (bearing b).y * spokeLength radii b :=
    congrArg Point.y h
  have hsq : spokeLength radii a ^ 2 = spokeLength radii b ^ 2 := by
    have hna := bearing_norm a
    have hnb := bearing_norm b
    calc spokeLength radii a ^ 2
        = ((bearing a).x * spokeLength radii a) ^ 2 + ((bearing a).y * spokeLength radii a) ^ 2 := by
          linear_combination -(spokeLength radii a ^ 2) * hna
      _ = spokeLength radii b ^ 2 := by
          rw [hx, hy]
          linear_combination spokeLength radii b ^ 2 * hnb
  rw [sq_eq_sq₀ hpa.le hpb.le] at hsq
  rw [hsq] at hx hy
  exact Point.ext (mul_right_cancel₀ hpb.ne' hx) (mul_right_cancel₀ hpb.ne' hy)

/-- The angles `g` are those of `f` up to whole turns, without the jumps. -/
structure Unwinds (g f : ℝ → ℝ) : Prop where
  continuous : Continuous g
  modEq : ∀ deg, g deg ≡ f deg [PMOD 360]

/-- Two unwindings of the same angles are some number of turns apart. -/
theorem Unwinds.eq_add {f g h : ℝ → ℝ} (hg : Unwinds g f) (hh : Unwinds h f) :
    ∃ n : ℤ, ∀ deg, g deg = h deg + 360 * n := by
  have hturns (deg : ℝ) : ∃ n : ℤ, g deg = h deg + 360 * n := by
    obtain ⟨n, hn⟩ := AddCommGroup.modEq_iff_eq_add_zsmul.1
      ((hh.modEq deg).trans (hg.modEq deg).symm)
    exact ⟨n, by rw [hn, zsmul_eq_mul, mul_comm]⟩
  choose n hn using hturns
  have hreal : (fun deg => (n deg : ℝ)) = fun deg => (g deg - h deg) / 360 := by
    funext deg
    rw [hn]
    ring
  -- a number of turns that varies without jumps does not vary
  have hcontinuous : Continuous n := by
    have hgc := hg.continuous
    have hhc := hh.continuous
    rw [Int.isClosedEmbedding_coe_real.isInducing.continuous_iff]
    change Continuous fun deg => (n deg : ℝ)
    rw [hreal]
    fun_prop
  refine ⟨n 0, fun deg => ?_⟩
  rw [hn, PreconnectedSpace.constant inferInstance hcontinuous (y := 0)]

/-- A map of angles that goes around as they do. -/
structure GoesAlong (f : ℝ → ℝ) : Prop where
  quadrant : ∀ deg, SignType.sign (bearing (f deg)).x = SignType.sign (bearing deg).x ∧
    SignType.sign (bearing (f deg)).y = SignType.sign (bearing deg).y
  rightAngle : ∀ m : ℤ, f (90 * m) ≡ 90 * m [PMOD 360]
  halfTurn : ∀ deg, f (deg + 180) ≡ f deg + 180 [PMOD 360]
  neg : ∀ deg, f (-deg) ≡ -f deg [PMOD 360]
  unwinds : ∃ g, Unwinds g f
  increasing : ∀ g, Unwinds g f → StrictMono g

theorem parametricToVisual_modEq (hr : radii.Positive) (deg : ℝ) :
    parametricToVisual radii deg ≡ sight radii deg [PMOD 360] := by
  obtain ⟨n, hn⟩ := exists_turns_parametricToVisual hr deg
  rw [modEq_iff_bearing, hn, bearing_add_turns]

theorem unwinds_sight (hr : radii.Positive) : Unwinds (sight radii) (parametricToVisual radii) :=
  ⟨continuous_sight hr, fun deg => (parametricToVisual_modEq hr deg).symm⟩

theorem sight_rightAngle (radii : Point ℝ) (m : ℤ) : sight radii (90 * m) = 90 * m := by
  rw [sight, phase_quarters, degrees_radians]

theorem sign_bearing_sight (hr : radii.Positive) (deg : ℝ) :
    SignType.sign (bearing (sight radii deg)).x = SignType.sign (bearing deg).x ∧
      SignType.sign (bearing (sight radii deg)).y = SignType.sign (bearing deg).y := by
  have hspread := spread_pos hr.transpose deg
  have hscale {k : ℝ} (hk : 0 < k) (x : ℝ) :
      SignType.sign (k * x / spread radii.transpose deg) = SignType.sign x := by
    rw [mul_div_right_comm, sign_mul, sign_pos (div_pos hk hspread), one_mul]
  rw [sight, bearing_degrees]
  constructor
  · rw [cos_phase hr.transpose]
    exact hscale hr.1 _
  · rw [sin_phase hr.transpose]
    exact hscale hr.2 _

theorem goesAlong_parametricToVisual (hr : radii.Positive) :
    GoesAlong (parametricToVisual radii) where
  quadrant deg := by
    rw [modEq_iff_bearing.1 (parametricToVisual_modEq hr deg)]
    exact sign_bearing_sight hr deg
  rightAngle m := by
    have hsight := parametricToVisual_modEq hr (90 * m)
    rwa [sight_rightAngle] at hsight
  halfTurn deg := by
    have hsight := parametricToVisual_modEq hr (deg + 180)
    rw [sight_add_half] at hsight
    exact hsight.trans (AddCommGroup.ModEq.add_right 180 (parametricToVisual_modEq hr deg).symm)
  neg deg := by
    have hsight := parametricToVisual_modEq hr (-deg)
    rw [sight_neg] at hsight
    exact hsight.trans (AddCommGroup.ModEq.neg (parametricToVisual_modEq hr deg).symm)
  unwinds := ⟨_, unwinds_sight hr⟩
  increasing g hg := by
    obtain ⟨n, hn⟩ := hg.eq_add (unwinds_sight hr)
    intro a b hab
    rw [hn, hn]
    exact add_lt_add_left (sight_strictMono hr hab) _

/-- The parametric angle is the visual one of the ellipse with its axes exchanged. -/
theorem goesAlong_visualToParametric (hr : radii.Positive) :
    GoesAlong fun deg => degrees (visualToParametric radii deg) :=
  goesAlong_parametricToVisual hr.transpose

/-- Visual and parametric angles are inverse to each other up to whole turns, and both conversions
go along with the angles that they convert. The point that is seen at an angle is where the ray of
that angle meets the ellipse, and the one that the corresponding parametric angles stand for. -/
theorem angles_convert (hr : radii.Positive) :
    (∀ deg, degrees (visualToParametric radii (parametricToVisual radii deg)) ≡ deg [PMOD 360]) ∧
    (∀ deg, parametricToVisual radii (degrees (visualToParametric radii deg)) ≡ deg [PMOD 360]) ∧
    (GoesAlong fun deg => degrees (visualToParametric radii deg)) ∧
    GoesAlong (parametricToVisual radii) ∧
    ∀ center deg,
      (∀ p, OnEllipse center radii p ∧ OnRay center (bearing deg) p ↔
        p = ellipsePoint center radii deg) ∧
      ∀ t, polar center radii t = ellipsePoint center radii deg ↔
        t ≡ degrees (visualToParametric radii deg) [PMOD 360] := by
  refine ⟨fun deg => ?_, fun deg => ?_, goesAlong_visualToParametric hr,
    goesAlong_parametricToVisual hr, fun center deg => ⟨fun p => ?_, fun t => ?_⟩⟩
  · rw [← degrees_radians deg, ← ellipseRadius_eq_iff hr, degrees_radians]
    exact spoke_parametricToVisual hr deg
  · rw [← spoke_eq_iff hr, spoke_parametricToVisual hr, radians_degrees]
    rfl
  · constructor
    · rintro ⟨hon, hray⟩
      exact (ellipsePoint_of_onRay hr hon hray).symm
    · rintro rfl
      exact ⟨onEllipse_spoke hr center _, onRay_spoke hr center deg⟩
  · rw [← degrees_radians t, ← ellipseRadius_eq_iff hr, degrees_radians]
    exact Point.add_eq_add_iff

/-- An ellipse three times as wide as high. -/
theorem angles_convert_wide :
    (⟨3, 1⟩ : Point ℝ).Positive ∧
    let radii : Point ℝ := ⟨3, 1⟩
    (∀ deg, degrees (visualToParametric radii (parametricToVisual radii deg)) ≡ deg [PMOD 360]) ∧
    (∀ deg, parametricToVisual radii (degrees (visualToParametric radii deg)) ≡ deg [PMOD 360]) ∧
    (GoesAlong fun deg => degrees (visualToParametric radii deg)) ∧
    GoesAlong (parametricToVisual radii) ∧
    ∀ center deg,
      (∀ p, OnEllipse center radii p ∧ OnRay center (bearing deg) p ↔
        p = ellipsePoint center radii deg) ∧
      ∀ t, polar center radii t = ellipsePoint center radii deg ↔
        t ≡ degrees (visualToParametric radii deg) [PMOD 360] := by
  have hr : (⟨3, 1⟩ : Point ℝ).Positive := ⟨by norm_num, by norm_num⟩
  exact ⟨hr, angles_convert hr⟩

end
end ShapeOutline
