import ShapeOutline.Proofs.RealScalar

/-! Visual angles on an ellipse. The point seen at an angle lies on the ray of
that angle, and a mirror, a half turn or an exchange of the axes moves it as it
moves the ray. -/

namespace ShapeOutline
noncomputable section

def Point.Positive (p : Point ℝ) : Prop := 0 < p.x ∧ 0 < p.y

theorem Point.Positive.transpose {p : Point ℝ} (h : p.Positive) : p.transpose.Positive :=
  ⟨h.2, h.1⟩

theorem Point.Positive.stretch {p k : Point ℝ} (h : p.Positive) (hk : k.Positive) :
    (p.stretch k).Positive :=
  ⟨mul_pos h.1 hk.1, mul_pos h.2 hk.2⟩

theorem isDegenerate_eq_false {radii : Point ℝ} {sweep : ℝ} :
    isDegenerate radii sweep = false ↔ radii.Positive ∧ sweep ≠ 0 := by
  simp [isDegenerate, Point.Positive, Scalar.beq_real, and_assoc]

/-- The unit vector at a visual angle. -/
def bearing (deg : ℝ) : Point ℝ := ⟨Real.cos (radians deg), Real.sin (radians deg)⟩

theorem bearing_norm (deg : ℝ) : (bearing deg).x ^ 2 + (bearing deg).y ^ 2 = 1 :=
  Real.cos_sq_add_sin_sq _

theorem bearing_complement (deg : ℝ) : bearing (90 - deg) = (bearing deg).transpose := by
  ext <;> simp [bearing, radians_sub, radians_quarter, Real.cos_pi_div_two_sub,
    Real.sin_pi_div_two_sub]

theorem bearing_supplement (deg : ℝ) :
    bearing (180 - deg) = ⟨-(bearing deg).x, (bearing deg).y⟩ := by
  ext <;> simp [bearing, radians_sub, radians_half, Real.cos_pi_sub, Real.sin_pi_sub]

theorem bearing_neg (deg : ℝ) : bearing (-deg) = ⟨(bearing deg).x, -(bearing deg).y⟩ := by
  ext <;> simp [bearing, radians_neg]

theorem bearing_add_half (deg : ℝ) : bearing (deg + 180) = -bearing deg := by
  ext <;> simp [bearing, radians_add, radians_half, Real.cos_add_pi, Real.sin_add_pi]

theorem bearing_add (a b : ℝ) :
    bearing (a + b) =
      ⟨(bearing a).x * (bearing b).x - (bearing a).y * (bearing b).y,
        (bearing a).y * (bearing b).x + (bearing a).x * (bearing b).y⟩ := by
  ext <;> simp only [bearing, radians_add, Real.cos_add, Real.sin_add]

theorem bearing_x_pos {deg : ℝ} (h : |deg| < 90) : 0 < (bearing deg).x := by
  obtain ⟨hlo, hhi⟩ := abs_lt.1 h
  have hlo' := radians_lt_radians.2 hlo
  have hhi' := radians_lt_radians.2 hhi
  rw [radians_neg, radians_quarter] at hlo'
  rw [radians_quarter] at hhi'
  exact Real.cos_pos_of_mem_Ioo ⟨hlo', hhi'⟩

theorem bearing_y_pos {deg : ℝ} (h0 : 0 < deg) (h : deg < 180) : 0 < (bearing deg).y := by
  have hlo := radians_lt_radians.2 h0
  have hhi := radians_lt_radians.2 h
  rw [radians_real 0, zero_mul] at hlo
  rw [radians_half] at hhi
  exact Real.sin_pos_of_pos_of_lt_pi hlo hhi

/-- The length of the vector whose angle is the parametric one of a bearing. -/
def spread (radii : Point ℝ) (deg : ℝ) : ℝ :=
  Real.sqrt ((radii.y * (bearing deg).x) ^ 2 + (radii.x * (bearing deg).y) ^ 2)

variable {radii : Point ℝ}

theorem spread_sq_pos (hr : radii.Positive) (deg : ℝ) :
    0 < (radii.y * (bearing deg).x) ^ 2 + (radii.x * (bearing deg).y) ^ 2 := by
  have hx : 0 < radii.x := hr.1
  have hy : 0 < radii.y := hr.2
  have h := bearing_norm deg
  by_cases h0 : (bearing deg).x = 0
  · have h1 : (bearing deg).y ≠ 0 := by rintro h1; simp [h0, h1] at h
    positivity
  · positivity

theorem spread_pos (hr : radii.Positive) (deg : ℝ) : 0 < spread radii deg :=
  Real.sqrt_pos.2 (spread_sq_pos hr deg)

theorem spread_sq (radii : Point ℝ) (deg : ℝ) :
    spread radii deg ^ 2 = (radii.y * (bearing deg).x) ^ 2 + (radii.x * (bearing deg).y) ^ 2 :=
  Real.sq_sqrt (by positivity)

/-- The vector from the centre of an ellipse to the point seen at an angle. -/
def spoke (radii : Point ℝ) (deg : ℝ) : Point ℝ :=
  ellipseRadius radii (visualToParametric radii deg)

theorem ellipsePoint_eq (center radii : Point ℝ) (deg : ℝ) :
    ellipsePoint center radii deg = center + spoke radii deg := rfl

theorem cos_visualToParametric (hr : radii.Positive) (deg : ℝ) :
    Real.cos (visualToParametric radii deg) = radii.y * (bearing deg).x / spread radii deg := by
  change Real.cos (Complex.arg ⟨radii.y * (bearing deg).x, radii.x * (bearing deg).y⟩) = _
  rw [Complex.cos_arg, Complex.norm_eq_sqrt_sq_add_sq]
  · rfl
  · intro h
    have hpos := spread_sq_pos hr deg
    rw [Complex.ext_iff] at h
    simp only [Complex.zero_re, Complex.zero_im] at h
    simp [h.1, h.2] at hpos

theorem sin_visualToParametric (deg : ℝ) :
    Real.sin (visualToParametric radii deg) = radii.x * (bearing deg).y / spread radii deg := by
  change Real.sin (Complex.arg ⟨radii.y * (bearing deg).x, radii.x * (bearing deg).y⟩) = _
  rw [Complex.sin_arg, Complex.norm_eq_sqrt_sq_add_sq]
  rfl

/-- How far from the centre the point seen at an angle is. -/
def spokeLength (radii : Point ℝ) (deg : ℝ) : ℝ := radii.x * radii.y / spread radii deg

theorem spokeLength_pos (hr : radii.Positive) (deg : ℝ) : 0 < spokeLength radii deg :=
  div_pos (mul_pos hr.1 hr.2) (spread_pos hr deg)

/-- The point seen at an angle lies on the ray of that angle. -/
theorem spoke_eq (hr : radii.Positive) (deg : ℝ) :
    spoke radii deg = bearing deg * spokeLength radii deg := by
  ext
  · change radii.x * Real.cos (visualToParametric radii deg) = _
    rw [cos_visualToParametric hr, Point.mul_x, spokeLength]
    ring
  · change radii.y * Real.sin (visualToParametric radii deg) = _
    rw [sin_visualToParametric, Point.mul_y, spokeLength]
    ring

theorem spoke_complement (hr : radii.Positive) (deg : ℝ) :
    spoke radii.transpose (90 - deg) = (spoke radii deg).transpose := by
  have hs : spread radii.transpose (90 - deg) = spread radii deg := by
    simp only [spread, bearing_complement, Point.transpose_x, Point.transpose_y, add_comm]
  rw [spoke_eq hr.transpose, spoke_eq hr, bearing_complement]
  simp only [spokeLength, hs, Point.transpose_x, Point.transpose_y, mul_comm radii.y]
  rfl

theorem spoke_supplement (hr : radii.Positive) (deg : ℝ) :
    spoke radii (180 - deg) = ⟨-(spoke radii deg).x, (spoke radii deg).y⟩ := by
  have hs : spread radii (180 - deg) = spread radii deg := by
    simp only [spread, bearing_supplement, mul_neg, neg_sq]
  rw [spoke_eq hr, spoke_eq hr, bearing_supplement]
  ext <;> simp [spokeLength, hs]

theorem spoke_neg (hr : radii.Positive) (deg : ℝ) :
    spoke radii (-deg) = ⟨(spoke radii deg).x, -(spoke radii deg).y⟩ := by
  have hs : spread radii (-deg) = spread radii deg := by
    simp only [spread, bearing_neg, mul_neg, neg_sq]
  rw [spoke_eq hr, spoke_eq hr, bearing_neg]
  ext <;> simp [spokeLength, hs]

end
end ShapeOutline
