import ShapeOutline.Proofs.Ellipse

/-! The parametric angle of the point seen at a visual angle, unwound. It grows
with the visual angle, stays within a quarter turn of it and gains a half turn
with it, so an arc sweeps the same way and past a half turn in both angles. -/

namespace ShapeOutline
noncomputable section

/-- How far the parametric angle is ahead of the visual one. -/
def phaseLead (radii : Point ℝ) (deg : ℝ) : ℝ :=
  Real.arctan ((radii.x - radii.y) * (bearing deg).x * (bearing deg).y /
    (radii.y * (bearing deg).x ^ 2 + radii.x * (bearing deg).y ^ 2))

def phase (radii : Point ℝ) (deg : ℝ) : ℝ := radians deg + phaseLead radii deg

theorem phase_lt (radii : Point ℝ) (deg : ℝ) : phase radii deg < radians deg + Real.pi / 2 :=
  add_lt_add_right (Real.arctan_lt_pi_div_two _) _

theorem lt_phase (radii : Point ℝ) (deg : ℝ) : radians deg - Real.pi / 2 < phase radii deg := by
  have h : -(Real.pi / 2) < phaseLead radii deg := Real.neg_pi_div_two_lt_arctan _
  unfold phase
  linarith

theorem phase_add_half (radii : Point ℝ) (deg : ℝ) :
    phase radii (deg + 180) = phase radii deg + Real.pi := by
  have hlead : phaseLead radii (deg + 180) = phaseLead radii deg := by
    simp only [phaseLead, bearing_add_half, Point.neg_x, Point.neg_y, neg_sq, mul_neg, neg_mul,
      neg_neg]
  rw [phase, phase, hlead, radians_add, radians_half]
  ring

theorem phase_neg (radii : Point ℝ) (deg : ℝ) : phase radii (-deg) = -phase radii deg := by
  have hlead : phaseLead radii (-deg) = -phaseLead radii deg := by
    simp only [phaseLead, bearing_neg, neg_sq, mul_neg, neg_div, Real.arctan_neg]
  rw [phase, phase, hlead, radians_neg, neg_add]

variable {radii : Point ℝ}

/-- The radii mixed by the squares of a bearing. -/
theorem mixedRadii_pos (hr : radii.Positive) (deg : ℝ) :
    0 < radii.y * (bearing deg).x ^ 2 + radii.x * (bearing deg).y ^ 2 := by
  have hx := hr.1
  have hy := hr.2
  have hnorm := bearing_norm deg
  by_cases h0 : (bearing deg).x = 0
  · have h1 : (bearing deg).y ≠ 0 := by rintro h1; simp [h0, h1] at hnorm
    positivity
  · positivity

theorem continuous_phase (hr : radii.Positive) : Continuous (phase radii) := by
  have hradians : Continuous (radians : ℝ → ℝ) := by
    simp only [funext radians_real]
    fun_prop
  have hx : Continuous fun deg => (bearing deg).x := Real.continuous_cos.comp hradians
  have hy : Continuous fun deg => (bearing deg).y := Real.continuous_sin.comp hradians
  have hquotient : Continuous fun deg => (radii.x - radii.y) * (bearing deg).x * (bearing deg).y /
      (radii.y * (bearing deg).x ^ 2 + radii.x * (bearing deg).y ^ 2) :=
    Continuous.div (by fun_prop) (by fun_prop) fun deg => (mixedRadii_pos hr deg).ne'
  exact hradians.add (Real.continuous_arctan.comp hquotient)

theorem phaseLead_cos_sin (hr : radii.Positive) (deg : ℝ) :
    Real.cos (phaseLead radii deg) =
        (radii.y * (bearing deg).x ^ 2 + radii.x * (bearing deg).y ^ 2) / spread radii deg ∧
      Real.sin (phaseLead radii deg) =
        (radii.x - radii.y) * (bearing deg).x * (bearing deg).y / spread radii deg := by
  have hnorm := bearing_norm deg
  have hspread := spread_pos hr deg
  have hsq := spread_sq radii deg
  have hu := mixedRadii_pos hr deg
  set c := (bearing deg).x
  set s := (bearing deg).y
  set u := radii.y * c ^ 2 + radii.x * s ^ 2
  set v := (radii.x - radii.y) * c * s
  have huv : u ^ 2 + v ^ 2 = spread radii deg ^ 2 := by
    rw [hsq]
    linear_combination (radii.y ^ 2 * c ^ 2 + radii.x ^ 2 * s ^ 2) * hnorm
  have hroot : Real.sqrt (1 + (v / u) ^ 2) = spread radii deg / u := by
    have hsquare : 1 + (v / u) ^ 2 = (spread radii deg / u) ^ 2 := by
      rw [div_pow, div_pow, ← huv]
      field_simp
    rw [hsquare, Real.sqrt_sq (div_pos hspread hu).le]
  have hlead : phaseLead radii deg = Real.arctan (v / u) := rfl
  rw [hlead, Real.cos_arctan, Real.sin_arctan, hroot]
  constructor <;> field_simp

theorem cos_phase (hr : radii.Positive) (deg : ℝ) :
    Real.cos (phase radii deg) = radii.y * (bearing deg).x / spread radii deg := by
  obtain ⟨hcos, hsin⟩ := phaseLead_cos_sin hr deg
  have hnorm := bearing_norm deg
  have hspread := (spread_pos hr deg).ne'
  change Real.cos (radians deg + phaseLead radii deg) = _
  rw [Real.cos_add, hcos, hsin]
  change (bearing deg).x * _ - (bearing deg).y * _ = _
  field_simp
  linear_combination radii.y * (bearing deg).x * hnorm

theorem sin_phase (hr : radii.Positive) (deg : ℝ) :
    Real.sin (phase radii deg) = radii.x * (bearing deg).y / spread radii deg := by
  obtain ⟨hcos, hsin⟩ := phaseLead_cos_sin hr deg
  have hnorm := bearing_norm deg
  have hspread := (spread_pos hr deg).ne'
  change Real.sin (radians deg + phaseLead radii deg) = _
  rw [Real.sin_add, hcos, hsin]
  change (bearing deg).y * _ + (bearing deg).x * _ = _
  field_simp
  linear_combination radii.x * (bearing deg).y * hnorm

theorem spoke_phase (hr : radii.Positive) (deg : ℝ) :
    spoke radii deg = ellipseRadius radii (phase radii deg) := by
  ext
  · change radii.x * Real.cos _ = radii.x * Real.cos _
    rw [cos_visualToParametric hr, cos_phase hr]
  · change radii.y * Real.sin _ = radii.y * Real.sin _
    rw [sin_visualToParametric, sin_phase hr]

/-- The parametric angle turns the way the visual one does. -/
theorem sin_phase_sub (hr : radii.Positive) (a b : ℝ) :
    Real.sin (phase radii b - phase radii a) =
      radii.x * radii.y / (spread radii a * spread radii b) * Real.sin (radians (b - a)) := by
  rw [Real.sin_sub, radians_sub, Real.sin_sub, cos_phase hr, cos_phase hr, sin_phase hr,
    sin_phase hr]
  change _ = _ * ((bearing b).y * (bearing a).x - (bearing b).x * (bearing a).y)
  have ha := (spread_pos hr a).ne'
  have hb := (spread_pos hr b).ne'
  field_simp

theorem phase_lt_phase_near (hr : radii.Positive) {a b : ℝ} (h : a < b) (hb : b < a + 180) :
    phase radii a < phase radii b := by
  have hpos : 0 < Real.sin (phase radii b - phase radii a) := by
    rw [sin_phase_sub hr]
    apply mul_pos (div_pos (mul_pos hr.1 hr.2) (mul_pos (spread_pos hr a) (spread_pos hr b)))
    have hlo := radians_lt_radians.2 h
    have hhi := radians_lt_radians.2 hb
    rw [radians_add, radians_half] at hhi
    rw [radians_sub]
    exact Real.sin_pos_of_pos_of_lt_pi (by linarith) (by linarith)
  -- a turn back would be less than a half turn, and its sine not positive
  by_contra hle
  have hback : -Real.pi ≤ phase radii b - phase radii a := by
    have h1 := lt_phase radii b
    have h2 := phase_lt radii a
    have h3 := radians_lt_radians.2 h
    linarith
  have hneg := Real.sin_nonpos_of_nonpos_of_neg_pi_le (by linarith) hback
  linarith

theorem phase_strictMono (hr : radii.Positive) : StrictMono (phase radii) := by
  intro a b h
  rcases lt_or_ge b (a + 180) with hb | hb
  · exact phase_lt_phase_near hr h hb
  · have h1 := phase_lt radii a
    have h2 := lt_phase radii b
    have h3 : radians (a + 180) ≤ radians b := by
      rw [← not_lt, radians_lt_radians, not_lt]
      exact hb
    rw [radians_add, radians_half] at h3
    linarith

/-- The turn of the parametric angle along an arc. -/
def phaseTurn (radii : Point ℝ) (start sweep : ℝ) : ℝ :=
  phase radii (start + sweep) - phase radii start

theorem phaseTurn_pos (hr : radii.Positive) {start sweep : ℝ} :
    0 < phaseTurn radii start sweep ↔ 0 < sweep := by
  rw [phaseTurn, sub_pos, (phase_strictMono hr).lt_iff_lt, lt_add_iff_pos_right]

theorem phaseTurn_ne_zero (hr : radii.Positive) {start sweep : ℝ} :
    phaseTurn radii start sweep ≠ 0 ↔ sweep ≠ 0 := by
  rw [phaseTurn, sub_ne_zero, (phase_strictMono hr).injective.ne_iff, Ne, add_eq_left]

theorem pi_lt_abs_phaseTurn (hr : radii.Positive) {start sweep : ℝ} :
    Real.pi < |phaseTurn radii start sweep| ↔ 180 < |sweep| := by
  have hup : Real.pi < phaseTurn radii start sweep ↔ 180 < sweep := by
    rw [phaseTurn, lt_sub_iff_add_lt', ← phase_add_half, (phase_strictMono hr).lt_iff_lt]
    exact add_lt_add_iff_left start
  have hdown : Real.pi < -phaseTurn radii start sweep ↔ 180 < -sweep := by
    rw [phaseTurn, neg_sub, lt_sub_iff_add_lt', ← phase_add_half, (phase_strictMono hr).lt_iff_lt]
    constructor <;> intro <;> linarith
  rw [lt_abs, lt_abs, hup, hdown]

theorem abs_phaseTurn_eq_pi (hr : radii.Positive) {start sweep : ℝ} :
    |phaseTurn radii start sweep| = Real.pi ↔ |sweep| = 180 := by
  have hup : phaseTurn radii start sweep = Real.pi ↔ sweep = 180 := by
    rw [phaseTurn, sub_eq_iff_eq_add', ← phase_add_half, (phase_strictMono hr).injective.eq_iff]
    exact add_right_inj start
  have hdown : phaseTurn radii start sweep = -Real.pi ↔ sweep = -180 := by
    rw [phaseTurn, eq_neg_iff_add_eq_zero, sub_add_eq_add_sub, ← phase_add_half, sub_eq_zero,
      (phase_strictMono hr).injective.eq_iff]
    constructor <;> intro <;> linarith
  rw [abs_eq Real.pi_pos.le, abs_eq (by norm_num), hup, hdown]

theorem abs_phaseTurn_lt (hr : radii.Positive) {start sweep : ℝ} :
    |phaseTurn radii start sweep| < 2 * Real.pi ↔ |sweep| < 360 := by
  have hfull (deg : ℝ) : phase radii (deg + 360) = phase radii deg + 2 * Real.pi := by
    rw [show deg + 360 = deg + 180 + 180 by ring, phase_add_half, phase_add_half]
    ring
  have hup : phaseTurn radii start sweep < 2 * Real.pi ↔ sweep < 360 := by
    rw [phaseTurn, sub_lt_iff_lt_add', ← hfull, (phase_strictMono hr).lt_iff_lt]
    exact add_lt_add_iff_left start
  have hdown : -(2 * Real.pi) < phaseTurn radii start sweep ↔ -360 < sweep := by
    rw [phaseTurn, neg_lt, neg_sub, sub_lt_iff_lt_add', ← hfull, (phase_strictMono hr).lt_iff_lt]
    constructor <;> intro <;> linarith
  rw [abs_lt, abs_lt, hup, hdown]

end
end ShapeOutline
