import Mathlib
import ShapeOutline.Custom
import ShapeOutline.Frame

/-! The real numbers as scalars. Every operation is the exact one, so a drawing
computed in them is rounded nowhere but in its text. The equations here bring
the helpers of a drawing into the vocabulary of the reals. -/

namespace ShapeOutline
noncomputable section

/-- The nearest whole number, a half going to the even one. -/
def nearestEven (x : ℝ) : ℤ :=
  if Int.fract x < 1 / 2 then ⌊x⌋
  else if 1 / 2 < Int.fract x then ⌊x⌋ + 1
  else if Even ⌊x⌋ then ⌊x⌋ else ⌊x⌋ + 1

instance instScalarReal : Scalar ℝ where
  add x y := x + y
  sub x y := x - y
  mul x y := x * y
  div x y := x / y
  neg x := -x
  lt x y := x < y
  le x y := x ≤ y
  decLt := Real.decidableLT
  decLe := Real.decidableLE
  beq x y := decide (x = y)
  ofNat n := n
  ofDecimal m divided e := if divided then m / 10 ^ e else m * 10 ^ e
  isFinite _ := true
  round x := if x < 0 then -⌊-x + 1 / 2⌋ else ⌊x + 1 / 2⌋
  ceil x := ⌈x⌉
  emod x m := x - |m| * ⌊x / |m|⌋
  thousandths x := nearestEven (1000 * x)
  pi := Real.pi
  sqrt := Real.sqrt
  sin := Real.sin
  cos := Real.cos
  tan := Real.tan
  asin := Real.arcsin
  atan2 y x := Complex.arg ⟨x, y⟩
  hypot x y := Real.sqrt (x ^ 2 + y ^ 2)

namespace Scalar

@[simp] theorem zero_real : @OfNat.ofNat ℝ 0 (instOfNatScalar 0) = 0 := Nat.cast_zero

@[simp] theorem one_real : @OfNat.ofNat ℝ 1 (instOfNatScalar 1) = 1 := Nat.cast_one

@[simp] theorem ofNat_real (n : ℕ) [n.AtLeastTwo] :
    @OfNat.ofNat ℝ n (instOfNatScalar n) = OfNat.ofNat n := rfl

@[simp] theorem isFinite_real (x : ℝ) : isFinite x = true := rfl

theorem beq_real (x y : ℝ) : @BEq.beq ℝ instBEqScalar x y = decide (x = y) := rfl

theorem isNaN_real (x : ℝ) : isNaN x = false := by
  simp [isNaN]

theorem abs_real (x : ℝ) : Scalar.abs x = |x| := by
  unfold Scalar.abs
  split_ifs with h
  · rw [abs_of_neg (by simpa using h)]
  · rw [abs_of_nonneg (by simpa using h)]

theorem max_real (x y : ℝ) : @max ℝ instMaxScalar x y = max x y := by
  change (if isNaN x then y else if x < y then y else x) = max x y
  rw [isNaN_real, if_neg Bool.false_ne_true]
  split_ifs with h
  · exact (max_eq_right h.le).symm
  · exact (max_eq_left (not_lt.1 h)).symm

theorem min_real (x y : ℝ) : @min ℝ instMinScalar x y = min x y := by
  change (if isNaN x then y else if y < x then y else x) = min x y
  rw [isNaN_real, if_neg Bool.false_ne_true]
  split_ifs with h
  · exact (min_eq_right h.le).symm
  · exact (min_eq_left (not_lt.1 h)).symm

end Scalar

theorem radians_real (deg : ℝ) : radians deg = deg * (Real.pi / 180) := by
  simp [radians, Scalar.pi]

theorem radians_add (a b : ℝ) : radians (a + b) = radians a + radians b := by
  simp only [radians_real, add_mul]

theorem radians_sub (a b : ℝ) : radians (a - b) = radians a - radians b := by
  simp only [radians_real, sub_mul]

theorem radians_neg (a : ℝ) : radians (-a) = -radians a := by
  simp only [radians_real, neg_mul]

theorem radians_quarter : radians (90 : ℝ) = Real.pi / 2 := by
  rw [radians_real]; ring

theorem radians_half : radians (180 : ℝ) = Real.pi := by
  rw [radians_real]; ring

theorem radians_lt_radians {a b : ℝ} : radians a < radians b ↔ a < b := by
  rw [radians_real, radians_real]
  exact mul_lt_mul_iff_left₀ (by positivity)

/-- Of the real numbers only the negative ones are no lengths. -/
theorem dimensionOrZero_real (v : ℝ) : dimensionOrZero v = if v < 0 then 0 else v := by
  unfold dimensionOrZero dimension
  rw [Scalar.isNaN_real, if_neg Bool.false_ne_true, Scalar.isFinite_real, if_neg (by simp)]
  simp only [Scalar.zero_real]
  split_ifs <;> rfl

/-- A quotient by zero is zero anyway. -/
theorem divOrZero_real (a b : ℝ) : divOrZero a b = a / b := by
  by_cases h : b = 0 <;> simp [divOrZero, Scalar.beq_real, h]

theorem le_pin (lo v hi : ℝ) : lo ≤ pin lo v hi := by
  unfold pin
  rw [Scalar.max_real]
  split_ifs with hlo hhi
  · exact le_rfl
  · exact le_max_right hi lo
  · exact not_lt.1 hlo

/-- A range that is not inverted bounds what is pinned to it. -/
theorem pin_mem {lo hi : ℝ} (v : ℝ) (h : lo ≤ hi) : lo ≤ pin lo v hi ∧ pin lo v hi ≤ hi := by
  unfold pin
  rw [Scalar.max_real, max_eq_left h]
  split_ifs with hlo hhi
  · exact ⟨le_rfl, h⟩
  · exact ⟨h, le_rfl⟩
  · exact ⟨not_lt.1 hlo, not_lt.1 hhi⟩

theorem pin_eq_self {lo v hi : ℝ} (hlo : lo ≤ v) (hhi : v ≤ hi) : pin lo v hi = v := by
  rw [pin, if_neg (not_lt.2 hlo), if_neg (not_lt.2 hhi)]

attribute [ext] Point

namespace Point

variable (a b k : Point ℝ) (m : ℝ)

@[simp] theorem add_x : (a + b).x = a.x + b.x := rfl
@[simp] theorem add_y : (a + b).y = a.y + b.y := rfl
@[simp] theorem sub_x : (a - b).x = a.x - b.x := rfl
@[simp] theorem sub_y : (a - b).y = a.y - b.y := rfl
@[simp] theorem neg_x : (-a).x = -a.x := rfl
@[simp] theorem neg_y : (-a).y = -a.y := rfl
@[simp] theorem mul_x : (a * m).x = a.x * m := rfl
@[simp] theorem mul_y : (a * m).y = a.y * m := rfl
@[simp] theorem stretch_x : (a.stretch k).x = a.x * k.x := rfl
@[simp] theorem stretch_y : (a.stretch k).y = a.y * k.y := rfl
@[simp] theorem transpose_x : a.transpose.x = a.y := rfl
@[simp] theorem transpose_y : a.transpose.y = a.x := rfl

theorem add_eq_add_iff {a b c : Point ℝ} : a + b = a + c ↔ b = c := by
  simp only [Point.ext_iff, add_x, add_y, add_right_inj]

@[simp] theorem greatest_x : (a.greatest b).x = max a.x b.x := Scalar.max_real a.x b.x
@[simp] theorem greatest_y : (a.greatest b).y = max a.y b.y := Scalar.max_real a.y b.y

end Point

namespace Frame

variable {f : Frame ℝ}

theorem ss_le_w (f : Frame ℝ) : f.ss ≤ f.w := by
  rw [ss, Scalar.min_real]
  exact min_le_left ..

theorem ss_le_h (f : Frame ℝ) : f.ss ≤ f.h := by
  rw [ss, Scalar.min_real]
  exact min_le_right ..

theorem ss_pos (hw : 0 < f.w) (hh : 0 < f.h) : 0 < f.ss := by
  rw [ss, Scalar.min_real]
  exact lt_min hw hh

/-- A part of the short side is that part of either side at most. -/
theorem shortPart_mem (hw : 0 < f.w) (hh : 0 < f.h) {a c : ℝ} (ha : 0 ≤ a) (hac : a ≤ c) :
    0 ≤ f.shortPart a ∧ f.shortPart a ≤ f.w * c / 100000 ∧ f.shortPart a ≤ f.h * c / 100000 := by
  have hpos := ss_pos hw hh
  have hpart : f.shortPart a = f.ss * a / 100000 := rfl
  have hle (side : ℝ) (hside : f.ss ≤ side) : f.ss * a / 100000 ≤ side * c / 100000 := by
    have h := mul_le_mul hside hac ha (hpos.le.trans hside)
    linarith
  rw [hpart]
  exact ⟨by positivity, hle _ f.ss_le_w, hle _ f.ss_le_h⟩

end Frame

/-- A part of the short side that is pinned to at most another length. -/
theorem shortPart_pinned_mem {f : Frame ℝ} (hss : 0 < f.ss) {name : String} {default reach m : ℝ}
    (hreach : 0 ≤ reach) (hm : 0 < m) :
    0 ≤ f.ss * f.pinned name default 0 (divOrZero (m * reach) f.ss) / 100000 ∧
      f.ss * f.pinned name default 0 (divOrZero (m * reach) f.ss) / 100000 ≤
        m * reach / 100000 := by
  have hmax : 0 ≤ divOrZero (m * reach) f.ss := by
    rw [divOrZero_real]
    positivity
  obtain ⟨h0, h1⟩ := pin_mem (f.adjustment name default) hmax
  change 0 ≤ f.pinned name default 0 _ at h0
  change f.pinned name default 0 _ ≤ _ at h1
  have hle : f.ss * f.pinned name default 0 (divOrZero (m * reach) f.ss) ≤ m * reach :=
    calc _ ≤ f.ss * divOrZero (m * reach) f.ss := mul_le_mul_of_nonneg_left h1 hss.le
      _ = m * reach := by rw [divOrZero_real, mul_div_cancel₀ _ hss.ne']
  exact ⟨by positivity, by linarith⟩

end
end ShapeOutline
