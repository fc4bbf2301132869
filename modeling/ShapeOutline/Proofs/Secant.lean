import ShapeOutline.Proofs.Trace

/-! A line and a circle about the origin. Along the line the square of the distance from
the origin is a quadratic. Its roots are all the crossings there are, the earlier one
first, and none are found only where the line has no direction or misses the circle. -/

namespace ShapeOutline
noncomputable section

theorem normSq_real (p : Point ℝ) : p.normSq = p.x ^ 2 + p.y ^ 2 := by
  rw [sq, sq]
  rfl

theorem normSq_nonneg (p : Point ℝ) : 0 ≤ p.normSq := by
  rw [normSq_real]
  positivity

theorem normSq_eq_zero_iff (p : Point ℝ) : p.normSq = 0 ↔ p = .zero := by
  rw [normSq_real, add_eq_zero_iff_of_nonneg (sq_nonneg _) (sq_nonneg _), sq_eq_zero_iff,
    sq_eq_zero_iff, Point.ext_iff]
  simp [Point.zero]

theorem norm_eq_abs_iff (p : Point ℝ) (r : ℝ) : p.norm = |r| ↔ p.normSq = r ^ 2 := by
  rw [← Real.sqrt_sq_eq_abs, ← Real.sqrt_inj (normSq_nonneg p) (sq_nonneg r)]
  rfl

theorem normSq_along (p d : Point ℝ) (t : ℝ) :
    (p + d * t).normSq = d.normSq * (t * t) + 2 * p.dot d * t + p.normSq := by
  simp only [normSq_real, dot_real, Point.add_x, Point.add_y, Point.mul_x, Point.mul_y]
  ring

/-- The line through `p` along `d` meets the circle of radius `r` at the parameters `first` and
`last`, which are one where it only touches the circle. -/
structure Secant (p d : Point ℝ) (r first last : ℝ) : Prop where
  direction : d ≠ .zero
  le : first ≤ last
  excess : ∀ t : ℝ, (p + d * t).normSq - r ^ 2 = d.normSq * ((t - first) * (t - last))

namespace Secant

variable {p d : Point ℝ} {r first last : ℝ} (h : Secant p d r first last)
include h

theorem normSq_pos : 0 < d.normSq :=
  (normSq_nonneg d).lt_of_ne' fun h0 => h.direction ((normSq_eq_zero_iff d).1 h0)

theorem meets_iff (t : ℝ) : (p + d * t).norm = |r| ↔ t = first ∨ t = last := by
  rw [norm_eq_abs_iff, ← sub_eq_zero, h.excess, mul_eq_zero_iff_left h.normSq_pos.ne', mul_eq_zero,
    sub_eq_zero, sub_eq_zero]

theorem sum_eq : d.normSq * (first + last) = -(2 * p.dot d) := by
  have hahead := h.excess 1
  have hback := h.excess (-1)
  rw [normSq_along] at hahead hback
  linear_combination (hahead - hback) / 2

theorem prod_eq : d.normSq * (first * last) = p.normSq - r ^ 2 := by
  have hhere := h.excess 0
  rw [normSq_along] at hhere
  linear_combination -hhere

theorem sum_nonpos (haway : 0 ≤ p.dot d) : first + last ≤ 0 := by
  have hsum : d.normSq * (first + last) ≤ 0 := by
    rw [h.sum_eq]
    linarith
  exact nonpos_of_mul_nonpos_right hsum h.normSq_pos

theorem last_nonneg (hin : p.normSq ≤ r ^ 2) : 0 ≤ last := by
  by_contra hback
  have hlast : last < 0 := not_le.1 hback
  have hprod : 0 < d.normSq * (first * last) :=
    mul_pos h.normSq_pos (mul_pos_of_neg_of_neg (h.le.trans_lt hlast) hlast)
  rw [h.prod_eq] at hprod
  linarith

/-- Only the later one can be ahead. -/
theorem eq_last_of_nonneg (haway : 0 ≤ p.dot d) (h0 : 0 ≤ first) : first = last := by
  have hsum := h.sum_nonpos haway
  exact h.le.antisymm (by linarith)

/-- From outside of the circle neither is. -/
theorem last_nonpos (haway : 0 ≤ p.dot d) (hout : r ^ 2 ≤ p.normSq) : last ≤ 0 := by
  by_contra hahead
  have hlast : 0 < last := not_le.1 hahead
  have hprod : 0 ≤ d.normSq * (first * last) := by
    rw [h.prod_eq]
    linarith
  have hfirst : 0 ≤ first :=
    nonneg_of_mul_nonneg_left (nonneg_of_mul_nonneg_right hprod h.normSq_pos) hlast
  linarith [h.sum_nonpos haway]

end Secant

theorem circleCrossings_real (p d : Point ℝ) (r : ℝ) {b disc : ℝ} (hb : b = 2 * p.dot d)
    (hdisc : disc = discrim d.normSq b (p.normSq - r ^ 2)) :
    p.circleCrossings d r =
      if d.normSq = 0 then none
      else if disc < 0 then none
      else some ((-b - Real.sqrt disc) / (2 * d.normSq), (-b + Real.sqrt disc) / (2 * d.normSq)) := by
  have hdisc' : b * b - 4 * d.normSq * (p.normSq - r * r) = disc := by
    rw [hdisc, discrim]
    ring
  unfold Point.circleCrossings
  simp [← hb, hdisc', Scalar.beq_real]
  rfl

/-- None is found only where there is none, and two are found only where they are all. -/
theorem circleCrossings_cases (p d : Point ℝ) (r : ℝ) :
    (p.circleCrossings d r = none ∧ (d = .zero ∨ ∀ t : ℝ, (p + d * t).norm ≠ |r|)) ∨
      ∃ first last, p.circleCrossings d r = some (first, last) ∧ Secant p d r first last := by
  set b := 2 * p.dot d with hb
  set disc := discrim d.normSq b (p.normSq - r ^ 2) with hdisc
  have hcrossings := circleCrossings_real p d r hb hdisc
  by_cases hd : d.normSq = 0
  · rw [if_pos hd] at hcrossings
    exact Or.inl ⟨hcrossings, Or.inl ((normSq_eq_zero_iff d).1 hd)⟩
  rw [if_neg hd] at hcrossings
  by_cases hneg : disc < 0
  · rw [if_pos hneg] at hcrossings
    refine Or.inl ⟨hcrossings, Or.inr fun t ht => ?_⟩
    -- a root would make the discriminant a square
    have hnone (s : ℝ) : disc ≠ s ^ 2 := (hneg.trans_le (sq_nonneg s)).ne
    apply quadratic_ne_zero_of_discrim_ne_sq hnone t
    rw [norm_eq_abs_iff, normSq_along] at ht
    linear_combination ht
  · rw [if_neg hneg] at hcrossings
    have hpos : 0 < d.normSq := (normSq_nonneg d).lt_of_ne' hd
    have hroot : Real.sqrt disc ^ 2 = b ^ 2 - 4 * d.normSq * (p.normSq - r ^ 2) :=
      (Real.sq_sqrt (not_lt.1 hneg)).trans hdisc
    refine Or.inr ⟨_, _, hcrossings, fun hzero => hd ((normSq_eq_zero_iff d).2 hzero), ?_,
      fun t => ?_⟩
    · have hnonneg := Real.sqrt_nonneg disc
      gcongr
      linarith
    · rw [normSq_along, ← hb]
      field_simp
      linear_combination hroot

end
end ShapeOutline
