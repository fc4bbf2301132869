import ShapeOutline.Proofs.Secant
import ShapeOutline.Proofs.StretchedArc

/-! The base line of an arrow head on a circle. It crosses the chord from the base to
the tip at a right angle, so it runs in the direction halfway between them, or opposite
to it. Where it meets the circle of a larger radius is on the tip's side of the base, by
less than half the way; where it meets the circle of a smaller one, on the other side. -/

namespace ShapeOutline
noncomputable section

theorem norm_real (p : Point ℝ) : p.norm = Real.sqrt (p.x ^ 2 + p.y ^ 2) := by
  rw [sq, sq]
  rfl

theorem norm_eq_of_sq {p : Point ℝ} {r : ℝ} (hr : 0 ≤ r) (h : p.x ^ 2 + p.y ^ 2 = r ^ 2) :
    p.norm = r := by
  rw [norm_real, h, Real.sqrt_sq hr]

theorem bearing_mul_sq (deg m : ℝ) : (bearing deg * m).x ^ 2 + (bearing deg * m).y ^ 2 = m ^ 2 := by
  rw [Point.mul_x, Point.mul_y, mul_pow, mul_pow, ← add_mul, bearing_norm, one_mul]

theorem norm_bearing_mul (deg m : ℝ) : (bearing deg * m).norm = |m| := by
  rw [norm_real, bearing_mul_sq, Real.sqrt_sq_eq_abs]

theorem direction_real (p : Point ℝ) :
    p.direction = if 0 < p.norm then p * (1 / p.norm) else .zero := by
  unfold Point.direction
  simp

theorem direction_of_norm_eq_zero {p : Point ℝ} (h : p.norm = 0) : p.direction = .zero := by
  rw [direction_real, h, if_neg (lt_irrefl 0)]

theorem direction_bearing_mul (deg : ℝ) {m : ℝ} (hm : m ≠ 0) :
    ∃ side : ℝ, (side = 1 ∨ side = -1) ∧ (bearing deg * m).direction = bearing deg * side := by
  have hdirection : (bearing deg * m).direction = bearing deg * (m / |m|) := by
    rw [direction_real, norm_bearing_mul, if_pos (abs_pos.2 hm)]
    ext <;> simp [div_eq_mul_inv, mul_assoc]
  refine ⟨m / |m|, ?_, hdirection⟩
  rcases lt_or_gt_of_ne hm with h | h
  · exact Or.inr (by rw [abs_of_neg h, div_neg, div_self hm])
  · exact Or.inl (by rw [abs_of_pos h, div_self hm])

theorem bearing_y_nonneg {deg : ℝ} (h0 : 0 ≤ deg) (h : deg < 180) : 0 ≤ (bearing deg).y := by
  rcases h0.eq_or_lt with rfl | hpos
  · rw [bearing_zero]
  · exact (bearing_y_pos hpos h).le

theorem bearing_y_nonpos {deg : ℝ} (h0 : deg ≤ 0) (h : -180 < deg) : (bearing deg).y ≤ 0 := by
  have hneg := bearing_y_nonneg (neg_nonneg.2 h0) (by linarith)
  rw [bearing_neg] at hneg
  exact neg_nonneg.1 hneg

theorem abs_bearing_y {deg : ℝ} (h : |deg| < 180) : |(bearing deg).y| = (bearing |deg|).y := by
  obtain ⟨hlo, hhi⟩ := abs_lt.1 h
  rcases le_total 0 deg with h0 | h0
  · rw [abs_of_nonneg h0, abs_of_nonneg (bearing_y_nonneg h0 hhi)]
  · rw [abs_of_nonpos h0, abs_of_nonpos (bearing_y_nonpos h0 hlo), bearing_neg]

theorem degrees_le_iff {rad deg : ℝ} : degrees rad ≤ deg ↔ rad ≤ radians deg := by
  rw [← not_lt, ← degrees_radians deg, degrees_lt_degrees, not_lt, degrees_radians]

theorem le_degrees_iff {rad deg : ℝ} : deg ≤ degrees rad ↔ radians deg ≤ rad := by
  rw [← not_lt, ← degrees_radians deg, degrees_lt_degrees, not_lt, degrees_radians]

/-- The angle at which a vector of length `r` that does not point backwards rises by `y`. -/
def rise (y r : ℝ) : ℝ := degrees (Real.arcsin (y / r))

section Rise

theorem abs_rise_le (y r : ℝ) : |rise y r| ≤ 90 := by
  rw [rise, abs_le, le_degrees_iff, degrees_le_iff, radians_neg, radians_quarter]
  exact ⟨Real.neg_pi_div_two_le_arcsin _, Real.arcsin_le_pi_div_two _⟩

variable {x y r : ℝ} (hr : 0 < r)
include hr

theorem bearing_rise_y (h : x ^ 2 + y ^ 2 = r ^ 2) : (bearing (rise y r)).y * r = y := by
  have hlo : -1 ≤ y / r := by
    rw [le_div_iff₀ hr]
    nlinarith
  have hhi : y / r ≤ 1 := by
    rw [div_le_iff₀ hr]
    nlinarith
  change Real.sin (radians (degrees _)) * r = y
  rw [radians_degrees, Real.sin_arcsin hlo hhi, div_mul_cancel₀ _ hr.ne']

theorem bearing_rise_x (hx : 0 ≤ x) (h : x ^ 2 + y ^ 2 = r ^ 2) :
    (bearing (rise y r)).x * r = x := by
  have hsq : 1 - (y / r) ^ 2 = (x / r) ^ 2 := by
    field_simp
    linarith
  change Real.cos (radians (degrees _)) * r = x
  rw [radians_degrees, Real.cos_arcsin, hsq, Real.sqrt_sq (div_nonneg hx hr.le),
    div_mul_cancel₀ _ hr.ne']

/-- A vector that rises no further than one at the angle `most` does is at that angle at most. -/
theorem abs_rise_le_of {most : ℝ} (h0 : 0 ≤ most) (h90 : most ≤ 90)
    (hy : |y| ≤ (bearing most).y * r) : |rise y r| ≤ most := by
  obtain ⟨hylo, hyhi⟩ := abs_le.1 hy
  have hpi := Real.pi_pos
  have hsin : Real.arcsin (bearing most).y = radians most := by
    apply Real.arcsin_sin <;> rw [radians_real] <;> nlinarith
  rw [rise, abs_le, le_degrees_iff, degrees_le_iff, radians_neg, ← hsin, ← Real.arcsin_neg]
  constructor <;> apply Real.monotone_arcsin
  · rw [le_div_iff₀ hr]
    linarith
  · rw [div_le_iff₀ hr]
    exact hyhi

theorem rise_nonneg (hy : 0 ≤ y) : 0 ≤ rise y r := by
  rw [rise, le_degrees_iff, radians_real, zero_mul]
  exact Real.arcsin_nonneg.2 (div_nonneg hy hr.le)

theorem rise_nonpos (hy : y ≤ 0) : rise y r ≤ 0 := by
  rw [rise, degrees_le_iff, radians_real, zero_mul]
  exact Real.arcsin_nonpos.2 (div_nonpos_of_nonpos_of_nonneg hy hr.le)

end Rise

namespace Shape

section Normal

variable (deg turn : ℝ) {m : ℝ}

/-- The angle of the base as it is seen from halfway to the tip. -/
theorem bearing_from_half :
    bearing deg =
      ⟨(bearing (deg + turn / 2)).x * (bearing (turn / 2)).x +
          (bearing (deg + turn / 2)).y * (bearing (turn / 2)).y,
        (bearing (deg + turn / 2)).y * (bearing (turn / 2)).x -
          (bearing (deg + turn / 2)).x * (bearing (turn / 2)).y⟩ := by
  have h := bearing_add (deg + turn / 2) (-(turn / 2))
  rw [add_neg_cancel_right, bearing_neg] at h
  rw [h]
  ext <;> ring

theorem across_chord :
    (⟨-(bearing (deg + turn) * m - bearing deg * m).y,
        (bearing (deg + turn) * m - bearing deg * m).x⟩ : Point ℝ) =
      bearing (deg + turn / 2) * (-(2 * m * (bearing (turn / 2)).y)) := by
  have htip := bearing_add (deg + turn / 2) (turn / 2)
  rw [add_assoc, add_halves] at htip
  rw [htip, bearing_from_half deg turn]
  ext <;> simp only [Point.sub_x, Point.sub_y, Point.mul_x, Point.mul_y] <;> ring

/-- Without a turn there is no chord, and the base itself is taken. -/
theorem across_or_base (hm : 0 < m) :
    let across := (bearing (deg + turn / 2) * (-(2 * m * (bearing (turn / 2)).y))).direction
    ∃ side : ℝ, (side = 1 ∨ side = -1) ∧
      (if across.x == 0 && across.y == 0 then (bearing deg * m).direction else across) =
        bearing (deg + turn / 2) * side := by
  intro across
  by_cases hy : (bearing (turn / 2)).y = 0
  · have hunit := bearing_norm (turn / 2)
    rw [hy, zero_pow two_ne_zero, add_zero] at hunit
    have hacross : across = .zero := by
      apply direction_of_norm_eq_zero
      rw [norm_bearing_mul, hy, mul_zero, neg_zero, abs_zero]
    have hnone : across.x == 0 && across.y == 0 := by simp [hacross, Point.zero]
    obtain ⟨side, hside, hbase⟩ := direction_bearing_mul deg hm.ne'
    refine ⟨(bearing (turn / 2)).x * side, ?_, ?_⟩
    · rcases sq_eq_sq_iff_eq_or_eq_neg.1 (hunit.trans (one_pow 2).symm) with h | h <;>
        rcases hside with rfl | rfl <;> simp [h]
    · rw [if_pos hnone, hbase, bearing_from_half deg turn, hy]
      ext <;> simp <;> ring
  · have hlength : -(2 * m * (bearing (turn / 2)).y) ≠ 0 := by simp [hm.ne', hy]
    obtain ⟨side, hside, hacross⟩ := direction_bearing_mul (deg + turn / 2) hlength
    refine ⟨side, hside, ?_⟩
    have hsome : ¬(across.x == 0 && across.y == 0) := by
      intro h
      have hzero : across.x = 0 ∧ across.y = 0 := by simpa using h
      have hsq := bearing_mul_sq (deg + turn / 2) side
      rw [← hacross, hzero.1, hzero.2] at hsq
      rcases hside with rfl | rfl <;> norm_num at hsq
    rw [if_neg hsome]
    exact hacross

/-- The base line runs halfway between the base and the tip, on the side away from the centre. -/
theorem outwardNormal_eq (hm : 0 < m) :
    ∃ side : ℝ, (side = 1 ∨ side = -1) ∧ 0 ≤ side * (bearing (turn / 2)).x ∧
      outwardNormal (unitAt deg * m) (unitAt (deg + turn) * m) =
        bearing (deg + turn / 2) * side := by
  obtain ⟨side, hside, hn⟩ := across_or_base deg turn hm
  have hdot : (bearing (deg + turn / 2) * side).dot (bearing deg * m) =
      side * (bearing (turn / 2)).x * m := by
    rw [dot_real, bearing_from_half deg turn]
    simp only [Point.mul_x, Point.mul_y]
    linear_combination side * (bearing (turn / 2)).x * m * bearing_norm (deg + turn / 2)
  have hout : outwardNormal (unitAt deg * m) (unitAt (deg + turn) * m) =
      if (bearing (deg + turn / 2) * side).dot (bearing deg * m) < 0
        then -(bearing (deg + turn / 2) * side) else bearing (deg + turn / 2) * side := by
    rw [← hn, ← across_chord]
    unfold outwardNormal
    simp only [Scalar.zero_real]
    rfl
  rw [hdot] at hout
  split_ifs at hout with hneg
  · refine ⟨-side, ?_, ?_, ?_⟩
    · rcases hside with rfl | rfl
      · exact Or.inr rfl
      · exact Or.inl (neg_neg 1)
    · nlinarith
    · rw [hout]
      ext <;> simp
  · exact ⟨side, hside, by nlinarith, hout⟩

end Normal

/-- The later crossing is at or beyond the point of the line that is nearest to the origin. -/
theorem circleCrossings_of_unit (p : Point ℝ) {d : Point ℝ} (hd : d.x ^ 2 + d.y ^ 2 = 1) (r : ℝ) :
    p.circleCrossings d r = none ∨
      ∃ first t, p.circleCrossings d r = some (first, t) ∧ -p.dot d ≤ t ∧
        t ^ 2 + 2 * p.dot d * t + (p.x ^ 2 + p.y ^ 2) = r ^ 2 := by
  have hone : d.normSq = 1 := (normSq_real d).trans hd
  rcases circleCrossings_cases p d r with ⟨h, -⟩ | ⟨first, last, h, hs⟩
  · exact Or.inl h
  · have hsum := hs.sum_eq
    have hmeets := (norm_eq_abs_iff _ _).1 ((hs.meets_iff last).2 (Or.inr rfl))
    rw [hone, one_mul] at hsum
    rw [normSq_along, hone, normSq_real] at hmeets
    exact Or.inr ⟨first, last, h, by linarith [hs.le], by linear_combination hmeets⟩

section Crossing

-- `k` is the share of the base's radius `m` that lies in the direction of the line.
variable {m r k t : ℝ} (hm : 0 < m)
include hm

theorem crossing_ahead (hk : 0 ≤ k) (hk1 : k ^ 2 ≤ 1) (hlo : -(k * m) ≤ t) : 0 ≤ m + k * t := by
  have hnearest : k * -(k * m) ≤ k * t := mul_le_mul_of_nonneg_left hlo hk
  have hshare : k ^ 2 * m ≤ m := mul_le_of_le_one_left hm.le hk1
  linarith

theorem crossing_nonneg (hk : 0 < k) (hlo : -(k * m) ≤ t)
    (ht : t ^ 2 + 2 * (k * m) * t + m ^ 2 = r ^ 2) (hmr : m ≤ r) : 0 ≤ t := by
  by_contra hneg
  have hkm : 0 < k * m := mul_pos hk hm
  have hprod : t * (t + 2 * (k * m)) < 0 := mul_neg_of_neg_of_pos (not_le.1 hneg) (by linarith)
  have hsq : m ^ 2 ≤ r ^ 2 := pow_le_pow_left₀ hm.le hmr 2
  linarith

theorem crossing_le (hr : 0 < r) (hk : 0 ≤ k) (ht : t ^ 2 + 2 * (k * m) * t + m ^ 2 = r ^ 2)
    (ht0 : 0 ≤ t) : t ≤ r := by
  rw [← pow_le_pow_iff_left₀ ht0 hr.le two_ne_zero, ← ht]
  have hprod : 0 ≤ 2 * (k * m) * t := by positivity
  linarith [sq_nonneg m]

theorem crossing_nonpos (hr : 0 < r) (hk : 0 ≤ k) (ht : t ^ 2 + 2 * (k * m) * t + m ^ 2 = r ^ 2)
    (hrm : r ≤ m) : t ≤ 0 := by
  by_contra hpos
  have ht0 : 0 < t := not_le.1 hpos
  have hprod : 0 ≤ 2 * (k * m) * t := by positivity
  have hsq : r ^ 2 ≤ m ^ 2 := pow_le_pow_left₀ hr.le hrm 2
  linarith [sq_pos_of_pos ht0]

end Crossing

/-- How a corner on the circle of radius `r` may be off the base, on the circle of radius `m`, of a
head that turns by `turn` from there. -/
structure Leans (turn m r off : ℝ) : Prop where
  acute : |off| ≤ 90
  ahead : m ≤ r → |off| ≤ |turn| / 2
  behind : r ≤ m → |turn| < 180 → 0 ≤ turn → off ≤ 0
  behind_back : r ≤ m → |turn| < 180 → turn ≤ 0 → 0 ≤ off

theorem Leans.zero (turn m r : ℝ) : Leans turn m r 0 where
  acute := by norm_num
  ahead _ := by rw [abs_zero]; positivity
  behind _ _ _ := le_rfl
  behind_back _ _ _ := le_rfl

/-- The corners of two heads that turn away from each other lean towards each other by no more than
the one turn. -/
theorem Leans.sub_le {turn m r off off' : ℝ} (h0 : 0 ≤ turn) (h : Leans turn m r off)
    (h' : Leans (-turn) m r off') : off - off' ≤ turn := by
  have hacute := (abs_le.1 h.acute).2
  have hacute' := (abs_le.1 h'.acute).1
  rcases le_or_gt 180 turn with hturn | hturn
  · linarith
  have habs : |turn| < 180 := by rwa [abs_of_nonneg h0]
  rcases le_total m r with hmr | hrm
  · have hahead := (abs_le.1 (h.ahead hmr)).2
    have hahead' := (abs_le.1 (h'.ahead hmr)).1
    rw [abs_of_nonneg h0] at hahead
    rw [abs_neg, abs_of_nonneg h0] at hahead'
    linarith
  · have hbehind := h.behind hrm habs h0
    have hbehind' := h'.behind_back hrm (by rwa [abs_neg]) (neg_nonpos.2 h0)
    linarith

section Corner

variable (deg turn : ℝ) {m r : ℝ} (hm : 0 < m)
include hm

/-- A corner of a head, by its coordinates along the base and across it. Halfway to the tip is
`turn / 2` on; `t` is how far out along the base line the corner is. -/
theorem headCorner_eq (r : ℝ) :
    let u := bearing (turn / 2)
    let corner := headCorner (unitAt deg * m) (unitAt (deg + turn) * m) deg r
    corner = bearing deg * r ∨
      ∃ side t : ℝ, (side = 1 ∨ side = -1) ∧ 0 ≤ side * u.x ∧ -(side * u.x * m) ≤ t ∧
        t ^ 2 + 2 * (side * u.x * m) * t + m ^ 2 = r ^ 2 ∧
        corner = bearing deg * m + bearing (deg + turn / 2) * side * t := by
  intro u corner
  obtain ⟨side, hside, hout, hn⟩ := outwardNormal_eq deg turn hm
  have hunit : (bearing (deg + turn / 2) * side).x ^ 2 +
      (bearing (deg + turn / 2) * side).y ^ 2 = 1 := by
    rw [bearing_mul_sq]
    rcases hside with rfl | rfl <;> norm_num
  have hdot : (unitAt deg * m).dot (bearing (deg + turn / 2) * side) = side * u.x * m := by
    change (bearing deg * m).dot _ = _
    rw [dot_real, bearing_from_half deg turn]
    simp only [Point.mul_x, Point.mul_y, u]
    linear_combination side * (bearing (turn / 2)).x * m * bearing_norm (deg + turn / 2)
  have hbase : (unitAt deg * m).x ^ 2 + (unitAt deg * m).y ^ 2 = m ^ 2 := bearing_mul_sq deg m
  rcases circleCrossings_of_unit (unitAt deg * m) hunit r with h | ⟨first, t, h, hlo, ht⟩
  · left
    simp only [corner, headCorner, hn, h]
    rfl
  · right
    rw [hdot] at hlo ht
    rw [hbase] at ht
    refine ⟨side, t, hside, hout, hlo, ht, ?_⟩
    simp only [corner, headCorner, hn, h]
    rfl

/-- Every corner of a head is on its circle. -/
theorem headCorner_norm (hr : 0 ≤ r) :
    (headCorner (unitAt deg * m) (unitAt (deg + turn) * m) deg r).norm = r := by
  rcases headCorner_eq deg turn hm r with h | ⟨side, t, hside, -, -, ht, h⟩
  · rw [h, norm_bearing_mul, abs_of_nonneg hr]
  · have hside' : side ^ 2 = 1 := by rcases hside with rfl | rfl <;> norm_num
    apply norm_eq_of_sq hr
    rw [h, bearing_from_half deg turn, ← ht]
    have hc := bearing_norm (deg + turn / 2)
    have hu := bearing_norm (turn / 2)
    simp only [Point.add_x, Point.add_y, Point.mul_x, Point.mul_y]
    set c := bearing (deg + turn / 2)
    set u := bearing (turn / 2)
    linear_combination
      (m ^ 2 * (u.x ^ 2 + u.y ^ 2) + side ^ 2 * t ^ 2 + 2 * side * u.x * m * t) * hc +
        m ^ 2 * hu + t ^ 2 * hside'

/-- Every corner is off the base by a quarter turn at most: by half the way to the tip at most if
its circle is the larger one, and away from the tip if it is the smaller one. -/
theorem headCorner_leans (hr : 0 < r) :
    ∃ off : ℝ, headCorner (unitAt deg * m) (unitAt (deg + turn) * m) deg r =
      bearing (deg + off) * r ∧ Leans turn m r off := by
  rcases headCorner_eq deg turn hm r with h | ⟨side, t, hside, hout, hlo, ht, h⟩
  · exact ⟨0, by rw [h, add_zero], .zero turn m r⟩
  set u := bearing (turn / 2)
  have hu : u.x ^ 2 + u.y ^ 2 = 1 := bearing_norm _
  have hside' : side ^ 2 = 1 := by rcases hside with rfl | rfl <;> norm_num
  have hshare : (side * u.x) ^ 2 ≤ 1 := by
    rw [mul_pow, hside', one_mul]
    linarith [sq_nonneg u.y]
  have hlength : (m + side * u.x * t) ^ 2 + (side * u.y * t) ^ 2 = r ^ 2 := by
    rw [← ht]
    linear_combination side ^ 2 * t ^ 2 * hu + t ^ 2 * hside'
  have hx := bearing_rise_x hr (crossing_ahead hm hout hshare hlo) hlength
  have hy := bearing_rise_y hr hlength
  have hacute := abs_rise_le (side * u.y * t) r
  -- a turn of less than a half turn leaves the base line pointing ahead
  have hnear (hturn : |turn| < 180) : side = 1 ∧ 0 < u.x := by
    have hux : 0 < u.x := bearing_x_pos (by rw [abs_div, abs_two]; linarith)
    refine ⟨hside.resolve_right fun hback => ?_, hux⟩
    rw [hback] at hout
    linarith
  refine ⟨rise (side * u.y * t) r, ?_, hacute, fun hmr => ?_, fun hrm hturn h0 => ?_,
    fun hrm hturn h0 => ?_⟩
  · rw [h, bearing_add deg (rise _ r), bearing_add deg (turn / 2)]
    ext
    · simp only [Point.add_x, Point.mul_x]
      linear_combination (bearing deg).y * hy - (bearing deg).x * hx
    · simp only [Point.add_y, Point.mul_y]
      linear_combination -(bearing deg).y * hx - (bearing deg).x * hy
  · rcases le_or_gt 180 |turn| with hturn | hturn
    · linarith
    obtain ⟨rfl, hux⟩ := hnear hturn
    have ht0 : 0 ≤ t := crossing_nonneg hm (by rwa [one_mul]) hlo ht hmr
    have htr : t ≤ r := crossing_le hm hr hout ht ht0
    have hhalf : |turn| / 2 = |turn / 2| := by rw [abs_div, abs_two]
    apply abs_rise_le_of hr (by positivity) (by linarith)
    rw [one_mul, abs_mul, abs_of_nonneg ht0, hhalf, ← abs_bearing_y (by linarith)]
    exact mul_le_mul_of_nonneg_left htr (abs_nonneg _)
  · obtain ⟨rfl, -⟩ := hnear hturn
    have huy : 0 ≤ u.y := bearing_y_nonneg (by linarith) (by linarith [(abs_lt.1 hturn).2])
    rw [one_mul]
    exact rise_nonpos hr (mul_nonpos_of_nonneg_of_nonpos huy (crossing_nonpos hm hr hout ht hrm))
  · obtain ⟨rfl, -⟩ := hnear hturn
    have huy : u.y ≤ 0 := bearing_y_nonpos (by linarith) (by linarith [(abs_lt.1 hturn).1])
    rw [one_mul]
    exact rise_nonneg hr (mul_nonneg_of_nonpos_of_nonpos huy (crossing_nonpos hm hr hout ht hrm))

end Corner

end Shape

end
end ShapeOutline
