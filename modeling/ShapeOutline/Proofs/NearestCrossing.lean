import ShapeOutline.Proofs.BaseLine

/-! The corners of a head as crossings. The base line runs through the base at a right
angle to the way to the tip, and a corner is where it meets a circle about the origin. Of
the two crossings it is the one nearest to the base: on the outward side if the circle is
the larger one, and on either side if it is the smaller one. -/

namespace ShapeOutline
noncomputable section

theorem Point.norm_nonneg (p : Point ℝ) : 0 ≤ p.norm := Real.sqrt_nonneg _

theorem Point.norm_eq_zero_iff (p : Point ℝ) : p.norm = 0 ↔ p = .zero := by
  rw [← abs_zero, norm_eq_abs_iff, zero_pow two_ne_zero, normSq_eq_zero_iff]

theorem Point.sq_norm (p : Point ℝ) : p.norm ^ 2 = p.normSq := Real.sq_sqrt (normSq_nonneg p)

theorem Point.norm_mul (p : Point ℝ) (t : ℝ) : (p * t).norm = p.norm * |t| := by
  have hsq : (p * t).normSq = (p.norm * t) ^ 2 := by
    rw [mul_pow, p.sq_norm, normSq_real, normSq_real, mul_x, mul_y]
    ring
  rw [(norm_eq_abs_iff _ _).2 hsq, abs_mul, abs_of_nonneg p.norm_nonneg]

theorem Point.sub_eq_iff (a b v : Point ℝ) : b - a = v ↔ b = a + v := by
  simp only [Point.ext_iff, sub_x, sub_y, add_x, add_y, sub_eq_iff_eq_add']

theorem Point.dot_comm (a b : Point ℝ) : a.dot b = b.dot a := by
  rw [dot_real, dot_real, mul_comm, mul_comm a.y]

section Direction

variable {p : Point ℝ} (hp : 0 < p.norm)
include hp

theorem direction_of_norm_pos : p.direction = p * (1 / p.norm) := by
  rw [direction_real, if_pos hp]

theorem norm_direction : p.direction.norm = 1 := by
  rw [direction_of_norm_pos hp, p.norm_mul, abs_of_pos (by positivity), mul_one_div_cancel hp.ne']

/-- What leans to neither side of a vector is a multiple of its direction. -/
theorem cross_eq_zero_iff (v : Point ℝ) : cross p v = 0 ↔ ∃ t : ℝ, v = p.direction * t := by
  have hsq : p.x ^ 2 + p.y ^ 2 = p.norm ^ 2 := by rw [p.sq_norm, normSq_real]
  rw [direction_of_norm_pos hp]
  constructor
  · intro h
    rw [cross] at h
    -- how far the vector reaches in that direction
    refine ⟨p.dot v / p.norm, ?_⟩
    rw [dot_real]
    ext
    · rw [Point.mul_x, Point.mul_x]
      field_simp
      linear_combination -p.y * h - v.x * hsq
    · rw [Point.mul_y, Point.mul_y]
      field_simp
      linear_combination p.x * h - v.y * hsq
  · rintro ⟨t, rfl⟩
    simp only [cross, Point.mul_x, Point.mul_y]
    ring

end Direction

/-- The point of a set that is nearer to `a` than any other of its points. -/
structure IsNearest (a : Point ℝ) (s : Set (Point ℝ)) (q : Point ℝ) : Prop where
  mem : q ∈ s
  lt : ∀ p ∈ s, p ≠ q → (q - a).norm < (p - a).norm

namespace Shape

/-- On the line through the base at a right angle to the way to the tip. Where there is no such way,
this is the line through the base and the origin. -/
def OnBaseLine (base tip q : Point ℝ) : Prop :=
  (tip - base).dot (q - base) = 0 ∧ (tip = base → cross base (q - base) = 0)

/-- A unit vector along the base line. -/
structure BaseDirection (base tip n : Point ℝ) : Prop where
  unit : n.norm = 1
  along : ∀ q, OnBaseLine base tip q ↔ ∃ t : ℝ, q = base + n * t

/-- Where the base line meets the circle of radius `r` about the origin. -/
def baseMeetings (base tip : Point ℝ) (r : ℝ) : Set (Point ℝ) :=
  {q | OnBaseLine base tip q ∧ q.norm = r}

theorem BaseDirection.of_axis {base tip axis : Point ℝ} (haxis : 0 < axis.norm)
    (hline : ∀ q, OnBaseLine base tip q ↔ cross axis (q - base) = 0) :
    BaseDirection base tip axis.direction where
  unit := norm_direction haxis
  along q := by
    rw [hline, cross_eq_zero_iff haxis]
    simp only [Point.sub_eq_iff]

theorem BaseDirection.neg {base tip n : Point ℝ} (h : BaseDirection base tip n) :
    BaseDirection base tip (-n) where
  unit := by
    rw [norm_real, Point.neg_x, Point.neg_y, neg_sq, neg_sq, ← norm_real, h.unit]
  along q := by
    have hswap (t : ℝ) : -n * t = n * -t := by ext <;> simp
    simp only [h.along, hswap]
    exact neg_surjective.exists (p := fun t : ℝ => q = base + n * t)

section Normal

variable (base tip : Point ℝ)

/-- The way to the tip, turned by a quarter. -/
def chordNormal : Point ℝ := ⟨-(tip - base).y, (tip - base).x⟩

theorem norm_chordNormal_eq_zero_iff : (chordNormal base tip).norm = 0 ↔ tip = base := by
  have hnorm : (chordNormal base tip).norm = (tip - base).norm := by
    rw [norm_real, norm_real, chordNormal, neg_sq, add_comm]
  rw [hnorm, Point.norm_eq_zero_iff, Point.sub_eq_iff, Point.ext_iff, Point.ext_iff]
  simp [Point.zero]

theorem cross_chordNormal (v : Point ℝ) :
    cross (chordNormal base tip) v = -(tip - base).dot v := by
  rw [cross, dot_real, chordNormal]
  ring

/-- Without a chord the way from the origin stands in for its normal. -/
theorem outwardNormal_real :
    let n := if (chordNormal base tip).norm = 0 then base.direction
      else (chordNormal base tip).direction
    outwardNormal base tip = if n.dot base < 0 then -n else n := by
  have hvanishes : (chordNormal base tip).norm = 0 ↔
      (chordNormal base tip).direction.x = 0 ∧ (chordNormal base tip).direction.y = 0 := by
    constructor
    · intro h
      rw [direction_of_norm_eq_zero h]
      simp [Point.zero]
    · rintro ⟨hx, hy⟩
      by_contra h
      -- what has a length has a direction of length one
      have hunit := norm_direction ((chordNormal base tip).norm_nonneg.lt_of_ne' h)
      rw [norm_real, hx, hy] at hunit
      norm_num at hunit
  simp only [hvanishes]
  unfold outwardNormal
  simp [Scalar.beq_real, chordNormal]

end Normal

/-- Up to its sense the outward normal is taken along the base line. -/
theorem exists_baseDirection {base : Point ℝ} (hbase : 0 < base.norm) (tip : Point ℝ) :
    ∃ n, BaseDirection base tip n ∧
      outwardNormal base tip = if n.dot base < 0 then -n else n := by
  refine ⟨_, ?_, outwardNormal_real base tip⟩
  have htip := norm_chordNormal_eq_zero_iff base tip
  split_ifs with hzero
  · refine .of_axis hbase fun q => ?_
    rw [OnBaseLine, htip.1 hzero, dot_real]
    simp
  · refine .of_axis ((Point.norm_nonneg _).lt_of_ne' hzero) fun q => ?_
    rw [OnBaseLine, cross_chordNormal, neg_eq_zero, ← htip]
    simp only [hzero, false_imp_iff, and_true]

theorem outwardNormal_outward {base : Point ℝ} (hbase : 0 < base.norm) (tip : Point ℝ) :
    BaseDirection base tip (outwardNormal base tip) ∧
      0 ≤ (outwardNormal base tip).dot base := by
  obtain ⟨n, hn, hnormal⟩ := exists_baseDirection hbase tip
  rw [hnormal]
  split_ifs with hneg
  · refine ⟨hn.neg, ?_⟩
    rw [dot_real] at hneg ⊢
    rw [Point.neg_x, Point.neg_y]
    linarith
  · exact ⟨hn, not_lt.1 hneg⟩

namespace BaseDirection

variable {base tip n : Point ℝ} (hn : BaseDirection base tip n)
include hn

theorem norm_sub (t : ℝ) : (base + n * t - base).norm = |t| := by
  rw [(Point.sub_eq_iff base _ _).2 rfl, Point.norm_mul, hn.unit, one_mul]

theorem dot_sub (t : ℝ) : (base + n * t - base).dot n = t := by
  have hunit : n.x ^ 2 + n.y ^ 2 = 1 := by rw [← normSq_real, ← n.sq_norm, hn.unit, one_pow]
  rw [(Point.sub_eq_iff base _ _).2 rfl, dot_real, Point.mul_x, Point.mul_y]
  linear_combination t * hunit

theorem ne_zero : n ≠ .zero := by
  rintro rfl
  have hunit := hn.unit
  rw [(Point.norm_eq_zero_iff _).2 rfl] at hunit
  exact zero_ne_one hunit

variable {r first last : ℝ} (hr : 0 ≤ r) (h : Secant base n r first last)
include hr h

theorem meetings_eq : baseMeetings base tip r = {base + n * first, base + n * last} := by
  have hmeets (t : ℝ) : (base + n * t).norm = r ↔ t = first ∨ t = last := by
    rw [← h.meets_iff, abs_of_nonneg hr]
  ext q
  constructor
  · rintro ⟨hq, hnorm⟩
    obtain ⟨t, rfl⟩ := (hn.along q).1 hq
    rcases (hmeets t).1 hnorm with rfl | rfl
    · exact Or.inl rfl
    · exact Or.inr rfl
  · rintro (rfl | rfl)
    · exact ⟨(hn.along _).2 ⟨first, rfl⟩, (hmeets first).2 (Or.inl rfl)⟩
    · exact ⟨(hn.along _).2 ⟨last, rfl⟩, (hmeets last).2 (Or.inr rfl)⟩

variable (haway : 0 ≤ base.dot n)
include haway

/-- From within the circle the later crossing is the only one that is not behind the base. -/
theorem nearest_outward (hin : base.norm ≤ r) :
    IsNearest base {q ∈ baseMeetings base tip r | 0 ≤ (q - base).dot n} (base + n * last) := by
  have hsq : base.normSq ≤ r ^ 2 := by
    rw [← base.sq_norm]
    exact pow_le_pow_left₀ base.norm_nonneg hin 2
  rw [hn.meetings_eq hr h]
  refine ⟨⟨Or.inr rfl, ?_⟩, ?_⟩
  · rw [hn.dot_sub]
    exact h.last_nonneg hsq
  · rintro q ⟨rfl | rfl, hside⟩ hne
    -- the earlier crossing is on this side only if it is the later one too
    · rw [hn.dot_sub] at hside
      exact absurd (by rw [h.eq_last_of_nonneg haway hside]) hne
    · exact absurd rfl hne

/-- From outside of it both are behind, the later one by less. -/
theorem nearest_inward (hout : r ≤ base.norm) :
    IsNearest base (baseMeetings base tip r) (base + n * last) := by
  have hsq : r ^ 2 ≤ base.normSq := by
    rw [← base.sq_norm]
    exact pow_le_pow_left₀ hr hout 2
  have hlast := h.last_nonpos haway hsq
  rw [hn.meetings_eq hr h]
  refine ⟨Or.inr rfl, ?_⟩
  rintro q (rfl | rfl) hne
  · have hlt : first < last := h.le.lt_of_ne fun heq => hne (by rw [heq])
    rw [hn.norm_sub, hn.norm_sub, abs_of_nonpos hlast, abs_of_neg (hlt.trans_le hlast)]
    exact neg_lt_neg hlt
  · exact absurd rfl hne

end BaseDirection

/-- A corner is a crossing of the base line if there is one. -/
theorem headCorner_cases {base : Point ℝ} (hbase : 0 < base.norm) (tip : Point ℝ) (deg : ℝ) {r : ℝ}
    (hr : 0 ≤ r) :
    (headCorner base tip deg r = unitAt deg * r ∧ baseMeetings base tip r = ∅) ∨
      ∃ first last, Secant base (outwardNormal base tip) r first last ∧
        headCorner base tip deg r = base + outwardNormal base tip * last := by
  have hn := (outwardNormal_outward hbase tip).1
  rcases circleCrossings_cases base (outwardNormal base tip) r with
    ⟨hnone, hmiss⟩ | ⟨first, last, hsome, h⟩
  · refine Or.inl ⟨by simp only [headCorner, hnone], ?_⟩
    rw [Set.eq_empty_iff_forall_notMem]
    rintro q ⟨hq, hnorm⟩
    obtain ⟨t, rfl⟩ := (hn.along q).1 hq
    exact hmiss.resolve_left hn.ne_zero t (hnorm.trans (abs_of_nonneg hr).symm)
  · exact Or.inr ⟨first, last, h, by simp only [headCorner, hsome]⟩

/-- A line is found to cross a circle exactly where it does, the earlier crossing first. A corner of
a head is on its circle, wherever the tip is. If the base line meets that circle at all, the corner
is the meeting point nearest to the base: of those on the outward side if the circle is no smaller
than that of the base, and of all if it is no larger. -/
theorem baseLine_crosses_nearest :
    (∀ (p d : Point ℝ) (r : ℝ),
      (p.circleCrossings d r = none ↔ d = .zero ∨ ∀ t : ℝ, (p + d * t).norm ≠ |r|) ∧
      ∀ first last, p.circleCrossings d r = some (first, last) →
        first ≤ last ∧ ∀ t : ℝ, (p + d * t).norm = |r| ↔ t = first ∨ t = last) ∧
    ∀ (base tip : Point ℝ) (deg r : ℝ), 0 < base.norm → 0 ≤ r →
      let n := outwardNormal base tip
      let corner := headCorner base tip deg r
      BaseDirection base tip n ∧ 0 ≤ n.dot base ∧ corner.norm = r ∧
      ((baseMeetings base tip r).Nonempty →
        (base.norm ≤ r →
          IsNearest base {q ∈ baseMeetings base tip r | 0 ≤ (q - base).dot n} corner) ∧
        (r ≤ base.norm → IsNearest base (baseMeetings base tip r) corner)) := by
  constructor
  · intro p d r
    rcases circleCrossings_cases p d r with ⟨hnone, hmiss⟩ | ⟨first, last, hsome, h⟩
    · refine ⟨iff_of_true hnone hmiss, fun first last hsome => ?_⟩
      rw [hnone] at hsome
      cases hsome
    · refine ⟨iff_of_false (by simp [hsome]) ?_, fun first' last' hsome' => ?_⟩
      · rintro (hd | hmiss)
        · exact h.direction hd
        · exact hmiss last ((h.meets_iff last).2 (Or.inr rfl))
      · rw [hsome] at hsome'
        cases hsome'
        exact ⟨h.le, h.meets_iff⟩
  · intro base tip deg r hbase hr n corner
    obtain ⟨hn, haway⟩ := outwardNormal_outward hbase tip
    have haway' : 0 ≤ base.dot n := by rwa [Point.dot_comm]
    refine ⟨hn, haway, ?_⟩
    rcases headCorner_cases hbase tip deg hr with ⟨hcorner, hempty⟩ | ⟨first, last, h, hcorner⟩
    · refine ⟨?_, fun hmeet => absurd hempty hmeet.ne_empty⟩
      exact (congrArg Point.norm hcorner).trans
        ((norm_bearing_mul deg r).trans (abs_of_nonneg hr))
    · have hnorm := ((h.meets_iff last).2 (Or.inr rfl)).trans (abs_of_nonneg hr)
      simp only [corner, hcorner]
      exact ⟨hnorm, fun _ => ⟨hn.nearest_outward hr h haway', hn.nearest_inward hr h haway'⟩⟩

/-- A line through a circle, and a head whose base line leans by a slope of four to three. It meets
a larger circle ahead of the base and behind it, and a smaller one twice behind. -/
theorem baseLine_crosses_nearest_leaning :
    let base : Point ℝ := ⟨5, 0⟩
    let tip : Point ℝ := ⟨-7 / 5, 24 / 5⟩
    let n := outwardNormal base tip
    ((⟨-10, 0⟩ : Point ℝ).circleCrossings ⟨1, 0⟩ 5 = some (5, 15) ∧ (5 : ℝ) ≤ 15 ∧
      ∀ t : ℝ, ((⟨-10, 0⟩ : Point ℝ) + (⟨1, 0⟩ : Point ℝ) * t).norm = |5| ↔ t = 5 ∨ t = 15) ∧
    0 < base.norm ∧
    (base.norm ≤ 17 / 2 ∧ (⟨77 / 10, 18 / 5⟩ : Point ℝ) ∈ baseMeetings base tip (17 / 2) ∧
      IsNearest base {q ∈ baseMeetings base tip (17 / 2) | 0 ≤ (q - base).dot n}
        (headCorner base tip 0 (17 / 2))) ∧
    (41 / 10 ≤ base.norm ∧ (⟨187 / 50, -42 / 25⟩ : Point ℝ) ∈ baseMeetings base tip (41 / 10) ∧
      IsNearest base (baseMeetings base tip (41 / 10)) (headCorner base tip 0 (41 / 10))) := by
  intro base tip n
  have hcrossings : (⟨-10, 0⟩ : Point ℝ).circleCrossings ⟨1, 0⟩ 5 = some (5, 15) := by
    have hdot : (-20 : ℝ) = 2 * (⟨-10, 0⟩ : Point ℝ).dot ⟨1, 0⟩ := by norm_num [dot_real]
    have hdisc : (10 : ℝ) ^ 2 = discrim (⟨1, 0⟩ : Point ℝ).normSq (-20)
        ((⟨-10, 0⟩ : Point ℝ).normSq - 5 ^ 2) := by
      norm_num [normSq_real, discrim]
    rw [circleCrossings_real _ _ _ hdot hdisc, Real.sqrt_sq (by norm_num)]
    norm_num [normSq_real]
  have hbase : base.norm = 5 := norm_eq_of_sq (by norm_num) (by norm_num [base])
  have hpos : 0 < base.norm := by
    rw [hbase]
    norm_num
  have hmeets {x y r : ℝ} (hr : 0 ≤ r) (hline : -32 / 5 * (x - 5) + 24 / 5 * y = 0)
      (hcircle : x ^ 2 + y ^ 2 = r ^ 2) : (⟨x, y⟩ : Point ℝ) ∈ baseMeetings base tip r := by
    refine ⟨⟨?_, fun h => ?_⟩, norm_eq_of_sq hr hcircle⟩
    · rw [dot_real, ← hline]
      norm_num [base, tip]
    · have hx := congrArg Point.x h
      norm_num [base, tip] at hx
  have hlarge : (⟨77 / 10, 18 / 5⟩ : Point ℝ) ∈ baseMeetings base tip (17 / 2) :=
    hmeets (by norm_num) (by norm_num) (by norm_num)
  have hsmall : (⟨187 / 50, -42 / 25⟩ : Point ℝ) ∈ baseMeetings base tip (41 / 10) :=
    hmeets (by norm_num) (by norm_num) (by norm_num)
  have hin : base.norm ≤ 17 / 2 := by
    rw [hbase]
    norm_num
  have hout : 41 / 10 ≤ base.norm := by
    rw [hbase]
    norm_num
  obtain ⟨hexact, hnearest⟩ := baseLine_crosses_nearest
  obtain ⟨-, -, -, hahead⟩ := hnearest base tip 0 (17 / 2) hpos (by norm_num)
  obtain ⟨-, -, -, hbehind⟩ := hnearest base tip 0 (41 / 10) hpos (by norm_num)
  exact ⟨⟨hcrossings, (hexact _ _ _).2 5 15 hcrossings⟩, hpos,
    ⟨hin, hlarge, (hahead ⟨_, hlarge⟩).1 hin⟩, ⟨hout, hsmall, (hbehind ⟨_, hsmall⟩).2 hout⟩⟩

end Shape

end
end ShapeOutline
