import ShapeOutline.Proofs.ArcPieces
import ShapeOutline.Proofs.Phase

/-! The two flags of an arc segment single out its ellipse. Of the ellipses with
the given radii through both ends, the one about the centre is the only one on
which the arc that the flags describe exists, and this survives a scale of the
axes. -/

namespace ShapeOutline
noncomputable section

def cross (a b : Point ℝ) : ℝ := a.x * b.y - a.y * b.x

def OnEllipse (center radii p : Point ℝ) : Prop :=
  ((p.x - center.x) / radii.x) ^ 2 + ((p.y - center.y) / radii.y) ^ 2 = 1

def OnRay (origin direction p : Point ℝ) : Prop := ∃ m : ℝ, 0 < m ∧ p = origin + direction * m

namespace ArcSegment

def stretch (s : ArcSegment ℝ) (k : Point ℝ) : ArcSegment ℝ :=
  ⟨s.target.stretch k, s.center.stretch k, s.large, s.sweep⟩

/-- The ellipse about `center` carries an arc from `pen` to the target that turns as the flags say:
forwards or backwards, and by more than a half turn or not. -/
def ReadAbout (s : ArcSegment ℝ) (pen radii center : Point ℝ) : Prop :=
  ∃ t turn : ℝ, turn ≠ 0 ∧ |turn| < 2 * Real.pi ∧
    pen = center + ellipseRadius radii t ∧ s.target = center + ellipseRadius radii (t + turn) ∧
    s.sweep = decide (0 < turn) ∧ s.large = decide (Real.pi < |turn|)

/-- The ends of an arc of `sweep` degrees lie on its ellipse in the directions `u` and `v`, and the
flags leave no other centre. -/
structure SinglesOut (s : ArcSegment ℝ) (pen radii u v : Point ℝ) (sweep : ℝ) : Prop where
  pen_on : OnEllipse s.center radii pen
  target_on : OnEllipse s.center radii s.target
  pen_ray : OnRay s.center u pen
  target_ray : OnRay s.center v s.target
  cross_pos : s.large ≠ s.sweep → |sweep| ≠ 180 → 0 < cross (s.target - pen) (s.center - pen)
  cross_neg : s.large = s.sweep → |sweep| ≠ 180 → cross (s.target - pen) (s.center - pen) < 0
  cross_zero : cross (s.target - pen) (s.center - pen) = 0 ↔ |sweep| = 180
  read_iff : ∀ c, s.ReadAbout pen radii c ↔ c = s.center

end ArcSegment

theorem sin_trichotomy {turn : ℝ} (h0 : 0 < turn) (h : turn < 2 * Real.pi) :
    turn < Real.pi ∧ 0 < Real.sin turn ∨ turn = Real.pi ∧ Real.sin turn = 0 ∨
      Real.pi < turn ∧ Real.sin turn < 0 := by
  rcases lt_trichotomy turn Real.pi with hlt | rfl | hgt
  · exact Or.inl ⟨hlt, Real.sin_pos_of_pos_of_lt_pi h0 hlt⟩
  · exact Or.inr (Or.inl ⟨rfl, Real.sin_pi⟩)
  · refine Or.inr (Or.inr ⟨hgt, ?_⟩)
    rw [← Real.sin_sub_two_pi]
    exact Real.sin_neg_of_neg_of_neg_pi_lt (by linarith) (by linarith)

theorem sin_sign {turn : ℝ} (h0 : turn ≠ 0) (h : |turn| < 2 * Real.pi) :
    (decide (Real.pi < |turn|) ≠ decide (0 < turn) → |turn| ≠ Real.pi → 0 < Real.sin turn) ∧
    (decide (Real.pi < |turn|) = decide (0 < turn) → |turn| ≠ Real.pi → Real.sin turn < 0) ∧
    (Real.sin turn = 0 ↔ |turn| = Real.pi) := by
  rcases lt_or_gt_of_ne h0 with hneg | hpos
  · rw [abs_of_neg hneg] at h ⊢
    rcases sin_trichotomy (neg_pos.2 hneg) h with ⟨h1, h2⟩ | ⟨h1, h2⟩ | ⟨h1, h2⟩ <;>
      rw [Real.sin_neg] at h2 <;> grind
  · rw [abs_of_pos hpos] at h ⊢
    rcases sin_trichotomy hpos h with ⟨h1, h2⟩ | ⟨h1, h2⟩ | ⟨h1, h2⟩ <;> grind

theorem cross_spokes (center radii : Point ℝ) (t turn : ℝ) :
    cross ((center + ellipseRadius radii (t + turn)) - (center + ellipseRadius radii t))
      (center - (center + ellipseRadius radii t)) = radii.x * radii.y * Real.sin turn := by
  have hx (u : ℝ) : (ellipseRadius radii u).x = radii.x * Real.cos u := rfl
  have hy (u : ℝ) : (ellipseRadius radii u).y = radii.y * Real.sin u := rfl
  have hturn : Real.sin turn =
      Real.sin (t + turn) * Real.cos t - Real.cos (t + turn) * Real.sin t := by
    rw [← Real.sin_sub, add_sub_cancel_left]
  simp only [cross, Point.sub_x, Point.sub_y, Point.add_x, Point.add_y, hx, hy, hturn]
  ring

theorem onEllipse_spoke {radii : Point ℝ} (hr : radii.Positive) (center : Point ℝ) (t : ℝ) :
    OnEllipse center radii (center + ellipseRadius radii t) := by
  have hx : (center + ellipseRadius radii t).x - center.x = radii.x * Real.cos t :=
    add_sub_cancel_left _ _
  have hy : (center + ellipseRadius radii t).y - center.y = radii.y * Real.sin t :=
    add_sub_cancel_left _ _
  rw [OnEllipse, hx, hy, mul_div_cancel_left₀ _ hr.1.ne', mul_div_cancel_left₀ _ hr.2.ne']
  exact Real.cos_sq_add_sin_sq t

/-- Two unit vectors from one end of a chord whose tips are also at unit distance from the other
end are equal if they lie on the same side of the chord. -/
theorem unit_unique {ux uy vx vy wx wy : ℝ} (hu : ux ^ 2 + uy ^ 2 ≠ 0)
    (hv : vx ^ 2 + vy ^ 2 = 1) (hv' : (ux - vx) ^ 2 + (uy - vy) ^ 2 = 1)
    (hw : wx ^ 2 + wy ^ 2 = 1) (hw' : (ux - wx) ^ 2 + (uy - wy) ^ 2 = 1)
    (hside : 0 ≤ (ux * vy - uy * vx) * (ux * wy - uy * wx)) : vx = wx ∧ vy = wy := by
  have hdot : ux * vx + uy * vy = ux * wx + uy * wy := by linarith
  have hsq : (ux * vy - uy * vx) ^ 2 = (ux * wy - uy * wx) ^ 2 := by
    have hlagrange (x y : ℝ) : (ux * y - uy * x) ^ 2 =
        (ux ^ 2 + uy ^ 2) * (x ^ 2 + y ^ 2) - (ux * x + uy * y) ^ 2 := by ring
    rw [hlagrange, hlagrange, hv, hw, hdot]
  have hcross : ux * vy - uy * vx = ux * wy - uy * wx := by
    rcases sq_eq_sq_iff_eq_or_eq_neg.1 hsq with h | h
    · exact h
    · rw [h] at hside ⊢
      have h0 : ux * wy - uy * wx = 0 := by nlinarith [sq_nonneg (ux * wy - uy * wx)]
      rw [h0, neg_zero]
  constructor
  · apply mul_left_cancel₀ hu
    linear_combination ux * hdot - uy * hcross
  · apply mul_left_cancel₀ hu
    linear_combination uy * hdot + ux * hcross

theorem center_unique {radii a b c c' : Point ℝ} (hr : radii.Positive) (hab : a ≠ b)
    (ha : OnEllipse c radii a) (hb : OnEllipse c radii b) (ha' : OnEllipse c' radii a)
    (hb' : OnEllipse c' radii b) (hside : 0 ≤ cross (b - a) (c - a) * cross (b - a) (c' - a)) :
    c = c' := by
  have hx := hr.1.ne'
  have hy := hr.2.ne'
  have hu : ((b.x - a.x) / radii.x) ^ 2 + ((b.y - a.y) / radii.y) ^ 2 ≠ 0 := by
    intro h0
    rw [add_eq_zero_iff_of_nonneg (sq_nonneg _) (sq_nonneg _)] at h0
    simp only [sq_eq_zero_iff, div_eq_zero_iff, hx, hy, or_false, sub_eq_zero] at h0
    exact hab (Point.ext h0.1.symm h0.2.symm)
  have hscale (v : Point ℝ) : (b.x - a.x) / radii.x * ((v.y - a.y) / radii.y) -
      (b.y - a.y) / radii.y * ((v.x - a.x) / radii.x) =
      cross (b - a) (v - a) / (radii.x * radii.y) := by
    simp only [cross, Point.sub_x, Point.sub_y]
    field_simp
  have hfar (v : Point ℝ) (h : OnEllipse v radii b) :
      ((b.x - a.x) / radii.x - (v.x - a.x) / radii.x) ^ 2 +
        ((b.y - a.y) / radii.y - (v.y - a.y) / radii.y) ^ 2 = 1 := by
    rw [← sub_div, ← sub_div, sub_sub_sub_cancel_right, sub_sub_sub_cancel_right]
    exact h
  have hnear (v : Point ℝ) (h : OnEllipse v radii a) :
      ((v.x - a.x) / radii.x) ^ 2 + ((v.y - a.y) / radii.y) ^ 2 = 1 := by
    rw [← h, ← neg_sub a.x, ← neg_sub a.y, neg_div, neg_div, neg_sq, neg_sq]
  have hsides : 0 ≤ cross (b - a) (c - a) / (radii.x * radii.y) *
      (cross (b - a) (c' - a) / (radii.x * radii.y)) := by
    rw [div_mul_div_comm]
    exact div_nonneg hside (mul_self_nonneg _)
  obtain ⟨h1, h2⟩ := unit_unique hu (hnear c ha) (hfar c hb) (hnear c' ha') (hfar c' hb')
    (by rw [hscale, hscale]; exact hsides)
  rw [div_left_inj' hx, sub_left_inj] at h1
  rw [div_left_inj' hy, sub_left_inj] at h2
  exact Point.ext h1 h2

theorem ellipseRadius_inj {radii : Point ℝ} (hr : radii.Positive) {s t : ℝ} :
    ellipseRadius radii s = ellipseRadius radii t ↔
      Real.cos s = Real.cos t ∧ Real.sin s = Real.sin t := by
  rw [Point.ext_iff]
  exact and_congr (mul_right_inj' hr.1.ne') (mul_right_inj' hr.2.ne')

theorem ellipseRadius_ne {radii : Point ℝ} (hr : radii.Positive) {turn : ℝ} (h0 : turn ≠ 0)
    (h : |turn| < 2 * Real.pi) (t : ℝ) :
    ellipseRadius radii t ≠ ellipseRadius radii (t + turn) := by
  intro heq
  obtain ⟨hcos, hsin⟩ := (ellipseRadius_inj hr).1 heq
  have hone : Real.cos turn = 1 := by
    rw [← add_sub_cancel_left t turn, Real.cos_sub, ← hcos, ← hsin, ← sq, ← sq]
    exact Real.cos_sq_add_sin_sq t
  obtain ⟨hlo, hhi⟩ := abs_lt.1 h
  exact h0 ((Real.cos_eq_one_iff_of_lt_of_lt hlo hhi).1 hone)

/-- Turns with the same two flags have sines of one sign. -/
theorem sin_mul_sin_nonneg {turn turn' : ℝ} (h0 : turn ≠ 0) (h : |turn| < 2 * Real.pi)
    (h0' : turn' ≠ 0) (h' : |turn'| < 2 * Real.pi)
    (hsweep : decide (0 < turn) = decide (0 < turn'))
    (hlarge : decide (Real.pi < |turn|) = decide (Real.pi < |turn'|)) :
    0 ≤ Real.sin turn * Real.sin turn' := by
  obtain ⟨hpos, hneg, hzero⟩ := sin_sign h0 h
  obtain ⟨hpos', hneg', hzero'⟩ := sin_sign h0' h'
  rw [← hsweep, ← hlarge] at hpos' hneg'
  by_cases hp : |turn| = Real.pi
  · rw [hzero.2 hp, zero_mul]
  by_cases hp' : |turn'| = Real.pi
  · rw [hzero'.2 hp', mul_zero]
  by_cases hd : decide (Real.pi < |turn|) = decide (0 < turn)
  · exact mul_nonneg_of_nonpos_of_nonpos (hneg hd hp).le (hneg' hd hp').le
  · exact mul_nonneg (hpos hd hp).le (hpos' hd hp').le

namespace ArcSegment

theorem ReadAbout.unique {s : ArcSegment ℝ} {pen radii c c' : Point ℝ} (hr : radii.Positive)
    (h : s.ReadAbout pen radii c) (h' : s.ReadAbout pen radii c') : c = c' := by
  obtain ⟨t, turn, h0, hlt, hpen, htarget, hsweep, hlarge⟩ := h
  obtain ⟨t', turn', h0', hlt', hpen', htarget', hsweep', hlarge'⟩ := h'
  have hside : cross (s.target - pen) (c - pen) = radii.x * radii.y * Real.sin turn := by
    rw [htarget, hpen]
    exact cross_spokes c radii t turn
  have hside' : cross (s.target - pen) (c' - pen) = radii.x * radii.y * Real.sin turn' := by
    rw [htarget', hpen']
    exact cross_spokes c' radii t' turn'
  have hne : pen ≠ s.target := by
    rw [hpen, htarget]
    exact mt Point.add_eq_add_iff.1 (ellipseRadius_ne hr h0 hlt t)
  have hsin := sin_mul_sin_nonneg h0 hlt h0' hlt' (hsweep.symm.trans hsweep')
    (hlarge.symm.trans hlarge')
  apply center_unique hr hne (hpen ▸ onEllipse_spoke hr c t) (htarget ▸ onEllipse_spoke hr c _)
    (hpen' ▸ onEllipse_spoke hr c' t') (htarget' ▸ onEllipse_spoke hr c' _)
  rw [hside, hside', mul_mul_mul_comm]
  exact mul_nonneg (mul_self_nonneg _) hsin

/-- A segment that can be read about its own centre is singled out. -/
theorem singlesOut_of_turn {s : ArcSegment ℝ} {pen radii u v : Point ℝ} {sweep t turn : ℝ}
    (hr : radii.Positive) (h0 : turn ≠ 0) (h : |turn| < 2 * Real.pi)
    (hpen : pen = s.center + ellipseRadius radii t)
    (htarget : s.target = s.center + ellipseRadius radii (t + turn))
    (hsweep : s.sweep = decide (0 < turn)) (hlarge : s.large = decide (Real.pi < |turn|))
    (hhalf : |turn| = Real.pi ↔ |sweep| = 180) (hu : OnRay s.center u pen)
    (hv : OnRay s.center v s.target) : s.SinglesOut pen radii u v sweep := by
  have hside : cross (s.target - pen) (s.center - pen) = radii.x * radii.y * Real.sin turn := by
    rw [htarget, hpen]
    exact cross_spokes s.center radii t turn
  have hrad : 0 < radii.x * radii.y := mul_pos hr.1 hr.2
  obtain ⟨hpos, hneg, hzero⟩ := sin_sign h0 h
  rw [← hsweep, ← hlarge] at hpos hneg
  refine ⟨hpen ▸ onEllipse_spoke hr _ t, htarget ▸ onEllipse_spoke hr _ _, hu, hv, ?_, ?_, ?_, ?_⟩
  · intro hd hs
    rw [hside]
    exact mul_pos hrad (hpos hd (hhalf.not.2 hs))
  · intro hd hs
    rw [hside]
    exact mul_neg_of_pos_of_neg hrad (hneg hd (hhalf.not.2 hs))
  · rw [hside, mul_eq_zero, or_iff_right hrad.ne', hzero, hhalf]
  · have hread : s.ReadAbout pen radii s.center := ⟨t, turn, h0, h, hpen, htarget, hsweep, hlarge⟩
    exact fun c => ⟨fun hc => hc.unique hr hread, fun hc => hc ▸ hread⟩

end ArcSegment

theorem onRay_spoke {radii : Point ℝ} (hr : radii.Positive) (center : Point ℝ) (deg : ℝ) :
    OnRay center (bearing deg) (center + spoke radii deg) :=
  ⟨spokeLength radii deg, spokeLength_pos hr deg, by rw [spoke_eq hr]⟩

theorem OnRay.stretch {origin direction p : Point ℝ} (h : OnRay origin direction p) (k : Point ℝ) :
    OnRay (origin.stretch k) (direction.stretch k) (p.stretch k) := by
  obtain ⟨m, hm, rfl⟩ := h
  refine ⟨m, hm, ?_⟩
  ext
  · simp only [Point.stretch_x, Point.add_x, Point.mul_x]
    ring
  · simp only [Point.stretch_y, Point.add_y, Point.mul_y]
    ring

theorem stretch_spoke (center radii k : Point ℝ) (t : ℝ) :
    (center + ellipseRadius radii t).stretch k =
      center.stretch k + ellipseRadius (radii.stretch k) t := by
  ext
  · change (center.x + radii.x * Real.cos t) * k.x = center.x * k.x + radii.x * k.x * Real.cos t
    ring
  · change (center.y + radii.y * Real.sin t) * k.y = center.y * k.y + radii.y * k.y * Real.sin t
    ring

/-- The ends of an arc lie on its ellipse, on the rays of the angles where it starts and stops, and
its flags choose this ellipse; all of which a scale of the axes carries to the scaled ellipse and
the scaled rays. -/
theorem arcSegment_singlesOut (pen : Point ℝ) {radii k : Point ℝ} (start : ℝ) {sweep : ℝ}
    (hr : radii.Positive) (hk : k.Positive) (h0 : sweep ≠ 0) (h : |sweep| < 360) :
    let s := arcSegment pen radii start sweep
    s.SinglesOut pen radii (bearing start) (bearing (start + sweep)) sweep ∧
      (s.stretch k).SinglesOut (pen.stretch k) (radii.stretch k) ((bearing start).stretch k)
        ((bearing (start + sweep)).stretch k) sweep := by
  intro s
  have hs : s = ⟨arcEnd pen radii start sweep, arcCenter pen radii start, decide (180 < |sweep|),
      decide (0 < sweep)⟩ := arcSegment_eq pen radii start sweep
  have hpenRay : pen = s.center + spoke radii start := by
    rw [hs, ← ellipsePoint_eq, ellipsePoint_arcCenter]
  have htargetRay : s.target = s.center + spoke radii (start + sweep) := by
    rw [hs]; rfl
  have hu : OnRay s.center (bearing start) pen := by
    rw [hpenRay]; exact onRay_spoke hr _ start
  have hv : OnRay s.center (bearing (start + sweep)) s.target := by
    rw [htargetRay]; exact onRay_spoke hr _ _
  have hpen : pen = s.center + ellipseRadius radii (phase radii start) := by
    rw [← spoke_phase hr]; exact hpenRay
  have htarget : s.target = s.center +
      ellipseRadius radii (phase radii start + phaseTurn radii start sweep) := by
    rw [phaseTurn, add_sub_cancel, ← spoke_phase hr]; exact htargetRay
  have hsweep : s.sweep = decide (0 < phaseTurn radii start sweep) := by
    rw [hs, decide_eq_decide]; exact (phaseTurn_pos hr).symm
  have hlarge : s.large = decide (Real.pi < |phaseTurn radii start sweep|) := by
    rw [hs, decide_eq_decide]; exact (pi_lt_abs_phaseTurn hr).symm
  have hne : phaseTurn radii start sweep ≠ 0 := (phaseTurn_ne_zero hr).2 h0
  have hlt : |phaseTurn radii start sweep| < 2 * Real.pi := (abs_phaseTurn_lt hr).2 h
  have hhalf : |phaseTurn radii start sweep| = Real.pi ↔ |sweep| = 180 := abs_phaseTurn_eq_pi hr
  constructor
  · exact ArcSegment.singlesOut_of_turn hr hne hlt hpen htarget hsweep hlarge hhalf hu hv
  · have hpenScaled := (congrArg (Point.stretch · k) hpen).trans (stretch_spoke _ _ _ _)
    have htargetScaled := (congrArg (Point.stretch · k) htarget).trans (stretch_spoke _ _ _ _)
    exact ArcSegment.singlesOut_of_turn (hr.stretch hk) hne hlt hpenScaled htargetScaled hsweep
      hlarge hhalf (hu.stretch k) (hv.stretch k)

/-- Three quarters of an ellipse, backwards. -/
theorem arcSegment_singlesOut_back :
    (⟨20, 10⟩ : Point ℝ).Positive ∧ (⟨3, 1 / 2⟩ : Point ℝ).Positive ∧ (-270 : ℝ) ≠ 0 ∧
      |(-270 : ℝ)| < 360 ∧
      (let s := arcSegment (⟨7, -5⟩ : Point ℝ) ⟨20, 10⟩ 45 (-270)
      s.SinglesOut ⟨7, -5⟩ ⟨20, 10⟩ (bearing 45) (bearing (45 + -270)) (-270) ∧
        (s.stretch ⟨3, 1 / 2⟩).SinglesOut ((⟨7, -5⟩ : Point ℝ).stretch ⟨3, 1 / 2⟩)
          ((⟨20, 10⟩ : Point ℝ).stretch ⟨3, 1 / 2⟩) ((bearing 45).stretch ⟨3, 1 / 2⟩)
          ((bearing (45 + -270)).stretch ⟨3, 1 / 2⟩) (-270)) := by
  have hr : (⟨20, 10⟩ : Point ℝ).Positive := ⟨by norm_num, by norm_num⟩
  have hk : (⟨3, 1 / 2⟩ : Point ℝ).Positive := ⟨by norm_num, by norm_num⟩
  have h0 : (-270 : ℝ) ≠ 0 := by norm_num
  have h : |(-270 : ℝ)| < 360 := by norm_num
  exact ⟨hr, hk, h0, h, arcSegment_singlesOut ⟨7, -5⟩ 45 hr hk h0 h⟩

/-- A scale that is not the same on both axes takes the end of an arc off the ray of its angle. -/
theorem stretched_end_off_ray :
    let s := arcSegment (⟨20, 10⟩ : Point ℝ) ⟨10, 10⟩ 0 45
    ¬OnRay (s.stretch ⟨2, 1⟩).center (bearing (0 + 45)) (s.stretch ⟨2, 1⟩).target := by
  intro s
  have hr : (⟨10, 10⟩ : Point ℝ).Positive := ⟨by norm_num, by norm_num⟩
  have htarget : s.target = s.center + bearing (0 + 45) * spokeLength ⟨10, 10⟩ (0 + 45) := by
    rw [← spoke_eq hr]; rfl
  have hlen := spokeLength_pos hr (0 + 45)
  have hangle : radians (0 + 45 : ℝ) = Real.pi / 4 := by rw [radians_real]; ring
  have hx : 0 < (bearing (0 + 45)).x := by
    change 0 < Real.cos _
    rw [hangle, Real.cos_pi_div_four]
    positivity
  have hy : 0 < (bearing (0 + 45)).y := by
    change 0 < Real.sin _
    rw [hangle, Real.sin_pi_div_four]
    positivity
  rintro ⟨m, -, hm⟩
  change s.target.stretch ⟨2, 1⟩ = s.center.stretch ⟨2, 1⟩ + bearing (0 + 45) * m at hm
  rw [htarget] at hm
  have hmx := congrArg Point.x hm
  have hmy := congrArg Point.y hm
  simp only [Point.stretch_x, Point.add_x, Point.mul_x] at hmx
  simp only [Point.stretch_y, Point.add_y, Point.mul_y] at hmy
  -- the two coordinates ask for different multiples of the direction
  have h2 : m = 2 * spokeLength ⟨10, 10⟩ (0 + 45) := mul_left_cancel₀ hx.ne' (by linarith)
  have h1 : m = spokeLength ⟨10, 10⟩ (0 + 45) := mul_left_cancel₀ hy.ne' (by linarith)
  linarith

end
end ShapeOutline
