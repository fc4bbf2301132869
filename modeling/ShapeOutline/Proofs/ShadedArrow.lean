import ShapeOutline.Proofs.CurvedBand
import ShapeOutline.Proofs.Shading

/-! The shadow of a curved arrow. The band is bounded by two half ellipses about one
centre and opens into the head; the shadow is the upper quarter of the band exactly if
the bend is no thicker than it is deep. -/

namespace ShapeOutline
noncomputable section

open Layered

/-- The guides of a curved arrow: its two half ellipses have one centre, and its head ends at the
far side. -/
structure Curved (g : CurveGuides ℝ) (w h : ℝ) : Prop where
  thickness_nonneg : 0 ≤ g.thickness
  thickness_le_head : g.thickness ≤ g.headWidth
  thickness_le_rise : g.thickness ≤ g.innerCenter
  headWidth_le : g.headWidth ≤ h / 2
  headStart_nonneg : 0 ≤ g.headStart
  headStart_le : g.headStart ≤ w
  tip_eq : g.tip = h - g.headWidth / 2
  center_eq : 2 * g.innerCenter = g.tip + g.thickness / 2
  center_pos : 0 < g.innerCenter
  outer_eq : g.outer = ⟨g.headStart, g.innerCenter⟩
  inner_max : g.inner = ⟨max (g.headStart - g.thickness) 0, g.innerCenter - g.thickness⟩

/-- The bend is no thicker than it is deep. -/
structure Bends (g : CurveGuides ℝ) (w h : ℝ) : Prop extends Curved g w h where
  thickness_le_depth : g.thickness ≤ g.headStart

theorem Bends.inner_eq {g : CurveGuides ℝ} {w h : ℝ} (hg : Bends g w h) :
    g.inner = ⟨g.headStart - g.thickness, g.innerCenter - g.thickness⟩ := by
  rw [hg.inner_max, max_eq_left (sub_nonneg.2 hg.thickness_le_depth)]

theorem ofFrame_curved {f : Frame ℝ} (hss : 0 < f.ss) {w h : ℝ} (hw : f.ss ≤ w) (hh : f.ss ≤ h) :
    Curved (CurveGuides.ofFrame f w h) w h := by
  have hf : f.Sized := ⟨hss.le.trans f.ss_le_w, hss.le.trans f.ss_le_h⟩
  have hh' := hss.trans_le hh
  obtain ⟨hthick, hthick', hhead, hstart, hstart', htip, -, hrise, houter, hinner⟩ :
      (CurveGuides.ofFrame f w h).Fits w h :=
    CurveGuides.ofFrame_fits hf (hss.le.trans hw) hh'.le
  exact ⟨hthick, hthick', by linarith, hhead, hstart, hstart', htip, hrise, by linarith, houter,
    hinner⟩

namespace Curved

variable {g : CurveGuides ℝ} {w h : ℝ} (hg : Curved g w h)

def center (g : CurveGuides ℝ) : Point ℝ := ⟨g.headStart, g.innerCenter⟩

/-- The band from the lower end of its inner edge on. -/
def bandEnd (g : CurveGuides ℝ) : Set Plane :=
  Trail.trace ⟨⟨g.headStart, g.innerCenter + g.inner.y⟩, ⟨g.headStart, 0⟩⟩
    [.arc g.inner 90 180, .close]

/-- The shadow from the upper end of its inner edge on. -/
def backEnd (g : CurveGuides ℝ) : Set Plane :=
  Trail.trace ⟨⟨g.thickness, g.innerCenter⟩, ⟨g.headStart, 0⟩⟩ [.arc g.inner 180 90, .close]

theorem bandEnd_of_not_positive (hr : ¬g.inner.Positive) :
    bandEnd g = segment ℝ (g.headStart, g.innerCenter + g.inner.y) (g.headStart, 0) ∪
      segment ℝ (g.headStart, 0) (g.headStart, 0) := by
  rw [bandEnd, Trail.trace_arc_of_not_positive _ _ _ hr, Trail.trace_close, Trail.trace_nil]
  rfl

theorem backEnd_of_not_positive (hr : ¬g.inner.Positive) :
    backEnd g = segment ℝ (g.thickness, g.innerCenter) (g.headStart, 0) ∪
      segment ℝ (g.headStart, 0) (g.headStart, 0) := by
  rw [backEnd, Trail.trace_arc_of_not_positive _ _ _ hr, Trail.trace_close, Trail.trace_nil]
  rfl

include hg

theorem band_trace (hstart : 0 < g.headStart) :
    (g.band w h).trace =
      Point.place '' arcCurve (center g) g.outer 90 180 ∪
        (segment ℝ (g.headStart, 2 * g.innerCenter) (g.headStart, h) ∪
          (segment ℝ (g.headStart, h) (w, g.tip) ∪
            (segment ℝ (w, g.tip) (g.headStart, h - g.headWidth) ∪
              (segment ℝ (g.headStart, h - g.headWidth)
                (g.headStart, g.innerCenter + g.inner.y) ∪ bandEnd g)))) := by
  have hr : g.outer.Positive := hg.outer_eq ▸ ⟨hstart, hg.center_pos⟩
  have hpen : (⟨g.headStart, 0⟩ : Point ℝ) = center g + spoke g.outer 270 := by
    rw [spoke_threeQuarters hr, hg.outer_eq]
    ext <;> simp [center]
  have hnext : center g + spoke g.outer (270 + -180) = ⟨g.headStart, 2 * g.innerCenter⟩ := by
    norm_num [spoke_ninety hr]
    rw [hg.outer_eq]
    ext <;> simp [center]
    ring
  simp only [CurveGuides.band, Scalar.zero_real]
  rw [Sketch.trace_move, Trail.trace_arc_about _ _ hr (by norm_num) (by norm_num) hpen hnext,
    arcCurve_neg]
  norm_num
  rfl

theorem back_trace (hstart : 0 < g.headStart) :
    g.back.trace =
      Point.place '' arcCurve (center g) g.outer 180 90 ∪
        (segment ℝ (0, g.innerCenter) (g.thickness, g.innerCenter) ∪ backEnd g) := by
  have hr : g.outer.Positive := hg.outer_eq ▸ ⟨hstart, hg.center_pos⟩
  have hpen : (⟨g.headStart, 0⟩ : Point ℝ) = center g + spoke g.outer 270 := by
    rw [spoke_threeQuarters hr, hg.outer_eq]
    ext <;> simp [center]
  have hnext : center g + spoke g.outer (270 + -90) = ⟨0, g.innerCenter⟩ := by
    norm_num [spoke_half hr]
    rw [hg.outer_eq]
    ext <;> simp [center]
  simp only [CurveGuides.back, Scalar.zero_real]
  rw [Sketch.trace_move, Trail.trace_arc_about _ _ hr (by norm_num) (by norm_num) hpen hnext,
    arcCurve_neg]
  norm_num
  rfl

end Curved

namespace Bends

open Curved (center bandEnd backEnd bandEnd_of_not_positive backEnd_of_not_positive)

variable {g : CurveGuides ℝ} {w h : ℝ} (hg : Bends g w h)

include hg

theorem bandEnd_of_positive (hr : g.inner.Positive) :
    bandEnd g = Point.place '' arcCurve (center g) g.inner 90 180 ∪
      (segment ℝ (g.headStart, g.thickness) (g.headStart, 0) ∪
        segment ℝ (g.headStart, 0) (g.headStart, 0)) := by
  have hpen : (⟨g.headStart, g.innerCenter + g.inner.y⟩ : Point ℝ) =
      center g + spoke g.inner 90 := by
    rw [spoke_ninety hr]
    ext <;> simp [center]
  have hnext : center g + spoke g.inner (90 + 180) = ⟨g.headStart, g.thickness⟩ := by
    norm_num [spoke_threeQuarters hr]
    rw [hg.inner_eq]
    ext <;> simp [center]
  rw [bandEnd, Trail.trace_arc_about _ _ hr (by norm_num) (by norm_num) hpen hnext,
    Trail.trace_close, Trail.trace_nil]
  rfl

theorem backEnd_of_positive (hr : g.inner.Positive) :
    backEnd g = Point.place '' arcCurve (center g) g.inner 180 90 ∪
      (segment ℝ (g.headStart, g.thickness) (g.headStart, 0) ∪
        segment ℝ (g.headStart, 0) (g.headStart, 0)) := by
  have hpen : (⟨g.thickness, g.innerCenter⟩ : Point ℝ) = center g + spoke g.inner 180 := by
    rw [spoke_half hr, hg.inner_eq]
    ext <;> simp [center]
  have hnext : center g + spoke g.inner (180 + 90) = ⟨g.headStart, g.thickness⟩ := by
    norm_num [spoke_threeQuarters hr]
    rw [hg.inner_eq]
    ext <;> simp [center]
  rw [backEnd, Trail.trace_arc_about _ _ hr (by norm_num) (by norm_num) hpen hnext,
    Trail.trace_close, Trail.trace_nil]
  rfl

section Edge

variable (hstart : 0 < g.headStart) {p : Plane}

include hstart

theorem outer_mem (hx : p.1 ≤ g.headStart) (hoff : offEllipse (center g) g.outer p = 0) :
    p ∈ (g.band w h).trace := by
  have hr : g.outer.Positive := hg.outer_eq ▸ ⟨hstart, hg.center_pos⟩
  rw [hg.band_trace hstart]
  refine .inl ((mem_arc_half hr 90).2 ⟨hoff, ?_⟩)
  simpa [bearing_ninety, center] using hx

theorem inner_mem (hr : g.inner.Positive) (hx : p.1 ≤ g.headStart)
    (hoff : offEllipse (center g) g.inner p = 0) : p ∈ (g.band w h).trace := by
  rw [hg.band_trace hstart, hg.bandEnd_of_positive hr]
  refine .inr (.inr (.inr (.inr (.inr (.inl ((mem_arc_half hr 90).2 ⟨hoff, ?_⟩))))))
  simpa [bearing_ninety, center] using hx

theorem lower_mem (hx : p.1 = g.headStart) (hy : 2 * g.innerCenter ≤ p.2) (hy' : p.2 ≤ h) :
    p ∈ (g.band w h).trace := by
  rw [hg.band_trace hstart]
  exact .inr (.inl (mem_segment_vertical hy hy' hx))

theorem upper_mem (hx : p.1 = g.headStart) (hy : h - g.headWidth ≤ p.2)
    (hy' : p.2 ≤ g.innerCenter + g.inner.y) : p ∈ (g.band w h).trace := by
  rw [hg.band_trace hstart]
  exact .inr (.inr (.inr (.inr (.inl (mem_segment_vertical hy hy' hx)))))

theorem start_mem (hx : p.1 = g.headStart) (hy : 0 ≤ p.2)
    (hy' : p.2 ≤ g.thickness ∨ ¬g.inner.Positive ∧ p.2 ≤ g.innerCenter + g.inner.y) :
    p ∈ (g.band w h).trace := by
  have hthick : g.thickness ≤ g.innerCenter + g.inner.y := by
    rw [hg.inner_eq]
    linarith [hg.thickness_le_rise]
  rw [hg.band_trace hstart]
  refine .inr (.inr (.inr (.inr (.inr ?_))))
  by_cases hr : g.inner.Positive
  · rw [hg.bandEnd_of_positive hr, segment_symm ℝ (g.headStart, g.thickness)]
    refine .inr (.inl (mem_segment_vertical hy ?_ hx))
    exact hy'.resolve_right fun h => h.1 hr
  · rw [bandEnd_of_not_positive hr, segment_symm ℝ (g.headStart, g.innerCenter + g.inner.y)]
    exact .inl (mem_segment_vertical hy (hy'.elim (fun h => h.trans hthick) And.right) hx)

theorem head_mem (hleft : g.headStart ≤ p.1) (hright : p.1 ≤ w) (htop : h - g.headWidth ≤ p.2)
    (hbottom : p.2 ≤ h)
    (hline : (p.1 - g.headStart) * (g.headWidth / 2) = (h - p.2) * (w - g.headStart) ∨
      (p.1 - g.headStart) * (g.headWidth / 2) =
        (p.2 - (h - g.headWidth)) * (w - g.headStart)) : p ∈ (g.band w h).trace := by
  rw [hg.band_trace hstart, hg.tip_eq]
  rcases hg.headStart_le.eq_or_lt with hw | hw
  · -- the head is flat
    have hx : p.1 = g.headStart := le_antisymm (hw ▸ hright) hleft
    rw [← hw]
    rcases le_total p.2 (h - g.headWidth / 2) with hy | hy
    · rw [segment_symm ℝ (_, h - g.headWidth / 2)]
      exact .inr (.inr (.inr (.inl (mem_segment_vertical htop hy hx))))
    · rw [segment_symm ℝ (_, h)]
      exact .inr (.inr (.inl (mem_segment_vertical hy hbottom hx)))
  · rcases hline with hline | hline
    · exact .inr (.inr (.inl (mem_segment_slanted hw hleft hright (by linarith))))
    · rw [segment_symm ℝ (w, h - g.headWidth / 2)]
      exact .inr (.inr (.inr (.inl (mem_segment_slanted hw hleft hright (by linarith)))))

end Edge

end Bends

/-- The bend, from its outer edge to its inner one. -/
@[mk_iff]
structure InBend (g : CurveGuides ℝ) (p : Plane) : Prop where
  left : p.1 ≤ g.headStart
  outer : offEllipse (Curved.center g) g.outer p ≤ 0
  inner : 0 ≤ offEllipse (Curved.center g) g.inner p

@[mk_iff]
structure InHead (g : CurveGuides ℝ) (w h : ℝ) (p : Plane) : Prop where
  left : g.headStart ≤ p.1
  right : p.1 ≤ w
  top : h - g.headWidth ≤ p.2
  bottom : p.2 ≤ h
  lower : (p.1 - g.headStart) * (g.headWidth / 2) ≤ (h - p.2) * (w - g.headStart)
  upper : (p.1 - g.headStart) * (g.headWidth / 2) ≤ (p.2 - (h - g.headWidth)) * (w - g.headStart)

/-- An ellipse without an extent has no inside. -/
theorem offEllipse_nonneg_of_not_positive {center radii : Point ℝ} (hx : 0 ≤ radii.x)
    (hy : 0 ≤ radii.y) (hr : ¬radii.Positive) (p : Plane) : 0 ≤ offEllipse center radii p := by
  have hflat : radii.x * radii.y = 0 := by
    by_contra h
    exact hr ⟨hx.lt_of_ne fun h0 => h (by rw [← h0, zero_mul]),
      hy.lt_of_ne fun h0 => h (by rw [← h0, mul_zero])⟩
  rw [offEllipse, hflat]
  nlinarith [sq_nonneg (radii.y * (p.1 - center.x)), sq_nonneg (radii.x * (p.2 - center.y))]

theorem convex_ellipse (center radii : Point ℝ) :
    Convex ℝ {p | offEllipse center radii p ≤ 0} := by
  intro p hp q hq a b ha hb hab
  rw [Set.mem_ofPred_eq, offEllipse] at hp hq ⊢
  simp only [Prod.fst_add, Prod.snd_add, Prod.smul_fst, Prod.smul_snd, smul_eq_mul]
  obtain rfl : b = 1 - a := by linarith
  have hx : (radii.y * (a * p.1 + (1 - a) * q.1 - center.x)) ^ 2 =
      a * (radii.y * (p.1 - center.x)) ^ 2 + (1 - a) * (radii.y * (q.1 - center.x)) ^ 2 -
        a * (1 - a) * (radii.y * (p.1 - q.1)) ^ 2 := by ring
  have hy : (radii.x * (a * p.2 + (1 - a) * q.2 - center.y)) ^ 2 =
      a * (radii.x * (p.2 - center.y)) ^ 2 + (1 - a) * (radii.x * (q.2 - center.y)) ^ 2 -
        a * (1 - a) * (radii.x * (p.2 - q.2)) ^ 2 := by ring
  have hp' := mul_nonneg ha (sub_nonneg.2 hp)
  have hq' := mul_nonneg hb (sub_nonneg.2 hq)
  have hx' := mul_nonneg (mul_nonneg ha hb) (sq_nonneg (radii.y * (p.1 - q.1)))
  have hy' := mul_nonneg (mul_nonneg ha hb) (sq_nonneg (radii.x * (p.2 - q.2)))
  rw [hx, hy]
  linarith

namespace Bends

open Curved (center backEnd bandEnd_of_not_positive backEnd_of_not_positive)

variable {g : CurveGuides ℝ} {w h : ℝ} (hg : Bends g w h)

include hg

theorem inner_nonneg : 0 ≤ g.inner.x ∧ 0 ≤ g.inner.y := by
  rw [hg.inner_eq]
  exact ⟨sub_nonneg.2 hg.thickness_le_depth, sub_nonneg.2 hg.thickness_le_rise⟩

/-- The lower end of the inner edge is below the upper edge of the head. -/
theorem head_le_inner : h - g.headWidth ≤ g.innerCenter + g.inner.y := by
  rw [hg.inner_eq]
  linarith [hg.center_eq, hg.tip_eq, hg.thickness_le_head]

theorem outer_le_head : 2 * g.innerCenter ≤ h := by
  linarith [hg.center_eq, hg.tip_eq, hg.thickness_le_head]

theorem inHead_of_lt {p : Plane} (hleft : g.headStart ≤ p.1)
    (hlower : (p.1 - g.headStart) * (g.headWidth / 2) < (h - p.2) * (w - g.headStart))
    (hupper : (p.1 - g.headStart) * (g.headWidth / 2) <
      (p.2 - (h - g.headWidth)) * (w - g.headStart)) : InHead g w h p := by
  have hwidth : 0 ≤ g.headWidth := hg.thickness_nonneg.trans hg.thickness_le_head
  have hstep : 0 ≤ (p.1 - g.headStart) * (g.headWidth / 2) :=
    mul_nonneg (sub_nonneg.2 hleft) (by linarith)
  have hreach : 0 ≤ w - g.headStart := sub_nonneg.2 hg.headStart_le
  have hbottom : 0 < h - p.2 := pos_of_mul_pos_left (hstep.trans_lt hlower) hreach
  have htop : 0 < p.2 - (h - g.headWidth) :=
    pos_of_mul_pos_left (hstep.trans_lt hupper) hreach
  have hright : p.1 - g.headStart < w - g.headStart := by
    have hpos : 0 < g.headWidth := by linarith
    nlinarith
  exact ⟨hleft, by linarith, by linarith, by linarith, hlower.le, hupper.le⟩

variable (hstart : 0 < g.headStart) {p : Plane}

include hstart

/-- Where the bend opens into the head. -/
theorem gate (hx : p.1 = g.headStart) (hp : InBend g p ∨ InHead g w h p)
    (hK : p ∉ (g.band w h).trace) :
    g.headStart < w ∧ g.innerCenter + g.inner.y < p.2 ∧ p.2 < 2 * g.innerCenter := by
  have hr : g.outer.Positive := hg.outer_eq ▸ ⟨hstart, hg.center_pos⟩
  have hbend (hp : InBend g p) : 0 ≤ p.2 ∧ p.2 ≤ 2 * g.innerCenter := by
    have hy := (abs_sub_le_of_offEllipse hr hp.outer).2
    rw [hg.outer_eq, abs_le] at hy
    simp only [center] at hy
    constructor <;> linarith
  have hlower : p.2 < 2 * g.innerCenter := by
    by_contra! hy
    refine hK (hg.lower_mem hstart hx hy ?_)
    exact hp.elim (fun hp => (hbend hp).2.trans hg.outer_le_head) InHead.bottom
  have hupper : g.innerCenter + g.inner.y < p.2 := by
    by_contra! hy
    rcases hp with hp | hp
    · by_cases hinner : g.inner.Positive
      · -- on the axis the ellipse is left behind above and below
        obtain ⟨hix, hiy⟩ := hinner
        have hoff := hp.inner
        have hsq : g.inner.y ^ 2 ≤ (p.2 - g.innerCenter) ^ 2 := by
          simp only [offEllipse, center, hx, sub_self, mul_zero, mul_pow] at hoff
          refine le_of_mul_le_mul_left ?_ (pow_pos hix 2)
          linarith
        rcases le_total 0 (p.2 - g.innerCenter) with hside | hside
        · have hreach := (sq_le_sq₀ hiy.le hside).1 hsq
          exact hK (hg.upper_mem hstart hx (hg.head_le_inner.trans (by linarith)) hy)
        · rw [← neg_sq (p.2 - g.innerCenter)] at hsq
          have hreach := (sq_le_sq₀ hiy.le (neg_nonneg.2 hside)).1 hsq
          rw [hg.inner_eq] at hreach
          exact hK (hg.start_mem hstart hx (hbend hp).1 (.inl (by simp only at hreach; linarith)))
      · exact hK (hg.start_mem hstart hx (hbend hp).1 (.inr ⟨hinner, hy⟩))
    · exact hK (hg.upper_mem hstart hx hp.top hy)
  refine ⟨hg.headStart_le.lt_of_ne fun hw => hK ?_, hupper, hlower⟩
  refine hg.head_mem hstart hx.ge (hw ▸ hx.le) (hg.head_le_inner.trans hupper.le)
    (hlower.le.trans hg.outer_le_head) (.inl ?_)
  rw [hx, hw]
  ring

/-- A point of the region that is not on its edge lies within every boundary near it. -/
theorem head_lt (hx : g.headStart ≤ p.1) (hp : InBend g p ∨ InHead g w h p)
    (hK : p ∉ (g.band w h).trace) :
    (p.1 - g.headStart) * (g.headWidth / 2) < (h - p.2) * (w - g.headStart) ∧
      (p.1 - g.headStart) * (g.headWidth / 2) <
        (p.2 - (h - g.headWidth)) * (w - g.headStart) := by
  rcases hx.eq_or_lt with hx | hx
  · obtain ⟨hw, hlow, hhigh⟩ := hg.gate hstart hx.symm hp hK
    rw [← hx, sub_self, zero_mul]
    have hhead := hg.head_le_inner
    have houter := hg.outer_le_head
    exact ⟨mul_pos (by linarith) (sub_pos.2 hw), mul_pos (by linarith) (sub_pos.2 hw)⟩
  · have hp := hp.resolve_left fun hp => hx.not_ge hp.left
    have hmem := hg.head_mem hstart hp.left hp.right hp.top hp.bottom
    exact ⟨hp.lower.lt_of_ne fun h => hK (hmem (.inl h)),
      hp.upper.lt_of_ne fun h => hK (hmem (.inr h))⟩

theorem bend_lt (hx : p.1 ≤ g.headStart) (hp : InBend g p ∨ InHead g w h p)
    (hK : p ∉ (g.band w h).trace) :
    offEllipse (center g) g.outer p < 0 ∧
      (g.inner.Positive → 0 < offEllipse (center g) g.inner p) := by
  rcases hx.eq_or_lt with hx | hx
  · obtain ⟨-, hlow, hhigh⟩ := hg.gate hstart hx hp hK
    have hinner := hg.inner_nonneg
    have hpos := hg.center_pos
    simp only [offEllipse, center, hx, sub_self, mul_zero, mul_pow]
    constructor
    · rw [hg.outer_eq]
      have hsq : (p.2 - g.innerCenter) ^ 2 < g.innerCenter ^ 2 := by nlinarith
      have := mul_lt_mul_of_pos_left hsq (pow_pos hstart 2)
      simp only
      linarith
    · rintro ⟨hix, hiy⟩
      have hsq : g.inner.y ^ 2 < (p.2 - g.innerCenter) ^ 2 := by nlinarith
      have := mul_lt_mul_of_pos_left hsq (pow_pos hix 2)
      linarith
  · have hp := hp.resolve_right fun hp => hx.not_ge hp.left
    exact ⟨hp.outer.lt_of_ne fun h => hK (hg.outer_mem hstart hx.le h),
      fun hr => hp.inner.lt_of_ne fun h => hK (hg.inner_mem hstart hr hx.le h.symm)⟩

theorem region_mem_nhds (hp : InBend g p ∨ InHead g w h p) (hK : p ∉ (g.band w h).trace) :
    ∀ᶠ q in nhds p, InBend g q ∨ InHead g w h q := by
  have hhead (hx : g.headStart ≤ p.1) :
      ∀ᶠ q in nhds p, g.headStart ≤ q.1 → InHead g w h q := by
    obtain ⟨hlower, hupper⟩ := hg.head_lt hstart hx hp hK
    have hlower' : ∀ᶠ q in nhds p, (q.1 - g.headStart) * (g.headWidth / 2) <
        (h - q.2) * (w - g.headStart) :=
      ContinuousAt.eventually_lt (by fun_prop) (by fun_prop) hlower
    have hupper' : ∀ᶠ q in nhds p, (q.1 - g.headStart) * (g.headWidth / 2) <
        (q.2 - (h - g.headWidth)) * (w - g.headStart) :=
      ContinuousAt.eventually_lt (by fun_prop) (by fun_prop) hupper
    filter_upwards [hlower', hupper'] with q h1 h2 hq
    exact hg.inHead_of_lt hq h1 h2
  have hbend (hx : p.1 ≤ g.headStart) :
      ∀ᶠ q in nhds p, q.1 ≤ g.headStart → InBend g q := by
    obtain ⟨houter, hinner⟩ := hg.bend_lt hstart hx hp hK
    have hcont (radii : Point ℝ) := (continuous_offEllipse (center g) radii).continuousAt (x := p)
    have houter' := (hcont g.outer).eventually_lt continuousAt_const houter
    have hinner' : ∀ᶠ q in nhds p, 0 ≤ offEllipse (center g) g.inner q := by
      by_cases hr : g.inner.Positive
      · exact (continuousAt_const.eventually_lt (hcont g.inner) (hinner hr)).mono fun _ => le_of_lt
      · exact .of_forall (offEllipse_nonneg_of_not_positive hg.inner_nonneg.1 hg.inner_nonneg.2 hr)
    filter_upwards [houter', hinner'] with q h1 h2 hq
    exact ⟨hq, h1.le, h2⟩
  rcases lt_trichotomy p.1 g.headStart with hx | hx | hx
  · have hside := continuousAt_fst.eventually_lt continuousAt_const hx
    filter_upwards [hbend hx.le, hside] with q h1 h2
    exact .inl (h1 h2.le)
  · filter_upwards [hbend hx.le, hhead hx.ge] with q h1 h2
    exact (le_total q.1 g.headStart).imp h1 h2
  · have hside := continuousAt_const.eventually_lt continuousAt_fst hx
    filter_upwards [hhead hx.le, hside] with q h1 h2
    exact .inr (h1 h2.le)

/-- The band encloses its bend and its head. -/
theorem region_subset_enclosed :
    {p | InBend g p ∨ InHead g w h p} ⊆ enclosed (g.band w h).trace := by
  have hr : g.outer.Positive := hg.outer_eq ▸ ⟨hstart, hg.center_pos⟩
  have hcont (radii : Point ℝ) := continuous_offEllipse (center g) radii
  have hbend : Bornology.IsBounded {p | offEllipse (center g) g.outer p ≤ 0} := isBounded_ellipse hr
  refine subset_enclosed_of_mem_nhds ?_ ?_ fun p hp hK => hg.region_mem_nhds hstart hp hK
  · refine (hbend.union
      ((Metric.isBounded_Icc g.headStart w).prod
        (Metric.isBounded_Icc (h - g.headWidth) h))).subset fun p hp => ?_
    exact hp.imp InBend.outer fun hp => ⟨⟨hp.left, hp.right⟩, hp.top, hp.bottom⟩
  · simp only [inBend_iff, inHead_iff, Set.ofPred_or, Set.ofPred_and]
    refine .union (.inter ?_ (.inter ?_ ?_)) (.inter ?_ (.inter ?_ (.inter ?_ (.inter ?_
      (.inter ?_ ?_)))))
    all_goals refine isClosed_le ?_ ?_ <;> fun_prop

omit hstart in
/-- The lower end of the bend, from its outer edge to its inner one. -/
theorem inBend_across {x : ℝ} (hx : 0 ≤ x) (hx' : x ≤ g.thickness) :
    InBend g (x, g.innerCenter) := by
  have hdepth := hg.thickness_le_depth
  refine ⟨by simp only; linarith, ?_, ?_⟩
  · have hsq : (x - g.headStart) ^ 2 ≤ g.headStart ^ 2 := by nlinarith
    have := mul_le_mul_of_nonneg_left hsq (sq_nonneg g.innerCenter)
    simp only [offEllipse, center, hg.outer_eq, sub_self, mul_zero, mul_pow]
    linarith
  · have hsq : (g.headStart - g.thickness) ^ 2 ≤ (x - g.headStart) ^ 2 := by nlinarith
    have := mul_le_mul_of_nonneg_left hsq (sq_nonneg (g.innerCenter - g.thickness))
    simp only [offEllipse, center, hg.inner_eq, sub_self, mul_zero, mul_pow]
    linarith

theorem close_subset : segment ℝ (g.headStart, g.thickness) (g.headStart, 0) ⊆
    enclosed (g.band w h).trace := by
  rw [segment_symm, ← Prod.image_mk_segment_right, segment_eq_Icc hg.thickness_nonneg]
  rintro _ ⟨y, ⟨hy, hy'⟩, rfl⟩
  exact subset_enclosed _ (hg.start_mem hstart rfl hy (.inl hy'))

/-- Where there is no inner edge, the shadow is closed within the outer one. -/
theorem chord_subset (hinner : ¬g.inner.Positive) :
    segment ℝ (g.thickness, g.innerCenter) (g.headStart, 0) ⊆ enclosed (g.band w h).trace := by
  have hconvex := (halfPlane_convex 1 0 g.headStart).inter (convex_ellipse (center g) g.outer)
  have hsegment := hconvex.segment_subset (x := (g.thickness, g.innerCenter))
    (y := (g.headStart, 0)) ⟨?_, ?_⟩ ⟨?_, ?_⟩
  · refine Set.Subset.trans (fun p hp => ?_) (hg.region_subset_enclosed hstart)
    obtain ⟨hx, hoff⟩ := hsegment hp
    rw [mem_halfPlane] at hx
    exact .inl ⟨by linarith, hoff,
      offEllipse_nonneg_of_not_positive hg.inner_nonneg.1 hg.inner_nonneg.2 hinner p⟩
  · rw [mem_halfPlane]
    simpa using hg.thickness_le_depth
  · exact (hg.inBend_across hg.thickness_nonneg le_rfl).outer
  · simp [mem_halfPlane]
  · simp only [Set.mem_ofPred_eq, offEllipse, center, hg.outer_eq]
    linarith

theorem backEnd_subset : backEnd g ⊆ enclosed (g.band w h).trace := by
  have hclose := hg.close_subset hstart
  have hpoint := Set.singleton_subset_iff.2 (hclose (right_mem_segment ..))
  by_cases hinner : g.inner.Positive
  · -- the inner edge is shared
    rw [hg.backEnd_of_positive hinner, segment_same]
    refine Set.union_subset (fun p hp => ?_) (Set.union_subset hclose hpoint)
    obtain ⟨hoff, -, hx⟩ := (mem_arc_quarter hinner 180).1 hp
    rw [bearing_half] at hx
    refine subset_enclosed _ (hg.inner_mem hstart hinner ?_ hoff)
    simp only [center] at hx
    linarith
  · rw [backEnd_of_not_positive hinner, segment_same]
    exact Set.union_subset (hg.chord_subset hstart hinner) hpoint

theorem back_subset_of_pos : g.back.trace ⊆ enclosed (g.band w h).trace := by
  have hr : g.outer.Positive := hg.outer_eq ▸ ⟨hstart, hg.center_pos⟩
  rw [hg.back_trace hstart]
  refine Set.union_subset (fun p hp => ?_)
    (Set.union_subset (fun p hp => ?_) (hg.backEnd_subset hstart))
  · -- the outer edge is shared
    obtain ⟨hoff, -, hx⟩ := (mem_arc_quarter hr 180).1 hp
    rw [bearing_half] at hx
    refine subset_enclosed _ (hg.outer_mem hstart ?_ hoff)
    simp only [center] at hx
    linarith
  · rw [← Prod.image_mk_segment_left, segment_eq_Icc hg.thickness_nonneg] at hp
    obtain ⟨x, ⟨hx, hx'⟩, rfl⟩ := hp
    exact hg.region_subset_enclosed hstart (.inl (hg.inBend_across hx hx'))

omit hstart in
theorem back_subset : g.back.trace ⊆ enclosed (g.band w h).trace := by
  rcases (hg.thickness_nonneg.trans hg.thickness_le_depth).eq_or_lt with h0 | hstart
  · -- there is no bend, and the shadow is a line along the head
    have hthick : g.thickness = g.headStart :=
      le_antisymm hg.thickness_le_depth (h0 ▸ hg.thickness_nonneg)
    have hr : ¬g.outer.Positive := fun h => by
      rw [hg.outer_eq, ← h0] at h
      exact lt_irrefl 0 h.1
    have hr' : ¬g.inner.Positive := fun h => by
      rw [hg.inner_eq, hthick, sub_self] at h
      exact lt_irrefl 0 h.1
    have hband : segment ℝ (g.headStart, 0) (g.headStart, h) ⊆ (g.band w h).trace := by
      simp only [CurveGuides.band, Scalar.zero_real]
      rw [Sketch.trace_move, Trail.trace_arc_of_not_positive _ _ _ hr, Trail.trace_line]
      exact Set.subset_union_left
    have hside : segment ℝ (g.headStart, 0) (g.headStart, g.innerCenter) ⊆
        (g.band w h).trace := by
      refine Set.Subset.trans ((convex_segment _ _).segment_subset (left_mem_segment ..) ?_) hband
      exact mem_segment_vertical hg.center_pos.le
        (by linarith [hg.outer_le_head, hg.center_pos]) rfl
    simp only [CurveGuides.back, Scalar.zero_real]
    rw [Sketch.trace_move, Trail.trace_arc_of_not_positive _ _ _ hr, Trail.trace_line,
      Trail.trace_arc_of_not_positive _ _ _ hr', Trail.trace_close, Trail.trace_nil]
    simp only [Point.place_mk, hthick, segment_same]
    rw [segment_symm ℝ (g.headStart, g.innerCenter)]
    exact (Set.union_subset hside (Set.union_subset hside
      (Set.singleton_subset_iff.2 (hside (left_mem_segment ..))))).trans (subset_enclosed _)
  · exact hg.back_subset_of_pos hstart

end Bends

namespace Curved

-- The band is thicker than its bend is deep.
variable {g : CurveGuides ℝ} {w h : ℝ} (hg : Curved g w h) (hdepth : g.headStart < g.thickness)

include hg hdepth

/-- The bend, and what is below its middle. -/
def clearOfBack (g : CurveGuides ℝ) : Set Plane := {p | p.1 ≤ g.headStart ∨ g.innerCenter < p.2}

omit hg hdepth in
theorem segment_clearOfBack {p q : Plane} (hp : p.1 ≤ g.headStart) (hq : q.1 ≤ g.headStart) :
    segment ℝ p q ⊆ clearOfBack g :=
  (((convex_Iic g.headStart).prod convex_univ).segment_subset (x := p) (y := q) ⟨hp, trivial⟩
    ⟨hq, trivial⟩).trans fun _ hp => .inl hp.1

/-- The head begins below the middle of the bend, or at its upper corner beside it. -/
theorem head_clearOfBack :
    segment ℝ (g.headStart, h) (w, g.tip) ∪ segment ℝ (w, g.tip) (g.headStart, h - g.headWidth) ⊆
      clearOfBack g := by
  have hstart := hg.headStart_nonneg
  have hthick := hg.thickness_le_head
  have hwidth := hg.headWidth_le
  have htip := hg.tip_eq
  have hcenter := hg.center_eq
  refine Set.union_subset ?_ ?_
  · rintro _ ⟨a, b, ha, hb, hab, rfl⟩
    refine .inr ?_
    simp only [Prod.snd_add, Prod.smul_snd, smul_eq_mul]
    nlinarith
  · rintro _ ⟨a, b, ha, hb, hab, rfl⟩
    obtain rfl : b = 1 - a := by linarith
    simp only [clearOfBack, Set.mem_ofPred_eq, Prod.fst_add, Prod.snd_add, Prod.smul_fst,
      Prod.smul_snd, smul_eq_mul]
    rcases ha.eq_or_lt with rfl | ha
    · exact .inl (by linarith)
    · have := mul_pos ha (show 0 < g.headWidth by linarith)
      exact .inr (by rw [htip]; linarith)

/-- Beside the bend, the band is below its middle. -/
theorem band_subset : (g.band w h).trace ⊆ clearOfBack g := by
  have hr : ¬g.inner.Positive := fun h => by
    rw [hg.inner_max, max_eq_right (sub_nonpos.2 hdepth.le)] at h
    exact lt_irrefl 0 h.1
  have hline {y y' : ℝ} : segment ℝ (g.headStart, y) (g.headStart, y') ⊆ clearOfBack g :=
    segment_clearOfBack le_rfl le_rfl
  have hhead := Set.union_subset_iff.1 (hg.head_clearOfBack hdepth)
  have hrest : segment ℝ (g.headStart, h) (w, g.tip) ∪
      (segment ℝ (w, g.tip) (g.headStart, h - g.headWidth) ∪
        (segment ℝ (g.headStart, h - g.headWidth) (g.headStart, g.innerCenter + g.inner.y) ∪
          bandEnd g)) ⊆ clearOfBack g := by
    rw [bandEnd_of_not_positive hr]
    exact Set.union_subset hhead.1 (Set.union_subset hhead.2 (Set.union_subset hline
      (Set.union_subset hline hline)))
  rcases hg.headStart_nonneg.eq_or_lt with h0 | h0
  · have hr' : ¬g.outer.Positive := fun h => by
      rw [hg.outer_eq, ← h0] at h
      exact lt_irrefl 0 h.1
    simp only [CurveGuides.band, Scalar.zero_real]
    rw [Sketch.trace_move, Trail.trace_arc_of_not_positive _ _ _ hr', Trail.trace_line]
    exact Set.union_subset hline hrest
  · have hr' : g.outer.Positive := hg.outer_eq ▸ ⟨h0, hg.center_pos⟩
    rw [hg.band_trace h0]
    refine Set.union_subset (fun p hp => .inl ?_) (Set.union_subset hline hrest)
    have hx := ((mem_arc_half hr' 90).1 hp).2
    rw [bearing_ninety] at hx
    simp only [center] at hx
    linarith

omit hdepth in
/-- The inner end of the shadow is beside the band. -/
theorem mem_back : ((g.thickness, g.innerCenter) : Plane) ∈ g.back.trace := by
  rcases hg.headStart_nonneg.eq_or_lt with h0 | h0
  · have hr : ¬g.outer.Positive := fun h => by
      rw [hg.outer_eq, ← h0] at h
      exact lt_irrefl 0 h.1
    simp only [CurveGuides.back, Scalar.zero_real]
    rw [Sketch.trace_move, Trail.trace_arc_of_not_positive _ _ _ hr, Trail.trace_line]
    exact .inl (right_mem_segment ..)
  · rw [hg.back_trace h0]
    exact .inr (.inl (right_mem_segment ..))

theorem not_back_subset : ¬g.back.trace ⊆ enclosed (g.band w h).trace := by
  intro hsub
  have hbeside : Receding (clearOfBack g) (1, 0) := by
    intro p hp t ht
    simp only [clearOfBack, Set.mem_ofPred_eq, not_or, not_le, not_lt, Prod.fst_add, Prod.snd_add,
      Prod.smul_fst, Prod.smul_snd, smul_eq_mul] at hp ⊢
    constructor <;> linarith
  have hout := enclosed_subset_of_receding (by simp) (hg.band_subset hdepth) hbeside
    (hsub hg.mem_back)
  exact hout.elim hdepth.not_ge (lt_irrefl _)

end Curved

open Shape (Facing) in
/-- The guides of an arrow as it is designed. -/
abbrev arrowGuides (d : Facing) (f : Frame ℝ) : CurveGuides ℝ :=
  CurveGuides.ofFrame f (d.along f) (d.across f)

open Shape (Facing) in
theorem curvedArrow_shades_iff (d : Facing) {f : Frame ℝ} (hw : 0 < f.w) (hh : 0 < f.h) :
    ShadesWithin (curvedArrow d f) ↔
      (arrowGuides d f).thickness ≤ (arrowGuides d f).headStart := by
  have hsw := f.ss_le_w
  have hsh := f.ss_le_h
  have hcurved : Curved (arrowGuides d f) (d.along f) (d.across f) :=
    ofFrame_curved (Frame.ss_pos hw hh) (by cases d <;> assumption) (by cases d <;> assumption)
  refine (banner_shades_iff ⟨(arrowGuides d f).band (d.along f) (d.across f),
    (arrowGuides d f).back, (arrowGuides d f).band (d.along f) (d.across f)⟩
      (d.reflection f)).trans ⟨fun hsub => ?_, fun hdepth => ?_⟩
  · by_contra! hdepth
    exact hcurved.not_back_subset hdepth hsub
  · exact Bends.back_subset ⟨hcurved, hdepth⟩

end
end ShapeOutline
