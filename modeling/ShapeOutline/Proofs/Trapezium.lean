import ShapeOutline.Proofs.Legs
import ShapeOutline.Proofs.TraceImage

/-! Quadrilaterals with two parallel sides along an axis. Traced clockwise, such a polygon
encloses the region between its sides, whose area is the one that the pen sweeps. -/

namespace ShapeOutline
noncomputable section

open MeasureTheory

/-- The points on the one side of each of some lines. -/
def halfPlanes (hs : List (ℝ × ℝ × ℝ)) : Set Plane :=
  {p | ∀ h ∈ hs, p ∈ halfPlane h.1 h.2.1 h.2.2}

section HalfPlanes

variable {K : Set Plane} (hs : List (ℝ × ℝ × ℝ))

theorem halfPlanes_eq : halfPlanes hs = ⋂ h ∈ hs, halfPlane h.1 h.2.1 h.2.2 := by
  ext p
  simp only [Set.mem_iInter]
  rfl

theorem halfPlanes_convex : Convex ℝ (halfPlanes hs) := by
  rw [halfPlanes_eq]
  exact convex_iInter₂ fun _ _ => halfPlane_convex ..

theorem halfPlanes_isClosed : IsClosed (halfPlanes hs) := by
  rw [halfPlanes_eq]
  refine isClosed_biInter fun h _ => ?_
  exact isClosed_le (by fun_prop) continuous_const

variable {hs}

/-- Off the lines a region is open. -/
theorem halfPlanes_mem_nhds {p : Plane} (h : ∀ h ∈ hs, h.1 * p.1 + h.2.1 * p.2 < h.2.2) :
    halfPlanes hs ∈ nhds p := by
  refine (Filter.eventually_all_finite hs.finite_toSet).2 fun a ha => ?_
  have hcont : Continuous fun q : Plane => a.1 * q.1 + a.2.1 * q.2 := by fun_prop
  exact (hcont.continuousAt.eventually_lt_const (h a ha)).mono fun q hq => hq.le

/-- A curve that runs within a region and along all of its border encloses the region. -/
theorem enclosed_eq_halfPlanes (hbounded : Bornology.IsBounded (halfPlanes hs))
    (hK : K ⊆ halfPlanes hs) (hne : (halfPlanes hs).Nonempty)
    (hborder : ∀ h ∈ hs, ∀ p ∈ halfPlanes hs, h.1 * p.1 + h.2.1 * p.2 = h.2.2 → p ∈ K) :
    enclosed K = halfPlanes hs := by
  refine (enclosed_subset_of_convex (halfPlanes_convex hs) hK hne).antisymm
    (subset_enclosed_of_mem_nhds hbounded (halfPlanes_isClosed hs) fun p hp hoff => ?_)
  exact halfPlanes_mem_nhds fun h hh => (hp h hh).lt_of_ne fun heq => hoff (hborder h hh p hp heq)

end HalfPlanes

/-- A point of a sloping line between its ends, which may coincide. -/
theorem mem_segment_sloped {x x' y y' m : ℝ} {p : Plane} (h : x ≤ p.1) (h' : p.1 ≤ x')
    (hend : y' = y + m * (x' - x)) (hp : p.2 = y + m * (p.1 - x)) :
    p ∈ segment ℝ (x, y) (x', y') := by
  rcases (h.trans h').eq_or_lt with heq | hlt
  · have hx : p.1 = x := le_antisymm (h'.trans heq.ge) h
    have hpoint : p = (x, y) := Prod.ext hx (by rw [hp, hx]; ring)
    rw [hpoint]
    exact left_mem_segment ..
  · refine mem_segment_slanted hlt h h' ?_
    rw [hp, hend]
    ring

/-- The area that a line from the origin to the pen sweeps, clockwise as positive. -/
def Sketch.sweptArea (s : Sketch ℝ) : ℝ :=
  ((Path.empty.legs s).map fun l => cross l.trail.pen l.target).sum / 2

/-- A sketch goes once around a convex region, clockwise. -/
structure Face (s : Sketch ℝ) (region : Set Plane) : Prop where
  enclosed_eq : enclosed s.trace = region
  convex : Convex ℝ region
  swept_nonneg : 0 ≤ s.sweptArea
  volume_eq : volume region = ENNReal.ofReal s.sweptArea

section Quadrilaterals

variable (a b c d : Point ℝ)

theorem quad_trace : (Sketch.polygon [a, b, c, d]).trace =
    segment ℝ a.place b.place ∪ (segment ℝ b.place c.place ∪ (segment ℝ c.place d.place ∪
      segment ℝ d.place a.place)) := by
  have hend : segment ℝ a.place a.place ⊆ segment ℝ d.place a.place := by
    rw [segment_same, Set.singleton_subset_iff]
    exact right_mem_segment ..
  change segment ℝ a.place b.place ∪ (segment ℝ b.place c.place ∪ (segment ℝ c.place d.place ∪
    (segment ℝ d.place a.place ∪ segment ℝ a.place a.place))) = _
  rw [Set.union_eq_left.2 hend]

theorem quad_sweptArea : (Sketch.polygon [a, b, c, d]).sweptArea =
    (cross a b + cross b c + cross c d + cross d a) / 2 := by
  have hmove : cross ⟨0, 0⟩ a = 0 := by simp [cross]
  rw [Sketch.sweptArea, Path.empty_eq]
  change (List.map _ ((Path.bare _).legs
    [.move a, .line b, .line c, .line d, .close])).sum / 2 = _
  rw [Path.legs_move, Path.legs_line, Path.legs_line, Path.legs_line, Path.legs_close,
    Path.legs_nil]
  simp only [List.map_cons, List.map_nil, List.sum_cons, List.sum_nil, hmove]
  ring

variable {a b c d} {region : Set Plane}

/-- A face may be traced from the next corner on. -/
theorem Face.rotate (h : Face (.polygon [a, b, c, d]) region) :
    Face (.polygon [b, c, d, a]) region := by
  have htrace : (Sketch.polygon [b, c, d, a]).trace = (Sketch.polygon [a, b, c, d]).trace := by
    rw [quad_trace, quad_trace, Set.union_comm (segment ℝ a.place b.place), Set.union_assoc,
      Set.union_assoc]
  have hswept : (Sketch.polygon [b, c, d, a]).sweptArea =
      (Sketch.polygon [a, b, c, d]).sweptArea := by
    rw [quad_sweptArea, quad_sweptArea]
    ring
  exact ⟨htrace ▸ h.enclosed_eq, h.convex, hswept ▸ h.swept_nonneg, hswept ▸ h.volume_eq⟩

/-- With the axes exchanged a face is clockwise in the opposite order. -/
theorem Face.transpose (h : Face (.polygon [a, b, c, d]) region) :
    Face (.polygon [d.transpose, c.transpose, b.transpose, a.transpose])
      (Set.preimage Prod.swap region) := by
  have htrace : (Sketch.polygon [d.transpose, c.transpose, b.transpose, a.transpose]).trace =
      (Sketch.reflect .transpose (.polygon [a, b, c, d])).trace := by
    change _ = (Sketch.polygon [a.transpose, b.transpose, c.transpose, d.transpose]).trace
    rw [quad_trace, quad_trace, segment_symm ℝ d.transpose.place c.transpose.place,
      segment_symm ℝ c.transpose.place b.transpose.place,
      segment_symm ℝ b.transpose.place a.transpose.place,
      segment_symm ℝ a.transpose.place d.transpose.place]
    ext p
    simp only [Set.mem_union]
    tauto
  have hswept : (Sketch.polygon [d.transpose, c.transpose, b.transpose, a.transpose]).sweptArea =
      (Sketch.polygon [a, b, c, d]).sweptArea := by
    rw [quad_sweptArea, quad_sweptArea]
    simp only [cross, Point.transpose]
    ring
  have hconvex : Convex ℝ (Set.preimage Prod.swap region) :=
    h.convex.linear_preimage (LinearEquiv.prodComm ℝ ℝ ℝ).toLinearMap
  refine ⟨?_, hconvex, hswept ▸ h.swept_nonneg, ?_⟩
  · rw [htrace, Sketch.reflect_enclosed, h.enclosed_eq]
    ext p
    constructor
    · rintro ⟨q, hq, rfl⟩
      exact hq
    · exact fun hp => ⟨p.swap, hp, rfl⟩
  · rw [hswept, ← h.volume_eq]
    exact Measure.measurePreserving_swap.measure_preimage (h.convex.nullMeasurableSet volume)

end Quadrilaterals

/-- A quadrilateral whose left and right sides are upright, the other two sides given by their ends
and slopes. -/
structure Trapezium where
  left : ℝ
  right : ℝ
  upper : ℝ
  upperEnd : ℝ
  lower : ℝ
  lowerEnd : ℝ
  upperSlope : ℝ
  lowerSlope : ℝ
  left_le : left ≤ right
  upper_le : upper ≤ lower
  upperEnd_le : upperEnd ≤ lowerEnd
  upperEnd_eq : upperEnd = upper + upperSlope * (right - left)
  lowerEnd_eq : lowerEnd = lower + lowerSlope * (right - left)

namespace Trapezium

variable (t : Trapezium)

def upperAt (x : ℝ) : ℝ := t.upper + t.upperSlope * (x - t.left)

def lowerAt (x : ℝ) : ℝ := t.lower + t.lowerSlope * (x - t.left)

/-- Clockwise from the upper left corner. -/
def outline : Sketch ℝ :=
  .polygon [⟨t.left, t.upper⟩, ⟨t.right, t.upperEnd⟩, ⟨t.right, t.lowerEnd⟩, ⟨t.left, t.lower⟩]

def region : Set Plane :=
  {p | (t.left ≤ p.1 ∧ p.1 ≤ t.right) ∧ t.upperAt p.1 ≤ p.2 ∧ p.2 ≤ t.lowerAt p.1}

/-- The lines along the four sides. -/
def lines : List (ℝ × ℝ × ℝ) :=
  [(-1, 0, -t.left), (1, 0, t.right), (t.upperSlope, -1, t.upperSlope * t.left - t.upper),
    (-t.lowerSlope, 1, t.lower - t.lowerSlope * t.left)]

theorem region_eq : t.region = halfPlanes t.lines := by
  ext p
  simp only [halfPlanes, lines, List.forall_mem_cons, List.not_mem_nil, IsEmpty.forall_iff,
    implies_true, and_true, Set.mem_ofPred_eq, mem_halfPlane, region, upperAt, lowerAt]
  constructor
  · rintro ⟨⟨h1, h2⟩, h3, h4⟩
    refine ⟨?_, ?_, ?_, ?_⟩ <;> linarith
  · rintro ⟨h1, h2, h3, h4⟩
    refine ⟨⟨?_, ?_⟩, ?_, ?_⟩ <;> linarith

theorem region_convex : Convex ℝ t.region := t.region_eq ▸ halfPlanes_convex _

theorem upperAt_le_lowerAt {x : ℝ} (h : t.left ≤ x) (h' : x ≤ t.right) :
    t.upperAt x ≤ t.lowerAt x := by
  have hle := t.upper_le
  have hle' := t.upperEnd_le
  rw [t.upperEnd_eq, t.lowerEnd_eq] at hle'
  rw [upperAt, lowerAt]
  rcases le_total t.upperSlope t.lowerSlope with hs | hs
  · linarith [mul_le_mul_of_nonneg_right hs (sub_nonneg.2 h)]
  · linarith [mul_le_mul_of_nonneg_right hs (sub_nonneg.2 h')]

theorem region_isBounded : Bornology.IsBounded t.region := by
  set width := t.right - t.left
  have hbox : Bornology.IsBounded (Set.Icc t.left t.right ×ˢ
      Set.Icc (t.upper - |t.upperSlope| * width) (t.lower + |t.lowerSlope| * width)) :=
    (Metric.isBounded_Icc ..).prod (Metric.isBounded_Icc ..)
  refine hbox.subset ?_
  rintro p ⟨⟨h, h'⟩, hu, hl⟩
  have hrun (k : ℝ) : |k * (p.1 - t.left)| ≤ |k| * width := by
    rw [abs_mul, abs_of_nonneg (sub_nonneg.2 h)]
    exact mul_le_mul_of_nonneg_left (sub_le_sub_right h' _) (abs_nonneg k)
  have hupper := (abs_le.1 (hrun t.upperSlope)).1
  have hlower := (abs_le.1 (hrun t.lowerSlope)).2
  rw [upperAt] at hu
  rw [lowerAt] at hl
  exact ⟨⟨h, h'⟩, by linarith, by linarith⟩

@[simp] theorem upperAt_left : t.upperAt t.left = t.upper := by simp [upperAt]

@[simp] theorem lowerAt_left : t.lowerAt t.left = t.lower := by simp [lowerAt]

@[simp] theorem upperAt_right : t.upperAt t.right = t.upperEnd := t.upperEnd_eq.symm

@[simp] theorem lowerAt_right : t.lowerAt t.right = t.lowerEnd := t.lowerEnd_eq.symm

theorem trace_subset : t.outline.trace ⊆ t.region := by
  have hx := t.left_le
  have hu := t.upper_le
  have hl := t.upperEnd_le
  refine polygon_trace_subset t.region_convex ?_
  simp only [List.forall_mem_cons, List.not_mem_nil, IsEmpty.forall_iff, implies_true, and_true,
    Point.place_mk]
  refine ⟨⟨⟨le_rfl, hx⟩, ?_, ?_⟩, ⟨⟨hx, le_rfl⟩, ?_, ?_⟩, ⟨⟨hx, le_rfl⟩, ?_, ?_⟩,
    ⟨⟨le_rfl, hx⟩, ?_, ?_⟩⟩ <;> simp only [upperAt_left, lowerAt_left, upperAt_right,
      lowerAt_right] <;> linarith

/-- The outline runs along all of the border of the region. -/
theorem mem_trace_of_line : ∀ l ∈ t.lines, ∀ p ∈ t.region,
    l.1 * p.1 + l.2.1 * p.2 = l.2.2 → p ∈ t.outline.trace := by
  rw [outline, quad_trace]
  simp only [lines, List.forall_mem_cons, List.not_mem_nil, IsEmpty.forall_iff, implies_true,
    and_true, Point.place_mk]
  refine ⟨?_, ?_, ?_, ?_⟩
  · rintro p ⟨-, hu, hl⟩ heq
    have hp : p.1 = t.left := by linarith
    rw [hp, upperAt_left] at hu
    rw [hp, lowerAt_left] at hl
    rw [segment_symm ℝ (t.left, t.lower)]
    exact .inr (.inr (.inr (mem_segment_vertical hu hl hp)))
  · rintro p ⟨-, hu, hl⟩ heq
    have hp : p.1 = t.right := by linarith
    rw [hp, upperAt_right] at hu
    rw [hp, lowerAt_right] at hl
    exact .inr (.inl (mem_segment_vertical hu hl hp))
  · rintro p ⟨⟨h, h'⟩, -⟩ heq
    exact .inl (mem_segment_sloped h h' t.upperEnd_eq (by linarith))
  · rintro p ⟨⟨h, h'⟩, -⟩ heq
    rw [segment_symm ℝ (t.right, t.lowerEnd)]
    exact .inr (.inr (.inl (mem_segment_sloped h h' t.lowerEnd_eq (by linarith))))

theorem enclosed_eq : enclosed t.outline.trace = t.region := by
  have hcorner : (t.left, t.upper) ∈ t.region :=
    ⟨⟨le_rfl, t.left_le⟩, t.upperAt_left.le, t.lowerAt_left ▸ t.upper_le⟩
  have hbounded := t.region_isBounded
  have htrace := t.trace_subset
  have hborder := t.mem_trace_of_line
  rw [region_eq] at hcorner hbounded htrace hborder ⊢
  exact enclosed_eq_halfPlanes hbounded htrace ⟨_, hcorner⟩ hborder

/-- The mean of the upright sides, over the width. -/
def area : ℝ := (t.right - t.left) * ((t.lower - t.upper) + (t.lowerEnd - t.upperEnd)) / 2

theorem outline_sweptArea : t.outline.sweptArea = t.area := by
  rw [outline, quad_sweptArea, area, t.upperEnd_eq, t.lowerEnd_eq]
  simp only [cross]
  ring

theorem area_nonneg : 0 ≤ t.area := by
  have hx := sub_nonneg.2 t.left_le
  have hu := sub_nonneg.2 t.upper_le
  have hl := sub_nonneg.2 t.upperEnd_le
  rw [area]
  positivity

theorem volume_section (x : ℝ) : volume (Set.preimage (Prod.mk x) t.region) =
    (Set.Icc t.left t.right).indicator (fun x => ENNReal.ofReal (t.lowerAt x - t.upperAt x)) x := by
  by_cases hx : x ∈ Set.Icc t.left t.right
  · have hsection : Set.preimage (Prod.mk x) t.region = Set.Icc (t.upperAt x) (t.lowerAt x) := by
      ext y
      exact and_iff_right hx
    rw [Set.indicator_of_mem hx, hsection, Real.volume_Icc]
  · have hsection : Set.preimage (Prod.mk x) t.region = ∅ :=
      Set.eq_empty_of_forall_notMem fun y hy => hx hy.1
    rw [Set.indicator_of_notMem hx, hsection, measure_empty]

theorem volume_region : volume t.region = ENNReal.ofReal t.area := by
  have hmeasurable : MeasurableSet t.region :=
    t.region_eq ▸ (halfPlanes_isClosed _).measurableSet
  have hcont : Continuous fun x => t.lowerAt x - t.upperAt x := by
    unfold lowerAt upperAt
    fun_prop
  have hnonneg : ∀ᵐ x ∂volume.restrict (Set.Icc t.left t.right), 0 ≤ t.lowerAt x - t.upperAt x :=
    (ae_restrict_iff' measurableSet_Icc).2
      (.of_forall fun x hx => sub_nonneg.2 (t.upperAt_le_lowerAt hx.1 hx.2))
  have hintegral : ∫ x in t.left..t.right, t.lowerAt x - t.upperAt x = t.area := by
    set k := t.lowerSlope - t.upperSlope with hk
    have hline (x : ℝ) : t.lowerAt x - t.upperAt x = t.lower - t.upper - k * t.left + k * x := by
      rw [lowerAt, upperAt]
      ring
    simp only [hline]
    rw [intervalIntegral.integral_add (continuous_const.intervalIntegrable ..)
      ((continuous_const_mul _).intervalIntegrable ..), intervalIntegral.integral_const,
      intervalIntegral.integral_const_mul, integral_id, area, t.upperEnd_eq, t.lowerEnd_eq,
      smul_eq_mul, hk]
    ring
  rw [Measure.volume_eq_prod, Measure.prod_apply hmeasurable]
  simp only [volume_section]
  rw [lintegral_indicator measurableSet_Icc, ← ofReal_integral_eq_lintegral_ofReal
    (hcont.integrableOn_Icc) hnonneg, integral_Icc_eq_integral_Ioc,
    ← intervalIntegral.integral_of_le t.left_le, hintegral]

theorem face : Face t.outline t.region :=
  ⟨t.enclosed_eq, t.region_convex, t.outline_sweptArea ▸ t.area_nonneg,
    t.outline_sweptArea ▸ t.volume_region⟩

end Trapezium

/-- The region of a trapezium by the heights of its sides at each width. -/
theorem trapezium_face {x x' u u' l l' : ℝ} (upper lower : ℝ → ℝ) (m n : ℝ) (hx : x ≤ x')
    (hleft : u ≤ l) (hright : u' ≤ l') (hu : u' = u + m * (x' - x)) (hl : l' = l + n * (x' - x))
    (hupper : ∀ z, upper z = u + m * (z - x)) (hlower : ∀ z, lower z = l + n * (z - x)) :
    Face (.polygon [⟨x, u⟩, ⟨x', u'⟩, ⟨x', l'⟩, ⟨x, l⟩])
      {p | (x ≤ p.1 ∧ p.1 ≤ x') ∧ upper p.1 ≤ p.2 ∧ p.2 ≤ lower p.1} := by
  simp only [hupper, hlower]
  exact Trapezium.face ⟨x, x', u, u', l, l', m, n, hx, hleft, hright, hu, hl⟩

end
end ShapeOutline
