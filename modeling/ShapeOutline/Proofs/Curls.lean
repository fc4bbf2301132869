import Mathlib
import ShapeOutline.LayeredPreset
import ShapeOutline.Preset.Sketch
import ShapeOutline.Proofs.GridDrawing
import ShapeOutline.Proofs.Legs
import ShapeOutline.Proofs.Mirror
import ShapeOutline.Proofs.Subpaths

/-! Brackets, braces and the can. Their curls carry the pen across the frame, so the
outlines reach their ends as long as the curls have a height. A curl without a height
is left out, and the straight strokes around it run slantwise instead. -/

namespace ShapeOutline
noncomputable section

open Shape

/-- A straight leg on the vertical line at `x`. -/
structure Leg.Upright (x : ℝ) (l : Leg) : Prop where
  straight : l.stroke.IsStraight
  pen : l.trail.pen.x = x
  target : l.target.x = x

/-- The legs lead from the lower right corner of the frame to the upper right one. -/
structure RunsUp (f : Frame ℝ) (legs : List Leg) : Prop where
  starts : legs.head?.map Leg.target = some ⟨f.w, f.h⟩
  ends : legs.getLast?.map Leg.target = some ⟨f.w, 0⟩

/-- A bracket has a stroke on the left side. -/
structure Brackets (f : Frame ℝ) (legs : List Leg) : Prop extends RunsUp f legs where
  stroke : ∃ l ∈ legs, l.Upright 0

/-- A brace has two stems in the middle of the width, and between them it comes to the tip. -/
structure Braces (f : Frame ℝ) (tip : Point ℝ) (legs : List Leg) : Prop extends RunsUp f legs where
  stems : ∃ before lower curls upper after, legs = before ++ lower :: curls ++ upper :: after ∧
    lower.Upright f.hc ∧ upper.Upright f.hc ∧ tip ∈ curls.map Leg.target

/-- The corners of the side of a can between its rims of height `y`. -/
def canCorners (f : Frame ℝ) (y : ℝ) : List (Point ℝ) :=
  [⟨0, y⟩, ⟨f.w, y⟩, ⟨f.w, f.h - y⟩, ⟨0, f.h - y⟩]

namespace Path

section Curls

variable {a b x y : ℝ} {start : Point ℝ} (rest : Sketch ℝ) (hr : (⟨a, b⟩ : Point ℝ).Positive)
include hr

theorem legs_bottom_left :
    (bare ⟨⟨x, y⟩, start⟩).legs (.arc ⟨a, b⟩ 90 90 :: rest) =
      ⟨⟨⟨x, y⟩, start⟩, .arc ⟨a, b⟩ 90 90, ⟨x - a, y - b⟩⟩ ::
        (bare ⟨⟨x - a, y - b⟩, start⟩).legs rest := by
  refine legs_arc rest hr (by norm_num) (by norm_num) ?_
  rw [show (90 : ℝ) + 90 = 180 by norm_num, spoke_ninety hr, spoke_half hr]
  ext <;> simp [sub_eq_add_neg]

theorem legs_left_top :
    (bare ⟨⟨x, y⟩, start⟩).legs (.arc ⟨a, b⟩ 180 90 :: rest) =
      ⟨⟨⟨x, y⟩, start⟩, .arc ⟨a, b⟩ 180 90, ⟨x + a, y - b⟩⟩ ::
        (bare ⟨⟨x + a, y - b⟩, start⟩).legs rest := by
  refine legs_arc rest hr (by norm_num) (by norm_num) ?_
  rw [show (180 : ℝ) + 90 = 270 by norm_num, spoke_half hr, spoke_threeQuarters hr]
  ext <;> simp [sub_eq_add_neg]

theorem legs_right_top :
    (bare ⟨⟨x, y⟩, start⟩).legs (.arc ⟨a, b⟩ 0 (-90) :: rest) =
      ⟨⟨⟨x, y⟩, start⟩, .arc ⟨a, b⟩ 0 (-90), ⟨x - a, y - b⟩⟩ ::
        (bare ⟨⟨x - a, y - b⟩, start⟩).legs rest := by
  refine legs_arc rest hr (by norm_num) (by norm_num) ?_
  rw [zero_add, spoke_neg hr, spoke_zero hr, spoke_ninety hr]
  ext <;> simp [sub_eq_add_neg]

theorem legs_bottom_right :
    (bare ⟨⟨x, y⟩, start⟩).legs (.arc ⟨a, b⟩ 90 (-90) :: rest) =
      ⟨⟨⟨x, y⟩, start⟩, .arc ⟨a, b⟩ 90 (-90), ⟨x + a, y - b⟩⟩ ::
        (bare ⟨⟨x + a, y - b⟩, start⟩).legs rest := by
  refine legs_arc rest hr (by norm_num) (by norm_num) ?_
  rw [add_neg_cancel, spoke_ninety hr, spoke_zero hr]
  ext <;> simp

theorem legs_right_bottom :
    (bare ⟨⟨x, y⟩, start⟩).legs (.arc ⟨a, b⟩ 0 90 :: rest) =
      ⟨⟨⟨x, y⟩, start⟩, .arc ⟨a, b⟩ 0 90, ⟨x - a, y + b⟩⟩ ::
        (bare ⟨⟨x - a, y + b⟩, start⟩).legs rest := by
  refine legs_arc rest hr (by norm_num) (by norm_num) ?_
  rw [zero_add, spoke_zero hr, spoke_ninety hr]
  ext <;> simp

theorem legs_left_bottom :
    (bare ⟨⟨x, y⟩, start⟩).legs (.arc ⟨a, b⟩ 180 (-90) :: rest) =
      ⟨⟨⟨x, y⟩, start⟩, .arc ⟨a, b⟩ 180 (-90), ⟨x + a, y + b⟩⟩ ::
        (bare ⟨⟨x + a, y + b⟩, start⟩).legs rest := by
  refine legs_arc rest hr (by norm_num) (by norm_num) ?_
  rw [show (180 : ℝ) + -90 = 90 by norm_num, spoke_half hr, spoke_ninety hr]
  ext <;> simp

theorem legs_left_right :
    (bare ⟨⟨x, y⟩, start⟩).legs (.arc ⟨a, b⟩ 180 (-180) :: rest) =
      ⟨⟨⟨x, y⟩, start⟩, .arc ⟨a, b⟩ 180 (-180), ⟨x + a + a, y⟩⟩ ::
        (bare ⟨⟨x + a + a, y⟩, start⟩).legs rest := by
  refine legs_arc rest hr (by norm_num) (by norm_num) ?_
  rw [add_neg_cancel, spoke_half hr, spoke_zero hr]
  ext <;> simp

theorem legs_right_left :
    (bare ⟨⟨x, y⟩, start⟩).legs (.arc ⟨a, b⟩ 0 180 :: rest) =
      ⟨⟨⟨x, y⟩, start⟩, .arc ⟨a, b⟩ 0 180, ⟨x - a - a, y⟩⟩ ::
        (bare ⟨⟨x - a - a, y⟩, start⟩).legs rest := by
  refine legs_arc rest hr (by norm_num) (by norm_num) ?_
  rw [zero_add, spoke_zero hr, spoke_half hr]
  ext <;> simp [sub_eq_add_neg]

variable {sweep : ℝ} (hs : |sweep| = 180)
include hs

theorem legs_half {pen q : Point ℝ} {deg : ℝ} (hq : pen - spoke ⟨a, b⟩ deg * (2 : ℝ) = q) :
    (bare ⟨pen, start⟩).legs (.arc ⟨a, b⟩ deg sweep :: rest) =
      ⟨⟨pen, start⟩, .arc ⟨a, b⟩ deg sweep, q⟩ :: (bare ⟨q, start⟩).legs rest := by
  obtain ⟨hclockwise, hcounter⟩ := arcEnd_half hr pen deg
  rw [arcEnd_eq, hq] at hclockwise hcounter
  rcases (abs_eq (by norm_num)).1 hs with rfl | rfl
  · exact legs_arc rest hr (by norm_num) (by norm_num) hclockwise
  · exact legs_arc rest hr (by norm_num) (by norm_num) hcounter

theorem legs_top_bottom :
    (bare ⟨⟨x, y⟩, start⟩).legs (.arc ⟨a, b⟩ 270 sweep :: rest) =
      ⟨⟨⟨x, y⟩, start⟩, .arc ⟨a, b⟩ 270 sweep, ⟨x, y + b + b⟩⟩ ::
        (bare ⟨⟨x, y + b + b⟩, start⟩).legs rest := by
  refine legs_half rest hr hs ?_
  rw [spoke_threeQuarters hr]
  ext
  · simp
  · simp
    ring

theorem legs_bottom_top :
    (bare ⟨⟨x, y⟩, start⟩).legs (.arc ⟨a, b⟩ 90 sweep :: rest) =
      ⟨⟨⟨x, y⟩, start⟩, .arc ⟨a, b⟩ 90 sweep, ⟨x, y - b - b⟩⟩ ::
        (bare ⟨⟨x, y - b - b⟩, start⟩).legs rest := by
  refine legs_half rest hr hs ?_
  rw [spoke_ninety hr]
  ext
  · simp
  · simp
    ring

end Curls

end Path

/-- A bracket whose curls are `y` high. -/
def bracketOf (w h y : ℝ) : Sketch ℝ :=
  [.move ⟨w, h⟩, .arc ⟨w, y⟩ 90 90, .line ⟨0, y⟩, .arc ⟨w, y⟩ 180 90]

/-- A brace whose curls are `y` high, with its tip at the height `t`. -/
def braceOf (w h y t : ℝ) : Sketch ℝ :=
  [.move ⟨w, h⟩, .arc ⟨w / 2, y⟩ 90 90, .line ⟨w / 2, t + y⟩, .arc ⟨w / 2, y⟩ 0 (-90),
    .arc ⟨w / 2, y⟩ 90 (-90), .line ⟨w / 2, y⟩, .arc ⟨w / 2, y⟩ 180 90]

theorem not_positive_flat (a : ℝ) : ¬(⟨a, 0⟩ : Point ℝ).Positive := fun h => lt_irrefl 0 h.2

section Outlines

variable {f : Frame ℝ} {y t : ℝ} (hw : 0 < f.w)

include hw

theorem bracketOf_iff (hy : 0 ≤ y) :
    Brackets f (Path.empty.legs (bracketOf f.w f.h y)) ↔ 0 < y := by
  rcases hy.eq_or_lt with rfl | hpos
  · refine iff_of_false (fun h => ?_) (lt_irrefl 0)
    have hends := h.ends
    simp only [bracketOf, Path.empty_eq, Path.legs_move, Path.legs_line, Path.legs_nil,
      Path.legs_flat _ (not_positive_flat f.w)] at hends
    have hx : (0 : ℝ) = f.w := congrArg Point.x (Option.some.inj hends)
    exact hw.ne hx
  · have hr : (⟨f.w, y⟩ : Point ℝ).Positive := ⟨hw, hpos⟩
    refine iff_of_true ?_ hpos
    simp only [bracketOf, Path.empty_eq, Path.legs_move, Path.legs_line, Path.legs_nil,
      Path.legs_bottom_left _ hr, Path.legs_left_top _ hr]
    exact ⟨⟨rfl, by simp⟩, _, .tail _ (.tail _ (.head _)), trivial, sub_self _, rfl⟩

theorem braceOf_iff (hy : 0 ≤ y) :
    Braces f ⟨0, t⟩ (Path.empty.legs (braceOf f.w f.h y t)) ↔ 0 < y := by
  rcases hy.eq_or_lt with rfl | hpos
  · refine iff_of_false (fun h => ?_) (lt_irrefl 0)
    have hends := h.ends
    simp only [braceOf, Path.empty_eq, Path.legs_move, Path.legs_line, Path.legs_nil,
      Path.legs_flat _ (not_positive_flat (f.w / 2))] at hends
    have hx : f.w / 2 = f.w := congrArg Point.x (Option.some.inj hends)
    exact (half_lt_self hw).ne hx
  · have hr : (⟨f.w / 2, y⟩ : Point ℝ).Positive := ⟨half_pos hw, hpos⟩
    refine iff_of_true ?_ hpos
    simp only [braceOf, Path.empty_eq, Path.legs_move, Path.legs_line, Path.legs_nil,
      Path.legs_bottom_left _ hr, Path.legs_left_top _ hr, Path.legs_right_top _ hr,
      Path.legs_bottom_right _ hr]
    refine ⟨⟨rfl, by simp⟩, [_, _], _, [_, _], _, [_], rfl, ⟨trivial, ?_, rfl⟩,
      ⟨trivial, ?_, rfl⟩, ?_⟩
    · exact sub_half f.w
    · simp [Frame.hc]
    · simp

end Outlines

section Body

variable {rx y1 y3 : ℝ}

/-- Between the rims of a can. -/
def barrel (rx y1 y3 : ℝ) : Set Plane := belowRim ⟨rx, y1⟩ ⟨rx, y1⟩ ∩ aboveRim ⟨rx, y3⟩ ⟨rx, y1⟩

theorem barrel_isClosed (rx y1 y3 : ℝ) : IsClosed (barrel rx y1 y3) := by
  have hcont (center radii : Point ℝ) := continuous_offEllipse center radii
  have hcolumn : IsClosed {p : Plane | |p.1 - rx| ≤ rx} := isClosed_le (by fun_prop) (by fun_prop)
  simp only [barrel, belowRim, aboveRim, Set.ofPred_and, Set.ofPred_or]
  refine .inter (hcolumn.inter (.inter ?_ ?_)) (hcolumn.inter (.union ?_ ?_))
  all_goals refine isClosed_le ?_ ?_ <;> fun_prop

section Round

variable (hr : (⟨rx, y1⟩ : Point ℝ).Positive)

include hr

theorem barrel_isBounded : Bornology.IsBounded (barrel rx y1 y3) := by
  refine ((Metric.isBounded_Icc 0 (rx + rx)).prod
    (Metric.isBounded_Icc y1 (y3 + y1))).subset fun p hp => ?_
  obtain ⟨⟨hx, hy, -⟩, -, hside⟩ := hp
  rw [abs_le] at hx
  have hlow : p.2 ≤ y3 + y1 := by
    rcases hside with h | h
    · exact h.trans (le_add_of_nonneg_right hr.2.le)
    · linarith [(abs_le.1 (abs_sub_le_of_offEllipse hr h).2).2]
  exact ⟨⟨by linarith, by linarith⟩, hy, hlow⟩

/-- Off the outline of the can its barrel goes on all around. -/
theorem barrel_mem_nhds {p : Plane} (hp : p ∈ barrel rx y1 y3)
    (hK : p ∉ (canBody rx y1 y3).trace) : barrel rx y1 y3 ∈ nhds p := by
  obtain ⟨⟨hx, hy, hoff⟩, -, hside⟩ := hp
  rw [canBody_trace hr, Set.mem_union, Set.mem_union, Set.mem_union, Set.mem_union,
    mem_arc_half hr, mem_arc_half hr, bearing_zero] at hK
  simp only [not_or] at hK
  obtain ⟨hlid, hright, hfoot, hleft, -⟩ := hK
  rw [segment_symm] at hleft
  have hcont (center radii : Point ℝ) := (continuous_offEllipse center radii).continuousAt (x := p)
  have hoff' : 0 < offEllipse ⟨rx, y1⟩ ⟨rx, y1⟩ p :=
    hoff.lt_of_ne fun h => hlid ⟨h.symm, by simpa using hy⟩
  have hsq : (p.1 - rx) ^ 2 ≤ rx ^ 2 := sq_le_sq.2 (hx.trans (le_abs_self rx))
  have hflat := mul_le_mul_of_nonneg_left hsq (sq_nonneg y1)
  have hy' : y1 < p.2 := by
    refine hy.lt_of_ne fun h => hoff'.not_ge ?_
    simp only [offEllipse, ← h, sub_self]
    linarith
  -- no point of the sides is below the upper ends of the lower rim
  have hedge (h : |p.1 - rx| = rx) : p.2 ≤ y3 := by
    refine hside.elim id fun hle => ?_
    have hnonneg : 0 ≤ offEllipse ⟨rx, y3⟩ ⟨rx, y1⟩ p :=
      offEllipse_nonneg_of_edge (by rw [← sq_abs, h])
    have hzero := le_antisymm hle hnonneg
    by_contra! hlt
    exact hfoot ⟨hzero, by simpa using hlt.le⟩
  have hx' : |p.1 - rx| < rx := by
    refine hx.lt_of_ne fun h => ?_
    rcases eq_or_eq_neg_of_abs_eq h with h' | h'
    · exact hright (mem_segment_vertical hy (hedge h) (by linarith))
    · exact hleft (mem_segment_vertical hy (hedge h) (by linarith))
  have hinner : ∀ᶠ q in nhds p, q.2 ≤ y3 ∨ offEllipse ⟨rx, y3⟩ ⟨rx, y1⟩ q ≤ 0 := by
    rcases lt_or_ge p.2 y3 with h | h
    · filter_upwards [continuousAt_snd.eventually_lt continuousAt_const h] with q hq
      exact .inl hq.le
    · have hle : offEllipse ⟨rx, y3⟩ ⟨rx, y1⟩ p ≤ 0 := by
        refine hside.elim (fun h' => ?_) id
        simp only [offEllipse, le_antisymm h' h, sub_self]
        linarith
      have hlt := hle.lt_of_ne fun h0 => hfoot ⟨h0, by simpa using h⟩
      filter_upwards [(hcont _ _).eventually_lt continuousAt_const hlt] with q hq
      exact .inr hq.le
  have habs : ContinuousAt (fun q : Plane => |q.1 - rx|) p := by fun_prop
  filter_upwards [habs.eventually_lt continuousAt_const hx',
    continuousAt_const.eventually_lt continuousAt_snd hy',
    continuousAt_const.eventually_lt (hcont _ _) hoff', hinner] with q h1 h2 h3 h4
  exact ⟨⟨h1.le, h2.le, h3.le⟩, h1.le, h4⟩

theorem barrel_subset_enclosed : barrel rx y1 y3 ⊆ enclosed (canBody rx y1 y3).trace :=
  subset_enclosed_of_mem_nhds (barrel_isBounded hr) (barrel_isClosed rx y1 y3)
    fun _ => barrel_mem_nhds hr

/-- The box below the upper rim of a can is within its barrel. -/
theorem box_subset_barrel :
    Set.Icc 0 (rx + rx) ×ˢ Set.Icc (y1 + y1) y3 ⊆ barrel rx y1 y3 := by
  rintro p ⟨⟨hx, hx'⟩, hy, hy'⟩
  have hcolumn : |p.1 - rx| ≤ rx := abs_le.2 ⟨by linarith, by linarith⟩
  have hy1 := hr.2
  have hsq : y1 ^ 2 ≤ (p.2 - y1) ^ 2 := pow_le_pow_left₀ hy1.le (by linarith) 2
  have hdeep := mul_le_mul_of_nonneg_left hsq (sq_nonneg rx)
  refine ⟨⟨hcolumn, le_trans (le_add_of_nonneg_left hy1.le) hy, ?_⟩, hcolumn, .inl hy'⟩
  simp only [offEllipse]
  nlinarith [sq_nonneg (y1 * (p.1 - rx))]

theorem canBody_volume_pos (h : y1 + y1 < y3) :
    0 < MeasureTheory.volume (enclosed (canBody rx y1 y3).trace) := by
  have hmid : Set.Icc 0 (rx + rx) ×ˢ Set.Icc (y1 + y1) y3 ∈ nhds (rx, (y1 + y1 + y3) / 2) :=
    prod_mem_nhds (Icc_mem_nhds hr.1 (lt_add_of_pos_left rx hr.1))
      (Icc_mem_nhds (by linarith) (by linarith))
  exact MeasureTheory.Measure.measure_pos_of_mem_nhds _
    (Filter.mem_of_superset hmid ((box_subset_barrel hr).trans (barrel_subset_enclosed hr)))

end Round

/-- A line has no area. -/
theorem volume_line {a b : ℝ} (hab : 0 < a ^ 2 + b ^ 2) :
    MeasureTheory.volume (halfPlane a b 0 ∩ halfPlane (-a) (-b) 0) = 0 := by
  set φ : Plane →ₗ[ℝ] ℝ := a • LinearMap.fst ℝ ℝ ℝ + b • LinearMap.snd ℝ ℝ ℝ with hφ
  have hline : halfPlane a b 0 ∩ halfPlane (-a) (-b) 0 ⊆ LinearMap.ker φ := by
    rintro p ⟨h, h'⟩
    rw [mem_halfPlane] at h h'
    have hzero : a * p.1 + b * p.2 = 0 := by linarith
    simpa [hφ] using hzero
  have hproper : LinearMap.ker φ ≠ ⊤ := by
    intro htop
    have hmem : ((a, b) : Plane) ∈ LinearMap.ker φ := htop ▸ Submodule.mem_top
    simp only [hφ, LinearMap.mem_ker, LinearMap.add_apply, LinearMap.smul_apply,
      LinearMap.fst_apply, LinearMap.snd_apply, smul_eq_mul] at hmem
    linarith
  exact MeasureTheory.measure_mono_null hline
    (MeasureTheory.Measure.addHaar_submodule _ _ hproper)

/-- Without its rims a can is a line. -/
theorem canBody_volume_flat (hrx : 0 < rx) (y3 : ℝ) :
    MeasureTheory.volume (enclosed (canBody rx 0 y3).trace) = 0 := by
  have hab : 0 < y3 ^ 2 + (-(rx + rx)) ^ 2 := by
    rw [neg_sq]
    positivity
  have hab' : 0 < (-y3) ^ 2 + (- -(rx + rx)) ^ 2 := by
    rw [neg_neg]
    positivity
  have hside (a b : ℝ) (h : a * (rx + rx) + b * y3 = 0) :
      (canBody rx 0 y3).trace ⊆ halfPlane a b 0 := by
    have hstart : ((0, 0) : Plane) ∈ halfPlane a b 0 := by simp [mem_halfPlane]
    have hend : ((rx + rx, y3) : Plane) ∈ halfPlane a b 0 := mem_halfPlane.2 h.le
    have hconvex := halfPlane_convex a b 0
    rw [canBody, Sketch.trace_move, Trail.trace_arc_of_not_positive _ _ _ (not_positive_flat rx),
      Trail.trace_line, Trail.trace_arc_of_not_positive _ _ _ (not_positive_flat rx),
      Trail.trace_close, Trail.trace_nil]
    exact Set.union_subset (hconvex.segment_subset hstart hend)
      (Set.union_subset (hconvex.segment_subset hend hstart)
        (hconvex.segment_subset hstart hstart))
  refine MeasureTheory.measure_mono_null (Set.subset_inter ?_ ?_) (volume_line hab)
  · exact enclosed_subset_halfPlane hab (hside _ _ (by ring))
  · exact enclosed_subset_halfPlane hab' (hside _ _ (by ring))

end Body

section Side

variable {f : Frame ℝ} {y : ℝ} (hw : 0 < f.w) (hh : 0 < f.h)

include hw hh

theorem canBody_corners_iff (hy : 0 ≤ y) :
    (canCorners f y).Sublist ((Path.empty.legs (canBody (f.w / 2) y (f.h - y))).map Leg.target) ↔
      0 < y := by
  rcases hy.eq_or_lt with rfl | hpos
  · refine iff_of_false (fun h => ?_) (lt_irrefl 0)
    have hcorner : (⟨f.w, 0⟩ : Point ℝ) ∈ canCorners f 0 := by simp [canCorners]
    have hmem := h.subset hcorner
    simp only [canBody, Path.empty_eq, Path.legs_move, Path.legs_line, Path.legs_close,
      Path.legs_nil, Path.legs_flat _ (not_positive_flat (f.w / 2))] at hmem
    simp [hw.ne', hh.ne] at hmem
  · have hr : (⟨f.w / 2, y⟩ : Point ℝ).Positive := ⟨half_pos hw, hpos⟩
    refine iff_of_true ?_ hpos
    simp only [canBody, canCorners, Path.empty_eq, Path.legs_move, Path.legs_line, Path.legs_close,
      Path.legs_nil, Path.legs_left_right _ hr, Path.legs_right_left _ hr, List.map_cons,
      List.map_nil, zero_add, add_halves, sub_half, sub_self]
    simp

omit hh in
theorem canBody_volume_iff (hy : 0 ≤ y) (hyh : y ≤ f.h / 4) :
    0 < MeasureTheory.volume (enclosed (canBody (f.w / 2) y (f.h - y)).trace) ↔ 0 < y := by
  rcases hy.eq_or_lt with rfl | hpos
  · rw [canBody_volume_flat (half_pos hw)]
    exact iff_of_false (lt_irrefl 0) (lt_irrefl 0)
  · exact iff_of_true (canBody_volume_pos ⟨half_pos hw, hpos⟩ (by linarith)) hpos

end Side

variable {f : Frame ℝ}

/-- The height of the curls of a bracket, as a part of the short side. -/
def bracketCurl (f : Frame ℝ) : ℝ := f.pinned "adj" 8333 0 (divOrZero (50000 * f.h) f.ss)

/-- The height of the curls of a brace, as a part of the short side. -/
def braceCurl (f : Frame ℝ) : ℝ :=
  let a2 := f.pinned "adj2" 50000 0 100000
  f.pinned "adj1" 8333 0 (divOrZero (min (100000 - a2) a2 / 2 * f.h) f.ss)

/-- The height of the rims of a can, as a part of half the short side. -/
def canRim (f : Frame ℝ) : ℝ := f.pinned "adj" 25000 0 (divOrZero (50000 * f.h) f.ss)

theorem leftBracket_eq (f : Frame ℝ) :
    leftBracket f = bracketOf f.w f.h (f.shortPart (bracketCurl f)) := by
  simp only [leftBracket, bracketOf, bracketCurl, Scalar.zero_real]

theorem leftBrace_eq (f : Frame ℝ) :
    leftBrace f = braceOf f.w f.h (f.shortPart (braceCurl f))
      (f.heightPart (f.pinned "adj2" 50000 0 100000)) := by
  simp only [leftBrace, braceOf, braceCurl, Scalar.zero_real, Scalar.min_real]
  rfl

variable (hw : 0 < f.w) (hh : 0 < f.h)

section Guides

include hw hh

theorem bracketCurl_nonneg : 0 ≤ bracketCurl f := by
  have hss : 0 < f.ss := Frame.ss_pos hw hh
  have hmax : 0 ≤ divOrZero (50000 * f.h) f.ss := Frame.divOrZero_nonneg (by positivity) hss.le
  exact (f.pinned_mem "adj" 8333 hmax).1

theorem braceCurl_nonneg : 0 ≤ braceCurl f := by
  have hss : 0 < f.ss := Frame.ss_pos hw hh
  obtain ⟨h2, h2'⟩ := f.pinned_mem "adj2" 50000 (show (0 : ℝ) ≤ 100000 by norm_num)
  set a2 := f.pinned "adj2" 50000 0 100000
  have hroom : 0 ≤ min (100000 - a2) a2 := le_min (by linarith) h2
  exact (f.pinned_mem "adj1" 8333 (Frame.divOrZero_nonneg (by positivity) hss.le)).1

theorem shortPart_pos_iff {a : ℝ} : 0 < f.shortPart a ↔ 0 < a := by
  have hss : 0 < f.ss := Frame.ss_pos hw hh
  rw [Frame.shortPart_real, div_pos_iff_of_pos_right (by norm_num), mul_pos_iff_of_pos_left hss]

theorem canRim_nonneg : 0 ≤ canRim f := by
  have hss := Frame.ss_pos hw hh
  exact (f.pinned_mem "adj" 25000 (Frame.divOrZero_nonneg (by positivity) hss.le)).1

/-- The rims take at most half the height. -/
theorem shortPart_canRim_le : f.shortPart (canRim f / 2) ≤ f.h / 4 := by
  have hle : f.ss * canRim f / 100000 ≤ 50000 * f.h / 100000 :=
    (shortPart_pinned_mem (Frame.ss_pos hw hh) hh.le (by norm_num)).2
  rw [Frame.shortPart_real]
  linarith

end Guides

theorem can_body (f : Frame ℝ) : ∃ body rest, LayeredPreset.can.layers f = body :: rest ∧
    body.sketch = canBody (f.w / 2) (f.shortPart (canRim f / 2))
      (f.h - f.shortPart (canRim f / 2)) := by
  refine ⟨_, _, rfl, ?_⟩
  have hy : f.ss * f.pinned "adj" 25000 0 (divOrZero (50000 * f.h) f.ss) / 200000 =
      f.shortPart (canRim f / 2) := by
    rw [Frame.shortPart_real, canRim]
    ring
  simp only [Layer.fill, canBody, Scalar.zero_real, hy, add_halves]

/-- Brackets, braces and the body of the can are drawn through to their ends in every frame and
with every adjustment that leaves their curls a height, and with no other. The right ones are the
mirror images of the left ones either way. -/
theorem curls_reach_iff {f : Frame ℝ} (hw : 0 < f.w) (hh : 0 < f.h) :
    (Brackets f (Path.empty.legs (Preset.leftBracket.sketch f)) ↔ 0 < bracketCurl f) ∧
    (Braces f ⟨0, f.h * f.pinned "adj2" 50000 0 100000 / 100000⟩
      (Path.empty.legs (Preset.leftBrace.sketch f)) ↔ 0 < braceCurl f) ∧
    DrawsMirrored (.leftRight f.w) (Preset.leftBracket.sketch f) (Preset.rightBracket.sketch f) ∧
    DrawsMirrored (.leftRight f.w) (Preset.leftBrace.sketch f) (Preset.rightBrace.sketch f) ∧
    ∃ body rest, LayeredPreset.can.layers f = body :: rest ∧
      ((canCorners f (f.ss * canRim f / 200000)).Sublist
        ((Path.empty.legs body.sketch).map Leg.target) ↔ 0 < canRim f) ∧
      (0 < MeasureTheory.volume (enclosed body.sketch.trace) ↔ 0 < canRim f) := by
  have hf : f.Sized := ⟨hw.le, hh.le⟩
  refine ⟨?_, ?_, drawsMirrored_reflect .., drawsMirrored_reflect .., ?_⟩
  · change Brackets f (Path.empty.legs (leftBracket f)) ↔ _
    rw [leftBracket_eq, bracketOf_iff hw (hf.shortPart_nonneg (bracketCurl_nonneg hw hh)),
      shortPart_pos_iff hw hh]
  · change Braces f _ (Path.empty.legs (leftBrace f)) ↔ _
    rw [leftBrace_eq, ← Frame.heightPart_real,
      braceOf_iff hw (hf.shortPart_nonneg (braceCurl_nonneg hw hh)), shortPart_pos_iff hw hh]
  · obtain ⟨body, rest, hlayers, hbody⟩ := can_body f
    have hrim := canRim_nonneg hw hh
    have hy : 0 ≤ f.shortPart (canRim f / 2) := hf.shortPart_nonneg (by positivity)
    have hy' : f.ss * canRim f / 200000 = f.shortPart (canRim f / 2) := by
      rw [Frame.shortPart_real]
      ring
    have hpos : 0 < f.shortPart (canRim f / 2) ↔ 0 < canRim f := by
      rw [shortPart_pos_iff hw hh, div_pos_iff_of_pos_right two_pos]
    refine ⟨body, rest, hlayers, ?_, ?_⟩
    · rw [hbody, hy', canBody_corners_iff hw hh hy, hpos]
    · rw [hbody, canBody_volume_iff hw hy (shortPart_canRim_le hw hh), hpos]

/-- A wide frame, with its adjustments left out. -/
theorem curls_reach_wide :
    let f : Frame ℝ := ⟨200, 100, .empty⟩
    (0 < f.w ∧ 0 < f.h) ∧
    ((Brackets f (Path.empty.legs (Preset.leftBracket.sketch f)) ↔ 0 < bracketCurl f) ∧
    (Braces f ⟨0, f.h * f.pinned "adj2" 50000 0 100000 / 100000⟩
      (Path.empty.legs (Preset.leftBrace.sketch f)) ↔ 0 < braceCurl f) ∧
    DrawsMirrored (.leftRight f.w) (Preset.leftBracket.sketch f) (Preset.rightBracket.sketch f) ∧
    DrawsMirrored (.leftRight f.w) (Preset.leftBrace.sketch f) (Preset.rightBrace.sketch f) ∧
    ∃ body rest, LayeredPreset.can.layers f = body :: rest ∧
      ((canCorners f (f.ss * canRim f / 200000)).Sublist
        ((Path.empty.legs body.sketch).map Leg.target) ↔ 0 < canRim f) ∧
      (0 < MeasureTheory.volume (enclosed body.sketch.trace) ↔ 0 < canRim f)) := by
  intro f
  have hw : 0 < f.w := by norm_num [f]
  have hh : 0 < f.h := by norm_num [f]
  exact ⟨⟨hw, hh⟩, curls_reach_iff hw hh⟩

/-- With an adjustment of zero a bracket ends on the left side, and a can has no inside. -/
theorem flat_curls_stop_short :
    let f : Frame ℝ := ⟨10, 40, ⟨[("adj", 0)]⟩⟩
    (¬Brackets f (Path.empty.legs (Preset.leftBracket.sketch f)) ∧
      ((Path.empty.legs (Preset.leftBracket.sketch f)).getLast?.map Leg.target) = some ⟨0, 0⟩) ∧
    ∃ body rest, LayeredPreset.can.layers f = body :: rest ∧
      MeasureTheory.volume (enclosed body.sketch.trace) = 0 := by
  intro f
  have hw : 0 < f.w := by norm_num [f]
  have hadj (default hi : ℝ) (hhi : 0 ≤ hi) : f.pinned "adj" default 0 hi = 0 := by
    have hval : f.adjustment "adj" default = 0 := by
      simp [f, Frame.adjustment, Adjustments.getD, Adjustments.get?]
    rw [Frame.pinned, hval, pin_eq_self le_rfl hhi]
  have hroom : (0 : ℝ) ≤ divOrZero (50000 * f.h) f.ss :=
    Frame.divOrZero_nonneg (by norm_num [f]) (Frame.ss_pos hw (by norm_num [f])).le
  have hcurl : f.shortPart (bracketCurl f) = 0 := by
    rw [bracketCurl, hadj _ _ hroom, Frame.shortPart_real, mul_zero, zero_div]
  have hbracket : Preset.leftBracket.sketch f = bracketOf f.w f.h 0 := by
    rw [← hcurl]
    exact leftBracket_eq f
  refine ⟨⟨?_, ?_⟩, ?_⟩
  · rw [hbracket, bracketOf_iff hw le_rfl]
    exact lt_irrefl 0
  · rw [hbracket]
    simp only [bracketOf, Path.empty_eq, Path.legs_move, Path.legs_line, Path.legs_nil,
      Path.legs_flat _ (not_positive_flat f.w)]
    rfl
  · obtain ⟨body, rest, hlayers, hbody⟩ := can_body f
    have hrim : f.shortPart (canRim f / 2) = 0 := by
      rw [canRim, hadj _ _ hroom, Frame.shortPart_real, zero_div, mul_zero, zero_div]
    refine ⟨body, rest, hlayers, ?_⟩
    rw [hbody, hrim]
    exact canBody_volume_flat (half_pos hw) _

end
end ShapeOutline
