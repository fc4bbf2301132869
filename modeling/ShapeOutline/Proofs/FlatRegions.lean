import ShapeOutline.Proofs.Legs
import ShapeOutline.Proofs.Subpaths
import ShapeOutline.Proofs.TraceImage

/-! The regions of a flattened shape. A scroll traces the inside of its upper roll
twice, once around the sheet and once around the roll itself; no other layered
preset traces a region twice. -/

namespace ShapeOutline
noncomputable section

/-- Sub-paths are as far apart as their reflections. -/
theorem apart_reflect (s t : Sketch ℝ) (u : Reflection ℝ) :
    Apart (s.reflect u) (t.reflect u) ↔ Apart s t := by
  have hinterior (A : Set Plane) : interior (u.plane '' A) = u.plane '' interior A :=
    (u.plane.toHomeomorph.image_interior A).symm
  rw [Apart, Apart, Sketch.reflect_enclosed, Sketch.reflect_enclosed, hinterior, hinterior,
    Set.disjoint_image_iff u.plane.injective]

theorem not_apart {s t : Sketch ℝ} {V : Set Plane} (hopen : IsOpen V) (hne : V.Nonempty)
    (hs : V ⊆ enclosed s.trace) (ht : V ⊆ enclosed t.trace) : ¬Apart s t := by
  obtain ⟨p, hp⟩ := hne
  exact Set.not_disjoint_iff.2 ⟨p, interior_maximal hs hopen hp, interior_maximal ht hopen hp⟩

theorem not_fillsAlike {s t : Sketch ℝ} {p : Plane} (hs : p ∈ enclosed s.trace)
    (ht : p ∈ enclosed t.trace) (hs' : p ∉ s.trace) (ht' : p ∉ t.trace) :
    ¬FillsAlike [s, t] := by
  intro h
  have haround : around [s, t] p = [s, t] :=
    List.filter_eq_self.2 (by simp [hs, ht])
  have honce := (h p (by simp [hs', ht'])).1
  rw [haround] at honce
  exact absurd honce (by simp)

section Circles

variable {center : Point ℝ} {r : ℝ} {p : Plane}

/-- Less than zero within a circle, zero on it and more beyond. -/
def offCircle (center : Point ℝ) (r : ℝ) (p : Plane) : ℝ :=
  (p.1 - center.x) ^ 2 + (p.2 - center.y) ^ 2 - r ^ 2

theorem offEllipse_circle : offEllipse center ⟨r, r⟩ p = r ^ 2 * offCircle center r p := by
  rw [offEllipse, offCircle]
  ring

theorem continuous_offCircle (center : Point ℝ) (r : ℝ) : Continuous (offCircle center r) := by
  unfold offCircle
  fun_prop

variable (hr : 0 < r)

include hr

theorem offEllipse_circle_eq_zero : offEllipse center ⟨r, r⟩ p = 0 ↔ offCircle center r p = 0 := by
  rw [offEllipse_circle, mul_eq_zero, or_iff_right (pow_ne_zero 2 hr.ne')]

theorem mem_circle_quarter (deg : ℝ) :
    p ∈ Point.place '' arcCurve center ⟨r, r⟩ deg 90 ↔
      offCircle center r p = 0 ∧
        0 ≤ (bearing deg).x * (p.2 - center.y) - (bearing deg).y * (p.1 - center.x) ∧
        0 ≤ (bearing deg).x * (p.1 - center.x) + (bearing deg).y * (p.2 - center.y) := by
  rw [mem_arc_quarter ⟨hr, hr⟩, offEllipse_circle_eq_zero hr]

theorem mem_circle_half (deg : ℝ) :
    p ∈ Point.place '' arcCurve center ⟨r, r⟩ deg 180 ↔
      offCircle center r p = 0 ∧
        0 ≤ (bearing deg).x * (p.2 - center.y) - (bearing deg).y * (p.1 - center.x) := by
  rw [mem_arc_half ⟨hr, hr⟩, offEllipse_circle_eq_zero hr]

end Circles

/-- The sheet of a scroll whose rolls have the radius `r`. -/
def scrollSheet (w h r : ℝ) : Sketch ℝ :=
  [.move ⟨r, h⟩, .arc ⟨r, r⟩ 90 (-90), .line ⟨2 * r, r⟩, .arc ⟨r, r⟩ 180 90, .line ⟨w - r, 0⟩,
    .arc ⟨r, r⟩ 270 180, .line ⟨w - 2 * r, 2 * r⟩, .line ⟨w - 2 * r, h - r⟩, .arc ⟨r, r⟩ 0 90,
    .close]

/-- The shadow in the upper roll. -/
def scrollRoll (r : ℝ) : Sketch ℝ :=
  [.move ⟨4 * r, r⟩, .arc ⟨r, r⟩ 0 90, .arc ⟨r / 2, r / 2⟩ 90 180, .close]

section Traces

variable {w h r : ℝ} (hr : 0 < r)

include hr

theorem scrollSheet_trace :
    (scrollSheet w h r).trace =
      Point.place '' arcCurve ⟨r, h - r⟩ ⟨r, r⟩ 0 90 ∪ (segment ℝ (2 * r, h - r) (2 * r, r) ∪
        (Point.place '' arcCurve ⟨3 * r, r⟩ ⟨r, r⟩ 180 90 ∪ (segment ℝ (3 * r, 0) (w - r, 0) ∪
          (Point.place '' arcCurve ⟨w - r, r⟩ ⟨r, r⟩ 270 180 ∪
            (segment ℝ (w - r, 2 * r) (w - 2 * r, 2 * r) ∪
              (segment ℝ (w - 2 * r, 2 * r) (w - 2 * r, h - r) ∪
                (Point.place '' arcCurve ⟨w - 3 * r, h - r⟩ ⟨r, r⟩ 0 90 ∪
                  (segment ℝ (w - 3 * r, h) (r, h) ∪ segment ℝ (r, h) (r, h))))))))) := by
  have hpos : (⟨r, r⟩ : Point ℝ).Positive := ⟨hr, hr⟩
  rw [scrollSheet, Sketch.trace_move,
    Trail.trace_arc_about ⟨r, h - r⟩ ⟨2 * r, h - r⟩ hpos (by norm_num)
      (by norm_num) (by rw [spoke_ninety hpos]; ext <;> simp)
      (by norm_num [spoke_zero hpos]; ext <;> simp; ring),
    arcCurve_neg, Trail.trace_line,
    Trail.trace_arc_about ⟨3 * r, r⟩ ⟨3 * r, 0⟩ hpos (by norm_num)
      (by norm_num) (by rw [spoke_half hpos]; ext <;> simp; ring)
      (by norm_num [spoke_threeQuarters hpos]; ext <;> simp),
    Trail.trace_line,
    Trail.trace_arc_about ⟨w - r, r⟩ ⟨w - r, 2 * r⟩ hpos (by norm_num)
      (by norm_num) (by rw [spoke_threeQuarters hpos]; ext <;> simp)
      (by norm_num [spoke_450 hpos]; ext <;> simp; ring),
    Trail.trace_line, Trail.trace_line,
    Trail.trace_arc_about ⟨w - 3 * r, h - r⟩ ⟨w - 3 * r, h⟩ hpos
      (by norm_num) (by norm_num) (by rw [spoke_zero hpos]; ext <;> simp; ring)
      (by norm_num [spoke_ninety hpos]; ext <;> simp)]
  norm_num

theorem scrollRoll_trace :
    (scrollRoll r).trace =
      Point.place '' arcCurve ⟨3 * r, r⟩ ⟨r, r⟩ 0 90 ∪
        (Point.place '' arcCurve ⟨3 * r, 3 * r / 2⟩ ⟨r / 2, r / 2⟩ 90 180 ∪
          (segment ℝ (3 * r, r) (4 * r, r) ∪ segment ℝ (4 * r, r) (4 * r, r))) := by
  have hpos : (⟨r, r⟩ : Point ℝ).Positive := ⟨hr, hr⟩
  have hpos' : (⟨r / 2, r / 2⟩ : Point ℝ).Positive := ⟨half_pos hr, half_pos hr⟩
  rw [scrollRoll, Sketch.trace_move,
    Trail.trace_arc_about ⟨3 * r, r⟩ ⟨3 * r, 2 * r⟩ hpos (by norm_num)
      (by norm_num) (by rw [spoke_zero hpos]; ext <;> simp; ring)
      (by norm_num [spoke_ninety hpos]; ext <;> simp; ring),
    Trail.trace_arc_about ⟨3 * r, 3 * r / 2⟩ ⟨3 * r, r⟩ hpos' (by norm_num)
      (by norm_num) (by rw [spoke_ninety hpos']; ext <;> simp; ring)
      (by norm_num [spoke_threeQuarters hpos']; ext <;> simp; ring)]
  norm_num

end Traces

/-- The inside of the sheet, with its boundary where `R` is `≤` and without it where it is `<`. -/
@[mk_iff]
structure InSheet (R : ℝ → ℝ → Prop) (w h r : ℝ) (p : Plane) : Prop where
  top : R 0 p.2
  bottom : R p.2 h
  left : R r p.1
  side : R (h - r) p.2 ∨ R (2 * r) p.1
  upperLeft : R r p.2 ∨ R (3 * r) p.1 ∨ R (offCircle ⟨3 * r, r⟩ r p) 0
  lowerLeft : R 0 (offCircle ⟨r, h - r⟩ r p)
  upperRight : R p.1 (w - r) ∨ R (offCircle ⟨w - r, r⟩ r p) 0
  right : R p.2 (2 * r) ∨ R p.1 (w - 2 * r)
  lowerRight : R p.2 (h - r) ∨ R p.1 (w - 3 * r) ∨ R (offCircle ⟨w - 3 * r, h - r⟩ r p) 0

/-- The inside of the upper roll beside its lip. -/
@[mk_iff]
structure InRoll (R : ℝ → ℝ → Prop) (r : ℝ) (p : Plane) : Prop where
  top : R r p.2
  roll : R (offCircle ⟨3 * r, r⟩ r p) 0
  lip : R (3 * r) p.1 ∨ R (offCircle ⟨3 * r, 3 * r / 2⟩ (r / 2) p) 0

section Regions

variable (w h r : ℝ)

theorem inSheet_isClosed : IsClosed {p | InSheet (· ≤ ·) w h r p} := by
  have hcircle (center : Point ℝ) := continuous_offCircle center r
  simp only [inSheet_iff, Set.ofPred_and, Set.ofPred_or]
  refine .inter ?_ (.inter ?_ (.inter ?_ (.inter (.union ?_ ?_) (.inter (.union ?_ (.union ?_ ?_))
    (.inter ?_ (.inter (.union ?_ ?_) (.inter (.union ?_ ?_) (.union ?_ (.union ?_ ?_)))))))))
  all_goals refine isClosed_le ?_ ?_ <;> fun_prop

theorem inSheet_isOpen : IsOpen {p | InSheet (· < ·) w h r p} := by
  have hcircle (center : Point ℝ) := continuous_offCircle center r
  simp only [inSheet_iff, Set.ofPred_and, Set.ofPred_or]
  refine .inter ?_ (.inter ?_ (.inter ?_ (.inter (.union ?_ ?_) (.inter (.union ?_ (.union ?_ ?_))
    (.inter ?_ (.inter (.union ?_ ?_) (.inter (.union ?_ ?_) (.union ?_ (.union ?_ ?_)))))))))
  all_goals refine isOpen_lt ?_ ?_ <;> fun_prop

theorem inRoll_isClosed : IsClosed {p | InRoll (· ≤ ·) r p} := by
  have hcircle (center : Point ℝ) (r : ℝ) := continuous_offCircle center r
  simp only [inRoll_iff, Set.ofPred_and, Set.ofPred_or]
  refine .inter ?_ (.inter ?_ (.union ?_ ?_))
  all_goals refine isClosed_le ?_ ?_ <;> fun_prop

theorem inRoll_isOpen : IsOpen {p | InRoll (· < ·) r p} := by
  have hcircle (center : Point ℝ) (r : ℝ) := continuous_offCircle center r
  simp only [inRoll_iff, Set.ofPred_and, Set.ofPred_or]
  refine .inter ?_ (.inter ?_ (.union ?_ ?_))
  all_goals refine isOpen_lt ?_ ?_ <;> fun_prop

variable {w h r} {p : Plane}

theorem InSheet.le (hp : InSheet (· < ·) w h r p) : InSheet (· ≤ ·) w h r p where
  top := hp.top.le
  bottom := hp.bottom.le
  left := hp.left.le
  side := hp.side.imp le_of_lt le_of_lt
  upperLeft := hp.upperLeft.imp le_of_lt (Or.imp le_of_lt le_of_lt)
  lowerLeft := hp.lowerLeft.le
  upperRight := hp.upperRight.imp le_of_lt le_of_lt
  right := hp.right.imp le_of_lt le_of_lt
  lowerRight := hp.lowerRight.imp le_of_lt (Or.imp le_of_lt le_of_lt)

theorem InRoll.le (hp : InRoll (· < ·) r p) : InRoll (· ≤ ·) r p where
  top := hp.top.le
  roll := hp.roll.le
  lip := hp.lip.imp le_of_lt le_of_lt

variable (hr : 0 < r)

include hr

/-- A circle reaches no further than its radius. -/
theorem abs_sub_le_of_offCircle {center : Point ℝ} (h : offCircle center r p ≤ 0) :
    |p.1 - center.x| ≤ r ∧ |p.2 - center.y| ≤ r := by
  rw [offCircle] at h
  constructor
  · exact abs_le_of_sq_le_sq (by linarith [sq_nonneg (p.2 - center.y)]) hr.le
  · exact abs_le_of_sq_le_sq (by linarith [sq_nonneg (p.1 - center.x)]) hr.le

namespace InSheet

/-- A point within every bound lies on no edge. -/
theorem not_mem_trace (hh : 8 * r ≤ h) (hp : InSheet (· < ·) w h r p) :
    p ∉ (scrollSheet w h r).trace := by
  obtain ⟨htop, hbottom, hleft, hside, hupper, hroll, hright, hlip, hlower⟩ := hp
  rw [scrollSheet_trace hr]
  simp only [Set.mem_union, not_or, segment_same, mem_circle_quarter hr, mem_circle_half hr,
    mem_segment_across, mem_segment_down, Set.mem_uIcc, bearing_zero, bearing_half,
    bearing_threeQuarters, Set.mem_singleton_iff]
  refine ⟨fun ⟨h0, _⟩ => ?_, fun ⟨hx, hy⟩ => ?_, fun ⟨h0, hx, hy⟩ => ?_, fun ⟨hy, _⟩ => ?_,
    fun ⟨h0, hx⟩ => ?_, fun ⟨hy, hx⟩ => ?_, fun ⟨hx, hy⟩ => ?_, fun ⟨h0, hy, hx⟩ => ?_,
    fun ⟨hy, _⟩ => ?_, fun h0 => ?_⟩
  · linarith
  · rcases hside with h | h <;> rcases hy with ⟨h1, h2⟩ | ⟨h1, h2⟩ <;> linarith
  · rcases hupper with h | h | h <;> linarith
  · linarith
  · rcases hright with h | h <;> linarith
  · rcases hlip with h | h <;> rcases hx with ⟨h1, h2⟩ | ⟨h1, h2⟩ <;> linarith
  · rcases hlip with h | h <;> rcases hy with ⟨h1, h2⟩ | ⟨h1, h2⟩ <;> linarith
  · rcases hlower with h | h | h <;> linarith
  · linarith
  · rw [h0] at hbottom
    exact lt_irrefl h hbottom

variable (hp : InSheet (· ≤ ·) w h r p)

include hp

theorem top_lt (hedge : p ∉ segment ℝ (3 * r, 0) (w - r, 0)) : 0 < p.2 := by
  have hleft := hp.upperLeft
  have hright := hp.upperRight
  simp only [offCircle] at hleft hright
  refine hp.top.lt_of_ne fun h0 => hedge (mem_segment_horizontal ?_ ?_ h0.symm)
  · rcases hleft with h | h | h <;> nlinarith
  · rcases hright with h | h <;> nlinarith

theorem bottom_lt (hedge : p ∉ segment ℝ (w - 3 * r, h) (r, h)) : p.2 < h := by
  have hright := hp.lowerRight
  simp only [offCircle] at hright
  rw [segment_symm] at hedge
  refine hp.bottom.lt_of_ne fun h0 => hedge (mem_segment_horizontal hp.left ?_ h0)
  rcases hright with h | h | h <;> nlinarith

/-- The roll below touches the left side at the very bottom. -/
theorem left_lt (hbottom : p.2 < h) : r < p.1 := by
  have hroll := hp.lowerLeft
  simp only [offCircle] at hroll
  refine hp.left.lt_of_ne fun h0 => ?_
  rcases hp.side with h | h <;> nlinarith

theorem side_lt (hedge : p ∉ segment ℝ (2 * r, h - r) (2 * r, r)) :
    h - r < p.2 ∨ 2 * r < p.1 := by
  have hroll := hp.lowerLeft
  have hupper := hp.upperLeft
  have hleft := hp.left
  simp only [offCircle] at hroll hupper
  rw [segment_symm] at hedge
  by_contra! hc
  obtain ⟨hy, hx⟩ := hc
  have hx' : 2 * r ≤ p.1 := by rcases hp.side with h | h <;> nlinarith
  refine hedge (mem_segment_vertical ?_ hy (le_antisymm hx hx'))
  rcases hupper with h | h | h <;> nlinarith

theorem upperLeft_lt (hh : 8 * r ≤ h)
    (hroll : p ∉ Point.place '' arcCurve ⟨3 * r, r⟩ ⟨r, r⟩ 180 90) :
    r < p.2 ∨ 3 * r < p.1 ∨ offCircle ⟨3 * r, r⟩ r p < 0 := by
  rw [mem_circle_quarter hr, bearing_half] at hroll
  by_contra! hc
  obtain ⟨hy, hx, hoff⟩ := hc
  have hpos : 0 < offCircle ⟨3 * r, r⟩ r p :=
    hoff.lt_of_ne fun h0 => hroll ⟨h0.symm, by simp only; linarith, by simp only; linarith⟩
  have hupper := hp.upperLeft
  have htop := hp.top
  simp only [offCircle] at hupper hpos
  rcases hp.side with hside | hside
  · linarith
  · rcases hupper with h | h | h <;> nlinarith

theorem lowerLeft_lt (hroll : p ∉ Point.place '' arcCurve ⟨r, h - r⟩ ⟨r, r⟩ 0 90) :
    0 < offCircle ⟨r, h - r⟩ r p := by
  rw [mem_circle_quarter hr, bearing_zero] at hroll
  refine hp.lowerLeft.lt_of_ne fun h0 => hroll ⟨h0.symm, ?_, ?_⟩
  · by_contra! hy
    simp only [offCircle] at h0 hy
    rcases hp.side with h | h <;> nlinarith
  · simp only
    linarith [hp.left]

theorem upperRight_lt (hroll : p ∉ Point.place '' arcCurve ⟨w - r, r⟩ ⟨r, r⟩ 270 180) :
    p.1 < w - r ∨ offCircle ⟨w - r, r⟩ r p < 0 := by
  rw [mem_circle_half hr, bearing_threeQuarters] at hroll
  by_contra! hc
  obtain ⟨hx, hoff⟩ := hc
  have hpos : 0 < offCircle ⟨w - r, r⟩ r p :=
    hoff.lt_of_ne fun h0 => hroll ⟨h0.symm, by simp only; linarith⟩
  have hupper := hp.upperRight
  have htop := hp.top
  simp only [offCircle] at hupper hpos
  rcases hupper with hupper | hupper
  · rcases hp.right with h | h <;> nlinarith
  · linarith

theorem right_lt (hlip : p ∉ segment ℝ (w - r, 2 * r) (w - 2 * r, 2 * r))
    (hedge : p ∉ segment ℝ (w - 2 * r, 2 * r) (w - 2 * r, h - r)) :
    p.2 < 2 * r ∨ p.1 < w - 2 * r := by
  have hupper := hp.upperRight
  have hlower := hp.lowerRight
  simp only [offCircle] at hupper hlower
  rw [segment_symm] at hlip
  by_contra! hc
  obtain ⟨hy, hx⟩ := hc
  rcases hp.right with hright | hright
  · refine hlip (mem_segment_horizontal hx ?_ (le_antisymm hright hy))
    rcases hupper with h | h <;> nlinarith
  · refine hedge (mem_segment_vertical hy ?_ (le_antisymm hright hx))
    rcases hlower with h | h | h <;> nlinarith

theorem lowerRight_lt (hh : 8 * r ≤ h)
    (hroll : p ∉ Point.place '' arcCurve ⟨w - 3 * r, h - r⟩ ⟨r, r⟩ 0 90) :
    p.2 < h - r ∨ p.1 < w - 3 * r ∨ offCircle ⟨w - 3 * r, h - r⟩ r p < 0 := by
  rw [mem_circle_quarter hr, bearing_zero] at hroll
  by_contra! hc
  obtain ⟨hy, hx, hoff⟩ := hc
  have hpos : 0 < offCircle ⟨w - 3 * r, h - r⟩ r p :=
    hoff.lt_of_ne fun h0 => hroll ⟨h0.symm, by simp only; linarith, by simp only; linarith⟩
  have hlower := hp.lowerRight
  have hbottom := hp.bottom
  simp only [offCircle] at hlower hpos
  rcases hp.right with hright | hright
  · linarith
  · rcases hlower with h | h | h <;> nlinarith

theorem lt (hh : 8 * r ≤ h) (htrace : p ∉ (scrollSheet w h r).trace) :
    InSheet (· < ·) w h r p := by
  rw [scrollSheet_trace hr] at htrace
  simp only [Set.mem_union, not_or] at htrace
  obtain ⟨hA, hside, hB, htop, hC, hlip, hright, hD, hbottom, -⟩ := htrace
  have hlow := hp.bottom_lt hr hbottom
  exact {
    top := hp.top_lt hr htop
    bottom := hlow
    left := hp.left_lt hr hlow
    side := hp.side_lt hr hside
    upperLeft := hp.upperLeft_lt hr hh hB
    lowerLeft := hp.lowerLeft_lt hr hA
    upperRight := hp.upperRight_lt hr hC
    right := hp.right_lt hr hlip hright
    lowerRight := hp.lowerRight_lt hr hh hD }

end InSheet

namespace InRoll

theorem not_mem_trace (hp : InRoll (· < ·) r p) : p ∉ (scrollRoll r).trace := by
  obtain ⟨htop, hroll, hlip⟩ := hp
  rw [scrollRoll_trace hr]
  simp only [Set.mem_union, not_or, segment_same, mem_circle_quarter hr,
    mem_circle_half (half_pos hr), mem_segment_across, bearing_ninety, Set.mem_singleton_iff]
  refine ⟨fun ⟨h0, _⟩ => ?_, fun ⟨h0, hx⟩ => ?_, fun ⟨hy, _⟩ => ?_, fun h0 => ?_⟩
  · linarith
  · rcases hlip with h | h <;> linarith
  · linarith
  · rw [h0] at htop
    exact lt_irrefl r htop

variable (hp : InRoll (· ≤ ·) r p)

include hp

theorem top_lt (hedge : p ∉ segment ℝ (3 * r, r) (4 * r, r)) : r < p.2 := by
  have hroll := hp.roll
  have hlip := hp.lip
  simp only [offCircle] at hroll hlip
  refine hp.top.lt_of_ne fun h0 => hedge (mem_segment_horizontal ?_ ?_ h0.symm)
  · rcases hlip with h | h <;> nlinarith
  · nlinarith

theorem roll_lt (hround : p ∉ Point.place '' arcCurve ⟨3 * r, r⟩ ⟨r, r⟩ 0 90) :
    offCircle ⟨3 * r, r⟩ r p < 0 := by
  rw [mem_circle_quarter hr, bearing_zero] at hround
  refine hp.roll.lt_of_ne fun h0 => hround ⟨h0, ?_, ?_⟩
  · simp only
    linarith [hp.top]
  · have hlip := hp.lip
    simp only [offCircle] at h0 hlip ⊢
    rcases hlip with h | h
    · linarith
    · have hy : 2 * r ≤ p.2 := by nlinarith
      nlinarith

theorem lip_lt (hround : p ∉ Point.place '' arcCurve ⟨3 * r, 3 * r / 2⟩ ⟨r / 2, r / 2⟩ 90 180) :
    3 * r < p.1 ∨ offCircle ⟨3 * r, 3 * r / 2⟩ (r / 2) p < 0 := by
  rw [mem_circle_half (half_pos hr), bearing_ninety] at hround
  by_contra! hc
  obtain ⟨hx, hoff⟩ := hc
  have hpos : 0 < offCircle ⟨3 * r, 3 * r / 2⟩ (r / 2) p :=
    hoff.lt_of_ne fun h0 => hround ⟨h0.symm, by simp only; linarith⟩
  have hroll := hp.roll
  have htop := hp.top
  have hlip := hp.lip
  simp only [offCircle] at hroll hlip hpos
  rcases hlip with hlip | hlip
  · have hx : p.1 = 3 * r := le_antisymm hx hlip
    rw [hx] at hroll hpos
    have hy : p.2 ≤ 2 * r := by nlinarith
    nlinarith [mul_nonneg (sub_nonneg.2 htop) (sub_nonneg.2 hy)]
  · linarith

theorem lt (htrace : p ∉ (scrollRoll r).trace) : InRoll (· < ·) r p := by
  rw [scrollRoll_trace hr] at htrace
  simp only [Set.mem_union, not_or] at htrace
  obtain ⟨hround, hlip, htop, -⟩ := htrace
  exact ⟨hp.top_lt hr htop, hp.roll_lt hr hround, hp.lip_lt hr hlip⟩

end InRoll

theorem inSheet_subset_enclosed (hh : 8 * r ≤ h) :
    {p | InSheet (· ≤ ·) w h r p} ⊆ enclosed (scrollSheet w h r).trace := by
  refine subset_enclosed_of_mem_nhds ?_ (inSheet_isClosed w h r) fun p hp htrace => ?_
  · refine ((Metric.isBounded_Icc 0 w).prod (Metric.isBounded_Icc 0 h)).subset fun p hp => ?_
    refine ⟨⟨hr.le.trans hp.left, ?_⟩, hp.top, hp.bottom⟩
    rcases hp.upperRight with hx | hoff
    · linarith
    · have hreach := (abs_le.1 (abs_sub_le_of_offCircle hr hoff).1).2
      simp only at hreach
      linarith
  · exact Filter.mem_of_superset
      ((inSheet_isOpen w h r).mem_nhds (hp.lt hr hh htrace)) fun _ => InSheet.le

theorem inRoll_subset_enclosed :
    {p | InRoll (· ≤ ·) r p} ⊆ enclosed (scrollRoll r).trace := by
  refine subset_enclosed_of_mem_nhds ?_ (inRoll_isClosed r) fun p hp htrace => ?_
  · refine ((Metric.isBounded_Icc (2 * r) (4 * r)).prod
      (Metric.isBounded_Icc 0 (2 * r))).subset fun p hp => ?_
    obtain ⟨hx, hy⟩ := abs_sub_le_of_offCircle hr hp.roll
    rw [abs_le] at hx hy
    simp only at hx hy
    exact ⟨⟨by linarith, by linarith⟩, by linarith, by linarith⟩
  · exact Filter.mem_of_superset
      ((inRoll_isOpen r).mem_nhds (hp.lt hr htrace)) fun _ => InRoll.le

/-- The sheet goes around the shadow in its upper roll. -/
theorem exists_in_both (hw : 8 * r ≤ w) (hh : 8 * r ≤ h) :
    ∃ p, InSheet (· < ·) w h r p ∧ InRoll (· < ·) r p := by
  refine ⟨(13 * r / 4, 5 * r / 4), ⟨?_, ?_, ?_, .inr ?_, .inl ?_, ?_, .inl ?_, .inl ?_, .inl ?_⟩,
    ?_, ?_, .inl ?_⟩
  all_goals simp only [offCircle]; nlinarith

theorem scroll_not_apart (hw : 8 * r ≤ w) (hh : 8 * r ≤ h) :
    ¬Apart (scrollSheet w h r) (scrollRoll r) :=
  not_apart ((inSheet_isOpen w h r).inter (inRoll_isOpen r)) (exists_in_both hr hw hh)
    (fun _ hp => inSheet_subset_enclosed hr hh hp.1.le)
    (fun _ hp => inRoll_subset_enclosed hr hp.2.le)

theorem scroll_not_fillsAlike (hw : 8 * r ≤ w) (hh : 8 * r ≤ h) (u : Reflection ℝ) :
    ¬FillsAlike [(scrollSheet w h r).reflect u, (scrollRoll r).reflect u] := by
  obtain ⟨p, hsheet, hroll⟩ := exists_in_both hr hw hh
  refine not_fillsAlike (p := u.plane p) ?_ ?_ ?_ ?_
  · rw [Sketch.reflect_enclosed, u.plane.injective.mem_set_image]
    exact inSheet_subset_enclosed hr hh hsheet.le
  · rw [Sketch.reflect_enclosed, u.plane.injective.mem_set_image]
    exact inRoll_subset_enclosed hr hroll.le
  · rw [Sketch.reflect_trace, u.plane.injective.mem_set_image]
    exact hsheet.not_mem_trace hr hh
  · rw [Sketch.reflect_trace, u.plane.injective.mem_set_image]
    exact hroll.not_mem_trace hr

end Regions

theorem not_positive_zero : ¬(⟨0, 0⟩ : Point ℝ).Positive := fun h => lt_irrefl 0 h.1

theorem scrollSheet_trace_zero (w h : ℝ) :
    (scrollSheet w h 0).trace =
      segment ℝ (0, h) (0, 0) ∪ (segment ℝ (0, 0) (w, 0) ∪ (segment ℝ (w, 0) (w, 0) ∪
        (segment ℝ (w, 0) (w, h) ∪ (segment ℝ (w, h) (0, h) ∪ segment ℝ (0, h) (0, h))))) := by
  have hflat := not_positive_zero
  rw [scrollSheet, Sketch.trace_move, Trail.trace_arc_of_not_positive _ _ _ hflat,
    Trail.trace_line, Trail.trace_arc_of_not_positive _ _ _ hflat, Trail.trace_line,
    Trail.trace_arc_of_not_positive _ _ _ hflat, Trail.trace_line, Trail.trace_line,
    Trail.trace_arc_of_not_positive _ _ _ hflat, Trail.trace_close, Trail.trace_nil]
  simp only [Point.place_mk, mul_zero, sub_zero]

theorem scrollRoll_trace_zero : (scrollRoll 0).trace = {(0, 0)} := by
  have hflat := not_positive_zero
  have hflat' : ¬(⟨0 / 2, 0 / 2⟩ : Point ℝ).Positive := by simpa using hflat
  rw [scrollRoll, Sketch.trace_move, Trail.trace_arc_of_not_positive _ _ _ hflat,
    Trail.trace_arc_of_not_positive _ _ _ hflat', Trail.trace_close, Trail.trace_nil,
    Point.place_mk, segment_same, Set.union_self, mul_zero]

theorem scroll_apart {w : ℝ} (hw : 0 ≤ w) (h : ℝ) : Apart (scrollSheet w h 0) (scrollRoll 0) := by
  refine disjoint_interior_of_line (a := -1) (b := 0) (c := 0) (by norm_num) ?_ ?_
  · rw [scrollSheet_trace_zero]
    simp only [Set.union_subset_iff]
    refine ⟨?_, ?_, ?_, ?_, ?_, ?_⟩ <;>
      refine (halfPlane_convex (-1) 0 0).segment_subset ?_ ?_ <;> simp [mem_halfPlane, hw]
  · rw [scrollRoll_trace_zero, Set.singleton_subset_iff]
    simp [mem_halfPlane]

/-- The width of a roll. -/
def rollWidth (f : Frame ℝ) : ℝ := f.shortPart (f.pinned "adj" 12500 0 25000)

/-- A frame of 16 by 16 without adjustments. -/
def squareFrame : Frame ℝ := .ofSides 16 16 .empty

@[simp] theorem squareFrame_w : squareFrame.w = 16 := by
  norm_num [squareFrame, Frame.ofSides, dimensionOrZero_real]

@[simp] theorem squareFrame_h : squareFrame.h = 16 := by
  norm_num [squareFrame, Frame.ofSides, dimensionOrZero_real]

@[simp] theorem squareFrame_ss : squareFrame.ss = 16 := by
  rw [Frame.ss, Scalar.min_real]
  simp

theorem rollWidth_squareFrame : rollWidth squareFrame = 2 := by
  have hpinned : squareFrame.pinned "adj" 12500 0 25000 = 12500 := by
    change pin (0 : ℝ) 12500 25000 = 12500
    norm_num [pin, Scalar.max_real]
  rw [rollWidth, hpinned, Frame.shortPart, squareFrame_ss]
  norm_num

open Layered

theorem scroll_body (f : Frame ℝ) (w h : ℝ) :
    (scrollBanner f w h).body =
      scrollSheet w h (rollWidth f / 2) ++ scrollRoll (rollWidth f / 2) := by
  have hwidth : f.shortPart (f.pinned "adj" 12500 0 25000) = rollWidth f := rfl
  have h2 : 2 * (rollWidth f / 2) = rollWidth f := by ring
  have h4 : 4 * (rollWidth f / 2) = rollWidth f + rollWidth f := by ring
  have hlip : rollWidth f / 2 / 2 = rollWidth f / 4 := by ring
  rw [scrollSheet, scrollRoll, h2, h4, hlip]
  simp [scrollBanner, hwidth]

theorem scroll_subpaths (f : Frame ℝ) (w h : ℝ) (u : Reflection ℝ) :
    (Layer.flatten ((scrollBanner f w h).layers u)).subpaths =
      [(scrollSheet w h (rollWidth f / 2)).reflect u,
        (scrollRoll (rollWidth f / 2)).reflect u] := by
  simp [Banner.layers, scroll_body, Layer.flatten, Layer.fill, Layer.shade, Layer.stroke,
    Sketch.subpaths, List.splitBy, List.splitBy.loop, Sketch.reflect, Reflection.stroke,
    Stroke.isMove, scrollSheet, scrollRoll]

/-- Four rolls fit into the short side. -/
theorem rollWidth_mem {f : Frame ℝ} (hw : 0 < f.w) (hh : 0 < f.h) :
    0 ≤ rollWidth f ∧ 4 * rollWidth f ≤ f.ss := by
  obtain ⟨h0, h1⟩ := pin_mem (f.adjustment "adj" 12500) (show (0 : ℝ) ≤ 25000 by norm_num)
  change 0 ≤ f.pinned "adj" 12500 0 25000 at h0
  change f.pinned "adj" 12500 0 25000 ≤ 25000 at h1
  have hss : 0 < f.ss := Frame.ss_pos hw hh
  have hroll : rollWidth f = f.ss * f.pinned "adj" 12500 0 25000 / 100000 := rfl
  rw [hroll]
  exact ⟨by positivity, by nlinarith⟩

/-- Whichever way a scroll is turned. -/
theorem scrollBanner_apart_iff {f : Frame ℝ} (hw : 0 < f.w) (hh : 0 < f.h) {w h : ℝ}
    (hws : f.ss ≤ w) (hhs : f.ss ≤ h) (u : Reflection ℝ) :
    let ss := (Layer.flatten ((scrollBanner f w h).layers u)).subpaths
    (ss.Pairwise Apart ↔ rollWidth f = 0) ∧ (FillsAlike ss ↔ rollWidth f = 0) := by
  intro ss
  have hss : ss = [(scrollSheet w h (rollWidth f / 2)).reflect u,
      (scrollRoll (rollWidth f / 2)).reflect u] := scroll_subpaths f w h u
  obtain ⟨hnonneg, hle⟩ := rollWidth_mem hw hh
  have happart (hzero : rollWidth f = 0) : ss.Pairwise Apart := by
    rw [hss, List.pairwise_pair, apart_reflect, hzero, zero_div]
    exact scroll_apart (by linarith) h
  have hpos (hne : rollWidth f ≠ 0) : 0 < rollWidth f / 2 := half_pos (hnonneg.lt_of_ne' hne)
  refine ⟨⟨fun h0 => ?_, happart⟩, fun h0 => ?_, fun hzero => fillsAlike_of_apart (happart hzero)⟩
  · by_contra hne
    rw [hss, List.pairwise_pair, apart_reflect] at h0
    exact scroll_not_apart (hpos hne) (by linarith) (by linarith) h0
  · by_contra hne
    rw [hss] at h0
    exact scroll_not_fillsAlike (hpos hne) (by linarith) (by linarith) u h0

theorem single_apart {s : Sketch ℝ} (h : s.tail.all (!·.isMove) = true) :
    s.subpaths.Pairwise Apart := by
  cases s with
  | nil => exact .nil
  | cons a rest =>
    have hchain : (a :: rest).IsChain fun _ next => !next.isMove := by
      induction rest generalizing a with
      | nil => exact .singleton a
      | cons b rest ih =>
        simp only [List.tail_cons, List.all_cons, Bool.and_eq_true] at h
        exact .cons_cons h.1 (ih b h.2)
    rw [Sketch.subpaths, List.splitBy_of_isChain (by simp) hchain]
    exact List.pairwise_singleton ..

/-- The layered presets flatten to sub-paths without a common inner point, which both fill rules
fill alike, except for a scroll whose rolls have a width. -/
theorem flattened_apart_iff (p : LayeredPreset) {f : Frame ℝ} (hw : 0 < f.w) (hh : 0 < f.h) :
    ((Layer.flatten (p.layers f)).subpaths.Pairwise Apart ↔
      (p = .verticalScroll ∨ p = .horizontalScroll → rollWidth f = 0)) ∧
    (FillsAlike (Layer.flatten (p.layers f)).subpaths ↔
      (p = .verticalScroll ∨ p = .horizontalScroll → rollWidth f = 0)) := by
  have hss : f.ss = min f.w f.h := Scalar.min_real ..
  have hsw : f.ss ≤ f.w := hss ▸ min_le_left ..
  have hsh : f.ss ≤ f.h := hss ▸ min_le_right ..
  have hscroll {q : LayeredPreset} (hq : q = .verticalScroll ∨ q = .horizontalScroll) :
      rollWidth f = 0 ↔ (q = .verticalScroll ∨ q = .horizontalScroll → rollWidth f = 0) :=
    ⟨fun h _ => h, fun h => h hq⟩
  have hother {ss : List (Sketch ℝ)} {q : LayeredPreset}
      (hq : ¬(q = .verticalScroll ∨ q = .horizontalScroll)) (h : ss.Pairwise Apart) :
      (ss.Pairwise Apart ↔ (q = .verticalScroll ∨ q = .horizontalScroll → rollWidth f = 0)) ∧
      (FillsAlike ss ↔ (q = .verticalScroll ∨ q = .horizontalScroll → rollWidth f = 0)) :=
    ⟨iff_of_true h (absurd · hq), iff_of_true (fillsAlike_of_apart h) (absurd · hq)⟩
  cases p with
  | verticalScroll =>
    exact (scrollBanner_apart_iff hw hh hsw hsh .identity).imp
      (·.trans (hscroll (.inl rfl))) (·.trans (hscroll (.inl rfl)))
  | horizontalScroll =>
    exact (scrollBanner_apart_iff hw hh hsh hsw .transpose).imp
      (·.trans (hscroll (.inr rfl))) (·.trans (hscroll (.inr rfl)))
  | cube => exact hother (by simp) (cube_apart hw hh)
  | can => exact hother (by simp) (can_apart hw hh)
  | bevel => exact hother (by simp) (bevel_apart hw hh)
  | _ => exact hother (by simp) (single_apart rfl)

theorem flattened_apart_cube :
    (Layer.flatten (LayeredPreset.cube.layers squareFrame)).subpaths.Pairwise Apart ∧
      FillsAlike (Layer.flatten (LayeredPreset.cube.layers squareFrame)).subpaths :=
  (flattened_apart_iff .cube (by simp) (by simp)).imp (·.2 (by simp)) (·.2 (by simp))

/-- The scroll in a frame of 16 by 16, its rolls 2 wide. -/
theorem flattened_scroll_overlaps :
    ¬(Layer.flatten (LayeredPreset.verticalScroll.layers squareFrame)).subpaths.Pairwise Apart ∧
      ¬FillsAlike (Layer.flatten (LayeredPreset.verticalScroll.layers squareFrame)).subpaths := by
  have hiff := scrollBanner_apart_iff (f := squareFrame) (by simp) (by simp)
    (w := squareFrame.w) (h := squareFrame.h) (by simp) (by simp) .identity
  rw [rollWidth_squareFrame] at hiff
  exact hiff.imp (mt ·.1 two_ne_zero) (mt ·.1 two_ne_zero)

end
end ShapeOutline
