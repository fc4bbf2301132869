import Mathlib
import ShapeOutline.LayeredPreset
import ShapeOutline.Proofs.FrameParts
import ShapeOutline.Proofs.TraceBounds

/-! The sub-paths of a flattened shape. Every silhouette but that of the scrolls traces
each region once: the faces of a solid meet along lines and along the rim of the
can, and every other silhouette is one sub-path. -/

namespace ShapeOutline

variable {α : Type}

def Stroke.isMove : Stroke α → Bool
  | .move _ => true
  | _ => false

/-- The sub-paths of a sketch, each from one move of the pen to the next. -/
def Sketch.subpaths (s : Sketch α) : List (Sketch α) := s.splitBy fun _ next => !next.isMove

noncomputable section

/-- Two sub-paths with no inner point in common. -/
def Apart (s t : Sketch ℝ) : Prop :=
  Disjoint (interior (enclosed s.trace)) (interior (enclosed t.trace))

open Classical in
/-- The sub-paths that a point is enclosed by. -/
def around (ss : List (Sketch ℝ)) (p : Plane) : List (Sketch ℝ) :=
  ss.filter fun s => p ∈ enclosed s.trace

/-- Off the sub-paths no point is enclosed twice, so both rules fill the same region: where an odd
number of them goes around, and where their turns, each counted one way or the other, do not cancel
out. -/
def FillsAlike (ss : List (Sketch ℝ)) : Prop :=
  ∀ p, (∀ s ∈ ss, p ∉ s.trace) → (around ss p).length ≤ 1 ∧
    ∀ way : Sketch ℝ → ℤ, (∀ s, way s = 1 ∨ way s = -1) →
      (Odd (around ss p).length ↔ ((around ss p).map way).sum ≠ 0)

theorem mem_around {ss : List (Sketch ℝ)} {p : Plane} {s : Sketch ℝ} :
    s ∈ around ss p ↔ s ∈ ss ∧ p ∈ enclosed s.trace := by
  simp [around]

theorem fillsAlike_of_apart {ss : List (Sketch ℝ)} (h : ss.Pairwise Apart) : FillsAlike ss := by
  intro p hoff
  have hnone : (around ss p).Pairwise fun _ _ => False := by
    refine (h.sublist List.filter_sublist).imp_of_mem fun {s t} hs ht hapart => ?_
    obtain ⟨hs, hps⟩ := mem_around.1 hs
    obtain ⟨ht, hpt⟩ := mem_around.1 ht
    exact Set.disjoint_left.1 hapart
      (mem_interior_enclosed s.isCompact_trace.isClosed hps (hoff s hs))
      (mem_interior_enclosed t.isCompact_trace.isClosed hpt (hoff t ht))
  cases haround : around ss p with
  | nil => simp
  | cons s rest =>
    rw [haround] at hnone
    obtain rfl : rest = [] :=
      List.eq_nil_iff_forall_not_mem.2 fun t ht => (List.pairwise_cons.1 hnone).1 t ht
    refine ⟨le_rfl, fun way hway => iff_of_true odd_one ?_⟩
    rcases hway s with h | h <;> simp [h]
/-- Polygons on either side of a line. -/
theorem apart_of_line {ps qs : List (Point ℝ)} (a b c : ℝ) (hab : 0 < a ^ 2 + b ^ 2)
    (hps : ∀ p ∈ ps, a * p.x + b * p.y ≤ c) (hqs : ∀ q ∈ qs, c ≤ a * q.x + b * q.y) :
    Apart (Sketch.polygon ps) (Sketch.polygon qs) := by
  refine disjoint_interior_of_line hab
    (polygon_trace_subset (halfPlane_convex a b c) fun p hp => hps p hp)
    (polygon_trace_subset (halfPlane_convex (-a) (-b) (-c)) fun q hq => ?_)
  have h := hqs q hq
  rw [mem_halfPlane]
  change -a * q.x + -b * q.y ≤ -c
  linarith

/-- The part of the column of an ellipse from its lower half on. -/
def belowRim (center radii : Point ℝ) : Set Plane :=
  {p | |p.1 - center.x| ≤ radii.x ∧ center.y ≤ p.2 ∧ 0 ≤ offEllipse center radii p}

/-- The part of the column of an ellipse up to its lower half. -/
def aboveRim (center radii : Point ℝ) : Set Plane :=
  {p | |p.1 - center.x| ≤ radii.x ∧ (p.2 ≤ center.y ∨ offEllipse center radii p ≤ 0)}

section Rim

variable {center radii : Point ℝ} {p : Plane} (hr : radii.Positive)

theorem add_up (p : Plane) (t : ℝ) : p + t • ((0, -1) : Plane) = (p.1, p.2 - t) := by
  ext <;> simp [sub_eq_add_neg]

include hr

theorem offEllipse_lt {x y y' : ℝ} (hy : center.y ≤ y') (h : y' < y) :
    offEllipse center radii (x, y') < offEllipse center radii (x, y) := by
  have hx := hr.1
  have hsq : (y' - center.y) ^ 2 < (y - center.y) ^ 2 := by nlinarith
  simp only [offEllipse, mul_pow]
  have := mul_lt_mul_of_pos_left hsq (pow_pos hx 2)
  linarith

theorem belowRim_receding : Receding (belowRim center radii) (0, -1) := by
  rintro ⟨x, y⟩ hp t ht hmem
  rw [add_up] at hmem
  obtain ⟨hx, hy, hoff⟩ := hmem
  have hy' : center.y ≤ y := by simp only at hy; linarith
  refine hp ⟨hx, hy', ?_⟩
  rcases ht.eq_or_lt with rfl | ht
  · simpa using hoff
  · exact hoff.trans (offEllipse_lt hr hy (by simp only; linarith)).le

theorem aboveRim_receding : Receding (aboveRim center radii) (-(0, -1)) := by
  rintro ⟨x, y⟩ hp t ht hmem
  have hadd : (x, y) + t • (-(0, -1) : Plane) = (x, y + t) := by ext <;> simp
  rw [hadd] at hmem
  obtain ⟨hx, hside⟩ := hmem
  refine hp ⟨hx, ?_⟩
  by_contra! hout
  simp only at hout hside
  rcases hside with h | h
  · linarith [hout.1]
  · rcases ht.eq_or_lt with rfl | ht
    · rw [add_zero] at h
      linarith [hout.2]
    · linarith [hout.2, offEllipse_lt hr (x := x) hout.1.le (show y < y + t by linarith)]

/-- Curves that meet along the lower half of an ellipse. -/
theorem disjoint_interior_of_rim {K L : Set Plane} (hK : K ⊆ belowRim center radii)
    (hL : L ⊆ aboveRim center radii) :
    Disjoint (interior (enclosed K)) (interior (enclosed L)) := by
  refine disjoint_interior_of_receding (v := (0, -1)) (by simp) hK hL (belowRim_receding hr)
    (aboveRim_receding hr) ?_
  rintro ⟨x, y⟩ ⟨⟨-, hy, hoff⟩, -, hside⟩ t ht hmem
  rw [add_up] at hmem
  obtain ⟨-, hy', hoff'⟩ := hmem
  have hless := offEllipse_lt hr (x := x) hy' (show y - t < y by linarith)
  rcases hside with h | h
  · simp only at h hy'
    linarith
  · linarith

end Rim

/-- No point on an edge of its column is within an ellipse. -/
theorem offEllipse_nonneg_of_edge {center radii : Point ℝ} {p : Plane}
    (h : (p.1 - center.x) ^ 2 = radii.x ^ 2) : 0 ≤ offEllipse center radii p := by
  have hcancel : (radii.y * (p.1 - center.x)) ^ 2 = (radii.x * radii.y) ^ 2 := by
    rw [mul_pow, h]
    ring
  rw [offEllipse, hcancel]
  nlinarith [sq_nonneg (radii.x * (p.2 - center.y))]

section Can

variable {rx y1 y3 : ℝ}

def canBody (rx y1 y3 : ℝ) : Sketch ℝ :=
  [.move ⟨0, y1⟩, .arc ⟨rx, y1⟩ 180 (-180), .line ⟨rx + rx, y3⟩, .arc ⟨rx, y1⟩ 0 180, .close]

theorem canBody_trace (hr : (⟨rx, y1⟩ : Point ℝ).Positive) :
    (canBody rx y1 y3).trace =
      Point.place '' arcCurve ⟨rx, y1⟩ ⟨rx, y1⟩ 0 180 ∪
        (segment ℝ (rx + rx, y1) (rx + rx, y3) ∪
          (Point.place '' arcCurve ⟨rx, y3⟩ ⟨rx, y1⟩ 0 180 ∪
            (segment ℝ (0, y3) (0, y1) ∪ segment ℝ (0, y1) (0, y1)))) := by
  rw [canBody, Sketch.trace_move,
    Trail.trace_arc_about ⟨rx, y1⟩ ⟨rx + rx, y1⟩ hr (by norm_num)
      (by norm_num) (by rw [spoke_half hr]; ext <;> simp)
      (by norm_num [spoke_zero hr]; ext <;> simp),
    arcCurve_neg, Trail.trace_line,
    Trail.trace_arc_about ⟨rx, y3⟩ ⟨0, y3⟩ hr (by norm_num)
      (by norm_num) (by rw [spoke_zero hr]; ext <;> simp)
      (by norm_num [spoke_half hr]; ext <;> simp)]
  norm_num

theorem canBody_belowRim (hr : (⟨rx, y1⟩ : Point ℝ).Positive) (hy : y1 ≤ y3) :
    (canBody rx y1 y3).trace ⊆ belowRim ⟨rx, y1⟩ ⟨rx, y1⟩ := by
  have hedge (x : ℝ) (hx : |x - rx| = rx) :
      segment ℝ (x, y1) (x, y3) ⊆ belowRim ⟨rx, y1⟩ ⟨rx, y1⟩ := by
    rw [← Prod.image_mk_segment_right, segment_eq_Icc hy]
    rintro _ ⟨y, ⟨hy1, -⟩, rfl⟩
    have hsq : (x - rx) ^ 2 = rx ^ 2 := by rw [← sq_abs, hx]
    exact ⟨hx.le, hy1, offEllipse_nonneg_of_edge hsq⟩
  have harc (c : ℝ) (hc : y1 ≤ c) :
      Point.place '' arcCurve ⟨rx, c⟩ ⟨rx, y1⟩ 0 180 ⊆ belowRim ⟨rx, y1⟩ ⟨rx, y1⟩ := by
    intro p hp
    rw [mem_arc_half hr, bearing_zero] at hp
    obtain ⟨hoff, hside⟩ := hp
    have hpc : c ≤ p.2 := by simpa using hside
    refine ⟨(abs_sub_le_of_offEllipse hr hoff.le).1, hc.trans hpc, ?_⟩
    have hsq : (p.2 - c) ^ 2 ≤ (p.2 - y1) ^ 2 := by nlinarith
    have hle := mul_le_mul_of_nonneg_left hsq (sq_nonneg rx)
    simp only [offEllipse] at hoff ⊢
    nlinarith
  have hright : |rx + rx - rx| = rx := by rw [add_sub_cancel_right, abs_of_pos hr.1]
  have hleft : |0 - rx| = rx := by rw [zero_sub, abs_neg, abs_of_pos hr.1]
  rw [canBody_trace hr, segment_symm ℝ (0, y3), segment_same]
  refine Set.union_subset (harc y1 le_rfl) (Set.union_subset (hedge _ hright)
    (Set.union_subset (harc y3 hy) (Set.union_subset (hedge 0 hleft) ?_)))
  exact Set.singleton_subset_iff.2 (hedge 0 hleft (left_mem_segment ..))

/-- A lid without a height is a point, and the can a line on its left. -/
theorem can_apart_of_flat {w h : ℝ} (hw : 0 ≤ w) :
    Apart (canBody (w / 2) 0 (h - 0)) (Sketch.ellipse 0 0 w (2 * 0)) := by
  have hflat {rx : ℝ} : ¬(⟨rx, 0⟩ : Point ℝ).Positive := fun h => lt_irrefl 0 h.2
  refine disjoint_interior_of_line (a := -1) (b := 0) (c := 0) (by norm_num) ?_ ?_
  · rw [canBody, Sketch.trace_move, Trail.trace_arc_of_not_positive _ _ _ hflat, Trail.trace_line,
      Trail.trace_arc_of_not_positive _ _ _ hflat, Trail.trace_close, Trail.trace_nil]
    have hstart : (0, 0) ∈ halfPlane (-1) 0 0 := by simp [mem_halfPlane]
    have hend : (w / 2 + w / 2, h - 0) ∈ halfPlane (-1) 0 0 := by simp [mem_halfPlane, hw]
    have hconvex := halfPlane_convex (-1) 0 0
    exact Set.union_subset (hconvex.segment_subset hstart hend)
      (Set.union_subset (hconvex.segment_subset hend hstart)
        (hconvex.segment_subset hstart hstart))
  · change Trail.trace ⟨_, _⟩ [.arc ⟨w / 2, 2 * 0 / 2⟩ 180 360, .close] ⊆ _
    rw [mul_zero, zero_div, Trail.trace_arc_of_not_positive _ _ _ hflat, Trail.trace_close,
      Trail.trace_nil, Point.place_mk, segment_same, Set.union_self, Set.singleton_subset_iff]
    simp [mem_halfPlane]

/-- A lid with a height meets the can along the lower half of its rim. -/
theorem can_apart_of_pos {w h y : ℝ} (hw : 0 < w) (hy : 0 < y) (hyh : y ≤ h - y) :
    Apart (canBody (w / 2) y (h - y)) (Sketch.ellipse 0 0 w (2 * y)) := by
  have hr : (⟨w / 2, y⟩ : Point ℝ).Positive := ⟨half_pos hw, hy⟩
  refine disjoint_interior_of_rim hr (canBody_belowRim hr hyh) ?_
  rw [ellipse_trace hw (by linarith)]
  intro p hp
  rw [zero_add, zero_add, mul_div_cancel_left₀ y two_ne_zero] at hp
  exact ⟨(abs_sub_le_of_offEllipse hr hp.le).1, Or.inr hp.le⟩

end Can

/-- The front, the side and the top of a cube that is `y` deep. -/
def cubeFaces (w h y : ℝ) : List (Sketch ℝ) :=
  [.rect 0 y (w - y) (h - y), .polygon [⟨w - y, h⟩, ⟨w - y, y⟩, ⟨w, 0⟩, ⟨w, h - y⟩],
    .polygon [⟨0, y⟩, ⟨y, 0⟩, ⟨w, 0⟩, ⟨w - y, y⟩]]

/-- The face of a bevel and the slopes above and below it, on its left and on its right, each `x`
wide. -/
def bevelFaces (w h x : ℝ) : List (Sketch ℝ) :=
  [.rect x x (w - x - x) (h - x - x), .polygon [⟨0, 0⟩, ⟨w, 0⟩, ⟨w - x, x⟩, ⟨x, x⟩],
    .polygon [⟨0, h⟩, ⟨x, h - x⟩, ⟨w - x, h - x⟩, ⟨w, h⟩],
    .polygon [⟨0, 0⟩, ⟨x, x⟩, ⟨x, h - x⟩, ⟨0, h⟩],
    .polygon [⟨w, 0⟩, ⟨w, h⟩, ⟨w - x, h - x⟩, ⟨w - x, x⟩]]

theorem cubeFaces_apart {w h y : ℝ} (hy : 0 ≤ y) (hyw : y ≤ w) (hyh : y ≤ h) :
    (cubeFaces w h y).Pairwise Apart := by
  have hfrontSide : Apart (.rect 0 y (w - y) (h - y))
      (.polygon [⟨w - y, h⟩, ⟨w - y, y⟩, ⟨w, 0⟩, ⟨w, h - y⟩]) := by
    refine apart_of_line 1 0 (w - y) (by norm_num) ?_ ?_ <;> simp <;> grind
  have hfrontTop : Apart (.rect 0 y (w - y) (h - y))
      (.polygon [⟨0, y⟩, ⟨y, 0⟩, ⟨w, 0⟩, ⟨w - y, y⟩]) := by
    refine apart_of_line 0 (-1) (-y) (by norm_num) ?_ ?_ <;> simp <;> grind
  have hsideTop : Apart (.polygon [⟨w - y, h⟩, ⟨w - y, y⟩, ⟨w, 0⟩, ⟨w, h - y⟩])
      (.polygon [⟨0, y⟩, ⟨y, 0⟩, ⟨w, 0⟩, ⟨w - y, y⟩]) := by
    refine apart_of_line (-1) (-1) (-w) (by norm_num) ?_ ?_ <;> simp <;> grind
  simp [cubeFaces, hfrontSide, hfrontTop, hsideTop]

theorem bevelFaces_apart {w h x : ℝ} (hx : 0 ≤ x) (hxw : x ≤ w - x) (hxh : x ≤ h - x) :
    (bevelFaces w h x).Pairwise Apart := by
  refine .cons ?_ (.cons ?_ (.cons ?_ (.cons ?_ (.cons (by simp) .nil))))
  · -- the face and the four slopes around it
    simp only [List.forall_mem_cons, List.not_mem_nil, IsEmpty.forall_iff, implies_true, and_true]
    refine ⟨?_, ?_, ?_, ?_⟩
    · refine apart_of_line 0 (-1) (-x) (by norm_num) ?_ ?_ <;> simp <;> grind
    · refine apart_of_line 0 1 (h - x) (by norm_num) ?_ ?_ <;> simp <;> grind
    · refine apart_of_line (-1) 0 (-x) (by norm_num) ?_ ?_ <;> simp <;> grind
    · refine apart_of_line 1 0 (w - x) (by norm_num) ?_ ?_ <;> simp <;> grind
  · -- the upper slope and the other three
    simp only [List.forall_mem_cons, List.not_mem_nil, IsEmpty.forall_iff, implies_true, and_true]
    refine ⟨?_, ?_, ?_⟩
    · refine apart_of_line 0 1 x (by norm_num) ?_ ?_ <;> simp <;> grind
    · refine apart_of_line (-1) 1 0 (by norm_num) ?_ ?_ <;> simp <;> grind
    · refine apart_of_line 1 1 w (by norm_num) ?_ ?_ <;> simp <;> grind
  · -- the lower slope and those beside it
    simp only [List.forall_mem_cons, List.not_mem_nil, IsEmpty.forall_iff, implies_true, and_true]
    refine ⟨?_, ?_⟩
    · refine apart_of_line (-1) (-1) (-h) (by norm_num) ?_ ?_ <;> simp <;> grind
    · refine apart_of_line 1 (-1) (w - h) (by norm_num) ?_ ?_ <;> simp <;> grind
  · simp only [List.forall_mem_cons, List.not_mem_nil, IsEmpty.forall_iff, implies_true, and_true]
    refine apart_of_line 1 0 x (by norm_num) ?_ ?_ <;> simp <;> grind

variable {f : Frame ℝ} (hw : 0 < f.w) (hh : 0 < f.h)

open Layered

include hw hh

theorem cube_apart : (Layer.flatten (cube f)).subpaths.Pairwise Apart := by
  set y := f.shortPart (f.pinned "adj" 25000 0 100000) with hdef
  obtain ⟨hy, hyw, hyh⟩ : 0 ≤ y ∧ y ≤ f.w * 100000 / 100000 ∧ y ≤ f.h * 100000 / 100000 := by
    obtain ⟨h, h'⟩ := pin_mem (f.adjustment "adj" 25000) (show (0 : ℝ) ≤ 100000 by norm_num)
    exact Frame.shortPart_mem hw hh h h'
  have hsub : (Layer.flatten (cube f)).subpaths = cubeFaces f.w f.h y := by
    simp [cube, cubeFaces, Layer.flatten, Layer.fill, Layer.stroke, Sketch.subpaths, List.splitBy,
      List.splitBy.loop, Sketch.rect, Sketch.polygon, Sketch.lines, Stroke.isMove, ← hdef]
  rw [hsub]
  exact cubeFaces_apart hy (by linarith) (by linarith)

theorem bevel_apart : (Layer.flatten (bevel f)).subpaths.Pairwise Apart := by
  set x := f.shortPart (f.pinned "adj" 12500 0 50000) with hdef
  obtain ⟨hx, hxw, hxh⟩ : 0 ≤ x ∧ x ≤ f.w * 50000 / 100000 ∧ x ≤ f.h * 50000 / 100000 := by
    obtain ⟨h, h'⟩ := pin_mem (f.adjustment "adj" 12500) (show (0 : ℝ) ≤ 50000 by norm_num)
    exact Frame.shortPart_mem hw hh h h'
  have hsub : (Layer.flatten (bevel f)).subpaths = bevelFaces f.w f.h x := by
    simp [bevel, bevelFaces, Layer.flatten, Layer.fill, Layer.stroke, Sketch.subpaths, List.splitBy,
      List.splitBy.loop, Sketch.rect, Sketch.polygon, Sketch.lines, Stroke.isMove, ← hdef]
  rw [hsub]
  exact bevelFaces_apart hx (by linarith) (by linarith)

/-- Half the height of the lid of a can leaves room for its body. -/
theorem lid_mem : 0 ≤ f.ss * f.pinned "adj" 25000 0 (divOrZero (50000 * f.h) f.ss) / 200000 ∧
    f.ss * f.pinned "adj" 25000 0 (divOrZero (50000 * f.h) f.ss) / 200000 ≤
      f.h - f.ss * f.pinned "adj" 25000 0 (divOrZero (50000 * f.h) f.ss) / 200000 := by
  have hss : 0 < f.ss := Frame.ss_pos hw hh
  have hmax : (0 : ℝ) ≤ divOrZero (50000 * f.h) f.ss := by
    rw [divOrZero_real]
    positivity
  obtain ⟨h, h'⟩ : 0 ≤ f.pinned "adj" 25000 0 (divOrZero (50000 * f.h) f.ss) ∧
      f.pinned "adj" 25000 0 (divOrZero (50000 * f.h) f.ss) ≤ divOrZero (50000 * f.h) f.ss :=
    pin_mem _ hmax
  have hle : f.ss * f.pinned "adj" 25000 0 (divOrZero (50000 * f.h) f.ss) ≤ 50000 * f.h := by
    calc _ ≤ f.ss * divOrZero (50000 * f.h) f.ss := mul_le_mul_of_nonneg_left h' hss.le
      _ = 50000 * f.h := by rw [divOrZero_real, mul_div_cancel₀ _ hss.ne']
  exact ⟨by positivity, by linarith⟩

theorem can_apart : (Layer.flatten (can f)).subpaths.Pairwise Apart := by
  obtain ⟨hy, hyh⟩ := lid_mem hw hh
  set y := f.ss * f.pinned "adj" 25000 0 (divOrZero (50000 * f.h) f.ss) / 200000 with hdef
  have hsub : (Layer.flatten (can f)).subpaths =
      [canBody (f.w / 2) y (f.h - y), Sketch.ellipse 0 0 f.w (2 * y)] := by
    simp [can, canBody, Layer.flatten, Layer.fill, Layer.stroke, Sketch.subpaths, List.splitBy,
      List.splitBy.loop, Sketch.ellipse, Stroke.isMove, ← hdef]
  rw [hsub]
  suffices h : Apart (canBody (f.w / 2) y (f.h - y)) (Sketch.ellipse 0 0 f.w (2 * y)) by simpa
  rcases hy.eq_or_lt with h0 | hpos
  · rw [← h0]
    exact can_apart_of_flat hw.le
  · exact can_apart_of_pos hw hpos hyh

end
end ShapeOutline
