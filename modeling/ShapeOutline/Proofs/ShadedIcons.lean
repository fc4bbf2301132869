import ShapeOutline.Proofs.Factor
import ShapeOutline.Proofs.Shading

/-! Icons keep within their buttons. An icon is the image of a drawing on the unit
square, which lies within the border. -/

namespace ShapeOutline
noncomputable section

def unitSquare : Set Plane := Set.Icc 0 1 ×ˢ Set.Icc 0 1

theorem mem_unitSquare {p : Plane} :
    p ∈ unitSquare ↔ (0 ≤ p.1 ∧ p.1 ≤ 1) ∧ 0 ≤ p.2 ∧ p.2 ≤ 1 := Iff.rfl

theorem unitSquare_convex : Convex ℝ unitSquare := (convex_Icc 0 1).prod (convex_Icc 0 1)

section Strokes

variable {S : Set Plane} (hS : Convex ℝ S) {t : Trail} {s : Sketch ℝ}

include hS

theorem Trail.trace_line_subset {p : Point ℝ} (hpen : t.pen.place ∈ S) (hp : p.place ∈ S)
    (hrest : Trail.trace ⟨p, t.start⟩ s ⊆ S) : t.trace (.line p :: s) ⊆ S :=
  Set.union_subset (hS.segment_subset hpen hp) hrest

theorem Trail.trace_close_subset (hpen : t.pen.place ∈ S) (hstart : t.start.place ∈ S) :
    t.trace [.close] ⊆ S :=
  Set.union_subset (hS.segment_subset hpen hstart) (hS.segment_subset hstart hstart)

omit hS

/-- An arc of an ellipse that lies in the set, wherever on it the pen comes to rest. -/
theorem Trail.trace_arc_subset (center : Point ℝ) {radii : Point ℝ} {deg sweep : ℝ}
    (hr : radii.Positive) (hpen : t.pen = center + spoke radii deg)
    (hellipse : ∀ p, offEllipse center radii p = 0 → p ∈ S)
    (hrest : ∀ next : Point ℝ, next.place ∈ S → Trail.trace ⟨next, t.start⟩ s ⊆ S) :
    t.trace (.arc radii deg sweep :: s) ⊆ S := by
  have hcenter : arcCenter t.pen radii deg = center := by
    rw [hpen, ← ellipsePoint_eq, arcCenter_ellipsePoint]
  have hpoint (d : ℝ) : (ellipsePoint center radii d).place ∈ S :=
    hellipse _ ((onEllipse_iff hr).1 (onEllipse_spoke hr center _))
  by_cases hs : sweep = 0
  · have hdegenerate : isDegenerate radii sweep = true := by simp [isDegenerate, hs]
    have h := hrest t.pen (by rw [hpen, ← ellipsePoint_eq]; exact hpoint deg)
    simpa only [trace, drawn, curve, after, hdegenerate, if_true, Set.image_empty, Set.empty_union]
  · rw [trace_arc _ _ _ hr hs, hcenter, arcEnd, hcenter]
    refine Set.union_subset ?_ (hrest _ (hpoint _))
    exact fun p hp => hellipse p (offEllipse_of_mem_arc hr hp)

end Strokes

theorem ellipse_mem_unitSquare {center radii : Point ℝ} (hr : radii.Positive)
    (hx : 0 ≤ center.x - radii.x ∧ center.x + radii.x ≤ 1)
    (hy : 0 ≤ center.y - radii.y ∧ center.y + radii.y ≤ 1) (p : Plane)
    (hp : offEllipse center radii p = 0) : p ∈ unitSquare := by
  obtain ⟨hpx, hpy⟩ := abs_sub_le_of_offEllipse hr hp.le
  rw [abs_le] at hpx hpy
  exact ⟨⟨by linarith, by linarith⟩, by linarith, by linarith⟩

theorem abs_spoke_le {radii : Point ℝ} (hr : radii.Positive) (deg : ℝ) :
    |(spoke radii deg).x| ≤ radii.x ∧ |(spoke radii deg).y| ≤ radii.y := by
  have hon : OnEllipse .zero radii (Point.zero + spoke radii deg) := onEllipse_spoke hr .zero _
  have h := abs_sub_le_of_offEllipse (p := (Point.zero + spoke radii deg).place) hr
    ((onEllipse_iff hr).1 hon).le
  simpa [Point.zero, Point.place] using h

namespace Layered

namespace IconSquare

variable (i : IconSquare ℝ) (hi : 0 < i.size)

def square : Set Plane :=
  Set.Icc i.origin.x (i.origin.x + i.size) ×ˢ Set.Icc i.origin.y (i.origin.y + i.size)

def factor : Factor := ⟨i.size, hi⟩

def likeness : Likeness where
  point := i.point
  vector := (i.factor hi • ·)
  radii := (i.factor hi • ·)
  angle := id
  reverses := false
  point_add p v := by
    ext
    · change i.origin.x + (p.x + v.x) * i.size = i.origin.x + p.x * i.size + v.x * i.size
      ring
    · change i.origin.y + (p.y + v.y) * i.size = i.origin.y + p.y * i.size + v.y * i.size
      ring
  angle_add := id_add_turned
  radii_positive r := and_congr ((i.factor hi).smul_pos r.x) ((i.factor hi).smul_pos r.y)
  spoke_angle r _ deg := by simp [spoke]

theorem likeness_stroke : (i.likeness hi).stroke = i.stroke := by
  funext s
  cases s <;> rfl

theorem point_mk (x y : ℝ) :
    i.point ⟨x, y⟩ = ⟨i.origin.x + x * i.size, i.origin.y + y * i.size⟩ := rfl

/-- The unit square placed. -/
def affine : Plane →ᵃ[ℝ] Plane :=
  i.size • AffineMap.id ℝ Plane + AffineMap.const ℝ Plane i.origin.place

theorem affine_apply (p : Plane) :
    i.affine p = (i.origin.x + p.1 * i.size, i.origin.y + p.2 * i.size) := by
  change i.size • p + i.origin.place = _
  ext
  · change i.size * p.1 + i.origin.x = _
    ring
  · change i.size * p.2 + i.origin.y = _
    ring

theorem place_trace (s : Sketch ℝ) (hi : 0 < i.size) :
    (i.place s).trace = i.affine '' s.trace := by
  have h := Sketch.trace_image (m := i.likeness hi) (φ := i.affine)
    (fun p => (i.affine_apply p.place).symm) s
  rwa [likeness_stroke] at h

variable {i}

include hi

/-- What is drawn on the unit square is placed in the square of the icon. -/
theorem place_subset {s : Sketch ℝ} (hs : s.trace ⊆ unitSquare) : (i.place s).trace ⊆ i.square := by
  rw [i.place_trace s hi]
  rintro _ ⟨p, hp, rfl⟩
  obtain ⟨⟨hx, hx'⟩, hy, hy'⟩ := hs hp
  rw [affine_apply]
  exact ⟨⟨by nlinarith, by nlinarith⟩, by nlinarith, by nlinarith⟩

theorem polygon_subset {ps : List (Point ℝ)}
    (h : ps.Forall fun p => (0 ≤ p.x ∧ p.x ≤ 1) ∧ 0 ≤ p.y ∧ p.y ≤ 1) :
    (i.polygon ps).trace ⊆ i.square :=
  place_subset hi (polygon_trace_subset unitSquare_convex (List.forall_iff_forall_mem.1 h))

theorem rect_subset {u v w h : ℝ} (hu : 0 ≤ u) (huw : u ≤ u + w ∧ u + w ≤ 1) (hv : 0 ≤ v)
    (hvh : v ≤ v + h ∧ v + h ≤ 1) : (i.rect u v w h).trace ⊆ i.square := by
  have hplace : i.rect u v w h = i.place (Sketch.rect u v w h) := by
    simp only [rect, place, Sketch.rect, Sketch.polygon, Sketch.lines, List.map_cons, List.map_nil,
      List.cons_append, List.nil_append, stroke, point_mk, add_mul, add_assoc]
  rw [hplace]
  refine place_subset hi (polygon_trace_subset unitSquare_convex ?_)
  simp only [List.forall_mem_cons, List.not_mem_nil, IsEmpty.forall_iff, implies_true, and_true,
    Point.place_mk, mem_unitSquare]
  exact ⟨⟨⟨hu, by linarith⟩, hv, by linarith⟩, ⟨⟨by linarith, by linarith⟩, hv, by linarith⟩,
    ⟨⟨by linarith, by linarith⟩, by linarith, by linarith⟩,
    ⟨hu, by linarith⟩, by linarith, by linarith⟩

theorem circle_subset {u v r : ℝ} (hr : 0 < r) (hu : 0 ≤ u - r ∧ u + r ≤ 1)
    (hv : 0 ≤ v - r ∧ v + r ≤ 1) : (i.circle u v r).trace ⊆ i.square := by
  have hplace : i.circle u v r = i.place (Sketch.ellipse (u - r) (v - r) (2 * r) (2 * r)) := by
    have hradius : 2 * r * i.size / 2 = 2 * r / 2 * i.size := by ring
    have hside : i.origin.y + (v - r) * i.size + 2 * r / 2 * i.size =
        i.origin.y + (v - r + 2 * r / 2) * i.size := by ring
    simp only [circle, place, Sketch.ellipse, List.map_cons, List.map_nil, stroke, point_mk,
      hradius, hside]
    rfl
  have hpos : (⟨2 * r / 2, 2 * r / 2⟩ : Point ℝ).Positive := ⟨by linarith, by linarith⟩
  rw [hplace]
  refine place_subset hi ?_
  rw [ellipse_trace (by linarith) (by linarith)]
  exact fun p hp => ellipse_mem_unitSquare hpos ⟨by linarith, by linarith⟩
    ⟨by linarith, by linarith⟩ p hp

end IconSquare

theorem ofScientific_real (m e : ℕ) :
    @OfScientific.ofScientific ℝ instOfScientificScalar m true e = m / 10 ^ e := rfl

/-- The parts of an icon lie in its square. -/
def KeepsSquare (art : IconSquare ℝ → IconArt ℝ) : Prop :=
  ∀ i : IconSquare ℝ, 0 < i.size → (art i).parts.Forall fun q => q.1.trace ⊆ i.square

open IconSquare

theorem homeIcon_keeps : KeepsSquare homeIcon := by
  intro i hi
  simp only [homeIcon, List.Forall, ofScientific_real, Scalar.zero_real,
    Scalar.one_real]
  refine ⟨polygon_subset hi ?_, append_subset rfl rfl (polygon_subset hi ?_)
    (rect_subset hi ?_ ?_ ?_ ?_)⟩
  all_goals norm_num

/-- The hook of the question mark. -/
def helpHook : Sketch ℝ :=
  [.move ⟨1 / 5, 8 / 25⟩, .arc ⟨3 / 10, 3 / 10⟩ 180 240, .line ⟨23 / 40, 13 / 20⟩,
    .line ⟨23 / 40, 3 / 4⟩, .line ⟨17 / 40, 3 / 4⟩, .line ⟨17 / 40, 3 / 5⟩,
    .line ⟨23 / 40, 9 / 20⟩, .arc ⟨3 / 20, 3 / 20⟩ 60 (-240), .close]

theorem helpHook_trace : helpHook.trace ⊆ unitSquare := by
  have hr : (⟨3 / 10, 3 / 10⟩ : Point ℝ).Positive := by norm_num [Point.Positive]
  have hr' : (⟨3 / 20, 3 / 20⟩ : Point ℝ).Positive := by norm_num [Point.Positive]
  have hline {pen start p : Point ℝ} {s : Sketch ℝ} :=
    Trail.trace_line_subset (t := ⟨pen, start⟩) (p := p) (s := s) unitSquare_convex
  have hstart : (⟨1 / 5, 8 / 25⟩ : Point ℝ).place ∈ unitSquare := by norm_num [mem_unitSquare]
  rw [helpHook, Sketch.trace_move]
  refine Trail.trace_arc_subset ⟨1 / 2, 8 / 25⟩ hr
    (by rw [spoke_half hr]; ext <;> norm_num)
    (ellipse_mem_unitSquare hr (by norm_num) (by norm_num)) fun next hnext => ?_
  refine hline hnext (by norm_num [mem_unitSquare]) ?_
  refine hline (by norm_num [mem_unitSquare]) (by norm_num [mem_unitSquare]) ?_
  refine hline (by norm_num [mem_unitSquare]) (by norm_num [mem_unitSquare]) ?_
  refine hline (by norm_num [mem_unitSquare]) (by norm_num [mem_unitSquare]) ?_
  refine hline (by norm_num [mem_unitSquare]) (by norm_num [mem_unitSquare]) ?_
  -- wherever the centre of the second arc is, the arc stays within two radii of the pen
  obtain ⟨hx, hy⟩ := abs_spoke_le hr' 60
  rw [abs_le] at hx hy
  simp only at hx hy
  refine Trail.trace_arc_subset (⟨23 / 40, 9 / 20⟩ - spoke ⟨3 / 20, 3 / 20⟩ 60) hr'
    (by ext <;> simp) (ellipse_mem_unitSquare hr' ⟨?_, ?_⟩ ⟨?_, ?_⟩)
    fun next hnext => Trail.trace_close_subset unitSquare_convex hnext hstart
  all_goals
    simp only [Point.sub_x, Point.sub_y]
    linarith

theorem helpIcon_keeps : KeepsSquare helpIcon := by
  intro i hi
  simp only [helpIcon, List.Forall, ofScientific_real]
  refine append_subset rfl rfl (place_subset hi ?_) (circle_subset hi ?_ ?_ ?_)
  · convert helpHook_trace using 2
    norm_num [helpHook]
  all_goals norm_num

/-- The arrow that turns back. -/
def returnArrow : Sketch ℝ :=
  [.move ⟨7 / 8, 1 / 4⟩, .line ⟨7 / 8, 5 / 8⟩, .arc ⟨1 / 4, 1 / 4⟩ 0 90, .line ⟨3 / 8, 7 / 8⟩,
    .arc ⟨1 / 4, 1 / 4⟩ 90 90, .line ⟨1 / 8, 1 / 4⟩, .line ⟨0, 1 / 4⟩, .line ⟨3 / 16, 0⟩,
    .line ⟨3 / 8, 1 / 4⟩, .line ⟨1 / 4, 1 / 4⟩, .line ⟨1 / 4, 5 / 8⟩, .arc ⟨1 / 8, 1 / 8⟩ 180 (-90),
    .line ⟨5 / 8, 3 / 4⟩, .arc ⟨1 / 8, 1 / 8⟩ 90 (-90), .line ⟨3 / 4, 1 / 4⟩, .close]

theorem returnArrow_trace : returnArrow.trace ⊆ unitSquare := by
  have hr : (⟨1 / 4, 1 / 4⟩ : Point ℝ).Positive := by norm_num [Point.Positive]
  have hr' : (⟨1 / 8, 1 / 8⟩ : Point ℝ).Positive := by norm_num [Point.Positive]
  have hline {pen start p : Point ℝ} {s : Sketch ℝ} :=
    Trail.trace_line_subset (t := ⟨pen, start⟩) (p := p) (s := s) unitSquare_convex
  rw [returnArrow, Sketch.trace_move]
  refine hline (by norm_num [mem_unitSquare]) (by norm_num [mem_unitSquare]) ?_
  refine Trail.trace_arc_subset ⟨5 / 8, 5 / 8⟩ hr
    (by rw [spoke_zero hr]; ext <;> norm_num)
    (ellipse_mem_unitSquare hr (by norm_num) (by norm_num)) fun next hnext => ?_
  refine hline hnext (by norm_num [mem_unitSquare]) ?_
  refine Trail.trace_arc_subset ⟨3 / 8, 5 / 8⟩ hr
    (by rw [spoke_ninety hr]; ext <;> norm_num)
    (ellipse_mem_unitSquare hr (by norm_num) (by norm_num)) fun next hnext => ?_
  refine hline hnext (by norm_num [mem_unitSquare]) ?_
  refine hline (by norm_num [mem_unitSquare]) (by norm_num [mem_unitSquare]) ?_
  refine hline (by norm_num [mem_unitSquare]) (by norm_num [mem_unitSquare]) ?_
  refine hline (by norm_num [mem_unitSquare]) (by norm_num [mem_unitSquare]) ?_
  refine hline (by norm_num [mem_unitSquare]) (by norm_num [mem_unitSquare]) ?_
  refine hline (by norm_num [mem_unitSquare]) (by norm_num [mem_unitSquare]) ?_
  refine Trail.trace_arc_subset ⟨3 / 8, 5 / 8⟩ hr'
    (by rw [spoke_half hr']; ext <;> norm_num)
    (ellipse_mem_unitSquare hr' (by norm_num) (by norm_num)) fun next hnext => ?_
  refine hline hnext (by norm_num [mem_unitSquare]) ?_
  refine Trail.trace_arc_subset ⟨5 / 8, 5 / 8⟩ hr'
    (by rw [spoke_ninety hr']; ext <;> norm_num)
    (ellipse_mem_unitSquare hr' (by norm_num) (by norm_num)) fun next hnext => ?_
  refine hline hnext (by norm_num [mem_unitSquare]) ?_
  exact Trail.trace_close_subset unitSquare_convex (by norm_num [mem_unitSquare])
    (by norm_num [mem_unitSquare])

theorem returnIcon_keeps : KeepsSquare returnIcon := by
  intro i hi
  simp only [returnIcon, List.Forall, ofScientific_real, Scalar.zero_real]
  refine place_subset hi ?_
  convert returnArrow_trace using 2
  norm_num [returnArrow]

theorem informationIcon_keeps : KeepsSquare informationIcon := by
  intro i hi
  simp only [informationIcon, List.Forall, ofScientific_real]
  refine ⟨circle_subset hi ?_ ?_ ?_, append_subset rfl rfl (circle_subset hi ?_ ?_ ?_)
    (polygon_subset hi ?_)⟩
  all_goals norm_num

theorem backIcon_keeps : KeepsSquare backIcon := by
  intro i hi
  simp only [backIcon, List.Forall, ofScientific_real, Scalar.zero_real,
    Scalar.one_real]
  exact polygon_subset hi (by norm_num)

theorem forwardIcon_keeps : KeepsSquare forwardIcon := by
  intro i hi
  simp only [forwardIcon, List.Forall, ofScientific_real, Scalar.zero_real,
    Scalar.one_real]
  exact polygon_subset hi (by norm_num)

theorem beginningIcon_keeps : KeepsSquare beginningIcon := by
  intro i hi
  simp only [beginningIcon, List.Forall, ofScientific_real, Scalar.zero_real,
    Scalar.one_real]
  refine append_subset rfl rfl (polygon_subset hi ?_) (rect_subset hi ?_ ?_ ?_ ?_)
  all_goals norm_num

theorem endIcon_keeps : KeepsSquare endIcon := by
  intro i hi
  simp only [endIcon, List.Forall, ofScientific_real, Scalar.zero_real,
    Scalar.one_real]
  refine append_subset rfl rfl (polygon_subset hi ?_) (rect_subset hi ?_ ?_ ?_ ?_)
  all_goals norm_num

theorem documentIcon_keeps : KeepsSquare documentIcon := by
  intro i hi
  simp only [documentIcon, List.Forall, ofScientific_real, Scalar.zero_real,
    Scalar.one_real]
  refine ⟨polygon_subset hi ?_, polygon_subset hi ?_⟩
  all_goals norm_num

theorem soundIcon_keeps : KeepsSquare soundIcon := by
  intro i hi
  simp only [soundIcon, List.Forall, ofScientific_real, Scalar.zero_real,
    Scalar.one_real]
  exact polygon_subset hi (by norm_num)

theorem movieIcon_keeps : KeepsSquare movieIcon := by
  intro i hi
  simp only [movieIcon, List.Forall, ofScientific_real, Scalar.zero_real,
    Scalar.one_real]
  refine ⟨append_subset rfl rfl (rect_subset hi ?_ ?_ ?_ ?_) (polygon_subset hi ?_),
    append_subset rfl rfl (circle_subset hi ?_ ?_ ?_) (circle_subset hi ?_ ?_ ?_)⟩
  all_goals norm_num

/-- The square of an icon lies within the frame. -/
theorem ofFrame_square_subset {f : Frame ℝ} (hw : 0 < f.w) (hh : 0 < f.h) :
    0 < (IconSquare.ofFrame f).size ∧
      (IconSquare.ofFrame f).square ⊆ enclosed (Sketch.rect 0 0 f.w f.h).trace := by
  have hpos := Frame.ss_pos hw hh
  have hsw := f.ss_le_w
  have hsh := f.ss_le_h
  have hframe : IconSquare.ofFrame f =
      ⟨⟨f.w / 2 - f.ss * 3 / 8, f.h / 2 - f.ss * 3 / 8⟩, 2 * (f.ss * 3 / 8)⟩ := rfl
  rw [hframe]
  refine ⟨by simp only; linarith, Set.Subset.trans ?_ (rect_subset_enclosed 0 0 f.w f.h)⟩
  rintro p ⟨⟨hx, hx'⟩, hy, hy'⟩
  simp only at hx hx' hy hy'
  exact ⟨⟨by linarith, by linarith⟩, by linarith, by linarith⟩

theorem actionButton_shades {art : IconSquare ℝ → IconArt ℝ} (hart : KeepsSquare art)
    {f : Frame ℝ} (hw : 0 < f.w) (hh : 0 < f.h) : ShadesWithin (actionButton art f) := by
  obtain ⟨hsize, hsquare⟩ := ofFrame_square_subset hw hh
  set a := art (IconSquare.ofFrame f) with ha
  have hparts := List.forall_iff_forall_mem.1 (hart _ hsize)
  have hbutton : actionButton art f = .fill (Sketch.rect 0 0 f.w f.h) .normal ::
      (a.parts.map (fun p => .shade p.1 p.2) ++
        (if a.outline.isEmpty then [] else [.stroke a.outline]) ++
          [.stroke (Sketch.rect 0 0 f.w f.h)]) := by
    simp only [actionButton, Scalar.zero_real, List.cons_append, ha]
  have hupon : ∀ l ∈ a.parts.map (fun p => Layer.shade p.1 p.2) ++
      (if a.outline.isEmpty then [] else [.stroke a.outline]) ++
        [.stroke (Sketch.rect 0 0 f.w f.h)],
      l.silhouette = false ∧ (l.mode.isFilled = true →
        l.sketch.trace ⊆ enclosed (Sketch.rect 0 0 f.w f.h).trace) := by
    intro l hl
    rw [List.mem_append, List.mem_append, List.mem_map, List.mem_singleton] at hl
    obtain (⟨q, hq, rfl⟩ | hl) | rfl := hl
    · exact ⟨rfl, fun _ => (hparts q hq).trans hsquare⟩
    · split_ifs at hl
      · exact absurd hl List.not_mem_nil
      · rw [List.mem_singleton.1 hl]
        exact ⟨rfl, fun h => absurd h (stroke_not_filled _)⟩
    · exact ⟨rfl, fun h => absurd h (stroke_not_filled _)⟩
  rw [hbutton]
  exact shadesWithin_of_body rfl hupon

end Layered

end
end ShapeOutline
