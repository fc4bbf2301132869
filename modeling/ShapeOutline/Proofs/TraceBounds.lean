import ShapeOutline.Proofs.Trace

/-! Bounds of traces. A trace is compact. A convex set that has the points of a sketch
has its trace; a rectangle and an ellipse enclose their insides. -/

namespace ShapeOutline
noncomputable section

theorem continuous_place_ellipsePoint {radii : Point ℝ} (hr : radii.Positive) (center : Point ℝ) :
    Continuous fun deg => (ellipsePoint center radii deg).place := by
  have hradians : Continuous (radians : ℝ → ℝ) := by
    unfold radians
    fun_prop
  have hx : Continuous fun deg => (bearing deg).x := Real.continuous_cos.comp hradians
  have hy : Continuous fun deg => (bearing deg).y := Real.continuous_sin.comp hradians
  have hspread : Continuous (spread radii) := by
    unfold spread
    fun_prop
  have hlength : Continuous (spokeLength radii) :=
    continuous_const.div hspread fun deg => (spread_pos hr deg).ne'
  simp only [ellipsePoint_eq, spoke_eq hr, Point.place]
  exact (continuous_const.add (hx.mul hlength)).prodMk (continuous_const.add (hy.mul hlength))

theorem Trail.isCompact_drawn (t : Trail) (s : Stroke ℝ) : IsCompact (t.drawn s) := by
  have hsegment (p q : Plane) : IsCompact (segment ℝ p q) := by
    rw [segment_eq_image]
    exact isCompact_Icc.image (by fun_prop)
  cases s with
  | move p => exact hsegment _ _
  | line p => exact hsegment _ _
  | cubic a b p => exact isCompact_Icc.image (by unfold cubicPoint; fun_prop)
  | quad a p => exact isCompact_Icc.image (by unfold quadPoint; fun_prop)
  | close => exact hsegment _ _
  | arc radii start sweep =>
    simp only [drawn, curve]
    split_ifs with h
    · rw [Set.image_empty]
      exact isCompact_empty
    · have hr := (isDegenerate_eq_false.1 (Bool.eq_false_iff.2 h)).1
      rw [arcCurve, Set.image_image]
      exact isCompact_uIcc.image (continuous_place_ellipsePoint hr _)

theorem Trail.isCompact_trace (s : Sketch ℝ) (t : Trail) : IsCompact (t.trace s) := by
  induction s generalizing t with
  | nil => exact t.isCompact_drawn .close
  | cons a rest ih => exact (t.isCompact_drawn a).union (ih _)

theorem Sketch.isCompact_trace (s : Sketch ℝ) : IsCompact s.trace := by
  unfold trace
  split
  · exact Trail.isCompact_trace _ _
  · exact isCompact_empty

variable {S : Set Plane}

theorem Trail.gather_lines (ps : List (Point ℝ)) (t : Trail) :
    t.gather Trail.points ((Sketch.lines ps ++ [.close] : Sketch ℝ).map .stroke) =
      {q | q ∈ ps} := by
  induction ps generalizing t with
  | nil => simp [Sketch.lines, gather, steps, points, curve]
  | cons p ps ih =>
    have hlines : (Sketch.lines (p :: ps) ++ [.close] : Sketch ℝ) =
        .line p :: (Sketch.lines ps ++ [.close]) := rfl
    rw [hlines, List.map_cons, gather_cons, ih]
    ext q
    simp [points]

section Convex

variable (hS : Convex ℝ S)

include hS

theorem quadPoint_mem {p a q : Plane} (hp : p ∈ S) (ha : a ∈ S) (hq : q ∈ S) {t : ℝ}
    (ht : t ∈ Set.Icc (0 : ℝ) 1) : quadPoint p a q t ∈ S := by
  have hpa := hS hp ha (sub_nonneg.2 ht.2) ht.1 (sub_add_cancel 1 t)
  have haq := hS ha hq (sub_nonneg.2 ht.2) ht.1 (sub_add_cancel 1 t)
  have h := hS hpa haq (sub_nonneg.2 ht.2) ht.1 (sub_add_cancel 1 t)
  convert h using 1
  rw [quadPoint]
  module

theorem cubicPoint_mem {p a b q : Plane} (hp : p ∈ S) (ha : a ∈ S) (hb : b ∈ S) (hq : q ∈ S)
    {t : ℝ} (ht : t ∈ Set.Icc (0 : ℝ) 1) : cubicPoint p a b q t ∈ S := by
  have hpab := quadPoint_mem hS hp ha hb ht
  have habq := quadPoint_mem hS ha hb hq ht
  have h := hS hpab habq (sub_nonneg.2 ht.2) ht.1 (sub_add_cancel 1 t)
  convert h using 1
  rw [cubicPoint, quadPoint, quadPoint]
  module

/-- The end points and control points of a sketch and the points of its arcs bound its trace. -/
theorem Trail.trace_subset (s : Sketch ℝ) {t : Trail} (hpen : t.pen.place ∈ S)
    (hstart : t.start.place ∈ S)
    (h : ∀ q ∈ t.gather Trail.points (s.map .stroke), q.place ∈ S) : t.trace s ⊆ S := by
  induction s generalizing t with
  | nil => exact hS.segment_subset hpen hstart
  | cons a rest ih =>
    rw [List.map_cons, gather_cons] at h
    have hpoints : ∀ q ∈ t.points (.stroke a), q.place ∈ S := fun q hq => h q (Or.inl hq)
    have hrest : ∀ q ∈ (t.after (.stroke a)).gather Trail.points (rest.map .stroke), q.place ∈ S :=
      fun q hq => h q (Or.inr hq)
    cases a with
    | move p =>
      have hp := hpoints p rfl
      exact Set.union_subset (hS.segment_subset hpen hstart) (ih hp hp hrest)
    | line p =>
      have hp := hpoints p rfl
      exact Set.union_subset (hS.segment_subset hpen hp) (ih hp hstart hrest)
    | cubic a b p =>
      have hp := hpoints p (Or.inr (Or.inr rfl))
      refine Set.union_subset ?_ (ih hp hstart hrest)
      rintro _ ⟨u, hu, rfl⟩
      exact cubicPoint_mem hS hpen (hpoints a (Or.inl rfl)) (hpoints b (Or.inr (Or.inl rfl))) hp hu
    | quad a p =>
      have hp := hpoints p (Or.inr rfl)
      refine Set.union_subset ?_ (ih hp hstart hrest)
      rintro _ ⟨u, hu, rfl⟩
      exact quadPoint_mem hS hpen (hpoints a (Or.inl rfl)) hp hu
    | arc radii deg sweep =>
      have hcurve : t.drawn (.arc radii deg sweep) ⊆ S := by
        rintro _ ⟨q, hq, rfl⟩
        exact hpoints q hq
      refine Set.union_subset hcurve (ih ?_ ?_ hrest)
      · cases hd : isDegenerate radii sweep with
        | true => simpa [after, hd] using hpen
        | false =>
          refine hpoints _ ?_
          simp only [points, curve, after, hd, Bool.false_eq_true, if_false]
          exact ⟨_, Set.right_mem_uIcc, rfl⟩
      · cases hd : isDegenerate radii sweep <;> simpa [after, hd] using hstart
    | close => exact Set.union_subset (hS.segment_subset hpen hstart) (ih hstart hstart hrest)

/-- A polygon is bounded by its corners. -/
theorem polygon_trace_subset {ps : List (Point ℝ)} (h : ∀ p ∈ ps, p.place ∈ S) :
    (Sketch.polygon ps).trace ⊆ S := by
  cases ps with
  | nil => exact Set.empty_subset S
  | cons p ps =>
    have hp := h p List.mem_cons_self
    exact Trail.trace_subset hS (t := ⟨p, p⟩) _ hp hp fun q hq =>
      h q (List.mem_cons_of_mem p ((Trail.gather_lines ps _).subset hq))

end Convex

/-- What a sub-path runs through does not depend on what is drawn before it. -/
theorem Sketch.trace_append (q : Point ℝ) (s : Sketch ℝ) (p : Point ℝ) (rest : Sketch ℝ) :
    Sketch.trace (.move q :: s ++ .move p :: rest) =
      Sketch.trace (.move q :: s) ∪ Sketch.trace (.move p :: rest) := by
  have htrail (t : Trail) :
      t.trace (s ++ .move p :: rest) = t.trace s ∪ Sketch.trace (.move p :: rest) := by
    induction s generalizing t with
    | nil => rfl
    | cons a s ih =>
      change t.drawn a ∪ (t.after (.stroke a)).trace (s ++ .move p :: rest) = _
      rw [ih, ← Set.union_assoc]
      rfl
  exact htrail ⟨q, q⟩

section Lines

variable {p : Plane} {x x' y y' : ℝ}

theorem mem_segment_horizontal (h : x ≤ p.1) (h' : p.1 ≤ x') (hy : p.2 = y) :
    p ∈ segment ℝ (x, y) (x', y) := by
  rw [← Prod.image_mk_segment_left, segment_eq_Icc (h.trans h')]
  exact ⟨p.1, ⟨h, h'⟩, Prod.ext rfl hy.symm⟩

theorem mem_segment_vertical (h : y ≤ p.2) (h' : p.2 ≤ y') (hx : p.1 = x) :
    p ∈ segment ℝ (x, y) (x, y') := by
  rw [← Prod.image_mk_segment_right, segment_eq_Icc (h.trans h')]
  exact ⟨p.2, ⟨h, h'⟩, Prod.ext hx.symm rfl⟩

/-- A point of a slanted line between its ends. -/
theorem mem_segment_slanted (hx : x < x') (h : x ≤ p.1) (h' : p.1 ≤ x')
    (hline : (p.2 - y) * (x' - x) = (p.1 - x) * (y' - y)) : p ∈ segment ℝ (x, y) (x', y') := by
  have hlength : 0 < x' - x := sub_pos.2 hx
  refine ⟨(x' - p.1) / (x' - x), (p.1 - x) / (x' - x), div_nonneg (sub_nonneg.2 h') hlength.le,
    div_nonneg (sub_nonneg.2 h) hlength.le, ?_, Prod.ext ?_ ?_⟩
  · rw [← add_div, sub_add_sub_cancel, div_self hlength.ne']
  · simp only [Prod.smul_mk, Prod.fst_add, smul_eq_mul]
    field_simp
    ring
  · simp only [Prod.smul_mk, Prod.snd_add, smul_eq_mul]
    field_simp
    linarith

end Lines

theorem rect_trace (x y w h : ℝ) :
    (Sketch.rect x y w h).trace =
      segment ℝ (x, y) (x + w, y) ∪ (segment ℝ (x + w, y) (x + w, y + h) ∪
        (segment ℝ (x + w, y + h) (x, y + h) ∪ (segment ℝ (x, y + h) (x, y) ∪
          segment ℝ (x, y) (x, y)))) := rfl

/-- A rectangle encloses its inside. -/
theorem rect_subset_enclosed (x y w h : ℝ) :
    Set.Icc x (x + w) ×ˢ Set.Icc y (y + h) ⊆ enclosed (Sketch.rect x y w h).trace := by
  refine subset_enclosed_of_mem_nhds ?_ (isClosed_Icc.prod isClosed_Icc) ?_
  · exact (Metric.isBounded_Icc _ _).prod (Metric.isBounded_Icc _ _)
  rintro p ⟨⟨hx, hx'⟩, hy, hy'⟩ hp
  rw [rect_trace] at hp
  simp only [Set.mem_union, not_or] at hp
  obtain ⟨htop, hright, hbottom, hleft, -⟩ := hp
  rw [segment_symm] at hbottom hleft
  have hx0 : x ≠ p.1 := fun h => hleft (mem_segment_vertical hy hy' h.symm)
  have hx1 : p.1 ≠ x + w := fun h => hright (mem_segment_vertical hy hy' h)
  have hy0 : y ≠ p.2 := fun h => htop (mem_segment_horizontal hx hx' h.symm)
  have hy1 : p.2 ≠ y + h := fun h => hbottom (mem_segment_horizontal hx hx' h)
  exact prod_mem_nhds (Icc_mem_nhds (hx.lt_of_ne hx0) (hx'.lt_of_ne hx1))
    (Icc_mem_nhds (hy.lt_of_ne hy0) (hy'.lt_of_ne hy1))

section Ellipses

variable {center radii : Point ℝ} {p : Plane}

theorem continuous_offEllipse (center radii : Point ℝ) : Continuous (offEllipse center radii) := by
  unfold offEllipse
  fun_prop

/-- An ellipse lies in the box of its radii. -/
theorem abs_sub_le_of_offEllipse (hr : radii.Positive) (h : offEllipse center radii p ≤ 0) :
    |p.1 - center.x| ≤ radii.x ∧ |p.2 - center.y| ≤ radii.y := by
  obtain ⟨hx, hy⟩ := hr
  rw [offEllipse] at h
  constructor
  · refine abs_le_of_sq_le_sq ?_ hx.le
    have hsq : (radii.y * (p.1 - center.x)) ^ 2 ≤ (radii.x * radii.y) ^ 2 := by
      linarith [sq_nonneg (radii.x * (p.2 - center.y))]
    rw [mul_pow, mul_pow, mul_comm (radii.x ^ 2)] at hsq
    exact le_of_mul_le_mul_left hsq (by positivity)
  · refine abs_le_of_sq_le_sq ?_ hy.le
    have hsq : (radii.x * (p.2 - center.y)) ^ 2 ≤ (radii.x * radii.y) ^ 2 := by
      linarith [sq_nonneg (radii.y * (p.1 - center.x))]
    rw [mul_pow, mul_pow] at hsq
    exact le_of_mul_le_mul_left hsq (by positivity)

theorem isBounded_ellipse (hr : radii.Positive) :
    Bornology.IsBounded {p | offEllipse center radii p ≤ 0} := by
  refine ((Metric.isBounded_Icc (center.x - radii.x) (center.x + radii.x)).prod
    (Metric.isBounded_Icc (center.y - radii.y) (center.y + radii.y))).subset fun p hp => ?_
  obtain ⟨hx, hy⟩ := abs_sub_le_of_offEllipse hr hp
  rw [abs_le] at hx hy
  exact ⟨⟨by linarith, by linarith⟩, by linarith, by linarith⟩

/-- A curve that has an ellipse encloses its inside. -/
theorem ellipse_subset_enclosed {K : Set Plane} (hr : radii.Positive)
    (hK : {p | offEllipse center radii p = 0} ⊆ K) :
    {p | offEllipse center radii p ≤ 0} ⊆ enclosed K := by
  have hcont := continuous_offEllipse center radii
  refine subset_enclosed_of_mem_nhds (isBounded_ellipse hr) (isClosed_le hcont continuous_const)
    fun p hp hpK => ?_
  have hlt : offEllipse center radii p < 0 := lt_of_le_of_ne hp fun h => hpK (hK h)
  exact Filter.mem_of_superset ((isOpen_lt hcont continuous_const).mem_nhds hlt)
    (Set.ofPred_subset_ofPred.2 fun _ => le_of_lt)

theorem mem_arc_full (hr : radii.Positive) (deg : ℝ) :
    p ∈ Point.place '' arcCurve center radii deg 360 ↔ offEllipse center radii p = 0 := by
  refine ⟨offEllipse_of_mem_arc hr, fun h => ?_⟩
  have hhalves : arcCurve center radii deg 360 =
      arcCurve center radii deg 180 ∪ arcCurve center radii (deg + 180) 180 := by
    simp only [arcCurve]
    rw [← Set.image_union, uIcc_union_next, add_assoc]
    norm_num
  rw [hhalves, Set.image_union]
  rcases le_total 0 ((bearing deg).x * (p.2 - center.y) - (bearing deg).y * (p.1 - center.x))
    with hside | hside
  · exact Or.inl ((mem_arc_half hr deg).2 ⟨h, hside⟩)
  · refine Or.inr ((mem_arc_half hr _).2 ⟨h, ?_⟩)
    rw [bearing_add_half, Point.neg_x, Point.neg_y]
    linarith

theorem ellipse_trace {x y w h : ℝ} (hw : 0 < w) (hh : 0 < h) :
    (Sketch.ellipse x y w h).trace =
      {p | offEllipse ⟨x + w / 2, y + h / 2⟩ ⟨w / 2, h / 2⟩ p = 0} := by
  have hr : (⟨w / 2, h / 2⟩ : Point ℝ).Positive := ⟨half_pos hw, half_pos hh⟩
  have hpen : (⟨x, y + h / 2⟩ : Point ℝ) =
      ⟨x + w / 2, y + h / 2⟩ + spoke ⟨w / 2, h / 2⟩ 180 := by
    rw [spoke_half hr]
    ext <;> simp
  have hnext : (⟨x + w / 2, y + h / 2⟩ : Point ℝ) + spoke ⟨w / 2, h / 2⟩ (180 + 360) =
      ⟨x, y + h / 2⟩ := by
    norm_num [spoke_540 hr]
    ext <;> simp
  have hstart : offEllipse ⟨x + w / 2, y + h / 2⟩ ⟨w / 2, h / 2⟩ (x, y + h / 2) = 0 := by
    simp only [offEllipse]
    ring
  change Sketch.trace [.move ⟨x, y + h / 2⟩, .arc ⟨w / 2, h / 2⟩ 180 360, .close] = _
  rw [Sketch.trace_move, Trail.trace_arc_about _ _ hr (by norm_num) (by norm_num) hpen hnext,
    Trail.trace_close, Trail.trace_nil, Point.place_mk, segment_same, Set.union_self]
  ext p
  rw [Set.mem_union, mem_arc_full hr]
  exact or_iff_left_of_imp fun h => Set.mem_singleton_iff.1 h ▸ hstart

end Ellipses

end
end ShapeOutline
