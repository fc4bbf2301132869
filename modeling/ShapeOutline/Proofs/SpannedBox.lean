import ShapeOutline.Proofs.NestedSpaces

/-! The box that bounds come to span. Whatever points and boxes they are extended by,
it is the smallest box about all of the points and corners, so neither the order in
which they come nor how often each of them does makes any difference, and none to the
space that is derived for the shapes of a diagram. -/

namespace ShapeOutline
noncomputable section

/-- What bounds are extended by in one step. -/
inductive Mark where
  | point (p : Point ℝ)
  | box (b : Box ℝ)

namespace Mark

/-- The points that a mark puts within the bounds. -/
def corners : Mark → List (Point ℝ)
  | point p => [p]
  | box b => [b.offset, b.far]

/-- The mark begins no further out than the sentinels of empty bounds. -/
def Finite : Mark → Prop
  | point p => ∀ a : Axis, |a.of p| ≤ Scalar.largest
  | box b => b.Finite

theorem Finite.exists_mem {m : Mark} (h : m.Finite) :
    ∃ p ∈ m.corners, ∀ a : Axis, |a.of p| ≤ Scalar.largest := by
  cases m with
  | point p => exact ⟨p, List.mem_singleton_self p, h⟩
  | box b => exact ⟨b.offset, List.mem_cons_self, h⟩

end Mark

/-- The points and corners of a series of marks. -/
def marked (ms : List Mark) : List (Point ℝ) := ms.flatMap Mark.corners

theorem marked_eq_nil {ms : List Mark} : marked ms = [] ↔ ms = [] := by
  cases ms with
  | nil => exact iff_of_true rfl rfl
  | cons m rest => cases m <;> simp [marked, Mark.corners]

/-- The box runs forwards and is the smallest one that holds the points. -/
structure Hull (ps : List (Point ℝ)) (t : Box ℝ) : Prop where
  forwards : ∀ a : Axis, 0 ≤ a.of t.extent
  holds : ∀ p ∈ ps, p ∈ t.region
  smallest : ∀ other : Box ℝ, (∀ p ∈ ps, p ∈ other.region) → t.region ⊆ other.region

/-- Each side of the tight box goes through one of the points, so a box about them cannot be any
smaller. -/
theorem Bounding.hull {ps : List (Point ℝ)} {t : Box ℝ} (h : Bounding ps t) : Hull ps t where
  forwards a := by
    obtain ⟨p, hp, hpa⟩ := (h.least a).1
    have hle := (h.greatest a).2 ⟨p, hp, rfl⟩
    rw [t.of_far, hpa] at hle
    linarith
  holds p hp a := Set.Icc_subset_uIcc ⟨(h.least a).2 ⟨p, hp, rfl⟩, (h.greatest a).2 ⟨p, hp, rfl⟩⟩
  smallest other hother := by
    intro q hq a
    obtain ⟨p, hp, hleast⟩ := (h.least a).1
    obtain ⟨p', hp', hgreatest⟩ := (h.greatest a).1
    have hsides := Set.uIcc_subset_uIcc (hother p hp a) (hother p' hp' a)
    rw [hleast, hgreatest] at hsides
    exact hsides (hq a)

/-- No two boxes that run forwards have the same region. -/
theorem Hull.unique {ps : List (Point ℝ)} {t u : Box ℝ} (ht : Hull ps t) (hu : Hull ps u) :
    t = u := by
  have htu := ht.smallest u hu.holds
  have hut := hu.smallest t ht.holds
  have hside {b : Box ℝ} (hb : Hull ps b) (a : Axis) : a.of b.offset ≤ a.of b.far := by
    rw [b.of_far]
    exact le_add_of_nonneg_right (hb.forwards a)
  have hicc {b c : Box ℝ} (hb : Hull ps b) (hc : Hull ps c) (h : b.region ⊆ c.region) (a : Axis) :
      a.of c.offset ≤ a.of b.offset ∧ a.of b.far ≤ a.of c.far := by
    have hoffset := h b.offset_mem_region a
    have hfar := h b.far_mem_region a
    rw [Set.uIcc_of_le (hside hc a)] at hoffset hfar
    exact ⟨hoffset.1, hfar.2⟩
  have hoffset : t.offset = u.offset := Axis.ext fun a =>
    le_antisymm (hicc hu ht hut a).1 (hicc ht hu htu a).1
  have hfar : t.far = u.far := Axis.ext fun a =>
    le_antisymm (hicc ht hu htu a).2 (hicc hu ht hut a).2
  exact Box.eq_of_corners hoffset hfar

namespace Bounds

/-- Which points have been met is all that bounds depend on. -/
theorem foldl_addPoint_congr {ps qs : List (Point ℝ)} (h : ∀ p, p ∈ ps ↔ p ∈ qs) (b : Bounds ℝ) :
    ps.foldl addPoint b = qs.foldl addPoint b := by
  have hset (a : Axis) : a.of '' {p | p ∈ ps} = a.of '' {p | p ∈ qs} :=
    congrArg _ (Set.ext h)
  have hleast : (ps.foldl addPoint b).least = (qs.foldl addPoint b).least := Axis.ext fun a =>
    (foldl_addPoint_isLeast ps b a).unique (hset a ▸ foldl_addPoint_isLeast qs b a)
  have hgreatest : (ps.foldl addPoint b).greatest = (qs.foldl addPoint b).greatest :=
    Axis.ext fun a =>
      (foldl_addPoint_isGreatest ps b a).unique (hset a ▸ foldl_addPoint_isGreatest qs b a)
  cases hp : ps.foldl addPoint b
  cases hq : qs.foldl addPoint b
  rw [hp, hq] at hleast hgreatest
  exact congrArg₂ Bounds.mk hleast hgreatest

/-- A point that has been met parts the sentinels. -/
theorem isEmpty_foldl_addPoint (ps : List (Point ℝ)) :
    (ps.foldl addPoint empty).isEmpty = true ↔ ps = [] := by
  cases ps with
  | nil =>
    have hlargest := largest_pos
    refine iff_of_true ?_ rfl
    simp only [isEmpty, Bool.or_eq_true, decide_eq_true_eq]
    left
    change -(Scalar.largest : ℝ) < Scalar.largest
    linarith
  | cons p rest =>
    refine iff_of_false ?_ (List.cons_ne_nil p rest)
    have hle (a : Axis) : a.of ((p :: rest).foldl addPoint empty).least ≤
        a.of ((p :: rest).foldl addPoint empty).greatest := by
      have hmem : a.of p ∈ a.of '' {q | q ∈ p :: rest} := ⟨p, List.mem_cons_self, rfl⟩
      exact ((foldl_addPoint_isLeast _ _ a).2 (.inr hmem)).trans
        ((foldl_addPoint_isGreatest _ _ a).2 (.inr hmem))
    simp only [isEmpty, Bool.or_eq_true, decide_eq_true_eq, not_or, not_lt]
    exact ⟨hle .x, hle .y⟩

def add (b : Bounds ℝ) : Mark → Bounds ℝ
  | .point p => b.addPoint p
  | .box c => b.addBox c

/-- Empty bounds extended by one mark after the other. -/
def ofMarks (ms : List Mark) : Bounds ℝ := ms.foldl add empty

theorem ofMarks_eq (ms : List Mark) : ofMarks ms = (marked ms).foldl addPoint empty := by
  have hadd : add = fun (b : Bounds ℝ) m => m.corners.foldl addPoint b := by
    funext b m
    cases m <;> rfl
  rw [marked, List.foldl_flatMap, ofMarks, hadd]

theorem box?_ofMarks_eq_none (ms : List Mark) : (ofMarks ms).box? = none ↔ ms = [] := by
  rw [← marked_eq_nil, ← isEmpty_foldl_addPoint, ← ofMarks_eq, box?]
  split_ifs with h <;> simp [h]

/-- Marks span a box, which is the smallest one about them. -/
theorem box?_ofMarks_eq_some {ms : List Mark} (hms : ∀ m ∈ ms, m.Finite) (t : Box ℝ) :
    (ofMarks ms).box? = some t ↔ ms ≠ [] ∧ Hull (marked ms) t := by
  have hhull {u : Box ℝ} (hu : (ofMarks ms).box? = some u) : ms ≠ [] ∧ Hull (marked ms) u := by
    have hne : ms ≠ [] := fun h => by simp [(box?_ofMarks_eq_none ms).2 h] at hu
    obtain ⟨m, hm⟩ := List.exists_mem_of_ne_nil ms hne
    obtain ⟨p, hp, hfinite⟩ := (hms m hm).exists_mem
    rw [ofMarks_eq] at hu
    exact ⟨hne, (bounding_of_mem (List.mem_flatMap.2 ⟨m, hm, hp⟩) hfinite hu).hull⟩
  refine ⟨hhull, fun ⟨hne, ht⟩ => ?_⟩
  obtain ⟨u, hu⟩ := Option.ne_none_iff_exists'.1 (mt (box?_ofMarks_eq_none ms).1 hne)
  rw [hu, (hhull hu).2.unique ht]

theorem ofMarks_congr {ms ns : List Mark} (h : ∀ m, m ∈ ns ↔ m ∈ ms) : ofMarks ns = ofMarks ms := by
  rw [ofMarks_eq, ofMarks_eq]
  refine foldl_addPoint_congr (fun p => ?_) empty
  simp only [marked, List.mem_flatMap, h]

end Bounds

/-- A shape that the derivation of a space passes over: it has no box and is not circular. -/
def DiagramShape.Silent (rules : DiagramRules ℝ) (s : DiagramShape ℝ) : Prop :=
  s.box = none ∧ ∀ name ∈ s.preset, rules.isCircular name = false

section Rearranged

variable {shapes others : List (DiagramShape ℝ)} {rules : DiagramRules ℝ}
  (hsub : shapes ⊆ others) (hothers : ∀ s ∈ others, s ∈ shapes ∨ s.Silent rules)
include hsub hothers

theorem shapeBounds_congr : shapeBounds others = shapeBounds shapes := by
  rw [shapeBounds, shapeBounds, Bounds.foldl_addBox, Bounds.foldl_addBox]
  refine Bounds.foldl_addPoint_congr (fun p => ?_) _
  simp only [mem_corners, List.mem_filterMap]
  constructor
  · rintro ⟨b, ⟨s, hs, hb⟩, hp⟩
    rcases hothers s hs with h | h
    · exact ⟨b, ⟨s, h, hb⟩, hp⟩
    · exact absurd (hb.symm.trans h.1) (Option.some_ne_none b)
  · rintro ⟨b, ⟨s, hs, hb⟩, hp⟩
    exact ⟨b, ⟨s, hsub hs, hb⟩, hp⟩

theorem any_isCircular_congr : (others.filterMap DiagramShape.preset).any rules.isCircular =
    (shapes.filterMap DiagramShape.preset).any rules.isCircular := by
  rw [Bool.eq_iff_iff]
  simp only [List.any_eq_true, List.mem_filterMap]
  constructor
  · rintro ⟨name, ⟨s, hs, hname⟩, hcircular⟩
    rcases hothers s hs with h | h
    · exact ⟨name, ⟨s, h, hname⟩, hcircular⟩
    · exact absurd hcircular (by rw [h.2 name hname]; exact Bool.false_ne_true)
  · rintro ⟨name, ⟨s, hs, hname⟩, hcircular⟩
    exact ⟨name, ⟨s, hsub hs, hname⟩, hcircular⟩

theorem childSpace_congr (frame : Box ℝ) :
    childSpace others frame rules = childSpace shapes frame rules := by
  unfold childSpace
  rw [shapeBounds_congr hsub hothers, any_isCircular_congr hsub hothers]

end Rearranged

/-- Bounds have no box before they are extended. From the first mark on it is the smallest box about
all points and corners, whichever way the extents of boxes run, and marks that are the same but for
their order and their number give the same box. The space of a diagram likewise stays the same when
its shapes are put in another order, when some are repeated, and when shapes without a box join them
that do not make it circular. -/
theorem bounds_span_marks (ms : List Mark) (hms : ∀ m ∈ ms, m.Finite) :
    ((Bounds.ofMarks ms).box? = none ↔ ms = []) ∧
    (∀ t, (Bounds.ofMarks ms).box? = some t ↔ ms ≠ [] ∧ Hull (marked ms) t) ∧
    (∀ ns, (∀ m, m ∈ ns ↔ m ∈ ms) → (Bounds.ofMarks ns).box? = (Bounds.ofMarks ms).box?) ∧
    ∀ (shapes others : List (DiagramShape ℝ)) (frame : Box ℝ) (rules : DiagramRules ℝ),
      shapes ⊆ others → (∀ s ∈ others, s ∈ shapes ∨ s.Silent rules) →
        childSpace others frame rules = childSpace shapes frame rules :=
  ⟨Bounds.box?_ofMarks_eq_none ms, Bounds.box?_ofMarks_eq_some hms,
    fun _ h => congrArg Bounds.box? (Bounds.ofMarks_congr h),
    fun _ _ frame _ hsub hothers => childSpace_congr hsub hothers frame⟩

/-- A box given from its far corner, and a point as far out as the sentinels. -/
def farMarks : List Mark :=
  [.box ⟨⟨30, 10⟩, ⟨-20, -15⟩⟩, .point ⟨Scalar.largest, -Scalar.largest⟩]

theorem farMarks_finite : ∀ m ∈ farMarks, m.Finite := by
  have hlargest : (2 : ℝ) ^ 6 ≤ Scalar.largest := Bounds.two_pow_le_largest (by norm_num)
  simp only [farMarks, List.forall_mem_cons]
  refine ⟨fun a => ?_, fun a => ?_, by simp⟩
  · cases a <;> norm_num [Axis.of] <;> linarith
  · cases a <;> simp [Axis.of, abs_of_pos Bounds.largest_pos]

theorem farMarks_span :
    (∀ m ∈ farMarks, m.Finite) ∧
    (∃ t, (Bounds.ofMarks farMarks).box? = some t ∧ Hull (marked farMarks) t ∧
      (Bounds.ofMarks (farMarks.reverse ++ farMarks)).box? = some t) ∧
    childSpace (⟨none, some "rect"⟩ :: (pieAndBar.reverse ++ pieAndBar)) wideFrame .standard =
      childSpace pieAndBar wideFrame .standard := by
  obtain ⟨hnone, hsome, hcongr, hspace⟩ := bounds_span_marks farMarks farMarks_finite
  obtain ⟨t, ht⟩ := Option.ne_none_iff_exists'.1 (mt hnone.1 (List.cons_ne_nil _ _))
  refine ⟨farMarks_finite, ⟨t, ht, ((hsome t).1 ht).2, ?_⟩, ?_⟩
  · rw [hcongr _ (by simp), ht]
  · refine hspace _ _ wideFrame .standard (fun s hs => by simp [hs]) ?_
    simp only [List.forall_mem_cons, List.mem_append, List.mem_reverse, or_self]
    refine ⟨.inr ⟨rfl, ?_⟩, fun s hs => .inl hs⟩
    rintro name ⟨⟩
    decide +kernel

end
end ShapeOutline
