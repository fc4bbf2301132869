import Mathlib
import ShapeOutline.LayeredPreset
import ShapeOutline.Proofs.TraceImage

/-! Shading. A layer that shades keeps within the silhouette if its trace lies in what
the silhouette layers before it enclose; then it stays in their bounding box and
paints nothing that the flattened shape leaves out. -/

namespace ShapeOutline
noncomputable section

/-- Every shading layer lies within what the silhouette layers before it enclose. -/
def ShadesWithin (ls : List (Layer ℝ)) : Prop :=
  ∀ before l after, ls = before ++ l :: after → l.mode.isFilled = true → l.silhouette = false →
    l.sketch.trace ⊆ enclosed (Layer.flatten before).trace

/-- What a curve encloses lies in any box around the curve. -/
theorem enclosed_subset_box {K : Set Plane} {lo hi : Plane} (h : K ⊆ Set.Icc lo hi) :
    enclosed K ⊆ Set.Icc lo hi := by
  intro p hp
  have hside (a b c : ℝ) (hab : 0 < a ^ 2 + b ^ 2) (hK : ∀ q ∈ K, a * q.1 + b * q.2 ≤ c) :
      a * p.1 + b * p.2 ≤ c := enclosed_subset_halfPlane hab hK hp
  have hleft := hside (-1) 0 (-lo.1) (by norm_num) fun q hq => by linarith [(h hq).1.1]
  have htop := hside 0 (-1) (-lo.2) (by norm_num) fun q hq => by linarith [(h hq).1.2]
  have hright := hside 1 0 hi.1 (by norm_num) fun q hq => by linarith [(h hq).2.1]
  have hbottom := hside 0 1 hi.2 (by norm_num) fun q hq => by linarith [(h hq).2.2]
  exact ⟨⟨by linarith, by linarith⟩, by linarith, by linarith⟩

/-- A sketch that begins with a move, if with anything. -/
def Sketch.opens : Sketch ℝ → Bool
  | [] => true
  | .move _ :: _ => true
  | _ => false

theorem Sketch.eq_of_opens {s : Sketch ℝ} (h : s.opens = true) :
    s = [] ∨ ∃ p rest, s = .move p :: rest := by
  match s with
  | [] => exact .inl rfl
  | .move p :: rest => exact .inr ⟨p, rest, rfl⟩
  | .line _ :: _ | .cubic .. :: _ | .quad .. :: _ | .arc .. :: _ | .close :: _ =>
    exact absurd h Bool.false_ne_true

theorem Sketch.opens_append {s t : Sketch ℝ} (hs : s.opens = true) (ht : t.opens = true) :
    opens (s ++ t) = true := by
  obtain rfl | ⟨p, s, rfl⟩ := eq_of_opens hs
  · exact ht
  · rfl

theorem Sketch.trace_append_of_opens {s t : Sketch ℝ} (hs : s.opens = true) (ht : t.opens = true) :
    Sketch.trace (s ++ t) = s.trace ∪ t.trace := by
  obtain rfl | ⟨p, s, rfl⟩ := eq_of_opens hs
  · exact (Set.empty_union _).symm
  obtain rfl | ⟨q, t, rfl⟩ := eq_of_opens ht
  · rw [List.append_nil]
    exact (Set.union_empty _).symm
  · exact Sketch.trace_append p s q t

theorem append_subset {s t : Sketch ℝ} {S : Set Plane} (hs : s.opens = true) (ht : t.opens = true)
    (h : s.trace ⊆ S) (h' : t.trace ⊆ S) : Sketch.trace (s ++ t) ⊆ S := by
  rw [Sketch.trace_append_of_opens hs ht]
  exact Set.union_subset h h'

theorem Layer.flatten_opens {ls : List (Layer ℝ)} (h : ∀ l ∈ ls, l.sketch.opens = true) :
    (Layer.flatten ls).opens = true := by
  induction ls with
  | nil => rfl
  | cons l rest ih =>
    have hrest := ih fun m hm => h m (List.mem_cons_of_mem l hm)
    cases hl : l.silhouette with
    | true =>
      rw [Layer.flatten, List.filter_cons_of_pos (by simpa using hl), List.flatMap_cons]
      exact Sketch.opens_append (h l List.mem_cons_self) hrest
    | false =>
      rw [Layer.flatten, List.filter_cons_of_neg (by simp [hl])]
      exact hrest

theorem Layer.flatten_append (ls ms : List (Layer ℝ)) :
    Layer.flatten (ls ++ ms) = Layer.flatten ls ++ Layer.flatten ms := by
  rw [flatten, flatten, flatten, List.filter_append, List.flatMap_append]

/-- The flattened shape runs through whatever a part of its layers does. -/
theorem Layer.flatten_trace_append {ls ms : List (Layer ℝ)}
    (h : ∀ l ∈ ls ++ ms, l.sketch.opens = true) :
    (Layer.flatten (ls ++ ms)).trace = (Layer.flatten ls).trace ∪ (Layer.flatten ms).trace := by
  rw [flatten_append]
  exact Sketch.trace_append_of_opens
    (flatten_opens fun l hl => h l (List.mem_append_left ms hl))
    (flatten_opens fun l hl => h l (List.mem_append_right ls hl))

/-- The flattened shape loses nothing that a layer paints. -/
theorem ShadesWithin.enclosed_subset {ls : List (Layer ℝ)} (hls : ShadesWithin ls)
    (hopens : ∀ l ∈ ls, l.sketch.opens = true) {l : Layer ℝ} (hl : l ∈ ls)
    (hfilled : l.mode.isFilled = true) :
    enclosed l.sketch.trace ⊆ enclosed (Layer.flatten ls).trace := by
  obtain ⟨before, after, rfl⟩ := List.append_of_mem hl
  rw [Layer.flatten_trace_append hopens]
  refine enclosed_subset_enclosed ?_
  cases hs : l.silhouette with
  | false =>
    exact (hls before l after rfl hfilled hs).trans (enclosed_mono Set.subset_union_left)
  | true =>
    have hrest : ∀ m ∈ l :: after, m.sketch.opens = true := fun m hm =>
      hopens m (List.mem_append_right before hm)
    have hcons : (Layer.flatten (l :: after)).trace =
        l.sketch.trace ∪ (Layer.flatten after).trace := by
      rw [Layer.flatten, List.filter_cons_of_pos (by simpa using hs), List.flatMap_cons]
      exact Sketch.trace_append_of_opens (hrest l List.mem_cons_self)
        (Layer.flatten_opens fun m hm => hrest m (List.mem_cons_of_mem l hm))
    rw [hcons]
    exact (Set.subset_union_left.trans Set.subset_union_right).trans (subset_enclosed _)

/-- Layers of which none shades. -/
theorem shadesWithin_of_none {ls : List (Layer ℝ)}
    (h : ls.all (fun l => !l.mode.isFilled || l.silhouette) = true) : ShadesWithin ls := by
  rintro before l after rfl hfilled hs
  have hl := List.all_eq_true.1 h l (List.mem_append_right _ List.mem_cons_self)
  rw [hfilled, hs] at hl
  exact absurd hl Bool.false_ne_true

theorem stroke_not_filled (s : Sketch ℝ) : (Layer.stroke s).mode.isFilled ≠ true :=
  Bool.false_ne_true

/-- A body and whatever is painted upon it. -/
theorem shadesWithin_of_body {body : Layer ℝ} {upon : List (Layer ℝ)}
    (hbody : body.silhouette = true)
    (hupon : ∀ l ∈ upon, l.silhouette = false ∧
      (l.mode.isFilled = true → l.sketch.trace ⊆ enclosed body.sketch.trace)) :
    ShadesWithin (body :: upon) := by
  rintro before l after hls hfilled hs
  cases before with
  | nil =>
    obtain ⟨rfl, -⟩ := List.cons_eq_cons.1 hls
    rw [hbody] at hs
    exact absurd hs.symm Bool.false_ne_true
  | cons b before =>
    obtain ⟨rfl, rfl⟩ := List.cons_eq_cons.1 hls
    have hflat : Layer.flatten (body :: before) = body.sketch := by
      have hnone : before.filter Layer.silhouette = [] := List.filter_eq_nil_iff.2 fun m hm => by
        simp [(hupon m (List.mem_append_left _ hm)).1]
      rw [Layer.flatten, List.filter_cons_of_pos (by simpa using hbody), hnone]
      simp
    rw [hflat]
    exact (hupon l (List.mem_append_right before List.mem_cons_self)).2 hfilled

/-- A shade and its body reflected together. -/
theorem reflect_subset_enclosed_iff {s body : Sketch ℝ} (t : Reflection ℝ) :
    (s.reflect t).trace ⊆ enclosed (body.reflect t).trace ↔ s.trace ⊆ enclosed body.trace := by
  rw [Sketch.reflect_trace, Sketch.reflect_enclosed, Set.image_subset_image_iff t.plane.injective]

open Layered in
/-- The shading of a banner is that of its folds, whichever way it is turned. -/
theorem banner_shades_iff (g : Banner ℝ) (t : Reflection ℝ) :
    ShadesWithin (g.layers t) ↔ g.folds.trace ⊆ enclosed g.body.trace := by
  rw [← reflect_subset_enclosed_iff t]
  constructor
  · intro h
    have hfolds := h [.fill (g.body.reflect t) .normal] _ _ rfl rfl rfl
    have hflat : Layer.flatten [.fill (g.body.reflect t) .normal] = g.body.reflect t := by
      simp [Layer.flatten, Layer.fill]
    rwa [hflat] at hfolds
  · intro h
    refine shadesWithin_of_body rfl ?_
    simp only [List.forall_mem_cons, List.not_mem_nil, IsEmpty.forall_iff, implies_true, and_true]
    exact ⟨⟨rfl, fun _ => h⟩, rfl, fun h => absurd h (stroke_not_filled _)⟩

/-- What leaves a gap open: it is short of the width `x`, below the height `y` or past a corner, but
for a point at which it touches the gap. -/
def besideGap (x y : ℝ) (corner touch : Plane) : Set Plane :=
  {p | p.1 < x ∨ y < p.2 ∨ corner.1 ≤ p.1 ∧ corner.2 ≤ p.2 ∨ p = touch}

section Gap

variable {x y : ℝ} {corner touch p q : Plane}

theorem segment_short_of_gap (hp : p.1 < x) (hq : q.1 < x) :
    segment ℝ p q ⊆ besideGap x y corner touch :=
  (((convex_Iio x).prod convex_univ).segment_subset (x := p) (y := q) ⟨hp, trivial⟩
    ⟨hq, trivial⟩).trans fun _ hp => .inl hp.1

theorem segment_below_gap (hp : y < p.2) (hq : y < q.2) :
    segment ℝ p q ⊆ besideGap x y corner touch :=
  ((convex_univ.prod (convex_Ioi y)).segment_subset (x := p) (y := q) ⟨trivial, hp⟩
    ⟨trivial, hq⟩).trans fun _ hp => .inr (.inl hp.2)

theorem segment_past_gap (hp : corner.1 ≤ p.1 ∧ corner.2 ≤ p.2)
    (hq : corner.1 ≤ q.1 ∧ corner.2 ≤ q.2) : segment ℝ p q ⊆ besideGap x y corner touch :=
  (((convex_Ici corner.1).prod (convex_Ici corner.2)).segment_subset (x := p) (y := q) hp hq).trans
    fun _ hp => .inr (.inr (.inl hp))

/-- An ellipse reaches its full width only halfway up. -/
theorem fst_lt_or_eq_of_mem_arc {center radii : Point ℝ} {deg sweep : ℝ} (hr : radii.Positive)
    (hp : p ∈ Point.place '' arcCurve center radii deg sweep) :
    p.1 < center.x + radii.x ∨ p = (center.x + radii.x, center.y) := by
  have hoff := offEllipse_of_mem_arc hr hp
  have hreach := (abs_le.1 (abs_sub_le_of_offEllipse hr hoff.le).1).2
  refine (show p.1 ≤ center.x + radii.x by linarith).lt_or_eq.imp_right fun hx => ?_
  have hsq : (radii.x * (p.2 - center.y)) ^ 2 = 0 := by
    simp only [offEllipse, hx, add_sub_cancel_left] at hoff
    linarith
  have hy : p.2 - center.y = 0 :=
    (mul_eq_zero.1 (pow_eq_zero_iff two_ne_zero |>.1 hsq)).resolve_left hr.1.ne'
  exact Prod.ext hx (sub_eq_zero.1 hy)

/-- A ray that rises from the lower end of the gap leaves it at the top. -/
theorem not_mem_enclosed_of_gap {K : Set Plane} (hK : K ⊆ besideGap x y corner touch)
    (hopen : x < corner.1) (hy : 0 < y) (hcorner : 0 ≤ corner.2) (htouch : touch.2 < y)
    (hside : touch.1 = x) : ((x, y) : Plane) ∉ enclosed K := by
  refine not_mem_enclosed (v := ((corner.1 - x) / 2, -y)) (by simp [hy.ne']) fun t ht hp => ?_
  have hgap := mul_nonneg ht (sub_pos.2 hopen).le
  have hrise := mul_nonneg ht hy.le
  obtain hp | hp | ⟨hpast, hlow⟩ | rfl := hK hp
  · simp only [Prod.fst_add, Prod.smul_fst, smul_eq_mul] at hp
    linarith
  · simp only [Prod.snd_add, Prod.smul_snd, smul_eq_mul] at hp
    linarith
  · simp only [Prod.fst_add, Prod.smul_fst, Prod.snd_add, Prod.smul_snd, smul_eq_mul] at hpast hlow
    have hfar : 2 ≤ t := by
      by_contra! h
      nlinarith
    nlinarith
  · simp only [Prod.fst_add, Prod.smul_fst, smul_eq_mul] at hside
    simp only [Prod.snd_add, Prod.smul_snd, smul_eq_mul] at htouch
    have hnear : t = 0 := by
      by_contra h
      have := mul_pos (ht.lt_of_ne' h) (sub_pos.2 hopen)
      linarith
    rw [hnear] at htouch
    linarith

end Gap

end
end ShapeOutline
