import Mathlib
import ShapeOutline.Preset.Sketch
import ShapeOutline.Proofs.ArrowHead
import ShapeOutline.Proofs.Trapezium

/-! The half frame. The slanted ends of its arms lie on the diagonal of the frame, and the
arms meet on this side of it, so the outline is a simple polygon. Where an arm has no
width or no inner edge it is the limit of simple ones. -/

namespace ShapeOutline
noncomputable section

open Shape
open Sketch (polygon)

/-- The sides of a closed polygon, each from a vertex to the next one. -/
def sides (ps : List (Point ℝ)) : List (Point ℝ × Point ℝ) := ps.zip (ps.rotate 1)

/-- No vertex comes twice, and two sides have at most a vertex in common, at which the one ends and
the other begins. -/
structure SimplePolygon (ps : List (Point ℝ)) : Prop where
  distinct : ps.Nodup
  apart : (sides ps).Pairwise fun k l => ∀ p ∈ segment ℝ k.1.place k.2.place,
    p ∈ segment ℝ l.1.place l.2.place →
      k.2 = l.1 ∧ p = k.2.place ∨ l.2 = k.1 ∧ p = k.1.place

/-- A polygon that does not cross itself, though it may touch: there are simple polygons as near to
it as one likes. -/
def NeverCrosses (ps : List (Point ℝ)) : Prop :=
  ∀ ε > 0, ∃ qs, SimplePolygon qs ∧
    List.Forall₂ (fun p q => dist p.place q.place < ε) ps qs

/-- The half of a frame on this side of its diagonal, less the part beyond `q`. -/
def notched (w h : ℝ) (q : Point ℝ) : List (Point ℝ) :=
  [⟨0, 0⟩, ⟨w, 0⟩, ⟨w - q.y * w / h, q.y⟩, q, ⟨q.x, h - q.x * h / w⟩, ⟨0, h⟩]

section Notched

variable {w h : ℝ} {q : Point ℝ} (hw : 0 < w) (hh : 0 < h) {p : Plane}

include hw hh

/-- Points are compared in parts of the frame's area. -/
theorem eq_of_weighted {p' : Plane} (hx : p.1 * h = p'.1 * h) (hy : p.2 * w = p'.2 * w) : p = p' :=
  Prod.ext (mul_right_cancel₀ hh.ne' hx) (mul_right_cancel₀ hw.ne' hy)

/-- The end of the arm along the top. -/
theorem of_mem_rightEnd (hy : 0 ≤ q.y) (hp : p ∈ segment ℝ (w, 0) (w - q.y * w / h, q.y)) :
    p.1 * h + p.2 * w = w * h ∧ p.2 * w ≤ q.y * w := by
  obtain ⟨s, t, hs, ht, hst, rfl⟩ := hp
  obtain rfl : s = 1 - t := by linarith
  simp only [Prod.smul_mk, Prod.mk_add_mk, smul_eq_mul, mul_zero, zero_add]
  refine ⟨?_, mul_le_mul_of_nonneg_right (mul_le_of_le_one_left hy (by linarith)) hw.le⟩
  field_simp
  ring

/-- The end of the arm down the left side. -/
theorem of_mem_lowerEnd (hx : 0 ≤ q.x) (hp : p ∈ segment ℝ (q.x, h - q.x * h / w) (0, h)) :
    p.1 * h + p.2 * w = w * h ∧ p.1 * h ≤ q.x * h := by
  obtain ⟨s, t, hs, ht, hst, rfl⟩ := hp
  obtain rfl : t = 1 - s := by linarith
  simp only [Prod.smul_mk, Prod.mk_add_mk, smul_eq_mul, mul_zero, add_zero]
  refine ⟨?_, mul_le_mul_of_nonneg_right (mul_le_of_le_one_left hx (by linarith)) hh.le⟩
  field_simp
  ring

variable (hroom : q.x * h + q.y * w ≤ w * h)

include hroom

omit hw in
/-- The inner edge of the arm along the top has a length. -/
theorem corner_le_end : q.x ≤ w - q.y * w / h := by
  rw [le_sub_iff_add_le, ← mul_le_mul_iff_of_pos_right hh, add_mul, div_mul_cancel₀ _ hh.ne']
  exact hroom

omit hh in
theorem corner_le_lower : q.y ≤ h - q.x * h / w := by
  rw [le_sub_iff_add_le, ← mul_le_mul_iff_of_pos_right hw, add_mul, div_mul_cancel₀ _ hw.ne']
  linarith

omit hw in
theorem of_mem_upperEdge (hp : p ∈ segment ℝ (w - q.y * w / h, q.y) (q.x, q.y)) :
    p.2 * w = q.y * w ∧ q.x * h ≤ p.1 * h := by
  obtain ⟨hy, hx⟩ := mem_segment_across.1 hp
  rw [Set.uIcc_of_ge (corner_le_end hh hroom)] at hx
  exact ⟨by rw [hy], mul_le_mul_of_nonneg_right hx.1 hh.le⟩

omit hh in
theorem of_mem_lowerEdge (hp : p ∈ segment ℝ (q.x, q.y) (q.x, h - q.x * h / w)) :
    p.1 * h = q.x * h ∧ q.y * w ≤ p.2 * w := by
  obtain ⟨hx, hy⟩ := mem_segment_down.1 hp
  rw [Set.uIcc_of_le (corner_le_lower hw hroom)] at hy
  exact ⟨by rw [hx], mul_le_mul_of_nonneg_right hy.1 hw.le⟩

end Notched

section Simple

variable {w h : ℝ} {q : Point ℝ} (hw : 0 < w) (hh : 0 < h)

include hw hh

section Proper

variable (hx : 0 < q.x) (hy : 0 < q.y) (hroom : q.x * h + q.y * w < w * h)

include hx hy hroom

theorem notched_nodup : (notched w h q).Nodup := by
  obtain ⟨x, y⟩ := q
  simp only at *
  have hxend : x < w - y * w / h := by
    rw [lt_sub_iff_add_lt, ← mul_lt_mul_iff_of_pos_right hh, add_mul, div_mul_cancel₀ _ hh.ne']
    exact hroom
  have hylow : y < h - x * h / w := by
    rw [lt_sub_iff_add_lt, ← mul_lt_mul_iff_of_pos_right hw, add_mul, div_mul_cancel₀ _ hw.ne']
    linarith
  simp [notched, hw.ne, hw.ne', hh.ne, hx.ne, hx.ne', hy.ne, hxend.ne', hylow.ne,
    (hx.trans hxend).ne', (hy.trans hylow).ne]

/-- Each side lies where no other comes but the next and the one before it. -/
theorem notched_apart : (sides (notched w h q)).Pairwise fun k l =>
    ∀ p ∈ segment ℝ k.1.place k.2.place, p ∈ segment ℝ l.1.place l.2.place →
      k.2 = l.1 ∧ p = k.2.place ∨ l.2 = k.1 ∧ p = k.1.place := by
  have hqx : 0 < q.x * h := mul_pos hx hh
  have hqy : 0 < q.y * w := mul_pos hy hw
  have htop {p : Plane} (hp : p ∈ segment ℝ (0, 0) (w, 0)) : p.2 * w = 0 := by
    rw [(mem_segment_across.1 hp).1, zero_mul]
  have hleft {p : Plane} (hp : p ∈ segment ℝ (0, h) (0, 0)) : p.1 * h = 0 := by
    rw [(mem_segment_down.1 hp).1, zero_mul]
  have hright {p : Plane} (hp : p ∈ segment ℝ (w, 0) (w - q.y * w / h, q.y)) :=
    of_mem_rightEnd hw hh hy.le hp
  have hupper {p : Plane} (hp : p ∈ segment ℝ (w - q.y * w / h, q.y) (q.x, q.y)) :=
    of_mem_upperEdge hh hroom.le hp
  have hlower {p : Plane} (hp : p ∈ segment ℝ (q.x, q.y) (q.x, h - q.x * h / w)) :=
    of_mem_lowerEdge hw hroom.le hp
  have hfoot {p : Plane} (hp : p ∈ segment ℝ (q.x, h - q.x * h / w) (0, h)) :=
    of_mem_lowerEnd hw hh hx.le hp
  have hend : (w - q.y * w / h) * h = w * h - q.y * w := by field_simp
  have hlow : (h - q.x * h / w) * w = w * h - q.x * h := by field_simp
  have heq {p p' : Plane} (hx : p.1 * h = p'.1 * h) (hy : p.2 * w = p'.2 * w) : p = p' :=
    eq_of_weighted hw hh hx hy
  obtain ⟨x, y⟩ := q
  simp only at *
  simp only [sides, notched, List.rotate_cons_succ, List.rotate_zero, List.cons_append,
    List.nil_append, List.zip_cons_cons, List.zip_nil_right, List.pairwise_cons,
    List.forall_mem_cons, List.not_mem_nil, IsEmpty.forall_iff, implies_true, and_true,
    List.Pairwise.nil, Point.place_mk]
  refine ⟨⟨?_, ?_, ?_, ?_, ?_⟩, ⟨?_, ?_, ?_, ?_⟩, ⟨?_, ?_, ?_⟩, ⟨?_, ?_⟩, ?_⟩
  all_goals intro p hk hl
  -- the top
  · have hdiag := (hright hl).1
    exact .inl ⟨trivial, heq (by linarith [htop hk]) (by rw [htop hk, zero_mul])⟩
  · linarith [htop hk, (hupper hl).1]
  · linarith [htop hk, (hlower hl).2]
  · linarith [htop hk, hfoot hl]
  · exact .inr ⟨trivial, heq (by rw [hleft hl, zero_mul]) (by rw [htop hk, zero_mul])⟩
  -- the right end
  · have hdiag := (hright hk).1
    exact .inl ⟨trivial, heq (by linarith [(hupper hl).1]) (hupper hl).1⟩
  · linarith [hright hk, hlower hl]
  · linarith [hright hk, hfoot hl]
  · linarith [hright hk, hleft hl]
  -- the inner edges
  · exact .inl ⟨trivial, heq (hlower hl).1 (hupper hk).1⟩
  · linarith [hupper hk, hfoot hl]
  · linarith [hupper hk, hleft hl]
  · have hdiag := (hfoot hl).1
    exact .inl ⟨trivial, heq (hlower hk).1 (by linarith [(hlower hk).1])⟩
  · linarith [hlower hk, hleft hl]
  -- the lower end
  · have hdiag := (hfoot hk).1
    exact .inl ⟨trivial, heq (by rw [hleft hl, zero_mul]) (by linarith [hleft hl])⟩

theorem notched_simple : SimplePolygon (notched w h q) :=
  ⟨notched_nodup hw hh hx hy hroom, notched_apart hw hh hx hy hroom⟩

end Proper

theorem notched_neverCrosses (hx : 0 ≤ q.x) (hy : 0 ≤ q.y) (hroom : q.x * h + q.y * w ≤ w * h) :
    NeverCrosses (notched w h q) := by
  intro ε hε
  -- towards a point well within the triangle
  set r : ℝ → Point ℝ := fun t => ⟨q.x + t * (w / 3 - q.x), q.y + t * (h / 3 - q.y)⟩ with hr
  have hclose : ∀ᶠ t in nhdsWithin 0 (Set.Ioi 0), List.Forall₂ (fun p p' =>
      dist p.place p'.place < ε) (notched w h q) (notched w h (r t)) := by
    have hnear {f : ℝ → Plane} (hf : Continuous f) :
        ∀ᶠ t in nhdsWithin (0 : ℝ) (Set.Ioi 0), dist (f 0) (f t) < ε := by
      have h0 : Filter.Tendsto f (nhdsWithin 0 (Set.Ioi 0)) (nhds (f 0)) :=
        hf.continuousAt.tendsto.mono_left nhdsWithin_le_nhds
      filter_upwards [Metric.tendsto_nhds.1 h0 ε hε] with t ht
      rwa [dist_comm]
    have hr0 : r 0 = q := by simp [hr]
    have hcorner := hnear (f := fun t => (r t).place) (by simp only [hr, Point.place_mk]; fun_prop)
    have hright := hnear (f := fun t => (w - (r t).y * w / h, (r t).y))
      (by simp only [hr]; fun_prop)
    have hlower := hnear (f := fun t => ((r t).x, h - (r t).x * h / w))
      (by simp only [hr]; fun_prop)
    rw [hr0] at hcorner hright hlower
    have hfixed (p : Point ℝ) : dist p.place p.place < ε := by rwa [dist_self]
    filter_upwards [hcorner, hright, hlower] with t hc hr hl
    exact .cons (hfixed _) (.cons (hfixed _) (.cons hr (.cons hc (.cons hl
      (.cons (hfixed _) .nil)))))
  have hsimple : ∀ᶠ t in nhdsWithin (0 : ℝ) (Set.Ioi 0), SimplePolygon (notched w h (r t)) := by
    filter_upwards [Ioo_mem_nhdsGT (zero_lt_one' ℝ)] with t ⟨ht, ht'⟩
    have hx' : 0 < (r t).x := by
      simp only [hr]
      nlinarith
    have hy' : 0 < (r t).y := by
      simp only [hr]
      nlinarith
    refine notched_simple hw hh hx' hy' ?_
    have harea := mul_pos hw hh
    simp only [hr]
    nlinarith
  obtain ⟨t, hs, hc⟩ := (hsimple.and hclose).exists
  exact ⟨_, hs, hc⟩

end Simple

namespace Shape

/-- The inner corner keeps to this side of the diagonal. -/
structure HalfFrame.Fits (g : HalfFrame ℝ) (w h : ℝ) : Prop where
  x1_nonneg : 0 ≤ g.x1
  y1_nonneg : 0 ≤ g.y1
  x1_le : g.x1 ≤ w
  y1_le : g.y1 ≤ h
  dx2_eq : g.dx2 = g.y1 * w / h
  dy2_eq : g.dy2 = g.x1 * h / w
  room : g.x1 * h + g.y1 * w ≤ w * h

theorem maxWidthRatio_real {f : Frame ℝ} (hf : f.Sized) :
    f.maxWidthRatio = divOrZero (100000 * f.w) f.ss := by
  rw [Frame.maxWidthRatio, divOrZero_real]
  simp only [Scalar.zero_real]
  split_ifs with hss
  · rfl
  · rw [le_antisymm (not_lt.1 hss) hf.ss_nonneg, div_zero]

/-- The arm down the left side takes of the height what the diagonal leaves of it beside the
other arm. -/
theorem HalfFrame.ofFrame_fits {f : Frame ℝ} (hf : f.Sized) :
    (HalfFrame.ofFrame f).Fits f.w f.h := by
  have hw := hf.w_nonneg
  have hh := hf.h_nonneg
  set part : String → ℝ → ℝ := fun name length =>
    f.shortPart (f.pinned name 33333 0 (divOrZero (100000 * length) f.ss)) with hpart
  have hmem (name : String) {length : ℝ} (hl : 0 ≤ length) :
      0 ≤ part name length ∧ part name length ≤ length := by
    have hl' : 0 ≤ 100000 * length := by positivity
    have hpin := f.pinned_mem name 33333 (Frame.divOrZero_nonneg hl' hf.ss_nonneg)
    have hmost := f.shortPart_divOrZero_le hl'
    exact ⟨hf.shortPart_nonneg hpin.1, by linarith [hf.shortPart_le hpin.2]⟩
  set g := ofFrame f with hg
  have hx1 : g.x1 = part "adj2" f.w := by
    rw [hg, hpart]
    simp only [ofFrame, maxWidthRatio_real hf, Scalar.zero_real]
  have hy1 : g.y1 = part "adj1" (f.h - f.h * g.x1 / f.w) := by
    rw [hg, hpart]
    simp only [ofFrame, divOrZero_real, Scalar.zero_real]
  have hdx : g.dx2 = g.y1 * f.w / f.h := divOrZero_real ..
  have hdy : g.dy2 = g.x1 * f.h / f.w := divOrZero_real ..
  obtain ⟨hx, hx'⟩ : 0 ≤ g.x1 ∧ g.x1 ≤ f.w := hx1 ▸ hmem "adj2" hw
  have hleft : 0 ≤ f.h * g.x1 / f.w ∧ f.h * g.x1 / f.w ≤ f.h :=
    ⟨by positivity, div_le_of_le_mul₀ hw hh (mul_le_mul_of_nonneg_left hx' hh)⟩
  obtain ⟨hy, hy'⟩ : 0 ≤ g.y1 ∧ g.y1 ≤ f.h - f.h * g.x1 / f.w :=
    hy1 ▸ hmem "adj1" (sub_nonneg.2 hleft.2)
  refine ⟨hx, hy, hx', by linarith, hdx, hdy, ?_⟩
  rcases hw.eq_or_lt with h0 | hpos
  · have hx0 : g.x1 = 0 := le_antisymm (h0 ▸ hx') hx
    rw [hx0, ← h0]
    simp
  · have hroom := mul_le_mul_of_nonneg_right hy' hw
    rw [sub_mul, div_mul_cancel₀ _ hpos.ne'] at hroom
    linarith

/-- Clockwise from the upper left corner of the frame. -/
def HalfFrame.corners (g : HalfFrame ℝ) (f : Frame ℝ) : List (Point ℝ) :=
  [⟨0, 0⟩, ⟨f.w, 0⟩, ⟨f.w - g.dx2, g.y1⟩, ⟨g.x1, g.y1⟩, ⟨g.x1, f.h - g.dy2⟩, ⟨0, f.h⟩]

/-- The slanted ends of the arms, each from its upper corner for the arm along the top, and to its
lower one for the arm down the left side. -/
def HalfFrame.ends (g : HalfFrame ℝ) (f : Frame ℝ) : List (Point ℝ × Point ℝ) :=
  [(⟨f.w, 0⟩, ⟨f.w - g.dx2, g.y1⟩), (⟨g.x1, f.h - g.dy2⟩, ⟨0, f.h⟩)]

theorem halfFrame_polygon (f : Frame ℝ) :
    halfFrame f = polygon ((HalfFrame.ofFrame f).corners f) := by
  simp only [halfFrame, HalfFrame.corners, Scalar.zero_real]

namespace HalfFrame.Fits

variable {f : Frame ℝ} {g : HalfFrame ℝ}

theorem corners_notched (hg : g.Fits f.w f.h) :
    g.corners f = notched f.w f.h ⟨g.x1, g.y1⟩ := by
  rw [corners, hg.dx2_eq, hg.dy2_eq, notched]

variable (hg : g.Fits f.w f.h) (hf : f.Sized)

include hg hf

theorem dx2_mem : 0 ≤ g.dx2 ∧ g.x1 ≤ f.w - g.dx2 := by
  have hy := hg.y1_nonneg
  have hw := hf.w_nonneg
  have hh := hf.h_nonneg
  rw [hg.dx2_eq]
  refine ⟨by positivity, ?_⟩
  rcases hh.eq_or_lt with h0 | hpos
  · rw [← h0, div_zero, sub_zero]
    exact hg.x1_le
  · exact corner_le_end (q := ⟨g.x1, g.y1⟩) hpos hg.room

theorem dy2_mem : 0 ≤ g.dy2 ∧ g.y1 ≤ f.h - g.dy2 := by
  have hx := hg.x1_nonneg
  have hw := hf.w_nonneg
  have hh := hf.h_nonneg
  rw [hg.dy2_eq]
  refine ⟨by positivity, ?_⟩
  rcases hw.eq_or_lt with h0 | hpos
  · rw [← h0, div_zero, sub_zero]
    exact hg.y1_le
  · exact corner_le_lower (q := ⟨g.x1, g.y1⟩) hpos hg.room

theorem corners_cover : ∀ p ∈ g.corners f, f.Covers p := by
  obtain ⟨hdx, hdx'⟩ := hg.dx2_mem hf
  obtain ⟨hdy, hdy'⟩ := hg.dy2_mem hf
  obtain ⟨hx, hy, hx', hy', -⟩ := hg
  have hw := hf.w_nonneg
  have hh := hf.h_nonneg
  simp only [corners, List.forall_mem_cons, List.not_mem_nil, IsEmpty.forall_iff, implies_true,
    and_true, Frame.Covers]
  constructorm* _ ∧ _ <;> linarith

end HalfFrame.Fits

/-- The slanted ends are sides that run along the diagonal, from the right to the lower left. -/
theorem HalfFrame.Fits.ends_parallel {f : Frame ℝ} {g : HalfFrame ℝ} (hg : g.Fits f.w f.h)
    (hw : 0 < f.w) (hh : 0 < f.h) :
    ∀ k ∈ g.ends f, k ∈ sides (g.corners f) ∧
      ∃ m : ℝ, 0 ≤ m ∧ k.2 - k.1 = ((⟨0, f.h⟩ : Point ℝ) - ⟨f.w, 0⟩) * m := by
  have hx := hg.x1_nonneg
  have hy := hg.y1_nonneg
  rw [ends, List.forall_mem_cons, List.forall_mem_singleton]
  refine ⟨⟨by simp [sides, corners], g.y1 / f.h, by positivity, ?_⟩,
    ⟨by simp [sides, corners], g.x1 / f.w, by positivity, ?_⟩⟩
  · ext
    · simp [hg.dx2_eq]
      ring
    · simp
      field_simp
  · ext
    · simp
      field_simp
    · simp [hg.dy2_eq]
      ring

end Shape

/-- The half frame keeps to its frame, and its inner edges have no negative length. Where the frame
is not flat, the slanted ends of its arms are parallel to the diagonal and the outline does not
cross itself; if both arms have a width and inner edges, it does not even touch itself. -/
theorem halfFrame_consistent {f : Frame ℝ} (hf : f.Sized) :
    let g := HalfFrame.ofFrame f
    Preset.halfFrame.sketch f = polygon (g.corners f) ∧ (∀ p ∈ g.corners f, f.Covers p) ∧
      g.x1 ≤ f.w - g.dx2 ∧ g.y1 ≤ f.h - g.dy2 ∧
      (0 < f.w → 0 < f.h →
        (∀ k ∈ g.ends f, k ∈ sides (g.corners f) ∧
          ∃ m : ℝ, 0 ≤ m ∧ k.2 - k.1 = ((⟨0, f.h⟩ : Point ℝ) - ⟨f.w, 0⟩) * m) ∧
        NeverCrosses (g.corners f) ∧
        (0 < g.x1 → 0 < g.y1 → g.x1 < f.w - g.dx2 → SimplePolygon (g.corners f))) := by
  intro g
  have hg : g.Fits f.w f.h := HalfFrame.ofFrame_fits hf
  refine ⟨halfFrame_polygon f, hg.corners_cover hf, (hg.dx2_mem hf).2, (hg.dy2_mem hf).2,
    fun hw hh => ⟨hg.ends_parallel hw hh, ?_, fun hx hy hlt => ?_⟩⟩
  · rw [hg.corners_notched]
    exact notched_neverCrosses hw hh hg.x1_nonneg hg.y1_nonneg hg.room
  · rw [hg.corners_notched]
    refine notched_simple hw hh hx hy ?_
    rwa [hg.dx2_eq, lt_sub_iff_add_lt, ← mul_lt_mul_iff_of_pos_right hh, add_mul,
      div_mul_cancel₀ _ hh.ne'] at hlt

/-- Arms of different widths, well clear of the diagonal where they meet. -/
theorem wideHalfFrame_consistent :
    let f : Frame ℝ := ⟨200, 100, ⟨[("adj1", 40000), ("adj2", 60000)]⟩⟩
    let ps : List (Point ℝ) := [⟨0, 0⟩, ⟨200, 0⟩, ⟨120, 40⟩, ⟨60, 40⟩, ⟨60, 70⟩, ⟨0, 100⟩]
    f.Sized ∧ Preset.halfFrame.sketch f = polygon ps ∧ (∀ p ∈ ps, f.Covers p) ∧
      NeverCrosses ps ∧ SimplePolygon ps := by
  intro f ps
  have hf : f.Sized := ⟨by norm_num [f], by norm_num [f]⟩
  have hss : f.ss = 100 := by norm_num [Frame.ss, Scalar.min_real, f]
  have ha2 : f.pinned "adj2" 33333 0 f.maxWidthRatio = 60000 := by
    have hmax : (60000 : ℝ) ≤ f.maxWidthRatio := by
      norm_num [maxWidthRatio_real hf, divOrZero_real, hss, f]
    exact pin_eq_self (show (0 : ℝ) ≤ 60000 by norm_num) hmax
  have ha1 : f.pinned "adj1" 33333 0 70000 = 40000 :=
    pin_eq_self (show (0 : ℝ) ≤ 40000 by norm_num) (show (40000 : ℝ) ≤ 70000 by norm_num)
  have hg : HalfFrame.ofFrame f = ⟨60, 40, 80, 30⟩ := by
    simp only [HalfFrame.ofFrame, Scalar.zero_real, ha2, divOrZero_real, Frame.shortPart_real, hss]
    norm_num [f, ha1]
  have hps : (HalfFrame.ofFrame f).corners f = ps := by
    rw [hg]
    norm_num [HalfFrame.corners, f, ps]
  obtain ⟨hsketch, hcovers, -, -, hall⟩ := halfFrame_consistent hf
  obtain ⟨-, hnever, hsimple⟩ := hall (by norm_num [f]) (by norm_num [f])
  rw [hps] at hsketch hcovers hnever hsimple
  rw [hg] at hsimple
  exact ⟨hf, hsketch, hcovers, hnever,
    hsimple (by norm_num) (by norm_num) (by norm_num [f])⟩

end
end ShapeOutline
