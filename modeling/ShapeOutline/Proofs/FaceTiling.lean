import ShapeOutline.Proofs.Subpaths
import ShapeOutline.Proofs.Trapezium

/-! The faces of a cube and of a bevel. They are trapezia, each traced once clockwise, that
share no more than their sides, and together they are the hexagon around the cube and the
frame of the bevel. -/

namespace ShapeOutline
noncomputable section

open Layered MeasureTheory

/-- A sketch goes clockwise, once around what it encloses. -/
def Clockwise (s : Sketch ℝ) : Prop :=
  0 ≤ s.sweptArea ∧ volume (enclosed s.trace) = ENNReal.ofReal s.sweptArea

/-- Clockwise faces without an inner point in common make up a region, and their areas its area. -/
structure Tiles (faces : List (Sketch ℝ)) (region : Set Plane) : Prop where
  clockwise : ∀ s ∈ faces, Clockwise s
  apart : faces.Pairwise Apart
  covers : ⋃ s ∈ faces, enclosed s.trace = region
  areas : (faces.map fun s => volume (enclosed s.trace)).sum = volume region

/-- The parts of the silhouette, in paint order. -/
def Layer.silhouettes (ls : List (Layer ℝ)) : List (Sketch ℝ) :=
  (ls.filter Layer.silhouette).map Layer.sketch

/-- Convex regions with no inner point in common meet in a border. -/
theorem volume_inter_of_apart {A B : Set Plane} (hA : Convex ℝ A) (hB : Convex ℝ B)
    (h : Disjoint (interior A) (interior B)) : volume (A ∩ B) = 0 := by
  have hempty : interior (A ∩ B) = ∅ := by
    rw [interior_inter]
    exact h.inter_eq
  have hborder : A ∩ B ⊆ frontier (A ∩ B) := by
    rw [frontier, hempty, Set.sdiff_empty]
    exact subset_closure
  exact measure_mono_null hborder ((hA.inter hB).addHaar_frontier volume)

theorem union_cons (s : Sketch ℝ) (faces : List (Sketch ℝ)) :
    ⋃ t ∈ s :: faces, enclosed t.trace = enclosed s.trace ∪ ⋃ t ∈ faces, enclosed t.trace := by
  simp [Set.iUnion_or, Set.iUnion_union_distrib]

/-- The areas of convex faces add up. -/
theorem volume_faces (faces : List (Sketch ℝ)) (hapart : faces.Pairwise Apart)
    (hconvex : ∀ s ∈ faces, Convex ℝ (enclosed s.trace)) :
    (faces.map fun s => volume (enclosed s.trace)).sum =
      volume (⋃ s ∈ faces, enclosed s.trace) := by
  induction faces with
  | nil => simp
  | cons s faces ih =>
    rw [List.pairwise_cons] at hapart
    rw [List.forall_mem_cons] at hconvex
    obtain ⟨hs, hrest⟩ := hconvex
    have hmeasurable : NullMeasurableSet (⋃ t ∈ faces, enclosed t.trace) :=
      .biUnion faces.finite_toSet.countable fun t ht => (hrest t ht).nullMeasurableSet volume
    have hnull : AEDisjoint volume (enclosed s.trace) (⋃ t ∈ faces, enclosed t.trace) := by
      rw [AEDisjoint, Set.inter_iUnion₂]
      refine (measure_biUnion_null_iff faces.finite_toSet.countable).2 fun t ht => ?_
      exact volume_inter_of_apart hs (hrest t ht) (hapart.1 t ht)
    rw [List.map_cons, List.sum_cons, ih hapart.2 hrest, union_cons,
      measure_union₀ hmeasurable hnull]

theorem tiles_of_faces {faces : List (Sketch ℝ)} {region : Set Plane}
    (hfaces : ∀ s ∈ faces, ∃ R, Face s R) (hapart : faces.Pairwise Apart)
    (hcovers : ⋃ s ∈ faces, enclosed s.trace = region) : Tiles faces region := by
  refine ⟨fun s hs => ?_, hapart, hcovers, ?_⟩
  · obtain ⟨R, hR⟩ := hfaces s hs
    exact ⟨hR.swept_nonneg, hR.enclosed_eq ▸ hR.volume_eq⟩
  · rw [← hcovers]
    refine volume_faces faces hapart fun s hs => ?_
    obtain ⟨R, hR⟩ := hfaces s hs
    exact hR.enclosed_eq ▸ hR.convex

theorem rect_face (x y : ℝ) {w h : ℝ} (hw : 0 ≤ w) (hh : 0 ≤ h) : Face (.rect x y w h)
    {p | (x ≤ p.1 ∧ p.1 ≤ x + w) ∧ y ≤ p.2 ∧ p.2 ≤ y + h} :=
  trapezium_face (fun _ => y) (fun _ => y + h) 0 0 (by linarith) (by linarith) (by linarith)
    (by ring) (by ring) (fun z => by ring) (fun z => by ring)

section Cube

variable {w h y : ℝ}

theorem side_face (hy : 0 ≤ y) (hyh : y ≤ h) :
    Face (.polygon [⟨w - y, h⟩, ⟨w - y, y⟩, ⟨w, 0⟩, ⟨w, h - y⟩])
      {p | (w - y ≤ p.1 ∧ p.1 ≤ w) ∧ w - p.1 ≤ p.2 ∧ p.2 ≤ w + h - y - p.1} :=
  (trapezium_face (fun z => w - z) (fun z => w + h - y - z) (-1) (-1)
    (by linarith) (by linarith) (by linarith) (by ring) (by ring) (fun z => by ring)
    (fun z => by ring)).rotate.rotate.rotate

theorem top_face (hy : 0 ≤ y) (hyw : y ≤ w) :
    Face (.polygon [⟨0, y⟩, ⟨y, 0⟩, ⟨w, 0⟩, ⟨w - y, y⟩])
      {p | (0 ≤ p.2 ∧ p.2 ≤ y) ∧ y - p.2 ≤ p.1 ∧ p.1 ≤ w - p.2} :=
  (trapezium_face (fun z => y - z) (fun z => w - z) (-1) (-1)
    (by linarith) (by linarith) (by linarith) (by ring) (by ring) (fun z => by ring)
    (fun z => by ring)).transpose.rotate.rotate

/-- The corners of the outline around a cube. -/
def cubeCorners (w h y : ℝ) : List (Point ℝ) :=
  [⟨0, y⟩, ⟨y, 0⟩, ⟨w, 0⟩, ⟨w, h - y⟩, ⟨w - y, h⟩, ⟨0, h⟩]

/-- The lines along the six sides of the outline. -/
def cubeLines (w h y : ℝ) : List (ℝ × ℝ × ℝ) :=
  [(-1, 0, 0), (1, 0, w), (0, -1, 0), (0, 1, h), (-1, -1, -y), (1, 1, w + h - y)]

theorem mem_cubeLines {p : Plane} : p ∈ halfPlanes (cubeLines w h y) ↔
    (0 ≤ p.1 ∧ p.1 ≤ w) ∧ (0 ≤ p.2 ∧ p.2 ≤ h) ∧ y ≤ p.1 + p.2 ∧ p.1 + p.2 ≤ w + h - y := by
  simp only [halfPlanes, cubeLines, List.forall_mem_cons, List.not_mem_nil, IsEmpty.forall_iff,
    implies_true, and_true, Set.mem_ofPred_eq, mem_halfPlane]
  constructor
  · rintro ⟨h1, h2, h3, h4, h5, h6⟩
    refine ⟨⟨?_, ?_⟩, ⟨?_, ?_⟩, ?_, ?_⟩ <;> linarith
  · rintro ⟨⟨h1, h2⟩, ⟨h3, h4⟩, h5, h6⟩
    refine ⟨?_, ?_, ?_, ?_, ?_, ?_⟩ <;> linarith

theorem cubeCorners_trace (w h y : ℝ) : (Sketch.polygon (cubeCorners w h y)).trace =
    segment ℝ (0, y) (y, 0) ∪ (segment ℝ (y, 0) (w, 0) ∪ (segment ℝ (w, 0) (w, h - y) ∪
      (segment ℝ (w, h - y) (w - y, h) ∪ (segment ℝ (w - y, h) (0, h) ∪
        (segment ℝ (0, h) (0, y) ∪ segment ℝ (0, y) (0, y)))))) := rfl

variable (hy : 0 ≤ y) (hyw : y ≤ w) (hyh : y ≤ h)

/-- The outline runs along all of the border of its inside. -/
theorem mem_trace_of_cubeLine : ∀ l ∈ cubeLines w h y, ∀ p ∈ halfPlanes (cubeLines w h y),
    l.1 * p.1 + l.2.1 * p.2 = l.2.2 → p ∈ (Sketch.polygon (cubeCorners w h y)).trace := by
  rw [cubeCorners_trace, segment_symm ℝ (w, h - y), segment_symm ℝ (w - y, h) (0, h),
    segment_symm ℝ (0, h) (0, y)]
  simp only [cubeLines, List.forall_mem_cons, List.not_mem_nil, IsEmpty.forall_iff, implies_true,
    and_true]
  refine ⟨?_, ?_, ?_, ?_, ?_, ?_⟩ <;> intro p hp heq <;>
    obtain ⟨⟨h1, h2⟩, ⟨h3, h4⟩, h5, h6⟩ := mem_cubeLines.1 hp
  · exact .inr (.inr (.inr (.inr (.inr (.inl
      (mem_segment_vertical (by linarith) (by linarith) (by linarith)))))))
  · exact .inr (.inr (.inl (mem_segment_vertical (by linarith) (by linarith) (by linarith))))
  · exact .inr (.inl (mem_segment_horizontal (by linarith) (by linarith) (by linarith)))
  · exact .inr (.inr (.inr (.inr (.inl
      (mem_segment_horizontal (by linarith) (by linarith) (by linarith))))))
  · exact .inl (mem_segment_sloped (by linarith) (by linarith) (m := -1) (by ring) (by linarith))
  · exact .inr (.inr (.inr (.inl
      (mem_segment_sloped (by linarith) (by linarith) (m := -1) (by ring) (by linarith)))))

include hy hyw hyh

theorem cubeCorners_within :
    (Sketch.polygon (cubeCorners w h y)).trace ⊆ halfPlanes (cubeLines w h y) := by
  refine polygon_trace_subset (halfPlanes_convex _) ?_
  simp only [cubeCorners, List.forall_mem_cons, List.not_mem_nil, IsEmpty.forall_iff,
    implies_true, and_true, Point.place_mk, mem_cubeLines]
  refine ⟨?_, ?_, ?_, ?_, ?_, ?_⟩ <;> refine ⟨⟨?_, ?_⟩, ⟨?_, ?_⟩, ?_, ?_⟩ <;> linarith

theorem cube_enclosed :
    enclosed (Sketch.polygon (cubeCorners w h y)).trace = halfPlanes (cubeLines w h y) := by
  have htrace := cubeCorners_within hy hyw hyh
  have hbounded : Bornology.IsBounded (halfPlanes (cubeLines w h y)) := by
    refine ((Metric.isBounded_Icc 0 w).prod (Metric.isBounded_Icc 0 h)).subset fun p hp => ?_
    obtain ⟨hx, hy, -⟩ := mem_cubeLines.1 hp
    exact ⟨hx, hy⟩
  have hcorner : (0, y) ∈ (Sketch.polygon (cubeCorners w h y)).trace := by
    rw [cubeCorners_trace]
    exact .inl (left_mem_segment ..)
  exact enclosed_eq_halfPlanes hbounded htrace ⟨_, htrace hcorner⟩ mem_trace_of_cubeLine

theorem cubeFaces_cover :
    ⋃ s ∈ cubeFaces w h y, enclosed s.trace = halfPlanes (cubeLines w h y) := by
  have hfront := (rect_face 0 y (sub_nonneg.2 hyw) (sub_nonneg.2 hyh)).enclosed_eq
  rw [cubeFaces, union_cons, union_cons, union_cons, hfront, (side_face hy hyh).enclosed_eq,
    (top_face hy hyw).enclosed_eq]
  ext p
  simp only [Set.mem_union, Set.mem_ofPred_eq, mem_cubeLines, List.not_mem_nil, Set.iUnion_of_empty,
    Set.iUnion_empty, Set.mem_empty_iff_false, or_false]
  constructor
  · rintro (⟨⟨h1, h2⟩, h3, h4⟩ | ⟨⟨h1, h2⟩, h3, h4⟩ | ⟨⟨h1, h2⟩, h3, h4⟩) <;>
      refine ⟨⟨?_, ?_⟩, ⟨?_, ?_⟩, ?_, ?_⟩ <;> linarith
  · rintro ⟨⟨h1, h2⟩, ⟨h3, h4⟩, h5, h6⟩
    rcases le_total (p.1 + p.2) w with hw | hw
    · rcases le_total p.2 y with hp | hp
      · exact .inr (.inr ⟨⟨h3, hp⟩, by linarith, by linarith⟩)
      · exact .inl ⟨⟨h1, by linarith⟩, hp, by linarith⟩
    · rcases le_total p.1 (w - y) with hp | hp
      · exact .inl ⟨⟨h1, by linarith⟩, by linarith, by linarith⟩
      · exact .inr (.inl ⟨⟨hp, h2⟩, by linarith, by linarith⟩)

theorem cubeFaces_tile :
    Tiles (cubeFaces w h y) (enclosed (Sketch.polygon (cubeCorners w h y)).trace) := by
  rw [cube_enclosed hy hyw hyh]
  refine tiles_of_faces ?_ (cubeFaces_apart hy hyw hyh) (cubeFaces_cover hy hyw hyh)
  simp only [cubeFaces, List.forall_mem_cons, List.not_mem_nil, IsEmpty.forall_iff, implies_true,
    and_true]
  exact ⟨⟨_, rect_face 0 y (sub_nonneg.2 hyw) (sub_nonneg.2 hyh)⟩, ⟨_, side_face hy hyh⟩,
    ⟨_, top_face hy hyw⟩⟩

end Cube

section Bevel

variable {w h x : ℝ}

theorem upper_face (hx : 0 ≤ x) (hxw : x ≤ w - x) :
    Face (.polygon [⟨0, 0⟩, ⟨w, 0⟩, ⟨w - x, x⟩, ⟨x, x⟩])
      {p | (0 ≤ p.2 ∧ p.2 ≤ x) ∧ p.2 ≤ p.1 ∧ p.1 ≤ w - p.2} :=
  (trapezium_face (fun z => z) (fun z => w - z) 1 (-1)
    (by linarith) (by linarith) (by linarith) (by ring) (by ring) (fun z => by ring)
    (fun z => by ring)).transpose.rotate.rotate.rotate

theorem lower_face (hx : 0 ≤ x) (hxw : x ≤ w - x) :
    Face (.polygon [⟨0, h⟩, ⟨x, h - x⟩, ⟨w - x, h - x⟩, ⟨w, h⟩])
      {p | (h - x ≤ p.2 ∧ p.2 ≤ h) ∧ h - p.2 ≤ p.1 ∧ p.1 ≤ w - (h - p.2)} :=
  (trapezium_face (fun z => h - z) (fun z => w - (h - z)) (-1) 1
    (by linarith) (by linarith) (by linarith) (by ring) (by ring) (fun z => by ring)
    (fun z => by ring)).transpose.rotate.rotate

theorem left_face (hx : 0 ≤ x) (hxh : x ≤ h - x) :
    Face (.polygon [⟨0, 0⟩, ⟨x, x⟩, ⟨x, h - x⟩, ⟨0, h⟩])
      {p | (0 ≤ p.1 ∧ p.1 ≤ x) ∧ p.1 ≤ p.2 ∧ p.2 ≤ h - p.1} :=
  (trapezium_face (fun z => z) (fun z => h - z) 1 (-1)
    (by linarith) (by linarith) (by linarith) (by ring) (by ring) (fun z => by ring)
    (fun z => by ring))

theorem right_face (hx : 0 ≤ x) (hxh : x ≤ h - x) :
    Face (.polygon [⟨w, 0⟩, ⟨w, h⟩, ⟨w - x, h - x⟩, ⟨w - x, x⟩])
      {p | (w - x ≤ p.1 ∧ p.1 ≤ w) ∧ w - p.1 ≤ p.2 ∧ p.2 ≤ h - (w - p.1)} :=
  (trapezium_face (fun z => w - z) (fun z => h - (w - z)) (-1) 1
    (by linarith) (by linarith) (by linarith) (by ring) (by ring) (fun z => by ring)
    (fun z => by ring)).rotate

variable (hx : 0 ≤ x) (hxw : x ≤ w - x) (hxh : x ≤ h - x)

include hx hxw hxh

theorem bevelFaces_cover :
    ⋃ s ∈ bevelFaces w h x, enclosed s.trace = Set.Icc 0 w ×ˢ Set.Icc 0 h := by
  have hface := (rect_face x x (sub_nonneg.2 hxw) (sub_nonneg.2 hxh)).enclosed_eq
  rw [bevelFaces, union_cons, union_cons, union_cons, union_cons, union_cons, hface,
    (upper_face hx hxw).enclosed_eq, (lower_face hx hxw).enclosed_eq,
    (left_face hx hxh).enclosed_eq, (right_face hx hxh).enclosed_eq]
  ext p
  simp only [Set.mem_union, Set.mem_ofPred_eq, List.not_mem_nil, Set.iUnion_of_empty,
    Set.iUnion_empty, Set.mem_empty_iff_false, or_false, Set.mem_prod, Set.mem_Icc]
  constructor
  · rintro (⟨⟨h1, h2⟩, h3, h4⟩ | ⟨⟨h1, h2⟩, h3, h4⟩ | ⟨⟨h1, h2⟩, h3, h4⟩ | ⟨⟨h1, h2⟩, h3, h4⟩ |
      ⟨⟨h1, h2⟩, h3, h4⟩) <;> refine ⟨⟨?_, ?_⟩, ?_, ?_⟩ <;> linarith
  · -- beyond the face the nearest side of the frame tells the slope
    rintro ⟨⟨h1, h2⟩, h3, h4⟩
    grind

theorem bevelFaces_tile : Tiles (bevelFaces w h x) (Set.Icc 0 w ×ˢ Set.Icc 0 h) := by
  refine tiles_of_faces ?_ (bevelFaces_apart hx hxw hxh) (bevelFaces_cover hx hxw hxh)
  simp only [bevelFaces, List.forall_mem_cons, List.not_mem_nil, IsEmpty.forall_iff, implies_true,
    and_true]
  exact ⟨⟨_, rect_face x x (sub_nonneg.2 hxw) (sub_nonneg.2 hxh)⟩, ⟨_, upper_face hx hxw⟩,
    ⟨_, lower_face hx hxw⟩, ⟨_, left_face hx hxh⟩, ⟨_, right_face hx hxh⟩⟩

end Bevel

section Solids

variable {f : Frame ℝ} (hf : f.Sized)

/-- How deep a cube is. -/
def cubeDepth (f : Frame ℝ) : ℝ := f.shortPart (f.pinned "adj" 25000 0 100000)

/-- How wide the slopes of a bevel are. -/
def bevelWidth (f : Frame ℝ) : ℝ := f.shortPart (f.pinned "adj" 12500 0 50000)

include hf

theorem cubeDepth_mem : 0 ≤ cubeDepth f ∧ cubeDepth f ≤ f.ss := by
  obtain ⟨hlo, hhi⟩ := f.pinned_mem "adj" 25000 (show (0 : ℝ) ≤ 100000 by norm_num)
  have hle := hf.shortPart_le hhi
  rw [f.shortPart_real 100000, mul_div_cancel_right₀ _ (by norm_num)] at hle
  exact ⟨hf.shortPart_nonneg hlo, hle⟩

theorem bevelWidth_mem : 0 ≤ bevelWidth f ∧ 2 * bevelWidth f ≤ f.ss := by
  obtain ⟨hlo, hhi⟩ := f.pinned_mem "adj" 12500 (show (0 : ℝ) ≤ 50000 by norm_num)
  have hle := hf.shortPart_le hhi
  rw [f.shortPart_real 50000] at hle
  refine ⟨hf.shortPart_nonneg hlo, ?_⟩
  rw [bevelWidth]
  linarith

omit hf in
theorem cube_silhouettes : Layer.silhouettes (cube f) = cubeFaces f.w f.h (cubeDepth f) := by
  simp [Layer.silhouettes, cube, cubeFaces, cubeDepth, Layer.fill, Layer.stroke]

omit hf in
theorem bevel_silhouettes : Layer.silhouettes (bevel f) = bevelFaces f.w f.h (bevelWidth f) := by
  simp [Layer.silhouettes, bevel, bevelFaces, bevelWidth, Layer.fill, Layer.stroke]

omit hf in
/-- The line work of a cube begins with the outline around it. -/
theorem cube_outline : ∃ l ∈ cube f, l.stroked = true ∧
    l.sketch.subpaths.head? = some (.polygon (cubeCorners f.w f.h (cubeDepth f))) := by
  refine ⟨_, List.mem_of_getLast? rfl, rfl, ?_⟩
  simp [Layer.stroke, cubeCorners, cubeDepth, Sketch.subpaths, List.splitBy, List.splitBy.loop,
    Sketch.polygon, Sketch.lines, Stroke.isMove]

end Solids

/-- The faces of a cube tile the hexagon that its line work begins with, and the faces of a bevel
its frame. -/
theorem solidFaces_tile {f : Frame ℝ} (hf : f.Sized) :
    (∃ corners, (∃ l ∈ cube f, l.stroked = true ∧
        l.sketch.subpaths.head? = some (.polygon corners)) ∧
      corners.length = 6 ∧ (Layer.silhouettes (cube f)).length = 3 ∧
      Tiles (Layer.silhouettes (cube f)) (enclosed (Sketch.polygon corners).trace)) ∧
    (Layer.silhouettes (bevel f)).length = 5 ∧ Tiles (Layer.silhouettes (bevel f)) f.rect := by
  obtain ⟨hy, hyss⟩ := cubeDepth_mem hf
  obtain ⟨hx, hxss⟩ := bevelWidth_mem hf
  have hw := f.ss_le_w
  have hh := f.ss_le_h
  rw [cube_silhouettes, bevel_silhouettes]
  exact ⟨⟨cubeCorners f.w f.h (cubeDepth f), cube_outline, rfl, rfl,
    cubeFaces_tile hy (hyss.trans hw) (hyss.trans hh)⟩, rfl,
    bevelFaces_tile hx (by linarith) (by linarith)⟩

/-- With slopes as wide as they can be in a frame three times as wide as high. -/
theorem wideSolid_tiles :
    let f : Frame ℝ := ⟨120, 40, ⟨[("adj", 60000)]⟩⟩
    f.Sized ∧ (∃ corners, (∃ l ∈ cube f, l.stroked = true ∧
        l.sketch.subpaths.head? = some (.polygon corners)) ∧
      corners.length = 6 ∧ (Layer.silhouettes (cube f)).length = 3 ∧
      Tiles (Layer.silhouettes (cube f)) (enclosed (Sketch.polygon corners).trace)) ∧
    (Layer.silhouettes (bevel f)).length = 5 ∧ Tiles (Layer.silhouettes (bevel f)) f.rect := by
  intro f
  have hf : f.Sized := ⟨by norm_num [f], by norm_num [f]⟩
  exact ⟨hf, solidFaces_tile hf⟩

end
end ShapeOutline
