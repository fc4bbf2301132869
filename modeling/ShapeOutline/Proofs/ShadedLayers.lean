import ShapeOutline.Proofs.FlatRegions
import ShapeOutline.Proofs.ShadedArrow
import ShapeOutline.Proofs.ShadedBanner
import ShapeOutline.Proofs.ShadedIcons
import ShapeOutline.Proofs.ShadedRibbon
import ShapeOutline.Proofs.ShadedTwist

/-! The shading of the layered presets. It lies on the silhouette, unless a straight
ribbon has folds, a scroll has rolls, or the band of a curved arrow is thicker than
its bend is deep. -/

namespace ShapeOutline
noncomputable section

open Layered

variable {f : Frame ℝ} (hw : 0 < f.w) (hh : 0 < f.h)

/-- A sheet without a corner encloses its inside. -/
theorem cutSheet_subset_enclosed (r b size : ℝ) :
    Set.Icc 0 r ×ˢ Set.Icc 0 b ∩ halfPlane 1 1 (r + b - size) ⊆
      enclosed (Sketch.polygon [⟨0, 0⟩, ⟨r, 0⟩, ⟨r, b - size⟩, ⟨r - size, b⟩, ⟨0, b⟩]).trace := by
  have htrace :
      (Sketch.polygon [⟨0, 0⟩, ⟨r, 0⟩, ⟨r, b - size⟩, ⟨r - size, b⟩, ⟨0, b⟩] : Sketch ℝ).trace =
        segment ℝ (0, 0) (r, 0) ∪ (segment ℝ (r, 0) (r, b - size) ∪
          (segment ℝ (r, b - size) (r - size, b) ∪ (segment ℝ (r - size, b) (0, b) ∪
            (segment ℝ (0, b) (0, 0) ∪ segment ℝ (0, 0) (0, 0))))) := rfl
  have hcut : IsClosed (halfPlane 1 1 (r + b - size)) := by
    unfold halfPlane
    exact isClosed_le (by fun_prop) (by fun_prop)
  refine subset_enclosed_of_mem_nhds ?_ ((isClosed_Icc.prod isClosed_Icc).inter hcut) ?_
  · exact ((Metric.isBounded_Icc _ _).prod (Metric.isBounded_Icc _ _)).subset Set.inter_subset_left
  rintro p ⟨⟨⟨hx, hx'⟩, hy, hy'⟩, hcorner⟩ hp
  rw [htrace] at hp
  simp only [Set.mem_union, not_or] at hp
  obtain ⟨htop, hright, hslant, hbottom, hleft, -⟩ := hp
  rw [segment_symm] at hslant hbottom hleft
  rw [mem_halfPlane] at hcorner
  have hx0 : 0 ≠ p.1 := fun h => hleft (mem_segment_vertical hy hy' h.symm)
  have hx1 : p.1 ≠ r := fun h => hright (mem_segment_vertical hy (by linarith) h)
  have hy0 : 0 ≠ p.2 := fun h => htop (mem_segment_horizontal hx hx' h.symm)
  have hy1 : p.2 ≠ b := fun h => hbottom (mem_segment_horizontal hx (by linarith) h)
  have hcut' : 1 * p.1 + 1 * p.2 < r + b - size := by
    refine hcorner.lt_of_ne fun h => hslant ?_
    have hlt := hx'.lt_of_ne hx1
    have hlt' := hy'.lt_of_ne hy1
    have hline : p.2 - b = r - size - p.1 := by linarith
    refine mem_segment_slanted (by linarith) (by linarith) hx' ?_
    rw [hline]
    ring
  have hnear : ∀ᶠ q : Plane in nhds p, 1 * q.1 + 1 * q.2 < r + b - size :=
    ContinuousAt.eventually_lt (by fun_prop) (by fun_prop) hcut'
  exact Filter.inter_mem
    (prod_mem_nhds (Icc_mem_nhds (hx.lt_of_ne hx0) (hx'.lt_of_ne hx1))
      (Icc_mem_nhds (hy.lt_of_ne hy0) (hy'.lt_of_ne hy1)))
    (hnear.mono fun q hq => hq.le)

include hw hh

theorem foldedCorner_shades : ShadesWithin (foldedCorner f) := by
  set size := f.shortPart (f.pinned "adj" 16667 0 50000) with hsize
  obtain ⟨h0, hsw, hsh⟩ : 0 ≤ size ∧ size ≤ f.w * 50000 / 100000 ∧
      size ≤ f.h * 50000 / 100000 := by
    obtain ⟨h, h'⟩ := pin_mem (f.adjustment "adj" 16667) (show (0 : ℝ) ≤ 50000 by norm_num)
    exact Frame.shortPart_mem hw hh h h'
  have hfold : (Sketch.polygon [⟨f.w - size, f.h⟩, ⟨f.w - size + size / 5, f.h - size + size / 5⟩,
      ⟨f.w, f.h - size⟩]).trace ⊆ enclosed (Sketch.polygon [⟨0, 0⟩, ⟨f.w, 0⟩, ⟨f.w, f.h - size⟩,
        ⟨f.w - size, f.h⟩, ⟨0, f.h⟩]).trace := by
    refine Set.Subset.trans (polygon_trace_subset ?_ ?_)
      (cutSheet_subset_enclosed f.w f.h size)
    · exact ((convex_Icc _ _).prod (convex_Icc _ _)).inter (halfPlane_convex ..)
    · simp only [List.forall_mem_cons, List.not_mem_nil, IsEmpty.forall_iff, implies_true, and_true,
        Point.place_mk, Set.mem_inter_iff, Set.mem_prod, Set.mem_Icc, mem_halfPlane]
      refine ⟨⟨⟨⟨?_, ?_⟩, ?_, ?_⟩, ?_⟩, ⟨⟨⟨?_, ?_⟩, ?_, ?_⟩, ?_⟩, ⟨⟨?_, ?_⟩, ?_, ?_⟩, ?_⟩ <;>
        linarith
  simp only [foldedCorner, Scalar.zero_real, ← hsize]
  refine shadesWithin_of_body rfl ?_
  simp only [List.forall_mem_cons, List.not_mem_nil, IsEmpty.forall_iff, implies_true, and_true]
  exact ⟨⟨rfl, fun _ => hfold⟩, rfl, fun h => absurd h (stroke_not_filled _)⟩

theorem smileyFace_shades : ShadesWithin (smileyFace f) := by
  have hr : (⟨f.w / 2, f.h / 2⟩ : Point ℝ).Positive := ⟨half_pos hw, half_pos hh⟩
  have hface : {p | offEllipse ⟨f.w / 2, f.h / 2⟩ ⟨f.w / 2, f.h / 2⟩ p ≤ 0} ⊆
      enclosed (Sketch.ellipse 0 0 f.w f.h).trace := by
    refine ellipse_subset_enclosed hr ?_
    rw [ellipse_trace hw hh, zero_add, zero_add]
  have heye {n : ℝ} (hn : 6215 ≤ n ∧ n ≤ 15385) :
      (Sketch.ellipse (f.w * n / 21600 - f.w * 1125 / 21600)
        (f.h * 7570 / 21600 - f.h * 1125 / 21600) (2 * (f.w * 1125 / 21600))
        (2 * (f.h * 1125 / 21600))).trace ⊆ enclosed (Sketch.ellipse 0 0 f.w f.h).trace := by
    refine Set.Subset.trans (fun p hp => ?_) hface
    have hr' : (⟨2 * (f.w * 1125 / 21600) / 2, 2 * (f.h * 1125 / 21600) / 2⟩ : Point ℝ).Positive :=
      ⟨by positivity, by positivity⟩
    rw [ellipse_trace (by positivity) (by positivity)] at hp
    obtain ⟨hx, hy⟩ := abs_sub_le_of_offEllipse hr' (le_of_eq hp)
    rw [abs_le] at hx hy
    simp only at hx hy
    have hleft := mul_le_mul_of_nonneg_left hn.1 hw.le
    have hright := mul_le_mul_of_nonneg_left hn.2 hw.le
    -- an eye reaches 5710 parts across and 4355 parts up from the middle of the face
    have hx' : (p.1 - f.w / 2) ^ 2 ≤ (f.w * 5710 / 21600) ^ 2 :=
      sq_le_sq' (by linarith) (by linarith)
    have hy' : (p.2 - f.h / 2) ^ 2 ≤ (f.h * 4355 / 21600) ^ 2 :=
      sq_le_sq' (by linarith) (by linarith)
    have hxh := mul_le_mul_of_nonneg_left hx' (sq_nonneg (f.h / 2))
    have hyw := mul_le_mul_of_nonneg_left hy' (sq_nonneg (f.w / 2))
    have hwh := sq_nonneg (f.w * f.h)
    rw [Set.mem_ofPred_eq, offEllipse]
    simp only [mul_pow, div_pow] at *
    linarith
  simp only [smileyFace, Scalar.zero_real]
  refine shadesWithin_of_body rfl ?_
  simp only [List.forall_mem_cons, List.not_mem_nil, IsEmpty.forall_iff, implies_true, and_true]
  refine ⟨⟨rfl, fun _ => append_subset rfl rfl ?_ ?_⟩,
    ⟨rfl, fun h => absurd h (stroke_not_filled _)⟩, rfl, fun h => absurd h (stroke_not_filled _)⟩
  · exact heye (by norm_num)
  · exact heye (by norm_num)

omit hw hh

/-- The shadow in the lower roll. -/
def scrollFoot (h r : ℝ) : Sketch ℝ :=
  [.move ⟨2 * r, h - r⟩, .arc ⟨r, r⟩ 0 270, .arc ⟨r / 2, r / 2⟩ 270 180, .close]

theorem scroll_folds (f : Frame ℝ) (w h : ℝ) :
    (scrollBanner f w h).folds =
      scrollRoll (rollWidth f / 2) ++ scrollFoot h (rollWidth f / 2) := by
  have hwidth : f.shortPart (f.pinned "adj" 12500 0 25000) = rollWidth f := rfl
  have h2 : 2 * (rollWidth f / 2) = rollWidth f := by ring
  have h4 : 4 * (rollWidth f / 2) = rollWidth f + rollWidth f := by ring
  have hlip : rollWidth f / 2 / 2 = rollWidth f / 4 := by ring
  rw [scrollFoot, scrollRoll, h2, h4, hlip]
  simp [scrollBanner, hwidth]

section Rolls

variable {w h r : ℝ} (hr : 0 < r)

include hr

/-- The lower roll reaches the edge of the frame. -/
theorem mem_scrollFoot : ((0, h - r) : Plane) ∈ (scrollFoot h r).trace := by
  have hpos : (⟨r, r⟩ : Point ℝ).Positive := ⟨hr, hr⟩
  rw [scrollFoot, Sketch.trace_move,
    Trail.trace_arc_about ⟨r, h - r⟩ ⟨r, h - 2 * r⟩ hpos (by norm_num)
      (by norm_num) (by rw [spoke_zero hpos]; ext <;> simp; ring)
      (by norm_num [spoke_threeQuarters hpos]; ext <;> simp; ring)]
  refine .inl ⟨⟨0, h - r⟩, ⟨180, ?_, ?_⟩, rfl⟩
  · rw [Set.uIcc_of_le] <;> norm_num
  · rw [ellipsePoint_eq, spoke_half hpos]
    ext <;> simp

/-- The sheet keeps the radius of a roll away from it. -/
theorem scrollBody_subset (hw : 8 * r ≤ w) :
    Sketch.trace (scrollSheet w h r ++ scrollRoll r) ⊆ halfPlane (-1) 0 (-r) := by
  have hconvex := halfPlane_convex (-1) 0 (-r)
  have hcircle {deg sweep s : ℝ} {center : Point ℝ} (hs : 0 < s) (hc : r ≤ center.x - s) :
      Point.place '' arcCurve center ⟨s, s⟩ deg sweep ⊆ halfPlane (-1) 0 (-r) := by
    intro p hp
    have hpos : (⟨s, s⟩ : Point ℝ).Positive := ⟨hs, hs⟩
    have hx := (abs_le.1 (abs_sub_le_of_offEllipse hpos (offEllipse_of_mem_arc hpos hp).le).1).1
    simp only at hx
    rw [mem_halfPlane]
    linarith
  have hline {p q : Plane} (hp : r ≤ p.1) (hq : r ≤ q.1) :
      segment ℝ p q ⊆ halfPlane (-1) 0 (-r) := by
    refine hconvex.segment_subset ?_ ?_ <;> rw [mem_halfPlane] <;> linarith
  have hcorner : Point.place '' arcCurve ⟨r, h - r⟩ ⟨r, r⟩ 0 90 ⊆ halfPlane (-1) 0 (-r) := by
    intro p hp
    have hside := ((mem_circle_quarter hr 0).1 hp).2.2
    rw [bearing_zero] at hside
    simp only at hside
    rw [mem_halfPlane]
    linarith
  rw [Sketch.trace_append_of_opens rfl rfl, scrollSheet_trace hr, scrollRoll_trace hr]
  simp only [Set.union_subset_iff]
  refine ⟨⟨hcorner, hline ?_ ?_, hcircle hr ?_, hline ?_ ?_, hcircle hr ?_, hline ?_ ?_,
    hline ?_ ?_, hcircle hr ?_, hline ?_ ?_, hline ?_ ?_⟩, hcircle hr ?_, hcircle (half_pos hr) ?_,
    hline ?_ ?_, hline ?_ ?_⟩ <;> simp only <;> linarith

end Rolls

/-- A scroll, whichever way it is turned. -/
theorem scrollBanner_shades_iff {w : ℝ} (hw : 0 < f.w) (hh : 0 < f.h) (hws : f.ss ≤ w) (h : ℝ)
    (t : Reflection ℝ) :
    ShadesWithin ((scrollBanner f w h).layers t) ↔ rollWidth f = 0 := by
  obtain ⟨hnonneg, hle⟩ := rollWidth_mem hw hh
  rw [banner_shades_iff, scroll_folds, scroll_body]
  constructor
  · intro hsub
    by_contra hne
    have hr : 0 < rollWidth f / 2 := half_pos (hnonneg.lt_of_ne' hne)
    have hmem : ((0, h - rollWidth f / 2) : Plane) ∈
        Sketch.trace (scrollRoll (rollWidth f / 2) ++ scrollFoot h (rollWidth f / 2)) := by
      rw [Sketch.trace_append_of_opens rfl rfl]
      exact .inr (mem_scrollFoot hr)
    have hout := enclosed_subset_halfPlane (by norm_num) (scrollBody_subset hr (h := h)
      (show 8 * (rollWidth f / 2) ≤ w by linarith)) (hsub hmem)
    rw [mem_halfPlane] at hout
    simp only at hout
    linarith
  · intro hzero
    have hflat := not_positive_zero
    have hflat' : ¬(⟨0 / 2, 0 / 2⟩ : Point ℝ).Positive := by simpa using hflat
    rw [hzero, zero_div, Sketch.trace_append_of_opens rfl rfl,
      Sketch.trace_append_of_opens rfl rfl, scrollSheet_trace_zero, scrollRoll_trace_zero,
      scrollFoot, Sketch.trace_move, Trail.trace_arc_of_not_positive _ _ _ hflat,
      Trail.trace_arc_of_not_positive _ _ _ hflat', Trail.trace_close, Trail.trace_nil]
    simp only [Point.place_mk, mul_zero, sub_zero, segment_same, Set.union_self]
    refine Set.Subset.trans (Set.union_subset ?_ ?_) (subset_enclosed _)
    · exact Set.subset_union_right
    · exact Set.singleton_subset_iff.2 (.inl (.inl (left_mem_segment ..)))

theorem layers_open (p : LayeredPreset) (f : Frame ℝ) :
    ∀ l ∈ p.layers f, l.sketch.opens = true := by
  rw [← List.all_eq_true]
  cases p <;> rfl

/-- When the shading of a preset does not stick out. -/
def LayeredPreset.KeepsShades (f : Frame ℝ) : LayeredPreset → Prop
  | ribbon | ribbon2 =>
    f.pinned "adj1" 16667 0 33333 = 0 ∨ f.pinned "adj2" 50000 25000 75000 = 25000
  | leftRightRibbon => twist f = 0 ∨ headDepth f = f.w / 2 - f.w / 32 ∧
      f.h * twist f / 100000 ≤ stripTop f + f.shortPart (twist f) / 4
  | verticalScroll | horizontalScroll => rollWidth f = 0
  | curvedRightArrow => (arrowGuides .right f).thickness ≤ (arrowGuides .right f).headStart
  | curvedLeftArrow => (arrowGuides .left f).thickness ≤ (arrowGuides .left f).headStart
  | curvedUpArrow => (arrowGuides .up f).thickness ≤ (arrowGuides .up f).headStart
  | curvedDownArrow => (arrowGuides .down f).thickness ≤ (arrowGuides .down f).headStart
  | _ => True

theorem shadesWithin_iff (p : LayeredPreset) {f : Frame ℝ} (hw : 0 < f.w) (hh : 0 < f.h) :
    ShadesWithin (p.layers f) ↔ p.KeepsShades f := by
  have hsw := f.ss_le_w
  have hsh := f.ss_le_h
  cases p with
  | ribbon => exact ribbonBanner_shades_iff hw hh .identity
  | ribbon2 => exact ribbonBanner_shades_iff hw hh (.upsideDown f.h)
  | leftRightRibbon => exact leftRightRibbon_shades_iff hw hh
  | verticalScroll => exact scrollBanner_shades_iff hw hh hsw _ .identity
  | horizontalScroll => exact scrollBanner_shades_iff hw hh hsh _ .transpose
  | curvedRightArrow => exact curvedArrow_shades_iff .right hw hh
  | curvedLeftArrow => exact curvedArrow_shades_iff .left hw hh
  | curvedUpArrow => exact curvedArrow_shades_iff .up hw hh
  | curvedDownArrow => exact curvedArrow_shades_iff .down hw hh
  | foldedCorner => exact iff_of_true (foldedCorner_shades hw hh) trivial
  | smileyFace => exact iff_of_true (smileyFace_shades hw hh) trivial
  | ellipseRibbon => exact iff_of_true (archedBanner_shades hw hh _) trivial
  | ellipseRibbon2 => exact iff_of_true (archedBanner_shades hw hh _) trivial
  | actionButtonHome => exact iff_of_true (actionButton_shades homeIcon_keeps hw hh) trivial
  | actionButtonHelp => exact iff_of_true (actionButton_shades helpIcon_keeps hw hh) trivial
  | actionButtonInformation =>
    exact iff_of_true (actionButton_shades informationIcon_keeps hw hh) trivial
  | actionButtonBackPrevious => exact iff_of_true (actionButton_shades backIcon_keeps hw hh) trivial
  | actionButtonForwardNext =>
    exact iff_of_true (actionButton_shades forwardIcon_keeps hw hh) trivial
  | actionButtonBeginning =>
    exact iff_of_true (actionButton_shades beginningIcon_keeps hw hh) trivial
  | actionButtonEnd => exact iff_of_true (actionButton_shades endIcon_keeps hw hh) trivial
  | actionButtonReturn => exact iff_of_true (actionButton_shades returnIcon_keeps hw hh) trivial
  | actionButtonDocument => exact iff_of_true (actionButton_shades documentIcon_keeps hw hh) trivial
  | actionButtonSound => exact iff_of_true (actionButton_shades soundIcon_keeps hw hh) trivial
  | actionButtonMovie => exact iff_of_true (actionButton_shades movieIcon_keeps hw hh) trivial
  | _ => exact iff_of_true (shadesWithin_of_none rfl) trivial

/-- The shading lies on the silhouette exactly where it does not stick out. Then it keeps within
the box of the silhouette layers before it, and the flattened shape covers whatever is painted. -/
theorem shading_within_silhouette (p : LayeredPreset) {f : Frame ℝ} (hw : 0 < f.w) (hh : 0 < f.h) :
    (ShadesWithin (p.layers f) ↔ p.KeepsShades f) ∧
      (p.KeepsShades f →
        (∀ before l after, p.layers f = before ++ l :: after → l.mode.isFilled = true →
          l.silhouette = false → ∀ lo hi, (Layer.flatten before).trace ⊆ Set.Icc lo hi →
            l.sketch.trace ⊆ Set.Icc lo hi) ∧
        ∀ l ∈ p.layers f, l.mode.isFilled = true →
          enclosed l.sketch.trace ⊆ enclosed (Layer.flatten (p.layers f)).trace) := by
  have hiff := shadesWithin_iff p hw hh
  refine ⟨hiff, fun hkeeps => ?_⟩
  have hshades := hiff.2 hkeeps
  constructor
  · intro before l after hls hfilled hs lo hi hbox
    exact (hshades before l after hls hfilled hs).trans (enclosed_subset_box hbox)
  · intro l hl hfilled
    exact hshades.enclosed_subset (layers_open p f) hl hfilled

theorem foldedCorner_covers :
    (0 < squareFrame.w ∧ 0 < squareFrame.h) ∧
      ShadesWithin (LayeredPreset.foldedCorner.layers squareFrame) ∧
      ∀ l ∈ LayeredPreset.foldedCorner.layers squareFrame, l.mode.isFilled = true →
        enclosed l.sketch.trace ⊆
          enclosed (Layer.flatten (LayeredPreset.foldedCorner.layers squareFrame)).trace := by
  have hw : 0 < squareFrame.w := by simp
  have hh : 0 < squareFrame.h := by simp
  obtain ⟨hiff, hcovers⟩ := shading_within_silhouette .foldedCorner hw hh
  exact ⟨⟨hw, hh⟩, hiff.2 trivial, (hcovers trivial).2⟩

/-- The lower roll of a scroll in a frame of 16 by 16 sticks out of the sheet. -/
theorem scroll_shading_sticks_out :
    ¬ShadesWithin (LayeredPreset.verticalScroll.layers squareFrame) := by
  change ¬ShadesWithin ((scrollBanner squareFrame _ _).layers .identity)
  rw [scrollBanner_shades_iff (by simp) (by simp) (by simp), rollWidth_squareFrame]
  exact two_ne_zero

end
end ShapeOutline
