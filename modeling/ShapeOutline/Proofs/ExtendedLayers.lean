import ShapeOutline.Proofs.ExtendedPolygons
import ShapeOutline.Proofs.ScaledLayers

/-! The layered shapes leave no operation's domain. The arch of a ribbon is flat
where the frame has no width to divide by. -/

namespace ShapeOutline.Layered
noncomputable section

open Extended Shape

variable (f : Frame ℝ)

theorem cube_extend : cube (extend f) = extend (cube f) := by simp [cube]

theorem can_extend : can (extend f) = extend (can f) := by simp [can]

theorem bevel_extend : bevel (extend f) = extend (bevel f) := by simp [bevel]

theorem foldedCorner_extend : foldedCorner (extend f) = extend (foldedCorner f) := by
  simp [foldedCorner]

theorem smileyFace_extend : smileyFace (extend f) = extend (smileyFace f) := by simp [smileyFace]

@[simps] instance Banner.extended : Extend (Banner ℝ) (Banner Extended) where
  extend b := ⟨extend b.body, extend b.folds, extend b.outline⟩

@[simp] theorem Banner.extend_layers (t : Reflection ℝ) (b : Banner ℝ) :
    extend (b.layers t) = (extend b).layers (extend t) := by
  simp [layers]

@[simps] instance RibbonGuides.extended : Extend (RibbonGuides ℝ) (RibbonGuides Extended) where
  extend g :=
    { notch := extend g.notch, curl := extend g.curl, x2 := extend g.x2, x3 := extend g.x3
      x4 := extend g.x4, x5 := extend g.x5, x6 := extend g.x6, x7 := extend g.x7
      x8 := extend g.x8, x9 := extend g.x9, x10 := extend g.x10, y1 := extend g.y1
      y2 := extend g.y2, y3 := extend g.y3, y4 := extend g.y4, y5 := extend g.y5
      y6 := extend g.y6 }

@[simp] theorem RibbonGuides.ofFrame_extend : ofFrame (extend f) = extend (ofFrame f) := by
  ext <;> simp [ofFrame]

@[simp] theorem ribbonBody_extend (g : RibbonGuides ℝ) :
    ribbonBody (extend f) (extend g) = extend (ribbonBody f g) := by
  simp [ribbonBody]

@[simp] theorem ribbonBanner_extend : ribbonBanner (extend f) = extend (ribbonBanner f) := by
  ext1 <;> simp [ribbonBanner]

theorem ribbon_extend : ribbon (extend f) = extend (ribbon f) := by simp [ribbon]

theorem ribbon2_extend : ribbon2 (extend f) = extend (ribbon2 f) := by simp [ribbon2]

@[simp] theorem twistedBanner_extend : twistedBanner (extend f) = extend (twistedBanner f) := by
  ext1 <;> simp [twistedBanner]

theorem leftRightRibbon_extend : leftRightRibbon (extend f) = extend (leftRightRibbon f) := by
  simp [leftRightRibbon]

@[simp] theorem scrollBanner_extend (w h : ℝ) :
    scrollBanner (extend f) (extend w) (extend h) = extend (scrollBanner f w h) := by
  ext1 <;> simp [scrollBanner]

theorem verticalScroll_extend : verticalScroll (extend f) = extend (verticalScroll f) := by
  simp [verticalScroll]

theorem horizontalScroll_extend : horizontalScroll (extend f) = extend (horizontalScroll f) := by
  simp [horizontalScroll]

namespace Arch

@[simps] instance extended : Extend (Arch ℝ) (Arch Extended) where
  extend b := ⟨extend b.width, extend b.depth⟩

variable (b : Arch ℝ) (x y x0 x1 : ℝ)

@[simp] theorem sag_extend : (extend b).sag (extend x) = extend (b.sag x) := by
  by_cases h : b.width ≤ 0
  · simp [sag, h]
  · simp [sag, h, (not_le.1 h).ne']

@[simp] theorem slope_extend : (extend b).slope (extend x) = extend (b.slope x) := by
  by_cases h : 0 < b.width
  · simp [slope, h, h.ne']
  · simp [slope, h]

@[simp] theorem extend_mk : extend (⟨x, y⟩ : Arch ℝ) = ⟨extend x, extend y⟩ := rfl

@[simp] theorem point_extend :
    (extend b).point (extend x) (extend y) = extend (b.point x y) := by
  simp [point]

@[simp] theorem start_extend :
    (extend b).start (extend x) (extend y) = extend (b.start x y) := by
  simp [start]

@[simp] theorem line_extend : (extend b).line (extend x) (extend y) = extend (b.line x y) := by
  simp [line]

@[simp] theorem curve_extend :
    (extend b).curve (extend x0) (extend x1) (extend y) = extend (b.curve x0 x1 y) := by
  simp [curve]

end Arch

namespace ArchGuides

@[simps] instance extended : Extend (ArchGuides ℝ) (ArchGuides Extended) where
  extend g :=
    { arch := extend g.arch, s := extend g.s, notch := extend g.notch, x2 := extend g.x2
      x3 := extend g.x3, x4 := extend g.x4, x5 := extend g.x5, y1 := extend g.y1
      yt := extend g.yt, ym := extend g.ym }

@[simp] theorem ofFrame_extend : ofFrame (extend f) = extend (ofFrame f) := by
  ext <;> simp [ofFrame]

variable (g : ArchGuides ℝ)

@[simp] theorem body_extend (r : ℝ) : (extend g).body (extend r) = extend (g.body r) := by
  simp [body]

@[simp] theorem fold_extend (xa xb : ℝ) :
    (extend g).fold (extend xa) (extend xb) = extend (g.fold xa xb) := by
  simp [fold]

@[simp] theorem seams_extend : (extend g).seams = extend g.seams := by simp [seams]

end ArchGuides

@[simp] theorem archedBanner_extend : archedBanner (extend f) = extend (archedBanner f) := by
  ext1 <;> simp [archedBanner]

theorem ellipseRibbon_extend : ellipseRibbon (extend f) = extend (ellipseRibbon f) := by
  simp [ellipseRibbon]

theorem ellipseRibbon2_extend : ellipseRibbon2 (extend f) = extend (ellipseRibbon2 f) := by
  simp [ellipseRibbon2]

namespace CurveGuides

@[simps] instance extended : Extend (CurveGuides ℝ) (CurveGuides Extended) where
  extend g :=
    { thickness := extend g.thickness, headWidth := extend g.headWidth
      headStart := extend g.headStart, tip := extend g.tip, outer := extend g.outer
      inner := extend g.inner, innerCenter := extend g.innerCenter }

@[simp] theorem ofFrame_extend (w h : ℝ) :
    ofFrame (extend f) (extend w) (extend h) = extend (ofFrame f w h) := by
  ext <;> simp [ofFrame]

variable (g : CurveGuides ℝ)

@[simp] theorem band_extend (w h : ℝ) :
    (extend g).band (extend w) (extend h) = extend (g.band w h) := by
  simp [band]

@[simp] theorem back_extend : (extend g).back = extend g.back := by simp [back]

end CurveGuides

theorem curvedArrow_extend (d : Facing) : curvedArrow d (extend f) = extend (curvedArrow d f) := by
  simp [curvedArrow]

theorem leaderVertices_extend (l : Leader) :
    leaderVertices (extend f) l = extend (leaderVertices f l) := by
  cases l <;> simp [leaderVertices, leaderVertex, Leader.vertices]

theorem extend_polyline (ps : List (Point ℝ)) : extend (polyline ps) = polyline (extend ps) := by
  cases ps <;> simp [polyline]

theorem lineCallout_extend (s : CalloutStyle) :
    lineCallout s (extend f) = extend (lineCallout s f) := by
  unfold lineCallout
  rw [leaderVertices_extend]
  cases leaderVertices f s.leader <;> cases s.accent <;> cases s.border <;>
    simp [extend_polyline]

namespace IconSquare

@[simps] instance extended : Extend (IconSquare ℝ) (IconSquare Extended) where
  extend i := ⟨extend i.origin, extend i.size⟩

@[simp] theorem ofFrame_extend : ofFrame (extend f) = extend (ofFrame f) := by
  ext <;> simp [ofFrame]

variable (i : IconSquare ℝ)

@[simp] theorem point_extend (p : Point ℝ) : (extend i).point (extend p) = extend (i.point p) := by
  simp [point]

@[simp] theorem extend_place (s : Sketch ℝ) : extend (i.place s) = (extend i).place (extend s) := by
  refine (List.map_map ..).trans (Eq.trans ?_ (List.map_map ..).symm)
  refine List.map_congr_left fun a _ => ?_
  cases a <;> simp [stroke]

@[simp] theorem extend_polygon (ps : List (Point ℝ)) :
    extend (i.polygon ps) = (extend i).polygon (extend ps) := by
  simp [polygon]

@[simp] theorem rect_extend (u v w h : ℝ) :
    (extend i).rect (extend u) (extend v) (extend w) (extend h) = extend (i.rect u v w h) := by
  simp [rect]

@[simp] theorem circle_extend (u v r : ℝ) :
    (extend i).circle (extend u) (extend v) (extend r) = extend (i.circle u v r) := by
  simp [circle]

end IconSquare

@[simps] instance IconArt.extended : Extend (IconArt ℝ) (IconArt Extended) where
  extend a := ⟨a.parts.map fun p => (extend p.1, p.2), extend a.marks⟩

@[simp] theorem IconArt.extend_mk (parts : List (Sketch ℝ × FillMode)) (marks : Sketch ℝ) :
    extend (⟨parts, marks⟩ : IconArt ℝ) = ⟨parts.map fun p => (extend p.1, p.2), extend marks⟩ :=
  rfl

theorem IconArt.outline_extend (a : IconArt ℝ) : (extend a).outline = extend a.outline := by
  simp [outline, List.flatMap_map]

/-- An icon that is defined on its square makes a button that is defined on its frame. -/
theorem actionButton_extend {art : IconSquare Extended → IconArt Extended}
    {art' : IconSquare ℝ → IconArt ℝ} (h : ∀ i : IconSquare ℝ, art (extend i) = extend (art' i)) :
    actionButton art (extend f) = extend (actionButton art' f) := by
  have hempty (s : Sketch ℝ) : (extend s).isEmpty = s.isEmpty := by cases s <;> rfl
  simp only [actionButton, IconSquare.ofFrame_extend, h, IconArt.outline_extend, hempty]
  cases (art' (IconSquare.ofFrame f)).outline.isEmpty <;> simp

theorem actionButtonBlank_extend :
    actionButtonBlank (extend f) = extend (actionButtonBlank f) := by
  simp [actionButtonBlank]

section Icons

variable (i : IconSquare ℝ)

theorem homeIcon_extend : homeIcon (extend i) = extend (homeIcon i) := by simp [homeIcon]

theorem helpIcon_extend : helpIcon (extend i) = extend (helpIcon i) := by simp [helpIcon]

theorem informationIcon_extend : informationIcon (extend i) = extend (informationIcon i) := by
  simp [informationIcon]

theorem backIcon_extend : backIcon (extend i) = extend (backIcon i) := by simp [backIcon]

theorem forwardIcon_extend : forwardIcon (extend i) = extend (forwardIcon i) := by
  simp [forwardIcon]

theorem beginningIcon_extend : beginningIcon (extend i) = extend (beginningIcon i) := by
  simp [beginningIcon]

theorem endIcon_extend : endIcon (extend i) = extend (endIcon i) := by simp [endIcon]

theorem returnIcon_extend : returnIcon (extend i) = extend (returnIcon i) := by simp [returnIcon]

theorem documentIcon_extend : documentIcon (extend i) = extend (documentIcon i) := by
  simp [documentIcon]

theorem soundIcon_extend : soundIcon (extend i) = extend (soundIcon i) := by simp [soundIcon]

theorem movieIcon_extend : movieIcon (extend i) = extend (movieIcon i) := by simp [movieIcon]

end Icons

end
end ShapeOutline.Layered
