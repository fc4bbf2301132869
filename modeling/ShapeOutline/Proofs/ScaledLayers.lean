import Mathlib
import ShapeOutline.Layered.ActionButton
import ShapeOutline.Layered.ArchedRibbon
import ShapeOutline.Layered.CurvedArrow
import ShapeOutline.Layered.LineCallout
import ShapeOutline.Layered.Scroll
import ShapeOutline.Layered.Solid
import ShapeOutline.Proofs.ScaledPolygons

/-! The layered shapes scale with their frame, layer by layer: which layers there
are, and how each is filled and stroked, does not depend on a length. -/

namespace ShapeOutline.Layered
noncomputable section

open Factor Shape

attribute [ext] IconSquare ArchGuides CurveGuides RibbonGuides Banner

variable (k : Factor) (f : Frame ℝ)

theorem cube_smul : cube (k • f) = k • cube f := by simp [cube]

theorem can_smul : can (k • f) = k • can f := by simp [can]

theorem bevel_smul : bevel (k • f) = k • bevel f := by simp [bevel]

theorem foldedCorner_smul : foldedCorner (k • f) = k • foldedCorner f := by simp [foldedCorner]

theorem smileyFace_smul : smileyFace (k • f) = k • smileyFace f := by simp [smileyFace]

@[simps] instance Banner.scaled : SMul Factor (Banner ℝ) where
  smul k b := ⟨k • b.body, k • b.folds, k • b.outline⟩

@[simp] theorem Banner.smul_layers (t : Reflection ℝ) (b : Banner ℝ) :
    k • b.layers t = (k • b).layers (k • t) := by
  simp [layers]

@[simps] instance RibbonGuides.scaled : SMul Factor (RibbonGuides ℝ) where
  smul k g :=
    { notch := k • g.notch, curl := k • g.curl, x2 := k • g.x2, x3 := k • g.x3, x4 := k • g.x4
      x5 := k • g.x5, x6 := k • g.x6, x7 := k • g.x7, x8 := k • g.x8, x9 := k • g.x9
      x10 := k • g.x10, y1 := k • g.y1, y2 := k • g.y2, y3 := k • g.y3, y4 := k • g.y4
      y5 := k • g.y5, y6 := k • g.y6 }

@[simp] theorem RibbonGuides.ofFrame_smul : ofFrame (k • f) = k • ofFrame f := by
  ext <;> simp [ofFrame]

@[simp] theorem ribbonBody_smul (g : RibbonGuides ℝ) :
    ribbonBody (k • f) (k • g) = k • ribbonBody f g := by
  simp [ribbonBody]

@[simp] theorem ribbonBanner_smul : ribbonBanner (k • f) = k • ribbonBanner f := by
  ext1 <;> simp [ribbonBanner]

theorem ribbon_smul : ribbon (k • f) = k • ribbon f := by simp [ribbon]

theorem ribbon2_smul : ribbon2 (k • f) = k • ribbon2 f := by simp [ribbon2]

@[simp] theorem twistedBanner_smul : twistedBanner (k • f) = k • twistedBanner f := by
  ext1 <;> simp [twistedBanner]

theorem leftRightRibbon_smul : leftRightRibbon (k • f) = k • leftRightRibbon f := by
  simp [leftRightRibbon]

@[simp] theorem scrollBanner_smul (w h : ℝ) :
    scrollBanner (k • f) (k • w) (k • h) = k • scrollBanner f w h := by
  ext1 <;> simp [scrollBanner]

theorem verticalScroll_smul : verticalScroll (k • f) = k • verticalScroll f := by
  simp [verticalScroll]

theorem horizontalScroll_smul : horizontalScroll (k • f) = k • horizontalScroll f := by
  simp [horizontalScroll]

namespace Arch

@[simps] instance scaled : SMul Factor (Arch ℝ) where
  smul k b := ⟨k • b.width, k • b.depth⟩

variable (b : Arch ℝ) (x y x0 x1 : ℝ)

@[simp] theorem sag_smul : (k • b).sag (k • x) = k • b.sag x := by
  by_cases h : b.width ≤ 0 <;> simp [sag, h]

/-- The slope is a ratio of lengths. -/
@[simp] theorem slope_smul : (k • b).slope (k • x) = b.slope x := by
  by_cases h : 0 < b.width <;> simp [slope, h]

@[simp] theorem smul_mk : k • (⟨x, y⟩ : Arch ℝ) = ⟨k • x, k • y⟩ := rfl

@[simp] theorem smul_point : k • b.point x y = (k • b).point (k • x) (k • y) := by simp [point]

@[simp] theorem smul_start : k • b.start x y = (k • b).start (k • x) (k • y) := by simp [start]

@[simp] theorem smul_line : k • b.line x y = (k • b).line (k • x) (k • y) := by simp [line]

@[simp] theorem smul_curve : k • b.curve x0 x1 y = (k • b).curve (k • x0) (k • x1) (k • y) := by
  simp [curve]

end Arch

namespace ArchGuides

@[simps] instance scaled : SMul Factor (ArchGuides ℝ) where
  smul k g :=
    { arch := k • g.arch, s := k • g.s, notch := k • g.notch, x2 := k • g.x2, x3 := k • g.x3
      x4 := k • g.x4, x5 := k • g.x5, y1 := k • g.y1, yt := k • g.yt, ym := k • g.ym }

@[simp] theorem ofFrame_smul : ofFrame (k • f) = k • ofFrame f := by
  ext <;> simp [ofFrame]

variable (g : ArchGuides ℝ)

@[simp] theorem body_smul (r : ℝ) : (k • g).body (k • r) = k • g.body r := by
  simp [body]

@[simp] theorem fold_smul (xa xb : ℝ) : (k • g).fold (k • xa) (k • xb) = k • g.fold xa xb := by
  simp [fold]

@[simp] theorem seams_smul : (k • g).seams = k • g.seams := by simp [seams]

end ArchGuides

@[simp] theorem archedBanner_smul : archedBanner (k • f) = k • archedBanner f := by
  ext1 <;> simp [archedBanner]

theorem ellipseRibbon_smul : ellipseRibbon (k • f) = k • ellipseRibbon f := by
  simp [ellipseRibbon]

theorem ellipseRibbon2_smul : ellipseRibbon2 (k • f) = k • ellipseRibbon2 f := by
  simp [ellipseRibbon2]

namespace CurveGuides

@[simps] instance scaled : SMul Factor (CurveGuides ℝ) where
  smul k g :=
    { thickness := k • g.thickness, headWidth := k • g.headWidth, headStart := k • g.headStart
      tip := k • g.tip, outer := k • g.outer, inner := k • g.inner
      innerCenter := k • g.innerCenter }

@[simp] theorem ofFrame_smul (w h : ℝ) : ofFrame (k • f) (k • w) (k • h) = k • ofFrame f w h := by
  ext <;> simp [ofFrame]

variable (g : CurveGuides ℝ)

@[simp] theorem band_smul (w h : ℝ) : (k • g).band (k • w) (k • h) = k • g.band w h := by
  simp [band]

@[simp] theorem back_smul : (k • g).back = k • g.back := by simp [back]

end CurveGuides

theorem curvedArrow_smul (d : Facing) : curvedArrow d (k • f) = k • curvedArrow d f := by
  simp [curvedArrow]

theorem leaderVertices_smul (l : Leader) : leaderVertices (k • f) l = k • leaderVertices f l := by
  cases l <;> simp [leaderVertices, leaderVertex, Leader.vertices]

theorem smul_polyline (ps : List (Point ℝ)) : k • polyline ps = polyline (k • ps) := by
  cases ps <;> simp [polyline]

theorem lineCallout_smul (s : CalloutStyle) : lineCallout s (k • f) = k • lineCallout s f := by
  unfold lineCallout
  rw [leaderVertices_smul]
  cases leaderVertices f s.leader <;> cases s.accent <;> cases s.border <;>
    simp [smul_polyline]

namespace IconSquare

@[simps] instance scaled : SMul Factor (IconSquare ℝ) where
  smul k i := ⟨k • i.origin, k • i.size⟩

@[simp] theorem ofFrame_smul : ofFrame (k • f) = k • ofFrame f := by
  ext <;> simp [ofFrame]

variable (i : IconSquare ℝ)

@[simp] theorem point_smul (p : Point ℝ) : (k • i).point p = k • i.point p := by simp [point]

@[simp] theorem place_smul (s : Sketch ℝ) : (k • i).place s = k • i.place s := by
  unfold place
  rw [smul_map]
  refine List.map_congr_left fun a _ => ?_
  cases a <;> simp [stroke]

@[simp] theorem polygon_smul (ps : List (Point ℝ)) : (k • i).polygon ps = k • i.polygon ps :=
  i.place_smul k _

@[simp] theorem rect_smul (u v w h : ℝ) : (k • i).rect u v w h = k • i.rect u v w h := by
  simp [rect]

@[simp] theorem circle_smul (u v r : ℝ) : (k • i).circle u v r = k • i.circle u v r := by
  simp [circle]

end IconSquare

@[simps] instance IconArt.scaled : SMul Factor (IconArt ℝ) where
  smul k a := ⟨a.parts.map fun p => (k • p.1, p.2), k • a.marks⟩

@[simp] theorem IconArt.smul_mk (parts : List (Sketch ℝ × FillMode)) (marks : Sketch ℝ) :
    k • (⟨parts, marks⟩ : IconArt ℝ) = ⟨parts.map fun p => (k • p.1, p.2), k • marks⟩ :=
  rfl

theorem IconArt.outline_smul (a : IconArt ℝ) : (k • a).outline = k • a.outline := by
  simp [outline, List.flatMap_map]

/-- An icon that scales with its square makes a button that scales with its frame. -/
theorem actionButton_smul {art : IconSquare ℝ → IconArt ℝ}
    (h : ∀ i : IconSquare ℝ, art (k • i) = k • art i) :
    actionButton art (k • f) = k • actionButton art f := by
  have hempty (s : Sketch ℝ) : (k • s).isEmpty = s.isEmpty := by cases s <;> rfl
  have hart := h (IconSquare.ofFrame f)
  rw [← IconSquare.ofFrame_smul] at hart
  simp only [actionButton, hart, IconArt.outline_smul, hempty]
  cases (art (IconSquare.ofFrame f)).outline.isEmpty <;> simp

theorem actionButtonBlank_smul : actionButtonBlank (k • f) = k • actionButtonBlank f := by
  simp [actionButtonBlank]

section Icons

variable (i : IconSquare ℝ)

theorem homeIcon_smul : homeIcon (k • i) = k • homeIcon i := by simp [homeIcon]

theorem helpIcon_smul : helpIcon (k • i) = k • helpIcon i := by simp [helpIcon]

theorem informationIcon_smul : informationIcon (k • i) = k • informationIcon i := by
  simp [informationIcon]

theorem backIcon_smul : backIcon (k • i) = k • backIcon i := by simp [backIcon]

theorem forwardIcon_smul : forwardIcon (k • i) = k • forwardIcon i := by simp [forwardIcon]

theorem beginningIcon_smul : beginningIcon (k • i) = k • beginningIcon i := by simp [beginningIcon]

theorem endIcon_smul : endIcon (k • i) = k • endIcon i := by simp [endIcon]

theorem returnIcon_smul : returnIcon (k • i) = k • returnIcon i := by simp [returnIcon]

theorem documentIcon_smul : documentIcon (k • i) = k • documentIcon i := by simp [documentIcon]

theorem soundIcon_smul : soundIcon (k • i) = k • soundIcon i := by simp [soundIcon]

theorem movieIcon_smul : movieIcon (k • i) = k • movieIcon i := by simp [movieIcon]

end Icons

end
end ShapeOutline.Layered
