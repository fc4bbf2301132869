import ShapeOutline.Proofs.Factor
import ShapeOutline.Shape.ArrowCallout
import ShapeOutline.Shape.BentArrow
import ShapeOutline.Shape.Connector
import ShapeOutline.Shape.Operator
import ShapeOutline.Shape.Polygon
import ShapeOutline.Shape.RegularPolygon
import ShapeOutline.Shape.Star

/-! The shapes of straight lines scale with their frame. The guides that several
shapes share scale first, lengths with the frame and ratios not at all. -/

namespace ShapeOutline.Shape
noncomputable section

open Factor

attribute [ext] ArrowGuides HeadGuides CalloutGuides

variable (k : Factor) (f : Frame ℝ)

theorem rect_smul : rect (k • f) = k • rect f := by simp [rect]

theorem triangle_smul : triangle (k • f) = k • triangle f := by simp [triangle]

theorem rtTriangle_smul : rtTriangle (k • f) = k • rtTriangle f := by simp [rtTriangle]

theorem diamond_smul : diamond (k • f) = k • diamond f := by simp [diamond]

theorem parallelogram_smul : parallelogram (k • f) = k • parallelogram f := by simp [parallelogram]

theorem trapezoid_smul : trapezoid (k • f) = k • trapezoid f := by simp [trapezoid]

theorem nonIsoscelesTrapezoid_smul :
    nonIsoscelesTrapezoid (k • f) = k • nonIsoscelesTrapezoid f := by
  simp [nonIsoscelesTrapezoid]

theorem plus_smul : plus (k • f) = k • plus f := by simp [plus]

theorem frame_smul : frame (k • f) = k • frame f := by simp [frame]

theorem halfFrame_smul : halfFrame (k • f) = k • halfFrame f := by
  simp [halfFrame, HalfFrame.ofFrame]

theorem corner_smul : corner (k • f) = k • corner f := by simp [corner]

theorem diagStripe_smul : diagStripe (k • f) = k • diagStripe f := by simp [diagStripe]

theorem homePlate_smul : homePlate (k • f) = k • homePlate f := by simp [homePlate]

theorem chevron_smul : chevron (k • f) = k • chevron f := by simp [chevron]

theorem pentagon_smul : pentagon (k • f) = k • pentagon f := by simp [pentagon]

theorem hexagon_smul : hexagon (k • f) = k • hexagon f := by simp [hexagon]

theorem heptagon_smul : heptagon (k • f) = k • heptagon f := by simp [heptagon]

theorem octagon_smul : octagon (k • f) = k • octagon f := by simp [octagon]

theorem decagon_smul : decagon (k • f) = k • decagon f := by simp [decagon]

theorem dodecagon_smul : dodecagon (k • f) = k • dodecagon f := by simp [dodecagon, sideUnits]

theorem star4_smul : star4 (k • f) = k • star4 f := by simp [star4]

theorem starCorners_smul (tips : ℕ) (center outer inner : Point ℝ) :
    starCorners tips (k • center) (k • outer) (k • inner) =
      k • starCorners tips center outer inner := by
  unfold starCorners
  rw [smul_map]
  refine List.map_congr_left fun i _ => ?_
  split_ifs <;> exact k.polar_smul ..

theorem star_smul (tips : ℕ) (adj hf vf : ℝ) :
    star tips adj hf vf (k • f) = k • star tips adj hf vf f := by
  have hcorners (c r : Point ℝ) (a b : ℝ) :
      starCorners tips (k • c) (k • r) (k • r * a / b) = k • starCorners tips c r (r * a / b) := by
    rw [smul_point_mul, smul_point_div, starCorners_smul]
  simp only [star, smul_polygon, ← hcorners]
  simp

/-- A symbol fills the frame, so it scales with it whatever its grid is. -/
theorem draw_smul (g : GridSymbol ℝ) : g.draw (k • f) = k • g.draw f := by
  have hstroke (s : Stroke ℝ) : s.stretch (g.scale (k • f)) = k • s.stretch (g.scale f) := by
    cases s <;> simp [Stroke.stretch, GridSymbol.scale, Point.stretch]
  unfold GridSymbol.draw Sketch.stretch
  rw [smul_map]
  exact List.map_congr_left fun s _ => hstroke s

namespace Facing

variable (d : Facing)

@[simp] theorem along_smul : d.along (k • f) = k • d.along f := by cases d <;> rfl

@[simp] theorem across_smul : d.across (k • f) = k • d.across f := by cases d <;> rfl

@[simp] theorem reflection_smul : d.reflection (k • f) = k • d.reflection f := by cases d <;> rfl

end Facing

@[simps] instance ArrowGuides.scaled : SMul Factor (ArrowGuides ℝ) where
  smul k g := ⟨k • g.head, k • g.top, k • g.bottom⟩

@[simp] theorem ArrowGuides.ofFrame_smul (h most : ℝ) :
    ofFrame (k • f) (k • h) most = k • ofFrame f h most := by
  ext <;> simp [ofFrame]

@[simp] theorem shortRatio_smul (length : ℝ) :
    shortRatio (k • f) (k • length) = shortRatio f length := by
  simp [shortRatio]

theorem blockArrow_smul (d : Facing) : blockArrow d (k • f) = k • blockArrow d f := by
  simp [blockArrow]

theorem twoHeadedArrow_smul (d : Facing) : twoHeadedArrow d (k • f) = k • twoHeadedArrow d f := by
  simp [twoHeadedArrow]

@[simps] instance HeadGuides.scaled : SMul Factor (HeadGuides ℝ) where
  smul k g := ⟨k • g.length, k • g.half, k • g.shaft⟩

@[simp] theorem HeadGuides.ofFrame_smul (default : ℝ) :
    ofFrame (k • f) default = k • ofFrame f default := by
  ext <;> simp [ofFrame]

theorem quadArrow_smul : quadArrow (k • f) = k • quadArrow f := by simp [quadArrow]

theorem leftRightUpArrow_smul : leftRightUpArrow (k • f) = k • leftRightUpArrow f := by
  simp [leftRightUpArrow]

theorem leftUpArrow_smul : leftUpArrow (k • f) = k • leftUpArrow f := by simp [leftUpArrow]

theorem stripedRightArrow_smul : stripedRightArrow (k • f) = k • stripedRightArrow f := by
  simp [stripedRightArrow]

theorem notchedRightArrow_smul : notchedRightArrow (k • f) = k • notchedRightArrow f := by
  simp [notchedRightArrow, notchDepth]

theorem bentUpArrow_smul : bentUpArrow (k • f) = k • bentUpArrow f := by simp [bentUpArrow]

theorem bentArrow_smul : bentArrow (k • f) = k • bentArrow f := by
  simp [bentArrow, BendGuides.ofBentArrow]

theorem uturnArrow_smul : uturnArrow (k • f) = k • uturnArrow f := by
  simp [uturnArrow, UturnGuides.ofFrame]

theorem swooshArrow_smul : swooshArrow (k • f) = k • swooshArrow f := by simp [swooshArrow]

/-- How far the box extends is a part of the frame, and no length. -/
@[simps] instance CalloutGuides.scaled : SMul Factor (CalloutGuides ℝ) where
  smul k g := ⟨k • g.half, k • g.shaft, k • g.head, g.box⟩

@[simp] theorem CalloutGuides.ofFrame_smul (h room mostHead defaultBox : ℝ) :
    ofFrame (k • f) (k • h) (k • room) mostHead defaultBox =
      k • ofFrame f h room mostHead defaultBox := by
  ext <;> simp [ofFrame]

theorem arrowCallout_smul (d : Facing) : arrowCallout d (k • f) = k • arrowCallout d f := by
  simp [arrowCallout]

theorem twoHeadedCallout_smul (d : Facing) :
    twoHeadedCallout d (k • f) = k • twoHeadedCallout d f := by
  simp [twoHeadedCallout]

/-- The adjustments are pinned against each other and against no side. -/
@[simp] theorem QuadCalloutGuides.ofFrame_smul : ofFrame (k • f) = ofFrame f := rfl

theorem quadArrowCallout_smul : quadArrowCallout (k • f) = k • quadArrowCallout f := by
  simp [quadArrowCallout]

@[simp] theorem halfSpan_smul (side : ℝ) : halfSpan (k • side) = k • halfSpan side :=
  k.smul_mul ..

theorem mathPlus_smul : mathPlus (k • f) = k • mathPlus f := by simp [mathPlus]

theorem mathMinus_smul : mathMinus (k • f) = k • mathMinus f := by simp [mathMinus]

theorem mathMultiply_smul : mathMultiply (k • f) = k • mathMultiply f := by simp [mathMultiply]

theorem mathDivide_smul : mathDivide (k • f) = k • mathDivide f := by simp [mathDivide]

theorem mathEqual_smul : mathEqual (k • f) = k • mathEqual f := by simp [mathEqual]

theorem mathNotEqual_smul : mathNotEqual (k • f) = k • mathNotEqual f := by simp [mathNotEqual]

/-- A diagonal that has both extents scales; the fixed offset of a flat one does not. -/
theorem diagonal_smul (rising : Bool) (hw : f.w ≠ 0) (hh : f.h ≠ 0) :
    diagonal (k • f) rising = k • diagonal f rising := by
  cases rising <;> simp [diagonal, Scalar.beq_real, hw, hh]

@[simp] theorem column_smul (name : String) : column (k • f) name = k • column f name := by
  simp [column]

@[simp] theorem row_smul (name : String) : row (k • f) name = k • row f name := by simp [row]

theorem bentConnector2_smul : bentConnector2 (k • f) = k • bentConnector2 f := by
  simp [bentConnector2]

theorem bentConnector3_smul : bentConnector3 (k • f) = k • bentConnector3 f := by
  simp [bentConnector3]

theorem bentConnector4_smul : bentConnector4 (k • f) = k • bentConnector4 f := by
  simp [bentConnector4]

theorem bentConnector5_smul : bentConnector5 (k • f) = k • bentConnector5 f := by
  simp [bentConnector5]

theorem curvedConnector2_smul : curvedConnector2 (k • f) = k • curvedConnector2 f := by
  simp [curvedConnector2]

theorem curvedConnector3_smul : curvedConnector3 (k • f) = k • curvedConnector3 f := by
  simp [curvedConnector3]

theorem curvedConnector4_smul : curvedConnector4 (k • f) = k • curvedConnector4 f := by
  simp [curvedConnector4]

theorem curvedConnector5_smul : curvedConnector5 (k • f) = k • curvedConnector5 f := by
  simp [curvedConnector5]

end
end ShapeOutline.Shape
