import ShapeOutline.Proofs.Extension
import ShapeOutline.Proofs.ScaledPolygons

/-! The shapes of straight lines, and the guides that several of them share, leave
no operation's domain: in extended numbers they are the extension of what they are
in the reals. -/

namespace ShapeOutline.Shape
noncomputable section

open Extended

variable (f : Frame ℝ)

theorem rect_extend : rect (extend f) = extend (rect f) := by simp [rect]

theorem triangle_extend : triangle (extend f) = extend (triangle f) := by simp [triangle]

theorem rtTriangle_extend : rtTriangle (extend f) = extend (rtTriangle f) := by simp [rtTriangle]

theorem diamond_extend : diamond (extend f) = extend (diamond f) := by simp [diamond]

theorem parallelogram_extend : parallelogram (extend f) = extend (parallelogram f) := by
  simp [parallelogram]

theorem trapezoid_extend : trapezoid (extend f) = extend (trapezoid f) := by simp [trapezoid]

theorem nonIsoscelesTrapezoid_extend :
    nonIsoscelesTrapezoid (extend f) = extend (nonIsoscelesTrapezoid f) := by
  simp [nonIsoscelesTrapezoid]

theorem plus_extend : plus (extend f) = extend (plus f) := by simp [plus]

theorem frame_extend : frame (extend f) = extend (frame f) := by simp [frame]

theorem halfFrame_extend : halfFrame (extend f) = extend (halfFrame f) := by
  simp [halfFrame, HalfFrame.ofFrame]

theorem corner_extend : corner (extend f) = extend (corner f) := by simp [corner]

theorem diagStripe_extend : diagStripe (extend f) = extend (diagStripe f) := by simp [diagStripe]

theorem homePlate_extend : homePlate (extend f) = extend (homePlate f) := by simp [homePlate]

theorem chevron_extend : chevron (extend f) = extend (chevron f) := by simp [chevron]

theorem pentagon_extend : pentagon (extend f) = extend (pentagon f) := by simp [pentagon]

theorem hexagon_extend : hexagon (extend f) = extend (hexagon f) := by simp [hexagon]

theorem heptagon_extend : heptagon (extend f) = extend (heptagon f) := by simp [heptagon]

theorem octagon_extend : octagon (extend f) = extend (octagon f) := by simp [octagon]

theorem decagon_extend : decagon (extend f) = extend (decagon f) := by simp [decagon]

theorem dodecagon_extend : dodecagon (extend f) = extend (dodecagon f) := by
  simp [dodecagon, sideUnits]

theorem star4_extend : star4 (extend f) = extend (star4 f) := by simp [star4]

/-- A star without tips has no corners to turn to. -/
theorem starCorners_extend {tips : ℕ} (htips : tips ≠ 0) (center outer inner : Point ℝ) :
    starCorners tips (extend center) (extend outer) (extend inner) =
      extend (starCorners tips center outer inner) := by
  have hstep : (Scalar.ofNat tips : ℝ) ≠ 0 := Nat.cast_ne_zero.2 htips
  simp only [starCorners, extend_map]
  refine List.map_congr_left fun i _ => ?_
  simp [hstep]

theorem star_extend {tips : ℕ} (htips : tips ≠ 0) (adj hf vf : ℝ) :
    star tips (extend adj) (extend hf) (extend vf) (extend f) = extend (star tips adj hf vf f) := by
  simp [star, starCorners_extend htips]

instance GridSymbol.extended : Extend (GridSymbol ℝ) (GridSymbol Extended) where
  extend g := ⟨extend g.width, extend g.height, extend g.sketch⟩

@[simp] theorem gridSymbol_extend (w h : ℝ) (s : Sketch ℝ) :
    extend (⟨w, h, s⟩ : GridSymbol ℝ) = ⟨extend w, extend h, extend s⟩ :=
  rfl

/-- The sides of the frame are divided by those of the grid. -/
theorem symbol_extend {g : GridSymbol Extended} {g' : GridSymbol ℝ} (hg : g = extend g')
    (hw : g'.width ≠ 0) (hh : g'.height ≠ 0) : g.draw (extend f) = extend (g'.draw f) := by
  have hscale : (extend g').scale (extend f) = extend (g'.scale f) :=
    congrArg₂ Point.mk (extend_div _ _ hw) (extend_div _ _ hh)
  have hstroke (k : Point ℝ) (s : Stroke ℝ) :
      (extend s).stretch (extend k) = extend (s.stretch k) := by
    cases s <;> rfl
  rw [hg, GridSymbol.draw, hscale, GridSymbol.draw]
  exact (List.map_map ..).trans
    ((List.map_congr_left fun s _ => hstroke _ s).trans (extend_map ..).symm)

theorem irregularSeal1_extend : irregularSeal1 (extend f) = extend (irregularSeal1 f) := by
  refine symbol_extend f ?_ ?_ ?_ <;> simp [seal1]

theorem irregularSeal2_extend : irregularSeal2 (extend f) = extend (irregularSeal2 f) := by
  refine symbol_extend f ?_ ?_ ?_ <;> simp [seal2]

namespace Facing

variable (d : Facing)

@[simp] theorem along_extend : d.along (extend f) = extend (d.along f) := by cases d <;> rfl

@[simp] theorem across_extend : d.across (extend f) = extend (d.across f) := by cases d <;> rfl

@[simp] theorem reflection_extend : d.reflection (extend f) = extend (d.reflection f) := by
  cases d <;> rfl

end Facing

@[simps] instance ArrowGuides.extended : Extend (ArrowGuides ℝ) (ArrowGuides Extended) where
  extend g := ⟨extend g.head, extend g.top, extend g.bottom⟩

@[simp] theorem ArrowGuides.ofFrame_extend (h most : ℝ) :
    ofFrame (extend f) (extend h) (extend most) = extend (ofFrame f h most) := by
  ext <;> simp [ofFrame]

@[simp] theorem shortRatio_extend (length : ℝ) :
    shortRatio (extend f) (extend length) = extend (shortRatio f length) := by
  simp [shortRatio]

theorem blockArrow_extend (d : Facing) : blockArrow d (extend f) = extend (blockArrow d f) := by
  simp [blockArrow]

theorem twoHeadedArrow_extend (d : Facing) :
    twoHeadedArrow d (extend f) = extend (twoHeadedArrow d f) := by
  simp [twoHeadedArrow]

@[simps] instance HeadGuides.extended : Extend (HeadGuides ℝ) (HeadGuides Extended) where
  extend g := ⟨extend g.length, extend g.half, extend g.shaft⟩

@[simp] theorem HeadGuides.ofFrame_extend (default : ℝ) :
    ofFrame (extend f) (extend default) = extend (ofFrame f default) := by
  ext <;> simp [ofFrame]

theorem quadArrow_extend : quadArrow (extend f) = extend (quadArrow f) := by simp [quadArrow]

theorem leftRightUpArrow_extend : leftRightUpArrow (extend f) = extend (leftRightUpArrow f) := by
  simp [leftRightUpArrow]

theorem leftUpArrow_extend : leftUpArrow (extend f) = extend (leftUpArrow f) := by
  simp [leftUpArrow]

theorem stripedRightArrow_extend : stripedRightArrow (extend f) = extend (stripedRightArrow f) := by
  simp [stripedRightArrow]

theorem notchedRightArrow_extend : notchedRightArrow (extend f) = extend (notchedRightArrow f) := by
  simp [notchedRightArrow, notchDepth]

theorem bentUpArrow_extend : bentUpArrow (extend f) = extend (bentUpArrow f) := by
  simp [bentUpArrow]

theorem bentArrow_extend : bentArrow (extend f) = extend (bentArrow f) := by
  simp [bentArrow, BendGuides.ofBentArrow]

theorem uturnArrow_extend : uturnArrow (extend f) = extend (uturnArrow f) := by
  simp [uturnArrow, UturnGuides.ofFrame]

/-- A fourteenth of a right angle is far from it. -/
theorem swooshArrow_extend : swooshArrow (extend f) = extend (swooshArrow f) := by
  have hslant : Real.cos (radians (90 / 14)) ≠ 0 := by
    rw [radians_real]
    refine (Real.cos_pos_of_mem_Ioo ⟨?_, ?_⟩).ne' <;> nlinarith [Real.pi_pos]
  simp [swooshArrow, tan_extend _ hslant]

@[simps] instance CalloutGuides.extended : Extend (CalloutGuides ℝ) (CalloutGuides Extended) where
  extend g := ⟨extend g.half, extend g.shaft, extend g.head, extend g.box⟩

@[simp] theorem CalloutGuides.ofFrame_extend (h room mostHead defaultBox : ℝ) :
    ofFrame (extend f) (extend h) (extend room) (extend mostHead) (extend defaultBox) =
      extend (ofFrame f h room mostHead defaultBox) := by
  ext <;> simp [ofFrame]

theorem arrowCallout_extend (d : Facing) :
    arrowCallout d (extend f) = extend (arrowCallout d f) := by
  simp [arrowCallout]

theorem twoHeadedCallout_extend (d : Facing) :
    twoHeadedCallout d (extend f) = extend (twoHeadedCallout d f) := by
  simp [twoHeadedCallout]

instance QuadCalloutGuides.extended :
    Extend (QuadCalloutGuides ℝ) (QuadCalloutGuides Extended) where
  extend g := ⟨extend g.shaft, extend g.half, extend g.head, extend g.box⟩

theorem quadArrowCallout_extend : quadArrowCallout (extend f) = extend (quadArrowCallout f) := by
  simp [quadArrowCallout, QuadCalloutGuides.ofFrame]

@[simp] theorem halfSpan_extend (side : ℝ) : halfSpan (extend side) = extend (halfSpan side) := by
  simp [halfSpan]

theorem mathPlus_extend : mathPlus (extend f) = extend (mathPlus f) := by simp [mathPlus]

theorem mathMinus_extend : mathMinus (extend f) = extend (mathMinus f) := by simp [mathMinus]

theorem mathMultiply_extend : mathMultiply (extend f) = extend (mathMultiply f) := by
  simp [mathMultiply]

theorem mathDivide_extend : mathDivide (extend f) = extend (mathDivide f) := by simp [mathDivide]

theorem mathEqual_extend : mathEqual (extend f) = extend (mathEqual f) := by simp [mathEqual]

/-- The stroke leans by at most 20 degrees. -/
theorem mathNotEqual_extend : mathNotEqual (extend f) = extend (mathNotEqual f) := by
  have hlean : Real.cos (radians (f.pinned "adj2" 6600000 4200000 6600000 / 60000 - 90)) ≠ 0 := by
    have hpin : 4200000 ≤ f.pinned "adj2" 6600000 4200000 6600000 ∧
        f.pinned "adj2" 6600000 4200000 6600000 ≤ 6600000 := pin_mem _ (by norm_num)
    rw [radians_real]
    refine (Real.cos_pos_of_mem_Ioo ⟨?_, ?_⟩).ne' <;> nlinarith [Real.pi_pos]
  simp [mathNotEqual, tan_extend _ hlean]

theorem diagonal_extend (rising : Bool) :
    diagonal (extend f) rising = extend (diagonal f rising) := by
  by_cases hw : f.w = 0 <;> by_cases hh : f.h = 0 <;> cases rising <;>
    simp [diagonal, Scalar.beq_real, hw, hh]

@[simp] theorem column_extend (name : String) :
    column (extend f) name = extend (column f name) := by
  simp [column]

@[simp] theorem row_extend (name : String) : row (extend f) name = extend (row f name) := by
  simp [row]

theorem bentConnector2_extend : bentConnector2 (extend f) = extend (bentConnector2 f) := by
  simp [bentConnector2]

theorem bentConnector3_extend : bentConnector3 (extend f) = extend (bentConnector3 f) := by
  simp [bentConnector3]

theorem bentConnector4_extend : bentConnector4 (extend f) = extend (bentConnector4 f) := by
  simp [bentConnector4]

theorem bentConnector5_extend : bentConnector5 (extend f) = extend (bentConnector5 f) := by
  simp [bentConnector5]

theorem curvedConnector2_extend : curvedConnector2 (extend f) = extend (curvedConnector2 f) := by
  simp [curvedConnector2]

theorem curvedConnector3_extend : curvedConnector3 (extend f) = extend (curvedConnector3 f) := by
  simp [curvedConnector3]

theorem curvedConnector4_extend : curvedConnector4 (extend f) = extend (curvedConnector4 f) := by
  simp [curvedConnector4]

theorem curvedConnector5_extend : curvedConnector5 (extend f) = extend (curvedConnector5 f) := by
  simp [curvedConnector5]

end
end ShapeOutline.Shape
