import ShapeOutline.Proofs.Factor
import ShapeOutline.Shape.CircularArrow

/-! Circular arrows scale with their frame. An arrow is solved on a circle whose
radius is a length, so its corners scale, and every angle of the solution stays.
The stretch from the circle to the frame has no unit, whatever the frame. -/

namespace ShapeOutline.Shape
noncomputable section

open Factor

attribute [ext] BandRadii ArcHead Oval CircularSolution

variable (k : Factor) (f : Frame ℝ)

@[simps] instance BandRadii.scaled : SMul Factor (BandRadii ℝ) where
  smul k r := ⟨k • r.bandOuter, k • r.bandInner, k • r.headOuter, k • r.headInner, k • r.mid⟩

@[simp] theorem BandRadii.ofFrame_smul (defaultBand defaultHead : ℝ) :
    ofFrame (k • f) defaultBand defaultHead = k • ofFrame f defaultBand defaultHead := by
  ext <;> simp [ofFrame]

section Heads

variable (base tip : Point ℝ)

@[simp] theorem outwardNormal_smul :
    outwardNormal (k • base) (k • tip) = outwardNormal base tip := by
  have hacross : (⟨-(k • tip - k • base).y, (k • tip - k • base).x⟩ : Point ℝ).direction =
      (⟨-(tip - base).y, (tip - base).x⟩ : Point ℝ).direction := by
    simp
  unfold outwardNormal
  simp only [hacross, direction_smul, dot_smul, Scalar.zero_real, smul_neg_iff]

/-- The base line of a head meets a circle of the scaled radius at the scaled point. -/
theorem headCorner_smul (deg r : ℝ) :
    headCorner (k • base) (k • tip) deg (k • r) = k • headCorner base tip deg r := by
  simp only [headCorner, outwardNormal_smul, circleCrossings_smul]
  cases Point.circleCrossings base (outwardNormal base tip) r with
  | none => exact k.point_mul_smul ..
  | some c => simp

@[simps] instance ArcHead.scaled : SMul Factor (ArcHead ℝ) where
  smul k a := ⟨k • a.tip, k • a.outerHead, k • a.outerBand, k • a.innerBand, k • a.innerHead⟩

@[simp] theorem ArcHead.solve_smul (radii : BandRadii ℝ) (baseDeg tipDeg : ℝ) :
    solve (k • radii) baseDeg tipDeg = k • solve radii baseDeg tipDeg := by
  ext <;> simp [solve, headCorner_smul]

end Heads

/-- The angles are adjustments. -/
@[simp] theorem Turn.ofFrame_smul (c : CircularKind ℝ) : ofFrame c (k • f) = ofFrame c f := rfl

@[simps] instance CircularSolution.scaled : SMul Factor (CircularSolution ℝ) where
  smul k c :=
    { c with
      radii := k • c.radii, front := k • c.front, tail := k • c.tail
      outerStart := k • c.outerStart, innerStart := k • c.innerStart }

theorem CircularSolution.ofFrame_smul (c : CircularKind ℝ) :
    ofFrame c (k • f) = k • ofFrame c f := by
  cases h : c.doubleHeaded <;> ext <;> simp [ofFrame, h]

/-- The centre is a point of the frame; the scale compares its sides. -/
@[simps] instance Oval.scaled : SMul Factor (Oval ℝ) where
  smul k s := ⟨k • s.center, s.scale, s.flip⟩

theorem Oval.ofFrame_smul (flip : Bool) : ofFrame (k • f) flip = k • ofFrame f flip := by
  ext <;> simp [ofFrame]

theorem Oval.point_smul (s : Oval ℝ) (q : Point ℝ) : (k • s).point (k • q) = k • s.point q := by
  have hq : (if s.flip then (⟨(k • q).x, -(k • q).y⟩ : Point ℝ) else k • q) =
      k • if s.flip then (⟨q.x, -q.y⟩ : Point ℝ) else q := by
    split_ifs <;> simp
  unfold point
  rw [scaled_smul_flip, hq, scaled_smul_center, scaled_smul_scale, smul_stretch, add_point]

theorem Oval.arc_smul (s : Oval ℝ) (r start sweep : ℝ) :
    (k • s).arc (k • r) start sweep = k • s.arc r start sweep := by
  simp [arc, signed]

theorem circularArrowOf_smul (c : CircularKind ℝ) :
    circularArrowOf c (k • f) = k • circularArrowOf c f := by
  unfold circularArrowOf
  rw [CircularSolution.ofFrame_smul, Oval.ofFrame_smul]
  cases h : (CircularSolution.ofFrame c f).tail <;> simp [h, Oval.point_smul, Oval.arc_smul]

end
end ShapeOutline.Shape
