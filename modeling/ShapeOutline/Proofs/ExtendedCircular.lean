import ShapeOutline.Proofs.Extension
import ShapeOutline.Proofs.ScaledCircular

/-! A circular arrow leaves no operation's domain. A base line that misses a circle
gives a point of the circle in the place of a crossing, and a frame without a short
side has no stretch instead of an undefined one. -/

namespace ShapeOutline.Shape
noncomputable section

open Extended

variable (f : Frame ℝ) (deg : ℝ)

@[simp] theorem unitAt_extend : unitAt (extend deg) = extend (unitAt deg) := by simp [unitAt]

@[simp] theorem foldTurn_extend : foldTurn (extend deg) = extend (foldTurn deg) := by
  simp [foldTurn]

@[simps] instance BandRadii.extended : Extend (BandRadii ℝ) (BandRadii Extended) where
  extend r :=
    ⟨extend r.bandOuter, extend r.bandInner, extend r.headOuter, extend r.headInner, extend r.mid⟩

@[simp] theorem BandRadii.ofFrame_extend (defaultBand defaultHead : ℝ) :
    ofFrame (extend f) (extend defaultBand) (extend defaultHead) =
      extend (ofFrame f defaultBand defaultHead) := by
  ext <;> simp [ofFrame]

section Heads

variable (base tip : Point ℝ)

@[simp] theorem outwardNormal_extend :
    outwardNormal (extend base) (extend tip) = extend (outwardNormal base tip) := by
  simp [outwardNormal]

@[simp] theorem headCorner_extend (r : ℝ) :
    headCorner (extend base) (extend tip) (extend deg) (extend r) =
      extend (headCorner base tip deg r) := by
  simp only [headCorner, outwardNormal_extend, circleCrossings_extend]
  cases Point.circleCrossings base (outwardNormal base tip) r <;> simp

@[simps] instance ArcHead.extended : Extend (ArcHead ℝ) (ArcHead Extended) where
  extend a :=
    ⟨extend a.tip, extend a.outerHead, extend a.outerBand, extend a.innerBand, extend a.innerHead⟩

@[simp] theorem ArcHead.solve_extend (radii : BandRadii ℝ) (baseDeg tipDeg : ℝ) :
    solve (extend radii) (extend baseDeg) (extend tipDeg) =
      extend (solve radii baseDeg tipDeg) := by
  ext <;> simp [solve]

end Heads

@[simps] instance CircularKind.extended : Extend (CircularKind ℝ) (CircularKind Extended) where
  extend c :=
    { c with
      band := extend c.band, headSweep := extend c.headSweep, stop := extend c.stop
      start := extend c.start, head := extend c.head }

@[simp] theorem CircularKind.mk_extend (counterclockwise doubleHeaded : Bool)
    (band headSweep stop start head : ℝ) :
    (⟨counterclockwise, doubleHeaded, extend band, extend headSweep, extend stop, extend start,
        extend head⟩ : CircularKind Extended) =
      extend (⟨counterclockwise, doubleHeaded, band, headSweep, stop, start, head⟩ :
        CircularKind ℝ) :=
  rfl

@[simps] instance Turn.extended : Extend (Turn ℝ) (Turn Extended) where
  extend t := ⟨extend t.start, extend t.sweep, extend t.head⟩

@[simp] theorem Turn.base_extend (t : Turn ℝ) : (extend t).base = extend t.base := by simp [base]

@[simp] theorem Turn.mk_extend (start sweep head : ℝ) :
    (⟨extend start, extend sweep, extend head⟩ : Turn Extended) =
      extend (⟨start, sweep, head⟩ : Turn ℝ) :=
  rfl

/-- The sweep is divided among one head or two. -/
@[simp] theorem Turn.ofFrame_extend (c : CircularKind ℝ) :
    ofFrame (extend c) (extend f) = extend (ofFrame c f) := by
  cases hc : c.counterclockwise <;> cases hd : c.doubleHeaded <;> simp [ofFrame, hc, hd]

@[simps] instance CircularSolution.extended :
    Extend (CircularSolution ℝ) (CircularSolution Extended) where
  extend c :=
    { radii := extend c.radii, front := extend c.front, tail := extend c.tail
      outerStart := extend c.outerStart, innerStart := extend c.innerStart
      outerFrom := extend c.outerFrom, outerSweep := extend c.outerSweep
      innerFrom := extend c.innerFrom, innerSweep := extend c.innerSweep }

theorem CircularSolution.ofFrame_extend (c : CircularKind ℝ) :
    ofFrame (extend c) (extend f) = extend (ofFrame c f) := by
  cases h : c.doubleHeaded <;> ext <;> simp [ofFrame, h]

@[simps] instance Oval.extended : Extend (Oval ℝ) (Oval Extended) where
  extend s := ⟨extend s.center, extend s.scale, s.flip⟩

theorem Oval.ofFrame_extend (flip : Bool) :
    ofFrame (extend f) flip = extend (ofFrame f flip) := by
  by_cases h : 0 < f.ss / 2
  · ext <;> simp [ofFrame, h, h.ne']
  · ext <;> simp [ofFrame, h]

@[simp] theorem Oval.point_extend (s : Oval ℝ) (q : Point ℝ) :
    (extend s).point (extend q) = extend (s.point q) := by
  cases h : s.flip <;> simp [point, h]

@[simp] theorem Oval.arc_extend (s : Oval ℝ) (r start sweep : ℝ) :
    (extend s).arc (extend r) (extend start) (extend sweep) = extend (s.arc r start sweep) := by
  cases h : s.flip <;> simp [arc, signed, h]

theorem circularArrowOf_extend (c : CircularKind ℝ) :
    circularArrowOf (extend c) (extend f) = extend (circularArrowOf c f) := by
  unfold circularArrowOf
  rw [CircularSolution.ofFrame_extend, CircularKind.extended_extend_counterclockwise,
    Oval.ofFrame_extend]
  cases h : (CircularSolution.ofFrame c f).tail <;> simp [h]

theorem circularArrow_extend : circularArrow (extend f) = extend (circularArrow f) := by
  simp [circularArrow, circularArrowOf_extend]

theorem leftCircularArrow_extend : leftCircularArrow (extend f) = extend (leftCircularArrow f) := by
  simp [leftCircularArrow, circularArrowOf_extend]

theorem leftRightCircularArrow_extend :
    leftRightCircularArrow (extend f) = extend (leftRightCircularArrow f) := by
  simp [leftRightCircularArrow, circularArrowOf_extend]

end
end ShapeOutline.Shape
