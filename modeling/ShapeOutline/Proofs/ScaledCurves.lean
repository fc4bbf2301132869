import ShapeOutline.Proofs.ScaledPolygons
import ShapeOutline.Shape.Bracket
import ShapeOutline.Shape.Cloud
import ShapeOutline.Shape.CornerRect
import ShapeOutline.Shape.Emblem
import ShapeOutline.Shape.Flowchart
import ShapeOutline.Shape.Gear
import ShapeOutline.Shape.Wave

/-! The shapes of curves scale with their frame. Radii are lengths; the angles of
an arc are adjustments, or are found from ratios of lengths, and stay. -/

namespace ShapeOutline.Shape
noncomputable section

open Factor

attribute [ext] WaveGuides GearGuides

variable (k : Factor) (f : Frame ℝ)

@[simp] theorem leftBracket_smul : leftBracket (k • f) = k • leftBracket f := by
  simp [leftBracket]

theorem rightBracket_smul : rightBracket (k • f) = k • rightBracket f := by simp [rightBracket]

@[simp] theorem leftBrace_smul : leftBrace (k • f) = k • leftBrace f := by simp [leftBrace]

theorem rightBrace_smul : rightBrace (k • f) = k • rightBrace f := by simp [rightBrace]

theorem bracketPair_smul : bracketPair (k • f) = k • bracketPair f := by simp [bracketPair]

theorem bracePair_smul : bracePair (k • f) = k • bracePair f := by simp [bracePair]

namespace Corner

/-- The distance of a treatment from its corner is a length. -/
instance scaled : SMul Factor (Corner ℝ) where
  smul k
    | square => square
    | snip d => snip (k • d)
    | round d => round (k • d)
    | scoop d => scoop (k • d)

variable (r b d : ℝ) (place : CornerPlace) (c : Corner ℝ)

@[simp] theorem smul_square : k • (square : Corner ℝ) = square := rfl
@[simp] theorem smul_snip : k • snip d = snip (k • d) := rfl
@[simp] theorem smul_round : k • round d = round (k • d) := rfl
@[simp] theorem smul_scoop : k • scoop d = scoop (k • d) := rfl

@[simp] theorem inset_smul : (k • c).inset = k • c.inset := by
  cases c with
  | square => simp [inset]
  | snip d => rfl
  | round d => rfl
  | scoop d => rfl

@[simp] theorem entry_smul : entry (k • r) (k • b) (k • d) place = k • entry r b d place := by
  cases place <;> simp [entry]

@[simp] theorem exit_smul : exit (k • r) (k • b) (k • d) place = k • exit r b d place := by
  cases place <;> simp [exit]

@[simp] theorem treatment_smul :
    (k • c).treatment (k • r) (k • b) place = k • c.treatment r b place := by
  cases c with
  | square => rfl
  | snip d => exact congrArg (fun p => [Stroke.line p]) (exit_smul k r b d place)
  | round d => rfl
  | scoop d => rfl

@[simp] theorem strokes_smul :
    (k • c).strokes (k • r) (k • b) place = k • c.strokes r b place := by
  simp [strokes]

@[simp] theorem last_smul : (k • c).last (k • r) (k • b) = k • c.last r b := by
  cases c with
  | square => rfl
  | snip d => exact congrArg (fun p => [Stroke.line p]) (entry_smul k r b d .topLeft)
  | round d => exact strokes_smul k r b .topLeft (.round d)
  | scoop d => exact strokes_smul k r b .topLeft (.scoop d)

end Corner

namespace CornerRect

@[simps] instance scaled : SMul Factor (CornerRect ℝ) where
  smul k c := ⟨k • c.topLeft, k • c.topRight, k • c.bottomRight, k • c.bottomLeft⟩

variable (a b c d : Corner ℝ) (r : CornerRect ℝ)

@[simp] theorem smul_mk :
    k • (⟨a, b, c, d⟩ : CornerRect ℝ) = ⟨k • a, k • b, k • c, k • d⟩ :=
  rfl

@[simp] theorem smul_uniform : k • uniform c = uniform (k • c) := rfl

@[simp] theorem smul_fromEdge : k • r.fromEdge f = (k • r).fromEdge (k • f) := by
  simp [fromEdge, middle]

@[simp] theorem smul_fromTop : k • r.fromTop f = (k • r).fromTop (k • f) := by
  simp [fromTop, middle]

end CornerRect

@[simp] theorem cornerInset_smul (name : String) (default : ℝ) :
    cornerInset (k • f) name default = k • cornerInset f name default := by
  simp [cornerInset]

theorem roundRect_smul : roundRect (k • f) = k • roundRect f := by simp [roundRect]

theorem plaque_smul : plaque (k • f) = k • plaque f := by simp [plaque]

theorem flowChartAlternateProcess_smul :
    flowChartAlternateProcess (k • f) = k • flowChartAlternateProcess f := by
  simp [flowChartAlternateProcess]

theorem round1Rect_smul : round1Rect (k • f) = k • round1Rect f := by simp [round1Rect]

theorem round2SameRect_smul : round2SameRect (k • f) = k • round2SameRect f := by
  simp [round2SameRect]

theorem round2DiagRect_smul : round2DiagRect (k • f) = k • round2DiagRect f := by
  simp [round2DiagRect]

theorem snip1Rect_smul : snip1Rect (k • f) = k • snip1Rect f := by simp [snip1Rect]

theorem snip2SameRect_smul : snip2SameRect (k • f) = k • snip2SameRect f := by
  simp [snip2SameRect]

theorem snip2DiagRect_smul : snip2DiagRect (k • f) = k • snip2DiagRect f := by
  simp [snip2DiagRect]

theorem snipRoundRect_smul : snipRoundRect (k • f) = k • snipRoundRect f := by
  simp [snipRoundRect]

@[simp] theorem ellipse_smul : ellipse (k • f) = k • ellipse f := by simp [ellipse]

@[simp] theorem rim_smul (start stop : ℝ) : rim (k • f) start stop = k • rim f start stop := by
  simp [rim]

@[simp] theorem holeRadii_smul (thickness : ℝ) :
    holeRadii (k • f) (k • thickness) = k • holeRadii f thickness := by
  simp [holeRadii]

theorem pie_smul : pie (k • f) = k • pie f := by simp [pie]

theorem pieWedge_smul : pieWedge (k • f) = k • pieWedge f := by simp [pieWedge]

theorem chord_smul : chord (k • f) = k • chord f := by simp [chord]

theorem arc_smul : arc (k • f) = k • arc f := by simp [arc]

theorem blockArc_smul : blockArc (k • f) = k • blockArc f := by simp [blockArc]

theorem donut_smul : donut (k • f) = k • donut f := by simp [donut]

/-- Where the bar cuts the hole depends on ratios of lengths. -/
theorem noSmoking_smul : noSmoking (k • f) = k • noSmoking f := by
  have hnorm (hole : Point ℝ) (deg : ℝ) :
      (ellipsePoint .zero (k • hole) deg).norm = k • (ellipsePoint .zero hole deg).norm := by
    have hzero : (.zero : Point ℝ) = k • .zero := by simp [Point.zero]
    rw [← norm_smul, ← ellipsePoint_smul, ← hzero]
  simp [noSmoking, hnorm]

theorem teardrop_smul : teardrop (k • f) = k • teardrop f := by simp [teardrop]

theorem moon_smul : moon (k • f) = k • moon f := by simp [moon, Crescent.ofFrame]

@[simps] instance Tail.scaled : SMul Factor (Tail ℝ) where
  smul k t := ⟨k • t.tip, t.side, t.past⟩

/-- The tail leaves the same part of the same side. -/
@[simp] theorem Tail.ofFrame_smul : ofFrame (k • f) = k • ofFrame f := by
  have hsquare (d side other : ℝ) :
      divOrZero (k • d * k • side) (k • other) = k • divOrZero (d * side) other := by
    simp
  simp only [ofFrame, adjustment_smul, widthPart_smul, heightPart_smul, frame_smul_w, frame_smul_h,
    hsquare, Factor.abs_smul, Factor.smul_lt_smul, hc_smul, vc_smul, Factor.add_smul,
    Factor.smul_pos, Scalar.zero_real]
  split_ifs <;> rfl

theorem wedged_smul (d : ℝ) : wedged (k • f) (k • d) = k • wedged f d := by
  cases hpast : (Tail.ofFrame f).past <;> cases hside : (Tail.ofFrame f).side <;>
    simp [wedged, hpast, hside]

theorem wedgeRectCallout_smul : wedgeRectCallout (k • f) = k • wedgeRectCallout f := by
  have h := wedged_smul k f 0
  rw [smul_zero] at h
  rw [wedgeRectCallout, wedgeRectCallout, Scalar.zero_real, h]

theorem wedgeRoundRectCallout_smul :
    wedgeRoundRectCallout (k • f) = k • wedgeRoundRectCallout f := by
  simp [wedgeRoundRectCallout, wedged_smul]

@[simp] theorem tipAngle_smul (tip : Point ℝ) : tipAngle (k • f) (k • tip) = tipAngle f tip := by
  simp [tipAngle]

theorem wedgeEllipseCallout_smul : wedgeEllipseCallout (k • f) = k • wedgeEllipseCallout f := by
  simp [wedgeEllipseCallout]

theorem bubble_smul (center : Point ℝ) (radius : ℝ) :
    bubble (k • center) (k • radius) = k • bubble center radius := by
  simp [bubble]

theorem cloudCallout_smul : cloudCallout (k • f) = k • cloudCallout f := by
  simp [cloudCallout, cloud, draw_smul, bubble_smul]

theorem heart_smul : heart (k • f) = k • heart f := by simp [heart]

theorem sun_smul : sun (k • f) = k • sun f := by simp [sun]

theorem funnel_smul : funnel (k • f) = k • funnel f := by simp [funnel]

@[simp] theorem tabSize_smul : tabSize (k • f) = k • tabSize f := by simp [tabSize]

theorem cornerTabs_smul : cornerTabs (k • f) = k • cornerTabs f := by simp [cornerTabs]

theorem squareTabs_smul : squareTabs (k • f) = k • squareTabs f := by simp [squareTabs]

theorem plaqueTabs_smul : plaqueTabs (k • f) = k • plaqueTabs f := by simp [plaqueTabs]

theorem chartPlus_smul : chartPlus (k • f) = k • chartPlus f := by simp [chartPlus]

@[simp] theorem chartX_smul : chartX (k • f) = k • chartX f := by simp [chartX]

theorem chartStar_smul : chartStar (k • f) = k • chartStar f := by simp [chartStar]

@[simps] instance WaveGuides.scaled : SMul Factor (WaveGuides ℝ) where
  smul k g := ⟨k • g.top, k • g.bottom, k • g.swing, k • g.leftTop, k • g.rightTop,
    k • g.leftBottom, k • g.rightBottom⟩

@[simp] theorem WaveGuides.ofFrame_smul (defaultHeight mostHeight : ℝ) :
    ofFrame (k • f) defaultHeight mostHeight = k • ofFrame f defaultHeight mostHeight := by
  ext <;> simp [ofFrame]

@[simp] theorem WaveGuides.topPeriod_smul (g : WaveGuides ℝ) (periods : ℕ) :
    (k • g).topPeriod periods = fun i => k • g.topPeriod periods i := by
  funext i
  simp [topPeriod]

@[simp] theorem WaveGuides.bottomPeriod_smul (g : WaveGuides ℝ) (periods : ℕ) :
    (k • g).bottomPeriod periods = fun i => k • g.bottomPeriod periods i := by
  funext i
  simp [bottomPeriod]

theorem waves_smul (periods : ℕ) (defaultHeight mostHeight : ℝ) :
    waves periods defaultHeight mostHeight (k • f) =
      k • waves periods defaultHeight mostHeight f := by
  simp [waves]

/-- Only the ellipse between the teeth is made of lengths. -/
@[simps] instance GearGuides.scaled : SMul Factor (GearGuides ℝ) where
  smul k g := ⟨k • g.root, g.pitch, g.tipHalf, g.rootHalf⟩

@[simp] theorem GearGuides.ofFrame_smul (teeth : ℕ) (defaultHeight defaultTip mostTip : ℝ) :
    ofFrame (k • f) teeth defaultHeight defaultTip mostTip =
      k • ofFrame f teeth defaultHeight defaultTip mostTip := by
  ext <;> simp [ofFrame]

@[simp] theorem GearGuides.tooth_smul (g : GearGuides ℝ) :
    (k • g).tooth (k • f) = fun i => k • g.tooth f i := by
  funext i
  simp [tooth, middle]

theorem gear_smul (teeth : ℕ) (defaultHeight defaultTip mostTip : ℝ) :
    gear teeth defaultHeight defaultTip mostTip (k • f) =
      k • gear teeth defaultHeight defaultTip mostTip f := by
  simp [gear]

namespace Flowchart

@[simp] theorem smul_segment (a b : Point ℝ) : k • segment a b = segment (k • a) (k • b) := rfl

@[simp] theorem box_smul : box (k • f) = k • box f := by simp [box]

theorem process_smul : process (k • f) = k • process f := by simp [process]

theorem predefinedProcess_smul : predefinedProcess (k • f) = k • predefinedProcess f := by
  simp [predefinedProcess]

theorem internalStorage_smul : internalStorage (k • f) = k • internalStorage f := by
  simp [internalStorage]

theorem connector_smul : connector (k • f) = k • connector f := by simp [connector]

theorem summingJunction_smul : summingJunction (k • f) = k • summingJunction f := by
  simp [summingJunction]

theorem or_smul : or (k • f) = k • or f := by simp [or]

theorem magneticTape_smul : magneticTape (k • f) = k • magneticTape f := by simp [magneticTape]

theorem delay_smul : delay (k • f) = k • delay f := by simp [delay]

end Flowchart

end
end ShapeOutline.Shape
