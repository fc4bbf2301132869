import ShapeOutline.Proofs.ExtendedPolygons
import ShapeOutline.Proofs.ScaledCurves

/-! The shapes of curves leave no operation's domain. An angle is found from two
coordinates and never from their quotient, and a quotient of lengths is guarded. -/

namespace ShapeOutline.Shape
noncomputable section

open Extended

variable (f : Frame ℝ)

@[simp] theorem leftBracket_extend : leftBracket (extend f) = extend (leftBracket f) := by
  simp [leftBracket]

theorem rightBracket_extend : rightBracket (extend f) = extend (rightBracket f) := by
  simp [rightBracket]

@[simp] theorem leftBrace_extend : leftBrace (extend f) = extend (leftBrace f) := by
  simp [leftBrace]

theorem rightBrace_extend : rightBrace (extend f) = extend (rightBrace f) := by simp [rightBrace]

theorem bracketPair_extend : bracketPair (extend f) = extend (bracketPair f) := by
  simp [bracketPair]

theorem bracePair_extend : bracePair (extend f) = extend (bracePair f) := by simp [bracePair]

namespace Corner

instance extended : Extend (Corner ℝ) (Corner Extended) where
  extend
    | square => square
    | snip d => snip (extend d)
    | round d => round (extend d)
    | scoop d => scoop (extend d)

variable (r b d : ℝ) (place : CornerPlace) (c : Corner ℝ)

@[simp] theorem extend_square : extend (square : Corner ℝ) = square := rfl
@[simp] theorem extend_snip : extend (snip d) = snip (extend d) := rfl
@[simp] theorem extend_round : extend (round d) = round (extend d) := rfl
@[simp] theorem extend_scoop : extend (scoop d) = scoop (extend d) := rfl

@[simp] theorem inset_extend : (extend c).inset = extend c.inset := by
  cases c with
  | square => simp [inset]
  | snip d => rfl
  | round d => rfl
  | scoop d => rfl

@[simp] theorem entry_extend :
    entry (extend r) (extend b) (extend d) place = extend (entry r b d place) := by
  cases place <;> simp [entry]

@[simp] theorem exit_extend :
    exit (extend r) (extend b) (extend d) place = extend (exit r b d place) := by
  cases place <;> simp [exit]

@[simp] theorem treatment_extend :
    (extend c).treatment (extend r) (extend b) place = extend (c.treatment r b place) := by
  cases c with
  | square => rfl
  | snip d => simp [treatment]
  | round d => cases place <;> simp [treatment, roundStart]
  | scoop d => cases place <;> simp [treatment, scoopStart]

@[simp] theorem strokes_extend :
    (extend c).strokes (extend r) (extend b) place = extend (c.strokes r b place) := by
  simp [strokes]

@[simp] theorem last_extend : (extend c).last (extend r) (extend b) = extend (c.last r b) := by
  cases c with
  | square => rfl
  | snip d => simp [last]
  | round d => exact strokes_extend r b .topLeft (.round d)
  | scoop d => exact strokes_extend r b .topLeft (.scoop d)

end Corner

namespace CornerRect

@[simps] instance extended : Extend (CornerRect ℝ) (CornerRect Extended) where
  extend c := ⟨extend c.topLeft, extend c.topRight, extend c.bottomRight, extend c.bottomLeft⟩

variable (a b c d : Corner ℝ) (r : CornerRect ℝ)

@[simp] theorem extend_mk :
    extend (⟨a, b, c, d⟩ : CornerRect ℝ) = ⟨extend a, extend b, extend c, extend d⟩ :=
  rfl

@[simp] theorem extend_uniform : extend (uniform c) = uniform (extend c) := rfl

@[simp] theorem extend_fromEdge : extend (r.fromEdge f) = (extend r).fromEdge (extend f) := by
  simp [fromEdge, middle]

@[simp] theorem extend_fromTop : extend (r.fromTop f) = (extend r).fromTop (extend f) := by
  simp [fromTop, middle]

end CornerRect

@[simp] theorem cornerInset_extend (name : String) (default : ℝ) :
    cornerInset (extend f) name (extend default) = extend (cornerInset f name default) := by
  simp [cornerInset]

theorem roundRect_extend : roundRect (extend f) = extend (roundRect f) := by simp [roundRect]

theorem plaque_extend : plaque (extend f) = extend (plaque f) := by simp [plaque]

theorem flowChartAlternateProcess_extend :
    flowChartAlternateProcess (extend f) = extend (flowChartAlternateProcess f) := by
  simp [flowChartAlternateProcess]

theorem round1Rect_extend : round1Rect (extend f) = extend (round1Rect f) := by simp [round1Rect]

theorem round2SameRect_extend : round2SameRect (extend f) = extend (round2SameRect f) := by
  simp [round2SameRect]

theorem round2DiagRect_extend : round2DiagRect (extend f) = extend (round2DiagRect f) := by
  simp [round2DiagRect]

theorem snip1Rect_extend : snip1Rect (extend f) = extend (snip1Rect f) := by simp [snip1Rect]

theorem snip2SameRect_extend : snip2SameRect (extend f) = extend (snip2SameRect f) := by
  simp [snip2SameRect]

theorem snip2DiagRect_extend : snip2DiagRect (extend f) = extend (snip2DiagRect f) := by
  simp [snip2DiagRect]

theorem snipRoundRect_extend : snipRoundRect (extend f) = extend (snipRoundRect f) := by
  simp [snipRoundRect]

@[simp] theorem ellipse_extend : ellipse (extend f) = extend (ellipse f) := by simp [ellipse]

@[simp] theorem rim_extend (start stop : ℝ) :
    rim (extend f) (extend start) (extend stop) = extend (rim f start stop) := by
  simp [rim]

@[simp] theorem holeRadii_extend (thickness : ℝ) :
    holeRadii (extend f) (extend thickness) = extend (holeRadii f thickness) := by
  simp [holeRadii]

theorem pie_extend : pie (extend f) = extend (pie f) := by simp [pie]

theorem pieWedge_extend : pieWedge (extend f) = extend (pieWedge f) := by simp [pieWedge]

theorem chord_extend : chord (extend f) = extend (chord f) := by simp [chord]

theorem arc_extend : arc (extend f) = extend (arc f) := by simp [arc]

theorem blockArc_extend : blockArc (extend f) = extend (blockArc f) := by simp [blockArc]

theorem donut_extend : donut (extend f) = extend (donut f) := by simp [donut]

theorem noSmoking_extend : noSmoking (extend f) = extend (noSmoking f) := by simp [noSmoking]

theorem teardrop_extend : teardrop (extend f) = extend (teardrop f) := by simp [teardrop]

/-- The inner arc of a crescent without a short side has no quotient to be found from. -/
theorem moon_extend : moon (extend f) = extend (moon f) := by simp [moon, Crescent.ofFrame]

@[simps] instance Tail.extended : Extend (Tail ℝ) (Tail Extended) where
  extend t := ⟨extend t.tip, t.side, t.past⟩

@[simp] theorem Tail.mk_extend (tip : Point ℝ) (side : Side) (past : Bool) :
    (⟨extend tip, side, past⟩ : Tail Extended) = extend (⟨tip, side, past⟩ : Tail ℝ) :=
  rfl

@[simp] theorem Tail.ofFrame_extend : ofFrame (extend f) = extend (ofFrame f) := by
  simp [ofFrame]

theorem wedged_extend (d : ℝ) : wedged (extend f) (extend d) = extend (wedged f d) := by
  cases hpast : (Tail.ofFrame f).past <;> cases hside : (Tail.ofFrame f).side <;>
    simp [wedged, hpast, hside]

theorem wedgeRectCallout_extend : wedgeRectCallout (extend f) = extend (wedgeRectCallout f) := by
  simp [wedgeRectCallout, wedged_extend]

theorem wedgeRoundRectCallout_extend :
    wedgeRoundRectCallout (extend f) = extend (wedgeRoundRectCallout f) := by
  simp [wedgeRoundRectCallout, wedged_extend]

@[simp] theorem tipAngle_extend (tip : Point ℝ) :
    tipAngle (extend f) (extend tip) = extend (tipAngle f tip) := by
  simp [tipAngle]

theorem wedgeEllipseCallout_extend :
    wedgeEllipseCallout (extend f) = extend (wedgeEllipseCallout f) := by
  simp [wedgeEllipseCallout]

theorem cloud_extend : cloud (extend f) = extend (cloud f) := by
  refine symbol_extend f ?_ ?_ ?_ <;> simp [cloudSymbol, puff]

theorem bubble_extend (center : Point ℝ) (radius : ℝ) :
    bubble (extend center) (extend radius) = extend (bubble center radius) := by
  simp [bubble]

theorem cloudCallout_extend : cloudCallout (extend f) = extend (cloudCallout f) := by
  simp [cloudCallout, cloud_extend, bubble_extend]

theorem heart_extend : heart (extend f) = extend (heart f) := by simp [heart]

theorem lightningBolt_extend : lightningBolt (extend f) = extend (lightningBolt f) := by
  refine symbol_extend f ?_ ?_ ?_ <;> simp [boltSymbol]

theorem sun_extend : sun (extend f) = extend (sun f) := by simp [sun]

theorem funnel_extend : funnel (extend f) = extend (funnel f) := by simp [funnel]

@[simp] theorem tabSize_extend : tabSize (extend f) = extend (tabSize f) := by simp [tabSize]

theorem cornerTabs_extend : cornerTabs (extend f) = extend (cornerTabs f) := by simp [cornerTabs]

theorem squareTabs_extend : squareTabs (extend f) = extend (squareTabs f) := by simp [squareTabs]

theorem plaqueTabs_extend : plaqueTabs (extend f) = extend (plaqueTabs f) := by simp [plaqueTabs]

theorem chartPlus_extend : chartPlus (extend f) = extend (chartPlus f) := by simp [chartPlus]

@[simp] theorem chartX_extend : chartX (extend f) = extend (chartX f) := by simp [chartX]

theorem chartStar_extend : chartStar (extend f) = extend (chartStar f) := by simp [chartStar]

@[simps] instance WaveGuides.extended : Extend (WaveGuides ℝ) (WaveGuides Extended) where
  extend g := ⟨extend g.top, extend g.bottom, extend g.swing, extend g.leftTop, extend g.rightTop,
    extend g.leftBottom, extend g.rightBottom⟩

@[simp] theorem WaveGuides.ofFrame_extend (defaultHeight mostHeight : ℝ) :
    ofFrame (extend f) (extend defaultHeight) (extend mostHeight) =
      extend (ofFrame f defaultHeight mostHeight) := by
  ext <;> simp [ofFrame]

section Periods

variable (g : WaveGuides ℝ) {periods : ℕ} (hperiods : periods ≠ 0)
include hperiods

theorem WaveGuides.topPeriod_extend (i : ℕ) :
    (extend g).topPeriod periods i = extend (g.topPeriod periods i) := by
  have hspan : (Scalar.ofNat periods : ℝ) ≠ 0 := Nat.cast_ne_zero.2 hperiods
  simp [topPeriod, hspan]

theorem WaveGuides.bottomPeriod_extend (i : ℕ) :
    (extend g).bottomPeriod periods i = extend (g.bottomPeriod periods i) := by
  have hspan : (Scalar.ofNat periods : ℝ) ≠ 0 := Nat.cast_ne_zero.2 hperiods
  simp [bottomPeriod, hspan]

/-- A chain of no cubics would divide its width by zero. -/
theorem waves_extend (defaultHeight mostHeight : ℝ) :
    waves periods (extend defaultHeight) (extend mostHeight) (extend f) =
      extend (waves periods defaultHeight mostHeight f) := by
  simp [waves, funext (WaveGuides.topPeriod_extend _ hperiods),
    funext (WaveGuides.bottomPeriod_extend _ hperiods)]

end Periods

@[simps] instance GearGuides.extended : Extend (GearGuides ℝ) (GearGuides Extended) where
  extend g := ⟨extend g.root, extend g.pitch, extend g.tipHalf, extend g.rootHalf⟩

/-- The half angle of a tooth is the arc sine of a ratio that is clamped before. -/
theorem GearGuides.ofFrame_extend {teeth : ℕ} (hteeth : teeth ≠ 0)
    (defaultHeight defaultTip mostTip : ℝ) :
    ofFrame (extend f) teeth (extend defaultHeight) (extend defaultTip) (extend mostTip) =
      extend (ofFrame f teeth defaultHeight defaultTip mostTip) := by
  have hpitch : (Scalar.ofNat teeth : ℝ) ≠ 0 := Nat.cast_ne_zero.2 hteeth
  have hasin (x : ℝ) : Scalar.asin (extend (Scalar.clamp 0 1 x)) =
      extend (Scalar.asin (Scalar.clamp 0 1 x)) := by
    have hclamp : 0 ≤ Scalar.clamp 0 1 x ∧ Scalar.clamp 0 1 x ≤ 1 := by
      unfold Scalar.clamp
      split_ifs <;> grind
    exact asin_extend _ (by linarith [hclamp.1]) hclamp.2
  ext <;> simp [ofFrame, hpitch, hasin]

theorem GearGuides.tooth_extend (g : GearGuides ℝ) (i : ℕ) :
    (extend g).tooth (extend f) i = extend (g.tooth f i) := by
  simp [tooth, middle]

theorem gear_extend {teeth : ℕ} (hteeth : teeth ≠ 0) (defaultHeight defaultTip mostTip : ℝ) :
    gear teeth (extend defaultHeight) (extend defaultTip) (extend mostTip) (extend f) =
      extend (gear teeth defaultHeight defaultTip mostTip f) := by
  simp [gear, GearGuides.ofFrame_extend _ hteeth, funext (GearGuides.tooth_extend f _)]

namespace Flowchart

@[simp] theorem extend_segment (a b : Point ℝ) :
    extend (segment a b) = segment (extend a) (extend b) :=
  rfl

@[simp] theorem box_extend : box (extend f) = extend (box f) := by simp [box]

theorem process_extend : process (extend f) = extend (process f) := by simp [process]

theorem predefinedProcess_extend : predefinedProcess (extend f) = extend (predefinedProcess f) := by
  simp [predefinedProcess]

theorem internalStorage_extend : internalStorage (extend f) = extend (internalStorage f) := by
  simp [internalStorage]

theorem connector_extend : connector (extend f) = extend (connector f) := by simp [connector]

theorem summingJunction_extend : summingJunction (extend f) = extend (summingJunction f) := by
  simp [summingJunction]

theorem or_extend : or (extend f) = extend (or f) := by simp [or]

theorem magneticTape_extend : magneticTape (extend f) = extend (magneticTape f) := by
  simp [magneticTape]

theorem delay_extend : delay (extend f) = extend (delay f) := by simp [delay]

theorem decision_extend : decision (extend f) = extend (decision f) := by
  refine symbol_extend f ?_ ?_ ?_ <;> simp [decisionSymbol]

theorem inputOutput_extend : inputOutput (extend f) = extend (inputOutput f) := by
  refine symbol_extend f ?_ ?_ ?_ <;> simp [inputOutputSymbol]

theorem document_extend : document (extend f) = extend (document f) := by
  refine symbol_extend f ?_ ?_ ?_ <;> simp [documentSymbol]

theorem multidocument_extend : multidocument (extend f) = extend (multidocument f) := by
  refine symbol_extend f ?_ ?_ ?_ <;> simp [multidocumentSymbol]

theorem terminator_extend : terminator (extend f) = extend (terminator f) := by
  refine symbol_extend f ?_ ?_ ?_ <;> simp [terminatorSymbol]

theorem preparation_extend : preparation (extend f) = extend (preparation f) := by
  refine symbol_extend f ?_ ?_ ?_ <;> simp [preparationSymbol]

theorem manualInput_extend : manualInput (extend f) = extend (manualInput f) := by
  refine symbol_extend f ?_ ?_ ?_ <;> simp [manualInputSymbol]

theorem manualOperation_extend : manualOperation (extend f) = extend (manualOperation f) := by
  refine symbol_extend f ?_ ?_ ?_ <;> simp [manualOperationSymbol]

theorem offpageConnector_extend : offpageConnector (extend f) = extend (offpageConnector f) := by
  refine symbol_extend f ?_ ?_ ?_ <;> simp [offpageConnectorSymbol]

theorem punchedCard_extend : punchedCard (extend f) = extend (punchedCard f) := by
  refine symbol_extend f ?_ ?_ ?_ <;> simp [punchedCardSymbol]

theorem punchedTape_extend : punchedTape (extend f) = extend (punchedTape f) := by
  refine symbol_extend f ?_ ?_ ?_ <;> simp [punchedTapeSymbol]

theorem collate_extend : collate (extend f) = extend (collate f) := by
  refine symbol_extend f ?_ ?_ ?_ <;> simp [collateSymbol]

theorem sort_extend : sort (extend f) = extend (sort f) := by
  refine symbol_extend f ?_ ?_ ?_ <;> simp [sortSymbol]

theorem extract_extend : extract (extend f) = extend (extract f) := by
  refine symbol_extend f ?_ ?_ ?_ <;> simp [extractSymbol]

theorem merge_extend : merge (extend f) = extend (merge f) := by
  refine symbol_extend f ?_ ?_ ?_ <;> simp [mergeSymbol]

theorem offlineStorage_extend : offlineStorage (extend f) = extend (offlineStorage f) := by
  refine symbol_extend f ?_ ?_ ?_ <;> simp [offlineStorageSymbol]

theorem onlineStorage_extend : onlineStorage (extend f) = extend (onlineStorage f) := by
  refine symbol_extend f ?_ ?_ ?_ <;> simp [onlineStorageSymbol]

theorem magneticDisk_extend : magneticDisk (extend f) = extend (magneticDisk f) := by
  refine symbol_extend f ?_ ?_ ?_ <;> simp [magneticDiskSymbol]

theorem magneticDrum_extend : magneticDrum (extend f) = extend (magneticDrum f) := by
  refine symbol_extend f ?_ ?_ ?_ <;> simp [magneticDrumSymbol]

theorem display_extend : display (extend f) = extend (display f) := by
  refine symbol_extend f ?_ ?_ ?_ <;> simp [displaySymbol]

end Flowchart

end
end ShapeOutline.Shape
