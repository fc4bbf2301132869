import Mathlib
import ShapeOutline.Drawing
import ShapeOutline.Proofs.ExtendedCircular
import ShapeOutline.Proofs.ExtendedCurves
import ShapeOutline.Proofs.ExtendedLayers

/-! No preset leaves the domain of an operation: whatever the sides of the frame and
whatever finite adjustments it has, nothing undefined is written. -/

namespace ShapeOutline
noncomputable section

open Extended

variable (f : Frame ℝ)

section Shapes

open Shape

theorem Preset.sketch_extend (p : Preset) : p.sketch (extend f) = extend (p.sketch f) := by
  cases p with
  | rect => exact rect_extend f
  | roundRect => exact roundRect_extend f
  | ellipse => exact ellipse_extend f
  | triangle => exact triangle_extend f
  | rtTriangle => exact rtTriangle_extend f
  | diamond => exact diamond_extend f
  | parallelogram => exact parallelogram_extend f
  | trapezoid => exact trapezoid_extend f
  | nonIsoscelesTrapezoid => exact nonIsoscelesTrapezoid_extend f
  | pentagon => exact pentagon_extend f
  | hexagon => exact hexagon_extend f
  | heptagon => exact heptagon_extend f
  | octagon => exact octagon_extend f
  | decagon => exact decagon_extend f
  | dodecagon => exact dodecagon_extend f
  | plus => exact plus_extend f
  | frame => exact frame_extend f
  | halfFrame => exact halfFrame_extend f
  | corner => exact corner_extend f
  | diagStripe => exact diagStripe_extend f
  | homePlate => exact homePlate_extend f
  | chevron => exact chevron_extend f
  | plaque => exact plaque_extend f
  | round1Rect => exact round1Rect_extend f
  | round2SameRect => exact round2SameRect_extend f
  | round2DiagRect => exact round2DiagRect_extend f
  | snip1Rect => exact snip1Rect_extend f
  | snip2SameRect => exact snip2SameRect_extend f
  | snip2DiagRect => exact snip2DiagRect_extend f
  | snipRoundRect => exact snipRoundRect_extend f
  | pie => exact pie_extend f
  | pieWedge => exact pieWedge_extend f
  | chord => exact chord_extend f
  | arc => exact arc_extend f
  | blockArc => exact blockArc_extend f
  | donut => exact donut_extend f
  | noSmoking => exact noSmoking_extend f
  | teardrop => exact teardrop_extend f
  | moon => exact moon_extend f
  | star4 => exact star4_extend f
  | star5 | star6 | star7 | star8 | star10 | star12 | star16 | star24 | star32 =>
    simp [sketch, Shape.star5, Shape.star6, Shape.star7, Shape.star8, Shape.star10, Shape.star12,
      Shape.star16, Shape.star24, Shape.star32, star_extend]
  | irregularSeal1 => exact irregularSeal1_extend f
  | irregularSeal2 => exact irregularSeal2_extend f
  | flowChartDecision => exact Flowchart.decision_extend f
  | flowChartInputOutput => exact Flowchart.inputOutput_extend f
  | flowChartDocument => exact Flowchart.document_extend f
  | flowChartMultidocument => exact Flowchart.multidocument_extend f
  | flowChartTerminator => exact Flowchart.terminator_extend f
  | flowChartPreparation => exact Flowchart.preparation_extend f
  | flowChartManualInput => exact Flowchart.manualInput_extend f
  | flowChartManualOperation => exact Flowchart.manualOperation_extend f
  | flowChartOffpageConnector => exact Flowchart.offpageConnector_extend f
  | flowChartPunchedCard => exact Flowchart.punchedCard_extend f
  | flowChartPunchedTape => exact Flowchart.punchedTape_extend f
  | flowChartCollate => exact Flowchart.collate_extend f
  | flowChartSort => exact Flowchart.sort_extend f
  | flowChartExtract => exact Flowchart.extract_extend f
  | flowChartMerge => exact Flowchart.merge_extend f
  | flowChartOfflineStorage => exact Flowchart.offlineStorage_extend f
  | flowChartOnlineStorage => exact Flowchart.onlineStorage_extend f
  | flowChartMagneticDisk => exact Flowchart.magneticDisk_extend f
  | flowChartMagneticDrum => exact Flowchart.magneticDrum_extend f
  | flowChartDisplay => exact Flowchart.display_extend f
  | lightningBolt => exact lightningBolt_extend f
  | cloud => exact cloud_extend f
  | rightArrow | leftArrow | upArrow | downArrow => exact blockArrow_extend f _
  | leftRightArrow | upDownArrow => exact twoHeadedArrow_extend f _
  | quadArrow => exact quadArrow_extend f
  | leftRightUpArrow => exact leftRightUpArrow_extend f
  | leftUpArrow => exact leftUpArrow_extend f
  | bentUpArrow => exact bentUpArrow_extend f
  | bentArrow => exact bentArrow_extend f
  | uturnArrow => exact uturnArrow_extend f
  | stripedRightArrow => exact stripedRightArrow_extend f
  | notchedRightArrow => exact notchedRightArrow_extend f
  | swooshArrow => exact swooshArrow_extend f
  | rightArrowCallout | leftArrowCallout | upArrowCallout | downArrowCallout =>
    exact arrowCallout_extend f _
  | leftRightArrowCallout | upDownArrowCallout => exact twoHeadedCallout_extend f _
  | quadArrowCallout => exact quadArrowCallout_extend f
  | circularArrow => exact circularArrow_extend f
  | leftCircularArrow => exact leftCircularArrow_extend f
  | leftRightCircularArrow => exact leftRightCircularArrow_extend f
  | wedgeRectCallout => exact wedgeRectCallout_extend f
  | wedgeRoundRectCallout => exact wedgeRoundRectCallout_extend f
  | wedgeEllipseCallout => exact wedgeEllipseCallout_extend f
  | cloudCallout => exact cloudCallout_extend f
  | flowChartProcess => exact Flowchart.process_extend f
  | flowChartAlternateProcess => exact flowChartAlternateProcess_extend f
  | flowChartPredefinedProcess => exact Flowchart.predefinedProcess_extend f
  | flowChartInternalStorage => exact Flowchart.internalStorage_extend f
  | flowChartConnector => exact Flowchart.connector_extend f
  | flowChartSummingJunction => exact Flowchart.summingJunction_extend f
  | flowChartOr => exact Flowchart.or_extend f
  | flowChartMagneticTape => exact Flowchart.magneticTape_extend f
  | flowChartDelay => exact Flowchart.delay_extend f
  | mathPlus => exact mathPlus_extend f
  | mathMinus => exact mathMinus_extend f
  | mathMultiply => exact mathMultiply_extend f
  | mathDivide => exact mathDivide_extend f
  | mathEqual => exact mathEqual_extend f
  | mathNotEqual => exact mathNotEqual_extend f
  | line | lineInv | straightConnector1 => exact diagonal_extend f _
  | bentConnector2 => exact bentConnector2_extend f
  | bentConnector3 => exact bentConnector3_extend f
  | bentConnector4 => exact bentConnector4_extend f
  | bentConnector5 => exact bentConnector5_extend f
  | curvedConnector2 => exact curvedConnector2_extend f
  | curvedConnector3 => exact curvedConnector3_extend f
  | curvedConnector4 => exact curvedConnector4_extend f
  | curvedConnector5 => exact curvedConnector5_extend f
  | leftBracket => exact leftBracket_extend f
  | rightBracket => exact rightBracket_extend f
  | leftBrace => exact leftBrace_extend f
  | rightBrace => exact rightBrace_extend f
  | bracketPair => exact bracketPair_extend f
  | bracePair => exact bracePair_extend f
  | heart => exact heart_extend f
  | sun => exact sun_extend f
  | wave | doubleWave => simp [sketch, Shape.wave, Shape.doubleWave, waves_extend]
  | gear6 | gear9 => simp [sketch, Shape.gear6, Shape.gear9, gear_extend]
  | funnel => exact funnel_extend f
  | cornerTabs => exact cornerTabs_extend f
  | squareTabs => exact squareTabs_extend f
  | plaqueTabs => exact plaqueTabs_extend f
  | chartPlus => exact chartPlus_extend f
  | chartX => exact chartX_extend f
  | chartStar => exact chartStar_extend f

end Shapes

theorem LayeredPreset.layers_extend (p : LayeredPreset) :
    p.layers (extend f) = extend (p.layers f) := by
  cases p with
  | cube => exact Layered.cube_extend f
  | can => exact Layered.can_extend f
  | bevel => exact Layered.bevel_extend f
  | foldedCorner => exact Layered.foldedCorner_extend f
  | smileyFace => exact Layered.smileyFace_extend f
  | ribbon => exact Layered.ribbon_extend f
  | ribbon2 => exact Layered.ribbon2_extend f
  | leftRightRibbon => exact Layered.leftRightRibbon_extend f
  | ellipseRibbon => exact Layered.ellipseRibbon_extend f
  | ellipseRibbon2 => exact Layered.ellipseRibbon2_extend f
  | verticalScroll => exact Layered.verticalScroll_extend f
  | horizontalScroll => exact Layered.horizontalScroll_extend f
  | curvedRightArrow | curvedLeftArrow | curvedUpArrow | curvedDownArrow =>
    exact Layered.curvedArrow_extend f _
  | callout1 | callout2 | callout3 | accentCallout1 | accentCallout2 | accentCallout3
    | borderCallout1 | borderCallout2 | borderCallout3
    | accentBorderCallout1 | accentBorderCallout2 | accentBorderCallout3 =>
    exact Layered.lineCallout_extend f _
  | actionButtonBlank => exact Layered.actionButtonBlank_extend f
  | actionButtonHome => exact Layered.actionButton_extend f Layered.homeIcon_extend
  | actionButtonHelp => exact Layered.actionButton_extend f Layered.helpIcon_extend
  | actionButtonInformation => exact Layered.actionButton_extend f Layered.informationIcon_extend
  | actionButtonBackPrevious => exact Layered.actionButton_extend f Layered.backIcon_extend
  | actionButtonForwardNext => exact Layered.actionButton_extend f Layered.forwardIcon_extend
  | actionButtonBeginning => exact Layered.actionButton_extend f Layered.beginningIcon_extend
  | actionButtonEnd => exact Layered.actionButton_extend f Layered.endIcon_extend
  | actionButtonReturn => exact Layered.actionButton_extend f Layered.returnIcon_extend
  | actionButtonDocument => exact Layered.actionButton_extend f Layered.documentIcon_extend
  | actionButtonSound => exact Layered.actionButton_extend f Layered.soundIcon_extend
  | actionButtonMovie => exact Layered.actionButton_extend f Layered.movieIcon_extend

/-- Finite adjustments are the extension of real ones. -/
theorem Adjustments.eq_extend {a : Adjustments Extended}
    (h : ∀ e ∈ a.entries, Scalar.isFinite e.2 = true) : ∃ b : Adjustments ℝ, a = extend b := by
  have hentries (es : List (String × Extended)) (hes : ∀ e ∈ es, Scalar.isFinite e.2 = true) :
      ∃ es' : List (String × ℝ), es = es'.map fun e => (e.1, extend e.2) := by
    induction es with
    | nil => exact ⟨[], rfl⟩
    | cons e rest ih =>
      obtain ⟨key, v⟩ := e
      obtain ⟨rest', rfl⟩ := ih fun e he => hes e (List.mem_cons_of_mem _ he)
      cases v with
      | real x => exact ⟨(key, x) :: rest', rfl⟩
      | undefined => exact absurd (hes _ List.mem_cons_self) Bool.false_ne_true
  obtain ⟨es, hes⟩ := hentries a.entries h
  exact ⟨⟨es⟩, congrArg Adjustments.mk hes⟩

theorem isFinite_sketch (s : Sketch ℝ) : (Sketch.path (extend s)).isFinite = true := by
  rw [path_extend]
  exact isFinite_path _

theorem flatten_extend (ls : List (Layer ℝ)) :
    Layer.flatten (extend ls) = extend (Layer.flatten ls) := by
  have hfilter : (extend ls).filter Layer.silhouette = extend (ls.filter Layer.silhouette) :=
    List.filter_map
  rw [Layer.flatten, hfilter, Layer.flatten, extend_flatMap]
  exact List.flatMap_map ..

theorem outlineOf_extend (name : String) :
    outlineOf name (extend f) = extend (outlineOf name f) := by
  unfold outlineOf
  cases Preset.ofName? name with
  | some p => exact p.sketch_extend f
  | none =>
    cases LayeredPreset.ofName? name with
    | some p => exact (congrArg Layer.flatten (p.layers_extend f)).trans (flatten_extend _)
    | none => exact Shape.rect_extend f

/-- In numbers where an operation outside its domain gives the undefined value, every preset, every
layer of a layered one and every outline by name is written with finite numbers only. They are the
numbers of the same drawing in the reals, so no comparison has passed over an undefined value. -/
theorem drawings_finite (w h : Extended) (a : Adjustments Extended)
    (ha : ∀ e ∈ a.entries, Scalar.isFinite e.2 = true) :
    let f := Frame.ofSides w h a
    (∀ p : Preset, (p.sketch f).path.isFinite = true) ∧
    (∀ p : LayeredPreset, ∀ l ∈ p.layers f, l.path.isFinite = true) ∧
    (∀ name : String, (outlineOf name f).path.isFinite = true) ∧
    ∃ g : Frame ℝ, f = extend g ∧ (∀ p : Preset, p.sketch f = extend (p.sketch g)) ∧
      ∀ p : LayeredPreset, p.layers f = extend (p.layers g) := by
  intro f
  obtain ⟨b, rfl⟩ := Adjustments.eq_extend ha
  obtain ⟨g, hg⟩ : ∃ g : Frame ℝ, f = extend g := ofSides_eq w h b
  rw [hg]
  refine ⟨fun p => ?_, fun p l hl => ?_, fun name => ?_, g, rfl, fun p => p.sketch_extend g,
    fun p => p.layers_extend g⟩
  · rw [p.sketch_extend]
    exact isFinite_sketch _
  · rw [p.layers_extend] at hl
    obtain ⟨l', -, rfl⟩ := List.mem_map.1 hl
    exact isFinite_sketch l'.sketch
  · rw [outlineOf_extend]
    exact isFinite_sketch _

/-- A gear in a frame of no width, whose height is not a number at all. -/
theorem drawings_finite_gear :
    let a : Adjustments Extended := ⟨[("adj1", .real 3)]⟩
    (∀ e ∈ a.entries, Scalar.isFinite e.2 = true) ∧
      (Preset.gear6.sketch (Frame.ofSides (.real 0) .undefined a)).path.isFinite = true := by
  intro a
  have ha : ∀ e ∈ a.entries, Scalar.isFinite e.2 = true := by
    intro e he
    obtain rfl := List.mem_singleton.1 he
    rfl
  exact ⟨ha, (drawings_finite (.real 0) .undefined a ha).1 .gear6⟩

end
end ShapeOutline
