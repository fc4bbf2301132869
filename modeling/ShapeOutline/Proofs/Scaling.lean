import Mathlib
import ShapeOutline.LayeredPreset
import ShapeOutline.Preset.Sketch
import ShapeOutline.Proofs.Likeness
import ShapeOutline.Proofs.ScaledCircular
import ShapeOutline.Proofs.ScaledCurves
import ShapeOutline.Proofs.ScaledLayers

/-! Every preset scales with its frame: in a frame with sides `k` times as long it
draws the same commands, with every coordinate and every radius `k` times as
large. The only exception is a diagonal in a frame without width or height. -/

namespace ShapeOutline
noncomputable section

open Factor

variable (k : Factor)

namespace Factor

/-- Angles are kept, because both radii are multiplied by the same factor. -/
def likeness : Likeness where
  point := (k • ·)
  vector := (k • ·)
  radii := (k • ·)
  angle := id
  reverses := false
  point_add p v := (k.add_point p v).symm
  angle_add := id_add_turned
  radii_positive r := and_congr (k.smul_pos r.x) (k.smul_pos r.y)
  spoke_angle r _ deg := by simp [spoke]

theorem likeness_stroke : k.likeness.stroke = (k • ·) := by
  funext s
  cases s <;> rfl

theorem likeness_command : k.likeness.command = Command.stretch ⟨k.val, k.val⟩ := by
  funext c
  cases c with
  | arc r rotation large sweep p =>
    change Command.arc _ rotation large (sweep ^^ false) _ = _
    rw [Bool.xor_false]
    rfl
  | _ => rfl

end Factor

/-- `t` draws what `s` draws, `k` times as large. If only one of the two drawings writes an arc in
halves, these put together are the other's arc. -/
structure Sketch.Enlarged (k : ℝ) (s t : Sketch ℝ) : Prop where
  strokes : t = s.stretch ⟨k, k⟩
  commands : List.Forall₂ (DrawsImage (Command.stretch ⟨k, k⟩)) (Path.empty.groups s)
    (Path.empty.groups t)

theorem Factor.enlarged (s : Sketch ℝ) : s.Enlarged k.val (k • s) := by
  have hempty : Alike k.likeness .empty .empty := by
    constructor <;> simp [likeness, Path.empty, Point.zero]
  have hgroups := hempty.groups s
  rw [k.likeness_stroke, k.likeness_command] at hgroups
  exact ⟨rfl, hgroups⟩

/-- The same layer, its sketch enlarged. -/
structure Layer.Enlarged (k : ℝ) (l m : Layer ℝ) : Prop where
  sketch : l.sketch.Enlarged k m.sketch
  mode : m.mode = l.mode
  stroked : m.stroked = l.stroked
  silhouette : m.silhouette = l.silhouette

theorem Factor.layers_enlarged (ls : List (Layer ℝ)) :
    List.Forall₂ (Layer.Enlarged k.val) ls (k • ls) := by
  induction ls with
  | nil => exact .nil
  | cons l rest ih => exact .cons ⟨k.enlarged l.sketch, rfl, rfl, rfl⟩ ih

variable (f : Frame ℝ)

section Shapes

open Shape

/-- The straight lines from corner to corner. -/
def Preset.diagonals : List Preset := [.line, .lineInv, .straightConnector1]

theorem Preset.sketch_smul (p : Preset) (h : p ∈ diagonals → f.w ≠ 0 ∧ f.h ≠ 0) :
    p.sketch (k • f) = k • p.sketch f := by
  cases p with
  | rect => exact rect_smul k f
  | roundRect => exact roundRect_smul k f
  | ellipse => exact ellipse_smul k f
  | triangle => exact triangle_smul k f
  | rtTriangle => exact rtTriangle_smul k f
  | diamond => exact diamond_smul k f
  | parallelogram => exact parallelogram_smul k f
  | trapezoid => exact trapezoid_smul k f
  | nonIsoscelesTrapezoid => exact nonIsoscelesTrapezoid_smul k f
  | pentagon => exact pentagon_smul k f
  | hexagon => exact hexagon_smul k f
  | heptagon => exact heptagon_smul k f
  | octagon => exact octagon_smul k f
  | decagon => exact decagon_smul k f
  | dodecagon => exact dodecagon_smul k f
  | plus => exact plus_smul k f
  | frame => exact frame_smul k f
  | halfFrame => exact halfFrame_smul k f
  | corner => exact corner_smul k f
  | diagStripe => exact diagStripe_smul k f
  | homePlate => exact homePlate_smul k f
  | chevron => exact chevron_smul k f
  | plaque => exact plaque_smul k f
  | round1Rect => exact round1Rect_smul k f
  | round2SameRect => exact round2SameRect_smul k f
  | round2DiagRect => exact round2DiagRect_smul k f
  | snip1Rect => exact snip1Rect_smul k f
  | snip2SameRect => exact snip2SameRect_smul k f
  | snip2DiagRect => exact snip2DiagRect_smul k f
  | snipRoundRect => exact snipRoundRect_smul k f
  | pie => exact pie_smul k f
  | pieWedge => exact pieWedge_smul k f
  | chord => exact chord_smul k f
  | arc => exact arc_smul k f
  | blockArc => exact blockArc_smul k f
  | donut => exact donut_smul k f
  | noSmoking => exact noSmoking_smul k f
  | teardrop => exact teardrop_smul k f
  | moon => exact moon_smul k f
  | star4 => exact star4_smul k f
  | star5 | star6 | star7 | star8 | star10 | star12 | star16 | star24 | star32 =>
    rw [sketch]
    exact Shape.star_smul k f ..
  | irregularSeal1 | irregularSeal2 | flowChartDecision | flowChartInputOutput | flowChartDocument
    | flowChartMultidocument | flowChartTerminator | flowChartPreparation | flowChartManualInput
    | flowChartManualOperation | flowChartOffpageConnector | flowChartPunchedCard
    | flowChartPunchedTape | flowChartCollate | flowChartSort | flowChartExtract | flowChartMerge
    | flowChartOfflineStorage | flowChartOnlineStorage | flowChartMagneticDisk
    | flowChartMagneticDrum | flowChartDisplay | lightningBolt | cloud =>
    exact draw_smul k f _
  | rightArrow | leftArrow | upArrow | downArrow => exact blockArrow_smul k f _
  | leftRightArrow | upDownArrow => exact twoHeadedArrow_smul k f _
  | quadArrow => exact quadArrow_smul k f
  | leftRightUpArrow => exact leftRightUpArrow_smul k f
  | leftUpArrow => exact leftUpArrow_smul k f
  | bentUpArrow => exact bentUpArrow_smul k f
  | bentArrow => exact bentArrow_smul k f
  | uturnArrow => exact uturnArrow_smul k f
  | stripedRightArrow => exact stripedRightArrow_smul k f
  | notchedRightArrow => exact notchedRightArrow_smul k f
  | swooshArrow => exact swooshArrow_smul k f
  | rightArrowCallout | leftArrowCallout | upArrowCallout | downArrowCallout =>
    exact arrowCallout_smul k f _
  | leftRightArrowCallout | upDownArrowCallout => exact twoHeadedCallout_smul k f _
  | quadArrowCallout => exact quadArrowCallout_smul k f
  | circularArrow | leftCircularArrow | leftRightCircularArrow => exact circularArrowOf_smul k f _
  | wedgeRectCallout => exact wedgeRectCallout_smul k f
  | wedgeRoundRectCallout => exact wedgeRoundRectCallout_smul k f
  | wedgeEllipseCallout => exact wedgeEllipseCallout_smul k f
  | cloudCallout => exact cloudCallout_smul k f
  | flowChartProcess => exact Flowchart.process_smul k f
  | flowChartAlternateProcess => exact flowChartAlternateProcess_smul k f
  | flowChartPredefinedProcess => exact Flowchart.predefinedProcess_smul k f
  | flowChartInternalStorage => exact Flowchart.internalStorage_smul k f
  | flowChartConnector => exact Flowchart.connector_smul k f
  | flowChartSummingJunction => exact Flowchart.summingJunction_smul k f
  | flowChartOr => exact Flowchart.or_smul k f
  | flowChartMagneticTape => exact Flowchart.magneticTape_smul k f
  | flowChartDelay => exact Flowchart.delay_smul k f
  | mathPlus => exact mathPlus_smul k f
  | mathMinus => exact mathMinus_smul k f
  | mathMultiply => exact mathMultiply_smul k f
  | mathDivide => exact mathDivide_smul k f
  | mathEqual => exact mathEqual_smul k f
  | mathNotEqual => exact mathNotEqual_smul k f
  | line | lineInv | straightConnector1 =>
    obtain ⟨hw, hh⟩ := h (by decide)
    exact diagonal_smul k f _ hw hh
  | bentConnector2 => exact bentConnector2_smul k f
  | bentConnector3 => exact bentConnector3_smul k f
  | bentConnector4 => exact bentConnector4_smul k f
  | bentConnector5 => exact bentConnector5_smul k f
  | curvedConnector2 => exact curvedConnector2_smul k f
  | curvedConnector3 => exact curvedConnector3_smul k f
  | curvedConnector4 => exact curvedConnector4_smul k f
  | curvedConnector5 => exact curvedConnector5_smul k f
  | leftBracket => exact leftBracket_smul k f
  | rightBracket => exact rightBracket_smul k f
  | leftBrace => exact leftBrace_smul k f
  | rightBrace => exact rightBrace_smul k f
  | bracketPair => exact bracketPair_smul k f
  | bracePair => exact bracePair_smul k f
  | heart => exact heart_smul k f
  | sun => exact sun_smul k f
  | wave | doubleWave => exact waves_smul k f ..
  | gear6 | gear9 => exact gear_smul k f ..
  | funnel => exact funnel_smul k f
  | cornerTabs => exact cornerTabs_smul k f
  | squareTabs => exact squareTabs_smul k f
  | plaqueTabs => exact plaqueTabs_smul k f
  | chartPlus => exact chartPlus_smul k f
  | chartX => exact chartX_smul k f
  | chartStar => exact chartStar_smul k f

theorem Preset.sketch_of_flat {p : Preset} (h : p ∈ diagonals) :
    (f.w = 0 → p.sketch f = [.move ⟨1 / 2, 0⟩, .line ⟨1 / 2, f.h⟩]) ∧
      (f.w ≠ 0 → f.h = 0 → p.sketch f = [.move ⟨0, 1 / 2⟩, .line ⟨f.w, 1 / 2⟩]) := by
  have hhalf : (@OfScientific.ofScientific ℝ instOfScientificScalar 5 true 1) = 1 / 2 := by
    change ((5 : ℕ) : ℝ) / 10 ^ 1 = 1 / 2
    norm_num
  have hdiagonal (rising : Bool) :
      (f.w = 0 → diagonal f rising = [.move ⟨1 / 2, 0⟩, .line ⟨1 / 2, f.h⟩]) ∧
        (f.w ≠ 0 → f.h = 0 → diagonal f rising = [.move ⟨0, 1 / 2⟩, .line ⟨f.w, 1 / 2⟩]) := by
    constructor
    · intro hw
      simp [diagonal, hw, hhalf]
    · intro hw hh
      simp [diagonal, Scalar.beq_real, hw, hh, hhalf]
  simp only [diagonals, List.mem_cons, List.not_mem_nil, or_false] at h
  rcases h with rfl | rfl | rfl
  · exact hdiagonal false
  · exact hdiagonal true
  · exact hdiagonal false

end Shapes

theorem LayeredPreset.layers_smul (p : LayeredPreset) : p.layers (k • f) = k • p.layers f := by
  cases p with
  | cube => exact Layered.cube_smul k f
  | can => exact Layered.can_smul k f
  | bevel => exact Layered.bevel_smul k f
  | foldedCorner => exact Layered.foldedCorner_smul k f
  | smileyFace => exact Layered.smileyFace_smul k f
  | ribbon => exact Layered.ribbon_smul k f
  | ribbon2 => exact Layered.ribbon2_smul k f
  | leftRightRibbon => exact Layered.leftRightRibbon_smul k f
  | ellipseRibbon => exact Layered.ellipseRibbon_smul k f
  | ellipseRibbon2 => exact Layered.ellipseRibbon2_smul k f
  | verticalScroll => exact Layered.verticalScroll_smul k f
  | horizontalScroll => exact Layered.horizontalScroll_smul k f
  | curvedRightArrow | curvedLeftArrow | curvedUpArrow | curvedDownArrow =>
    exact Layered.curvedArrow_smul k f _
  | callout1 | callout2 | callout3 | accentCallout1 | accentCallout2 | accentCallout3
    | borderCallout1 | borderCallout2 | borderCallout3
    | accentBorderCallout1 | accentBorderCallout2 | accentBorderCallout3 =>
    exact Layered.lineCallout_smul k f _
  | actionButtonBlank => exact Layered.actionButtonBlank_smul k f
  | actionButtonHome => exact Layered.actionButton_smul k f (Layered.homeIcon_smul k)
  | actionButtonHelp => exact Layered.actionButton_smul k f (Layered.helpIcon_smul k)
  | actionButtonInformation => exact Layered.actionButton_smul k f (Layered.informationIcon_smul k)
  | actionButtonBackPrevious => exact Layered.actionButton_smul k f (Layered.backIcon_smul k)
  | actionButtonForwardNext => exact Layered.actionButton_smul k f (Layered.forwardIcon_smul k)
  | actionButtonBeginning => exact Layered.actionButton_smul k f (Layered.beginningIcon_smul k)
  | actionButtonEnd => exact Layered.actionButton_smul k f (Layered.endIcon_smul k)
  | actionButtonReturn => exact Layered.actionButton_smul k f (Layered.returnIcon_smul k)
  | actionButtonDocument => exact Layered.actionButton_smul k f (Layered.documentIcon_smul k)
  | actionButtonSound => exact Layered.actionButton_smul k f (Layered.soundIcon_smul k)
  | actionButtonMovie => exact Layered.actionButton_smul k f (Layered.movieIcon_smul k)

theorem Frame.ofSides_smul (w h : ℝ) (adjustments : Adjustments ℝ) :
    ofSides (k.val * w) (k.val * h) adjustments = k • ofSides w h adjustments := by
  have hside (v : ℝ) : dimensionOrZero (k.val * v) = k • dimensionOrZero v := by
    rw [mul_comm]
    change dimensionOrZero (k • v) = _
    by_cases hv : v < 0 <;> simp [dimensionOrZero_real, hv]
  unfold ofSides
  rw [hside, hside]
  rfl

/-- In a frame with sides `k` times as long every preset draws the same, `k` times as large, and
every layered one the same layers. A diagonal is excepted in a frame without width or height, where
it keeps its distance of a half from the side. -/
theorem presets_enlarged (w h k : ℝ) (adjustments : Adjustments ℝ) (hk : 0 < k) :
    let f := Frame.ofSides w h adjustments
    let g := Frame.ofSides (k * w) (k * h) adjustments
    (∀ p : Preset, (p ∈ Preset.diagonals → f.w ≠ 0 ∧ f.h ≠ 0) →
      (p.sketch f).Enlarged k (p.sketch g)) ∧
    (∀ p : LayeredPreset, List.Forall₂ (Layer.Enlarged k) (p.layers f) (p.layers g)) ∧
    (∀ s : Sketch ℝ, s.path.commands = (Path.empty.groups s).flatten) ∧
    ∀ p ∈ Preset.diagonals, ∀ e : Frame ℝ,
      (e.w = 0 → p.sketch e = [.move ⟨1 / 2, 0⟩, .line ⟨1 / 2, e.h⟩]) ∧
      (e.w ≠ 0 → e.h = 0 → p.sketch e = [.move ⟨0, 1 / 2⟩, .line ⟨e.w, 1 / 2⟩]) := by
  intro f g
  have hg : g = (⟨k, hk⟩ : Factor) • f := Frame.ofSides_smul ⟨k, hk⟩ w h adjustments
  refine ⟨fun p hp => ?_, fun p => ?_, fun s => ?_, fun p hp e => p.sketch_of_flat e hp⟩
  · rw [hg, p.sketch_smul _ f hp]
    exact Factor.enlarged ⟨k, hk⟩ _
  · rw [hg, p.layers_smul]
    exact Factor.layers_enlarged ⟨k, hk⟩ _
  · exact Path.draw_commands s .empty

/-- A diagonal three times as long. -/
theorem presets_enlarged_line :
    let f := Frame.ofSides (2 : ℝ) 4 .empty
    let g := Frame.ofSides (3 * 2 : ℝ) (3 * 4) .empty
    0 < (3 : ℝ) ∧ (f.w ≠ 0 ∧ f.h ≠ 0) ∧
      (Preset.line.sketch f).Enlarged 3 (Preset.line.sketch g) := by
  intro f g
  have hpos : 0 < (3 : ℝ) := by norm_num
  have hsides : f.w ≠ 0 ∧ f.h ≠ 0 := by
    constructor <;> norm_num [f, Frame.ofSides, dimensionOrZero_real]
  exact ⟨hpos, hsides, (presets_enlarged 2 4 3 .empty hpos).1 .line fun _ => hsides⟩

end
end ShapeOutline
