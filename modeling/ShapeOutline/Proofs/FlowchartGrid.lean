import Mathlib
import ShapeOutline.Preset.Sketch
import ShapeOutline.Proofs.GridDrawing

/-! The flowchart symbols on grids. Each is drawn as the interpreter of custom
geometry draws it, for its arcs all run from one right angle to the opposite one. -/

namespace ShapeOutline
noncomputable section

open Shape.Flowchart

/-- The flowchart symbols that are authored on a grid. -/
def Preset.gridSymbol? : Preset → Option (GridSymbol ℝ)
  | flowChartDecision => some decisionSymbol
  | flowChartInputOutput => some inputOutputSymbol
  | flowChartDocument => some documentSymbol
  | flowChartMultidocument => some multidocumentSymbol
  | flowChartTerminator => some terminatorSymbol
  | flowChartPreparation => some preparationSymbol
  | flowChartManualInput => some manualInputSymbol
  | flowChartManualOperation => some manualOperationSymbol
  | flowChartOffpageConnector => some offpageConnectorSymbol
  | flowChartPunchedCard => some punchedCardSymbol
  | flowChartPunchedTape => some punchedTapeSymbol
  | flowChartCollate => some collateSymbol
  | flowChartSort => some sortSymbol
  | flowChartExtract => some extractSymbol
  | flowChartMerge => some mergeSymbol
  | flowChartOfflineStorage => some offlineStorageSymbol
  | flowChartOnlineStorage => some onlineStorageSymbol
  | flowChartMagneticDisk => some magneticDiskSymbol
  | flowChartMagneticDrum => some magneticDrumSymbol
  | flowChartDisplay => some displaySymbol
  | _ => none

/-- The points of the grid at which the arcs of a symbol are meant to end: where the next line
leaves for another side, or where the outline began. -/
def Preset.landings : Preset → List (Point ℝ)
  | flowChartTerminator => [⟨18125, 21600⟩, ⟨3475, 0⟩]
  | flowChartPunchedTape => [⟨10, 2⟩, ⟨20, 2⟩, ⟨10, 18⟩, ⟨0, 18⟩]
  | flowChartOnlineStorage => [⟨6, 6⟩, ⟨1, 0⟩]
  | flowChartMagneticDisk => [⟨6, 1⟩, ⟨0, 5⟩, ⟨0, 1⟩]
  | flowChartMagneticDrum => [⟨5, 6⟩, ⟨1, 0⟩, ⟨5, 0⟩]
  | flowChartDisplay => [⟨5, 6⟩]
  | _ => []

variable {p : Preset} {g : GridSymbol ℝ}

theorem Preset.sketch_of_gridSymbol? (hp : p.gridSymbol? = some g) (f : Frame ℝ) :
    p.sketch f = g.draw f := by
  unfold gridSymbol? at hp
  split at hp <;> cases hp <;> rfl

/-- A grid with an area, on which every arc is half a turn. -/
structure GridSymbol.HalfTurns (g : GridSymbol ℝ) : Prop where
  width : 0 < g.width
  height : 0 < g.height
  halfTurn : ∀ s ∈ g.sketch, s.HalfTurn

theorem GridSymbol.HalfTurns.proper (hg : g.HalfTurns) : g.Proper :=
  ⟨hg.width, hg.height, fun s hs => (hg.halfTurn s hs).whole⟩

section Symbols

variable (hp : p.gridSymbol? = some g)
include hp

theorem Preset.gridSymbol_halfTurns : g.HalfTurns := by
  unfold gridSymbol? at hp
  split at hp <;> cases hp <;>
    refine ⟨?_, ?_, ?_⟩ <;>
    simp [decisionSymbol, inputOutputSymbol, documentSymbol, multidocumentSymbol,
      terminatorSymbol, preparationSymbol, manualInputSymbol, manualOperationSymbol,
      offpageConnectorSymbol, punchedCardSymbol, punchedTapeSymbol, collateSymbol, sortSymbol,
      extractSymbol, mergeSymbol, offlineStorageSymbol, onlineStorageSymbol, magneticDiskSymbol,
      magneticDrumSymbol, displaySymbol, Sketch.polygon, Sketch.lines, Shape.Flowchart.segment,
      Stroke.HalfTurn, Point.Positive]

theorem Preset.gridSymbol_landings : g.sketch.landings .zero .zero = p.landings := by
  unfold gridSymbol? at hp
  split at hp <;> cases hp <;>
    simp [decisionSymbol, inputOutputSymbol, documentSymbol, multidocumentSymbol,
      terminatorSymbol, preparationSymbol, manualInputSymbol, manualOperationSymbol,
      offpageConnectorSymbol, punchedCardSymbol, punchedTapeSymbol, collateSymbol, sortSymbol,
      extractSymbol, mergeSymbol, offlineStorageSymbol, onlineStorageSymbol, magneticDiskSymbol,
      magneticDrumSymbol, displaySymbol, Sketch.polygon, Sketch.lines, Shape.Flowchart.segment,
      Sketch.landings, landings] <;>
    norm_num [axisPoint, Point.ext_iff]

/-- A flowchart symbol on a grid is drawn into a frame as the interpreter draws it as custom
geometry with the grid for its declared size: as the scaled image of its drawing on the grid, where
every arc ends at the point from which the outline is meant to go on. -/
theorem Preset.gridSymbol_drawn_as_authored {f : Frame ℝ} (hw : 0 < f.w) (hh : 0 < f.h) :
    let drawn := (p.sketch f).path
    let authored := g.authored.resolve f.w f.h none
    drawn = authored ∧ drawn.text = authored.text ∧
      drawn = g.sketch.path.stretch (g.scale f) ∧
      g.sketch.path.commands.filterMap Command.arcTarget? = p.landings := by
  intro drawn authored
  have hhalf : g.HalfTurns := gridSymbol_halfTurns hp
  have hk : (g.scale f).Positive := hhalf.proper.scale_positive hw hh
  have hdrawn : drawn = g.sketch.path.stretch (g.scale f) := by
    change (p.sketch f).path = _
    rw [sketch_of_gridSymbol? hp]
    exact hhalf.proper.path_draw hw hh fun s hs => (hhalf.halfTurn s hs).keepsAngles hk
  have hauthored : authored = g.sketch.path.stretch (g.scale f) :=
    hhalf.proper.resolve_authored hw hh
  have hsame : drawn = authored := hdrawn.trans hauthored.symm
  refine ⟨hsame, congrArg Path.text hsame, hdrawn, ?_⟩
  rw [← gridSymbol_landings hp]
  exact Path.draw_targets hhalf.halfTurn .empty

end Symbols

/-- The round ends of a terminator. -/
theorem Preset.terminator_drawn_as_authored :
    flowChartTerminator.gridSymbol? = some terminatorSymbol ∧ (0 : ℝ) < 216 ∧ (0 : ℝ) < 100 ∧
    (let f : Frame ℝ := ⟨216, 100, .empty⟩
    let drawn := (flowChartTerminator.sketch f).path
    let authored := (terminatorSymbol (α := ℝ)).authored.resolve f.w f.h none
    drawn = authored ∧ drawn.text = authored.text ∧
      drawn = terminatorSymbol.sketch.path.stretch (terminatorSymbol.scale f) ∧
      terminatorSymbol.sketch.path.commands.filterMap Command.arcTarget? =
        [(⟨18125, 21600⟩ : Point ℝ), ⟨3475, 0⟩]) := by
  have hw : (0 : ℝ) < 216 := by norm_num
  have hh : (0 : ℝ) < 100 := by norm_num
  exact ⟨rfl, hw, hh, gridSymbol_drawn_as_authored (p := flowChartTerminator) rfl hw hh⟩

end
end ShapeOutline
