import ShapeOutline.Layered.ActionButton
import ShapeOutline.Layered.ArchedRibbon
import ShapeOutline.Layered.CurvedArrow
import ShapeOutline.Layered.LineCallout
import ShapeOutline.Layered.Scroll
import ShapeOutline.Layered.Solid
import ShapeOutline.Name

/-!
The presets that are painted in layers, by name.
-/

namespace ShapeOutline

inductive LayeredPreset where
  | cube | can | bevel | foldedCorner | smileyFace
  | ribbon | ribbon2 | leftRightRibbon | ellipseRibbon | ellipseRibbon2 | verticalScroll
  | horizontalScroll
  | curvedRightArrow | curvedLeftArrow | curvedUpArrow | curvedDownArrow
  | callout1 | callout2 | callout3
  | accentCallout1 | accentCallout2 | accentCallout3
  | borderCallout1 | borderCallout2 | borderCallout3
  | accentBorderCallout1 | accentBorderCallout2 | accentBorderCallout3
  | actionButtonBlank | actionButtonHome | actionButtonHelp | actionButtonInformation
  | actionButtonBackPrevious | actionButtonForwardNext
  | actionButtonBeginning | actionButtonEnd | actionButtonReturn | actionButtonDocument
  | actionButtonSound | actionButtonMovie
  deriving DecidableEq

namespace LayeredPreset

def name : LayeredPreset → String
  | cube => "cube"
  | can => "can"
  | bevel => "bevel"
  | foldedCorner => "foldedCorner"
  | smileyFace => "smileyFace"
  | ribbon => "ribbon"
  | ribbon2 => "ribbon2"
  | leftRightRibbon => "leftRightRibbon"
  | ellipseRibbon => "ellipseRibbon"
  | ellipseRibbon2 => "ellipseRibbon2"
  | verticalScroll => "verticalScroll"
  | horizontalScroll => "horizontalScroll"
  | curvedRightArrow => "curvedRightArrow"
  | curvedLeftArrow => "curvedLeftArrow"
  | curvedUpArrow => "curvedUpArrow"
  | curvedDownArrow => "curvedDownArrow"
  | callout1 => "callout1"
  | callout2 => "callout2"
  | callout3 => "callout3"
  | accentCallout1 => "accentCallout1"
  | accentCallout2 => "accentCallout2"
  | accentCallout3 => "accentCallout3"
  | borderCallout1 => "borderCallout1"
  | borderCallout2 => "borderCallout2"
  | borderCallout3 => "borderCallout3"
  | accentBorderCallout1 => "accentBorderCallout1"
  | accentBorderCallout2 => "accentBorderCallout2"
  | accentBorderCallout3 => "accentBorderCallout3"
  | actionButtonBlank => "actionButtonBlank"
  | actionButtonHome => "actionButtonHome"
  | actionButtonHelp => "actionButtonHelp"
  | actionButtonInformation => "actionButtonInformation"
  | actionButtonBackPrevious => "actionButtonBackPrevious"
  | actionButtonForwardNext => "actionButtonForwardNext"
  | actionButtonBeginning => "actionButtonBeginning"
  | actionButtonEnd => "actionButtonEnd"
  | actionButtonReturn => "actionButtonReturn"
  | actionButtonDocument => "actionButtonDocument"
  | actionButtonSound => "actionButtonSound"
  | actionButtonMovie => "actionButtonMovie"

/-- Every layered preset, in the order of the listing. -/
def all : List LayeredPreset :=
  [.cube, .can, .bevel, .foldedCorner, .smileyFace, .ribbon, .ribbon2, .leftRightRibbon,
    .ellipseRibbon, .ellipseRibbon2, .verticalScroll, .horizontalScroll, .curvedRightArrow,
    .curvedLeftArrow, .curvedUpArrow, .curvedDownArrow, .callout1, .callout2, .callout3,
    .accentCallout1, .accentCallout2, .accentCallout3, .borderCallout1, .borderCallout2,
    .borderCallout3, .accentBorderCallout1, .accentBorderCallout2, .accentBorderCallout3,
    .actionButtonBlank, .actionButtonHome, .actionButtonHelp, .actionButtonInformation,
    .actionButtonBackPrevious, .actionButtonForwardNext, .actionButtonBeginning, .actionButtonEnd,
    .actionButtonReturn, .actionButtonDocument, .actionButtonSound, .actionButtonMovie]

def ofName? (s : String) : Option LayeredPreset := all.find? fun p => sameName p.name s

open Layered

variable {α : Type} [Scalar α]

/-- The layers of a preset in paint order. -/
def layers : LayeredPreset → Frame α → List (Layer α)
  | cube => Layered.cube
  | can => Layered.can
  | bevel => Layered.bevel
  | foldedCorner => Layered.foldedCorner
  | smileyFace => Layered.smileyFace
  | ribbon => Layered.ribbon
  | ribbon2 => Layered.ribbon2
  | leftRightRibbon => Layered.leftRightRibbon
  | ellipseRibbon => Layered.ellipseRibbon
  | ellipseRibbon2 => Layered.ellipseRibbon2
  | verticalScroll => Layered.verticalScroll
  | horizontalScroll => Layered.horizontalScroll
  | curvedRightArrow => Layered.curvedRightArrow
  | curvedLeftArrow => Layered.curvedLeftArrow
  | curvedUpArrow => Layered.curvedUpArrow
  | curvedDownArrow => Layered.curvedDownArrow
  | callout1 => lineCallout ⟨.one, false, false⟩
  | callout2 => lineCallout ⟨.two, false, false⟩
  | callout3 => lineCallout ⟨.three, false, false⟩
  | accentCallout1 => lineCallout ⟨.one, true, false⟩
  | accentCallout2 => lineCallout ⟨.two, true, false⟩
  | accentCallout3 => lineCallout ⟨.three, true, false⟩
  | borderCallout1 => lineCallout ⟨.one, false, true⟩
  | borderCallout2 => lineCallout ⟨.two, false, true⟩
  | borderCallout3 => lineCallout ⟨.three, false, true⟩
  | accentBorderCallout1 => lineCallout ⟨.one, true, true⟩
  | accentBorderCallout2 => lineCallout ⟨.two, true, true⟩
  | accentBorderCallout3 => lineCallout ⟨.three, true, true⟩
  | actionButtonBlank => Layered.actionButtonBlank
  | actionButtonHome => Layered.actionButtonHome
  | actionButtonHelp => Layered.actionButtonHelp
  | actionButtonInformation => Layered.actionButtonInformation
  | actionButtonBackPrevious => Layered.actionButtonBackPrevious
  | actionButtonForwardNext => Layered.actionButtonForwardNext
  | actionButtonBeginning => Layered.actionButtonBeginning
  | actionButtonEnd => Layered.actionButtonEnd
  | actionButtonReturn => Layered.actionButtonReturn
  | actionButtonDocument => Layered.actionButtonDocument
  | actionButtonSound => Layered.actionButtonSound
  | actionButtonMovie => Layered.actionButtonMovie

end LayeredPreset

end ShapeOutline
