import ShapeOutline.Name

/-!
The presets that are drawn as one outline, by name.
-/

namespace ShapeOutline

inductive Preset where
  | rect | roundRect | ellipse | triangle | rtTriangle | diamond | parallelogram | trapezoid
  | nonIsoscelesTrapezoid | pentagon | hexagon | heptagon | octagon | decagon | dodecagon | plus
  | frame | halfFrame | corner | diagStripe | homePlate | chevron | plaque
  | round1Rect | round2SameRect | round2DiagRect | snip1Rect | snip2SameRect | snip2DiagRect
  | snipRoundRect
  | pie | pieWedge | chord | arc | blockArc | donut | noSmoking | teardrop | moon
  | star4 | star5 | star6 | star7 | star8 | star10 | star12 | star16 | star24 | star32
  | irregularSeal1 | irregularSeal2
  | rightArrow | leftArrow | upArrow | downArrow | leftRightArrow | upDownArrow | quadArrow
  | leftRightUpArrow | leftUpArrow | bentUpArrow | bentArrow | uturnArrow | stripedRightArrow
  | notchedRightArrow | swooshArrow | rightArrowCallout | leftArrowCallout | upArrowCallout
  | downArrowCallout | leftRightArrowCallout | upDownArrowCallout | quadArrowCallout
  | circularArrow | leftCircularArrow | leftRightCircularArrow
  | wedgeRectCallout | wedgeRoundRectCallout | wedgeEllipseCallout | cloudCallout
  | flowChartProcess | flowChartAlternateProcess | flowChartDecision | flowChartInputOutput
  | flowChartPredefinedProcess | flowChartInternalStorage | flowChartDocument
  | flowChartMultidocument | flowChartTerminator | flowChartPreparation | flowChartManualInput
  | flowChartManualOperation | flowChartConnector | flowChartOffpageConnector
  | flowChartPunchedCard | flowChartPunchedTape | flowChartSummingJunction | flowChartOr
  | flowChartCollate | flowChartSort | flowChartExtract | flowChartMerge | flowChartOfflineStorage
  | flowChartOnlineStorage | flowChartMagneticTape | flowChartMagneticDisk | flowChartMagneticDrum
  | flowChartDisplay | flowChartDelay
  | mathPlus | mathMinus | mathMultiply | mathDivide | mathEqual | mathNotEqual
  | line | lineInv | straightConnector1 | bentConnector2 | bentConnector3 | bentConnector4
  | bentConnector5 | curvedConnector2 | curvedConnector3 | curvedConnector4 | curvedConnector5
  | leftBracket | rightBracket | leftBrace | rightBrace | bracketPair | bracePair
  | heart | lightningBolt | sun | cloud | wave | doubleWave | gear6 | gear9 | funnel | cornerTabs
  | squareTabs | plaqueTabs | chartPlus | chartX | chartStar
  deriving DecidableEq

namespace Preset

def name : Preset → String
  | rect => "rect"
  | roundRect => "roundRect"
  | ellipse => "ellipse"
  | triangle => "triangle"
  | rtTriangle => "rtTriangle"
  | diamond => "diamond"
  | parallelogram => "parallelogram"
  | trapezoid => "trapezoid"
  | nonIsoscelesTrapezoid => "nonIsoscelesTrapezoid"
  | pentagon => "pentagon"
  | hexagon => "hexagon"
  | heptagon => "heptagon"
  | octagon => "octagon"
  | decagon => "decagon"
  | dodecagon => "dodecagon"
  | plus => "plus"
  | frame => "frame"
  | halfFrame => "halfFrame"
  | corner => "corner"
  | diagStripe => "diagStripe"
  | homePlate => "homePlate"
  | chevron => "chevron"
  | plaque => "plaque"
  | round1Rect => "round1Rect"
  | round2SameRect => "round2SameRect"
  | round2DiagRect => "round2DiagRect"
  | snip1Rect => "snip1Rect"
  | snip2SameRect => "snip2SameRect"
  | snip2DiagRect => "snip2DiagRect"
  | snipRoundRect => "snipRoundRect"
  | pie => "pie"
  | pieWedge => "pieWedge"
  | chord => "chord"
  | arc => "arc"
  | blockArc => "blockArc"
  | donut => "donut"
  | noSmoking => "noSmoking"
  | teardrop => "teardrop"
  | moon => "moon"
  | star4 => "star4"
  | star5 => "star5"
  | star6 => "star6"
  | star7 => "star7"
  | star8 => "star8"
  | star10 => "star10"
  | star12 => "star12"
  | star16 => "star16"
  | star24 => "star24"
  | star32 => "star32"
  | irregularSeal1 => "irregularSeal1"
  | irregularSeal2 => "irregularSeal2"
  | rightArrow => "rightArrow"
  | leftArrow => "leftArrow"
  | upArrow => "upArrow"
  | downArrow => "downArrow"
  | leftRightArrow => "leftRightArrow"
  | upDownArrow => "upDownArrow"
  | quadArrow => "quadArrow"
  | leftRightUpArrow => "leftRightUpArrow"
  | leftUpArrow => "leftUpArrow"
  | bentUpArrow => "bentUpArrow"
  | bentArrow => "bentArrow"
  | uturnArrow => "uturnArrow"
  | stripedRightArrow => "stripedRightArrow"
  | notchedRightArrow => "notchedRightArrow"
  | swooshArrow => "swooshArrow"
  | rightArrowCallout => "rightArrowCallout"
  | leftArrowCallout => "leftArrowCallout"
  | upArrowCallout => "upArrowCallout"
  | downArrowCallout => "downArrowCallout"
  | leftRightArrowCallout => "leftRightArrowCallout"
  | upDownArrowCallout => "upDownArrowCallout"
  | quadArrowCallout => "quadArrowCallout"
  | circularArrow => "circularArrow"
  | leftCircularArrow => "leftCircularArrow"
  | leftRightCircularArrow => "leftRightCircularArrow"
  | wedgeRectCallout => "wedgeRectCallout"
  | wedgeRoundRectCallout => "wedgeRoundRectCallout"
  | wedgeEllipseCallout => "wedgeEllipseCallout"
  | cloudCallout => "cloudCallout"
  | flowChartProcess => "flowChartProcess"
  | flowChartAlternateProcess => "flowChartAlternateProcess"
  | flowChartDecision => "flowChartDecision"
  | flowChartInputOutput => "flowChartInputOutput"
  | flowChartPredefinedProcess => "flowChartPredefinedProcess"
  | flowChartInternalStorage => "flowChartInternalStorage"
  | flowChartDocument => "flowChartDocument"
  | flowChartMultidocument => "flowChartMultidocument"
  | flowChartTerminator => "flowChartTerminator"
  | flowChartPreparation => "flowChartPreparation"
  | flowChartManualInput => "flowChartManualInput"
  | flowChartManualOperation => "flowChartManualOperation"
  | flowChartConnector => "flowChartConnector"
  | flowChartOffpageConnector => "flowChartOffpageConnector"
  | flowChartPunchedCard => "flowChartPunchedCard"
  | flowChartPunchedTape => "flowChartPunchedTape"
  | flowChartSummingJunction => "flowChartSummingJunction"
  | flowChartOr => "flowChartOr"
  | flowChartCollate => "flowChartCollate"
  | flowChartSort => "flowChartSort"
  | flowChartExtract => "flowChartExtract"
  | flowChartMerge => "flowChartMerge"
  | flowChartOfflineStorage => "flowChartOfflineStorage"
  | flowChartOnlineStorage => "flowChartOnlineStorage"
  | flowChartMagneticTape => "flowChartMagneticTape"
  | flowChartMagneticDisk => "flowChartMagneticDisk"
  | flowChartMagneticDrum => "flowChartMagneticDrum"
  | flowChartDisplay => "flowChartDisplay"
  | flowChartDelay => "flowChartDelay"
  | mathPlus => "mathPlus"
  | mathMinus => "mathMinus"
  | mathMultiply => "mathMultiply"
  | mathDivide => "mathDivide"
  | mathEqual => "mathEqual"
  | mathNotEqual => "mathNotEqual"
  | line => "line"
  | lineInv => "lineInv"
  | straightConnector1 => "straightConnector1"
  | bentConnector2 => "bentConnector2"
  | bentConnector3 => "bentConnector3"
  | bentConnector4 => "bentConnector4"
  | bentConnector5 => "bentConnector5"
  | curvedConnector2 => "curvedConnector2"
  | curvedConnector3 => "curvedConnector3"
  | curvedConnector4 => "curvedConnector4"
  | curvedConnector5 => "curvedConnector5"
  | leftBracket => "leftBracket"
  | rightBracket => "rightBracket"
  | leftBrace => "leftBrace"
  | rightBrace => "rightBrace"
  | bracketPair => "bracketPair"
  | bracePair => "bracePair"
  | heart => "heart"
  | lightningBolt => "lightningBolt"
  | sun => "sun"
  | cloud => "cloud"
  | wave => "wave"
  | doubleWave => "doubleWave"
  | gear6 => "gear6"
  | gear9 => "gear9"
  | funnel => "funnel"
  | cornerTabs => "cornerTabs"
  | squareTabs => "squareTabs"
  | plaqueTabs => "plaqueTabs"
  | chartPlus => "chartPlus"
  | chartX => "chartX"
  | chartStar => "chartStar"

/-- Every preset, in the order of the listing. -/
def all : List Preset :=
  [.rect, .roundRect, .ellipse, .triangle, .rtTriangle, .diamond, .parallelogram, .trapezoid,
    .nonIsoscelesTrapezoid, .pentagon, .hexagon, .heptagon, .octagon, .decagon, .dodecagon, .plus,
    .frame, .halfFrame, .corner, .diagStripe, .homePlate, .chevron, .plaque, .round1Rect,
    .round2SameRect, .round2DiagRect, .snip1Rect, .snip2SameRect, .snip2DiagRect, .snipRoundRect,
    .pie, .pieWedge, .chord, .arc, .blockArc, .donut, .noSmoking, .teardrop, .moon, .star4, .star5,
    .star6, .star7, .star8, .star10, .star12, .star16, .star24, .star32, .irregularSeal1,
    .irregularSeal2, .rightArrow, .leftArrow, .upArrow, .downArrow, .leftRightArrow, .upDownArrow,
    .quadArrow, .leftRightUpArrow, .leftUpArrow, .bentUpArrow, .bentArrow, .uturnArrow,
    .stripedRightArrow, .notchedRightArrow, .swooshArrow, .rightArrowCallout, .leftArrowCallout,
    .upArrowCallout, .downArrowCallout, .leftRightArrowCallout, .upDownArrowCallout,
    .quadArrowCallout, .circularArrow, .leftCircularArrow, .leftRightCircularArrow,
    .wedgeRectCallout, .wedgeRoundRectCallout, .wedgeEllipseCallout, .cloudCallout,
    .flowChartProcess, .flowChartAlternateProcess, .flowChartDecision, .flowChartInputOutput,
    .flowChartPredefinedProcess, .flowChartInternalStorage, .flowChartDocument,
    .flowChartMultidocument, .flowChartTerminator, .flowChartPreparation, .flowChartManualInput,
    .flowChartManualOperation, .flowChartConnector, .flowChartOffpageConnector,
    .flowChartPunchedCard, .flowChartPunchedTape, .flowChartSummingJunction, .flowChartOr,
    .flowChartCollate, .flowChartSort, .flowChartExtract, .flowChartMerge, .flowChartOfflineStorage,
    .flowChartOnlineStorage, .flowChartMagneticTape, .flowChartMagneticDisk, .flowChartMagneticDrum,
    .flowChartDisplay, .flowChartDelay, .mathPlus, .mathMinus, .mathMultiply, .mathDivide,
    .mathEqual, .mathNotEqual, .line, .lineInv, .straightConnector1, .bentConnector2,
    .bentConnector3, .bentConnector4, .bentConnector5, .curvedConnector2, .curvedConnector3,
    .curvedConnector4, .curvedConnector5, .leftBracket, .rightBracket, .leftBrace, .rightBrace,
    .bracketPair, .bracePair, .heart, .lightningBolt, .sun, .cloud, .wave, .doubleWave, .gear6,
    .gear9, .funnel, .cornerTabs, .squareTabs, .plaqueTabs, .chartPlus, .chartX, .chartStar]

def ofName? (s : String) : Option Preset := all.find? fun p => sameName p.name s

def unknown (s : String) : String := "unknown preset geometry `" ++ s ++ "`"

end Preset

end ShapeOutline
