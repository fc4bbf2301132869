import ShapeOutline.Preset
import ShapeOutline.Shape.ArrowCallout
import ShapeOutline.Shape.BentArrow
import ShapeOutline.Shape.Bracket
import ShapeOutline.Shape.CircularArrow
import ShapeOutline.Shape.Cloud
import ShapeOutline.Shape.Connector
import ShapeOutline.Shape.CornerRect
import ShapeOutline.Shape.Emblem
import ShapeOutline.Shape.Flowchart
import ShapeOutline.Shape.Gear
import ShapeOutline.Shape.Operator
import ShapeOutline.Shape.Polygon
import ShapeOutline.Shape.RegularPolygon
import ShapeOutline.Shape.Sector
import ShapeOutline.Shape.Star
import ShapeOutline.Shape.Tail
import ShapeOutline.Shape.Wave

/-!
The drawing of each preset.
-/

namespace ShapeOutline.Preset

variable {α : Type} [Scalar α]

def sketch : Preset → Frame α → Sketch α
  | rect => Shape.rect
  | roundRect => Shape.roundRect
  | ellipse => Shape.ellipse
  | triangle => Shape.triangle
  | rtTriangle => Shape.rtTriangle
  | diamond => Shape.diamond
  | parallelogram => Shape.parallelogram
  | trapezoid => Shape.trapezoid
  | nonIsoscelesTrapezoid => Shape.nonIsoscelesTrapezoid
  | pentagon => Shape.pentagon
  | hexagon => Shape.hexagon
  | heptagon => Shape.heptagon
  | octagon => Shape.octagon
  | decagon => Shape.decagon
  | dodecagon => Shape.dodecagon
  | plus => Shape.plus
  | frame => Shape.frame
  | halfFrame => Shape.halfFrame
  | corner => Shape.corner
  | diagStripe => Shape.diagStripe
  | homePlate => Shape.homePlate
  | chevron => Shape.chevron
  | plaque => Shape.plaque
  | round1Rect => Shape.round1Rect
  | round2SameRect => Shape.round2SameRect
  | round2DiagRect => Shape.round2DiagRect
  | snip1Rect => Shape.snip1Rect
  | snip2SameRect => Shape.snip2SameRect
  | snip2DiagRect => Shape.snip2DiagRect
  | snipRoundRect => Shape.snipRoundRect
  | pie => Shape.pie
  | pieWedge => Shape.pieWedge
  | chord => Shape.chord
  | arc => Shape.arc
  | blockArc => Shape.blockArc
  | donut => Shape.donut
  | noSmoking => Shape.noSmoking
  | teardrop => Shape.teardrop
  | moon => Shape.moon
  | star4 => Shape.star4
  | star5 => Shape.star5
  | star6 => Shape.star6
  | star7 => Shape.star7
  | star8 => Shape.star8
  | star10 => Shape.star10
  | star12 => Shape.star12
  | star16 => Shape.star16
  | star24 => Shape.star24
  | star32 => Shape.star32
  | irregularSeal1 => Shape.irregularSeal1
  | irregularSeal2 => Shape.irregularSeal2
  | rightArrow => Shape.rightArrow
  | leftArrow => Shape.leftArrow
  | upArrow => Shape.upArrow
  | downArrow => Shape.downArrow
  | leftRightArrow => Shape.leftRightArrow
  | upDownArrow => Shape.upDownArrow
  | quadArrow => Shape.quadArrow
  | leftRightUpArrow => Shape.leftRightUpArrow
  | leftUpArrow => Shape.leftUpArrow
  | bentUpArrow => Shape.bentUpArrow
  | bentArrow => Shape.bentArrow
  | uturnArrow => Shape.uturnArrow
  | stripedRightArrow => Shape.stripedRightArrow
  | notchedRightArrow => Shape.notchedRightArrow
  | swooshArrow => Shape.swooshArrow
  | rightArrowCallout => Shape.rightArrowCallout
  | leftArrowCallout => Shape.leftArrowCallout
  | upArrowCallout => Shape.upArrowCallout
  | downArrowCallout => Shape.downArrowCallout
  | leftRightArrowCallout => Shape.leftRightArrowCallout
  | upDownArrowCallout => Shape.upDownArrowCallout
  | quadArrowCallout => Shape.quadArrowCallout
  | circularArrow => Shape.circularArrow
  | leftCircularArrow => Shape.leftCircularArrow
  | leftRightCircularArrow => Shape.leftRightCircularArrow
  | wedgeRectCallout => Shape.wedgeRectCallout
  | wedgeRoundRectCallout => Shape.wedgeRoundRectCallout
  | wedgeEllipseCallout => Shape.wedgeEllipseCallout
  | cloudCallout => Shape.cloudCallout
  | flowChartProcess => Shape.Flowchart.process
  | flowChartAlternateProcess => Shape.flowChartAlternateProcess
  | flowChartDecision => Shape.Flowchart.decision
  | flowChartInputOutput => Shape.Flowchart.inputOutput
  | flowChartPredefinedProcess => Shape.Flowchart.predefinedProcess
  | flowChartInternalStorage => Shape.Flowchart.internalStorage
  | flowChartDocument => Shape.Flowchart.document
  | flowChartMultidocument => Shape.Flowchart.multidocument
  | flowChartTerminator => Shape.Flowchart.terminator
  | flowChartPreparation => Shape.Flowchart.preparation
  | flowChartManualInput => Shape.Flowchart.manualInput
  | flowChartManualOperation => Shape.Flowchart.manualOperation
  | flowChartConnector => Shape.Flowchart.connector
  | flowChartOffpageConnector => Shape.Flowchart.offpageConnector
  | flowChartPunchedCard => Shape.Flowchart.punchedCard
  | flowChartPunchedTape => Shape.Flowchart.punchedTape
  | flowChartSummingJunction => Shape.Flowchart.summingJunction
  | flowChartOr => Shape.Flowchart.or
  | flowChartCollate => Shape.Flowchart.collate
  | flowChartSort => Shape.Flowchart.sort
  | flowChartExtract => Shape.Flowchart.extract
  | flowChartMerge => Shape.Flowchart.merge
  | flowChartOfflineStorage => Shape.Flowchart.offlineStorage
  | flowChartOnlineStorage => Shape.Flowchart.onlineStorage
  | flowChartMagneticTape => Shape.Flowchart.magneticTape
  | flowChartMagneticDisk => Shape.Flowchart.magneticDisk
  | flowChartMagneticDrum => Shape.Flowchart.magneticDrum
  | flowChartDisplay => Shape.Flowchart.display
  | flowChartDelay => Shape.Flowchart.delay
  | mathPlus => Shape.mathPlus
  | mathMinus => Shape.mathMinus
  | mathMultiply => Shape.mathMultiply
  | mathDivide => Shape.mathDivide
  | mathEqual => Shape.mathEqual
  | mathNotEqual => Shape.mathNotEqual
  | line => Shape.line
  | lineInv => Shape.lineInv
  | straightConnector1 => Shape.straightConnector1
  | bentConnector2 => Shape.bentConnector2
  | bentConnector3 => Shape.bentConnector3
  | bentConnector4 => Shape.bentConnector4
  | bentConnector5 => Shape.bentConnector5
  | curvedConnector2 => Shape.curvedConnector2
  | curvedConnector3 => Shape.curvedConnector3
  | curvedConnector4 => Shape.curvedConnector4
  | curvedConnector5 => Shape.curvedConnector5
  | leftBracket => Shape.leftBracket
  | rightBracket => Shape.rightBracket
  | leftBrace => Shape.leftBrace
  | rightBrace => Shape.rightBrace
  | bracketPair => Shape.bracketPair
  | bracePair => Shape.bracePair
  | heart => Shape.heart
  | lightningBolt => Shape.lightningBolt
  | sun => Shape.sun
  | cloud => Shape.cloud
  | wave => Shape.wave
  | doubleWave => Shape.doubleWave
  | gear6 => Shape.gear6
  | gear9 => Shape.gear9
  | funnel => Shape.funnel
  | cornerTabs => Shape.cornerTabs
  | squareTabs => Shape.squareTabs
  | plaqueTabs => Shape.plaqueTabs
  | chartPlus => Shape.chartPlus
  | chartX => Shape.chartX
  | chartStar => Shape.chartStar

end ShapeOutline.Preset
