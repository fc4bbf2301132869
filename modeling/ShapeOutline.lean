import ShapeOutline.Adjustments
import ShapeOutline.Arc
import ShapeOutline.Box
import ShapeOutline.Custom
import ShapeOutline.Decimal
import ShapeOutline.Diagram
import ShapeOutline.Dimension
import ShapeOutline.Drawing
import ShapeOutline.FillMode
import ShapeOutline.Frame
import ShapeOutline.Gallery
import ShapeOutline.Grid
import ShapeOutline.Guide
import ShapeOutline.Layer
import ShapeOutline.Layered.ActionButton
import ShapeOutline.Layered.ArchedRibbon
import ShapeOutline.Layered.CurvedArrow
import ShapeOutline.Layered.LineCallout
import ShapeOutline.Layered.Ribbon
import ShapeOutline.Layered.Scroll
import ShapeOutline.Layered.Solid
import ShapeOutline.LayeredPreset
import ShapeOutline.Main
import ShapeOutline.Name
import ShapeOutline.Numeral
import ShapeOutline.Path
import ShapeOutline.PathWriter
import ShapeOutline.Point
import ShapeOutline.Preset
import ShapeOutline.Preset.Sketch
import ShapeOutline.Proofs.RealScalar
import ShapeOutline.Scalar
import ShapeOutline.Scalar.Binary
import ShapeOutline.Shape.ArrowCallout
import ShapeOutline.Shape.BentArrow
import ShapeOutline.Shape.BlockArrow
import ShapeOutline.Shape.Bracket
import ShapeOutline.Shape.CircularArrow
import ShapeOutline.Shape.Cloud
import ShapeOutline.Shape.Connector
import ShapeOutline.Shape.CornerRect
import ShapeOutline.Shape.Emblem
import ShapeOutline.Shape.Facing
import ShapeOutline.Shape.Flowchart
import ShapeOutline.Shape.Gear
import ShapeOutline.Shape.Operator
import ShapeOutline.Shape.Polygon
import ShapeOutline.Shape.RegularPolygon
import ShapeOutline.Shape.Sector
import ShapeOutline.Shape.Star
import ShapeOutline.Shape.Tail
import ShapeOutline.Shape.Wave
import ShapeOutline.Sketch
import ShapeOutline.Proofs.ArcPieces
import ShapeOutline.Proofs.Mirror
import ShapeOutline.Proofs.Phase
import ShapeOutline.Proofs.ArcFlags
import ShapeOutline.Proofs.ArcReach
import ShapeOutline.Proofs.Trail
import ShapeOutline.Proofs.CustomFit
import ShapeOutline.Proofs.AuthoredUnits
import ShapeOutline.Proofs.GridDrawing
import ShapeOutline.Proofs.FlowchartGrid
import ShapeOutline.Proofs.CloudPuffs
import ShapeOutline.Proofs.StretchedArc
import ShapeOutline.Proofs.Secant
import ShapeOutline.Proofs.BaseLine
import ShapeOutline.Proofs.CircularArrow
import ShapeOutline.Proofs.OpposedArrows
import ShapeOutline.Proofs.DiagramFit
import ShapeOutline.Proofs.NestedSpaces
import ShapeOutline.Proofs.Concatenation
import ShapeOutline.Proofs.InStep
import ShapeOutline.Proofs.Registration
import ShapeOutline.Proofs.ExtendedReal
import ShapeOutline.Proofs.NumeralText
import ShapeOutline.Proofs.GuideWords
import ShapeOutline.Proofs.Factor
import ShapeOutline.Proofs.PathText
import ShapeOutline.Proofs.PathWriting
import ShapeOutline.Proofs.ShortestDecimal
import ShapeOutline.Proofs.ScaledCircular
import ShapeOutline.Proofs.ScaledCurves
import ShapeOutline.Proofs.ScaledLayers
import ShapeOutline.Proofs.Scaling
import ShapeOutline.Proofs.Lookup
import ShapeOutline.Proofs.GroupLayout
import ShapeOutline.Proofs.DoubleRange
import ShapeOutline.Proofs.FiniteOrder
import ShapeOutline.Proofs.MachineNumerals
import ShapeOutline.Proofs.Extension
import ShapeOutline.Proofs.ExtendedPolygons
import ShapeOutline.Proofs.ExtendedCurves
import ShapeOutline.Proofs.ExtendedCircular
import ShapeOutline.Proofs.ExtendedLayers
import ShapeOutline.Proofs.Definedness
import ShapeOutline.Proofs.Enclosure
import ShapeOutline.Proofs.Trace
import ShapeOutline.Proofs.TraceBounds
import ShapeOutline.Proofs.TraceImage
import ShapeOutline.Proofs.Subpaths
import ShapeOutline.Proofs.FlatRegions
import ShapeOutline.Proofs.Shading
import ShapeOutline.Proofs.ShadedIcons
import ShapeOutline.Proofs.ShadedArrow
import ShapeOutline.Proofs.ShadedBanner
import ShapeOutline.Proofs.ShadedRibbon
import ShapeOutline.Proofs.ShadedTwist
import ShapeOutline.Proofs.ShadedLayers
import ShapeOutline.Proofs.FrameParts
import ShapeOutline.Proofs.ArrowHead
import ShapeOutline.Proofs.BlockArrows
import ShapeOutline.Proofs.ArrowCallouts
import ShapeOutline.Proofs.Legs
import ShapeOutline.Proofs.ArrowBends
import ShapeOutline.Proofs.Crescent
import ShapeOutline.Proofs.Curls
import ShapeOutline.Proofs.WedgeSide
import ShapeOutline.Proofs.EllipseArcs
import ShapeOutline.Proofs.GearTeeth
import ShapeOutline.Proofs.ArchedBanner
import ShapeOutline.Proofs.WaveChains
import ShapeOutline.Proofs.FrameLap
import ShapeOutline.Proofs.Trapezium
import ShapeOutline.Proofs.FaceTiling
import ShapeOutline.Proofs.HalfFrame
import ShapeOutline.Proofs.CurvedBand
import ShapeOutline.Proofs.Orientations
import ShapeOutline.Proofs.RibbonSymmetry
import ShapeOutline.Proofs.SpannedBox
import ShapeOutline.Proofs.ByteOrder
import ShapeOutline.Proofs.AdjustmentSet
import ShapeOutline.Proofs.AngleConversion
import ShapeOutline.Proofs.NearestCrossing
