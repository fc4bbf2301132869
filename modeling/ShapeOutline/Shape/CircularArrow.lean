import ShapeOutline.Frame
import ShapeOutline.Sketch

/-!
Circular arrows. The band and its heads are solved on a circle of half the short side about the
origin, running clockwise, and then stretched onto the frame. A counterclockwise arrow is solved
with negated angles and reflected.
-/

namespace ShapeOutline.Shape

open Scalar

variable {α : Type} [Scalar α]

/-- The unit vector at an angle. -/
def unitAt (deg : α) : Point α := ⟨cos (radians deg), sin (radians deg)⟩

/-- An angle folded to between minus a half turn and a half turn. -/
def foldTurn (deg : α) : α := emod (deg + 180) 360 - 180

/-- The radii of a band, of the corners of its heads, and of the tips. -/
structure BandRadii (α : Type) where
  bandOuter : α
  bandInner : α
  headOuter : α
  headInner : α
  mid : α

def BandRadii.ofFrame (f : Frame α) (defaultBand defaultHead : α) : BandRadii α :=
  let a5 := f.pinned "adj5" defaultHead 0 25000
  let a1 := f.pinned "adj1" defaultBand 0 (2 * a5)
  let thickness := f.shortPart a1
  let half := f.shortPart a5
  let bandOuter := f.ss / 2 + thickness / 2 - half
  let mid := bandOuter - thickness / 2
  ⟨bandOuter, bandOuter - thickness, mid + half, max (mid - half) 0, mid⟩

/-- The unit vector across the line from `base` to `tip`, on the side away from the origin. -/
def outwardNormal (base tip : Point α) : Point α :=
  let chord := tip - base
  let across := (⟨-chord.y, chord.x⟩ : Point α).direction
  let n := if across.x == 0 && across.y == 0 then base.direction else across
  if n.dot base < 0 then -n else n

/-- Where the base line of a head meets the circle of radius `r`, or the point of that circle at
`deg` if the line misses it. -/
def headCorner (base tip : Point α) (deg r : α) : Point α :=
  let n := outwardNormal base tip
  match base.circleCrossings n r with
  | some (_, t) => base + n * t
  | none => unitAt deg * r

/-- A head on the circle: its tip, and its base line from the outside in. -/
structure ArcHead (α : Type) where
  tip : Point α
  outerHead : Point α
  outerBand : Point α
  innerBand : Point α
  innerHead : Point α

def ArcHead.solve (radii : BandRadii α) (baseDeg tipDeg : α) : ArcHead α :=
  let base := unitAt baseDeg * radii.mid
  let tip := unitAt tipDeg * radii.mid
  let cross := headCorner base tip baseDeg
  { tip
    outerHead := cross radii.headOuter
    outerBand := cross radii.bandOuter
    innerBand := cross radii.bandInner
    innerHead := cross radii.headInner }

/-- The frame's ellipse as a stretched circle, turned upside down if `flip` is set. -/
structure Oval (α : Type) where
  center : Point α
  scale : Point α
  flip : Bool

namespace Oval

def point (s : Oval α) (q : Point α) : Point α :=
  s.center + (if s.flip then (⟨q.x, -q.y⟩ : Point α) else q).stretch s.scale

def signed (s : Oval α) (deg : α) : α := if s.flip then -deg else deg

/-- The image of the arc of radius `r` that runs from the pen, at the angle `start`, over `sweep`.
Its visual sweep makes as many turns as the sweep itself. -/
def arc (s : Oval α) (r start sweep : α) : Stroke α :=
  let start := s.signed start
  let sweep := s.signed sweep
  let radii := s.scale * r
  let first := parametricToVisual radii start
  let d := parametricToVisual radii (start + sweep) - first
  .arc radii first (d + 360 * round ((sweep - d) / 360))

def ofFrame (f : Frame α) (flip : Bool) : Oval α :=
  let r := f.ss / 2
  ⟨f.center, if 0 < r then ⟨f.w / 2 / r, f.h / 2 / r⟩ else .zero, flip⟩

end Oval

/-- A kind of circular arrow, with the defaults of `adj1` to `adj5`. -/
structure CircularKind (α : Type) where
  counterclockwise : Bool
  doubleHeaded : Bool
  band : α
  headSweep : α
  stop : α
  start : α
  head : α

/-- The clockwise angles of an arrow: its start, the sweep to its tip, and the part of it that is
the head. -/
structure Turn (α : Type) where
  start : α
  sweep : α
  head : α

def Turn.ofFrame (k : CircularKind α) (f : Frame α) : Turn α :=
  let signed (deg : α) : α := if k.counterclockwise then -deg else deg
  let start := signed (f.turn "adj4" k.start)
  let sweep := sweepBetween start (signed (f.turn "adj3" k.stop))
  let heads : α := if k.doubleHeaded then 2 else 1
  ⟨start, sweep, pin 0 (signed (f.angleOf "adj2" k.headSweep)) (sweep / heads)⟩

/-- The angle at which the head begins. -/
def Turn.base (t : Turn α) : α := t.start + t.sweep - t.head

/-- An arrow solved on the circle. The band's arcs run from the angles `outerFrom` and `innerFrom`,
the inner one backwards. -/
structure CircularSolution (α : Type) where
  radii : BandRadii α
  front : ArcHead α
  tail : Option (ArcHead α)
  outerStart : Point α
  innerStart : Point α
  outerFrom : α
  outerSweep : α
  innerFrom : α
  innerSweep : α

def CircularSolution.ofFrame (k : CircularKind α) (f : Frame α) : CircularSolution α :=
  let radii := BandRadii.ofFrame f k.band k.head
  let t := Turn.ofFrame k f
  let front := ArcHead.solve radii t.base (t.start + t.sweep)
  let tail := if k.doubleHeaded then some (ArcHead.solve radii t.start (t.start - t.head)) else none
  let outerStart :=
    match tail with
    | some head => head.outerBand
    | none => unitAt t.start * radii.bandOuter
  let innerStart :=
    match tail with
    | some head => head.innerBand
    | none => unitAt t.start * radii.bandInner
  let body := t.base - t.start
  { radii, front, tail, outerStart, innerStart
    outerFrom := outerStart.angle
    outerSweep :=
      max (body + foldTurn (front.outerBand.angle - t.base) -
        foldTurn (outerStart.angle - t.start)) 0
    innerFrom := front.innerBand.angle
    innerSweep :=
      max (body + foldTurn (front.innerBand.angle - t.base) -
        foldTurn (innerStart.angle - t.start)) 0 }

/-- The outer edge of the band, the front head, the inner edge, and the tail's head. -/
def circularArrowOf (k : CircularKind α) (f : Frame α) : Sketch α :=
  let c := CircularSolution.ofFrame k f
  let s := Oval.ofFrame f k.counterclockwise
  let tail : List (Point α) :=
    match c.tail with
    | some head => [head.innerHead, head.tip, head.outerHead]
    | none => []
  [.move (s.point c.outerStart), s.arc c.radii.bandOuter c.outerFrom c.outerSweep] ++
    Sketch.lines
      ([c.front.outerHead, c.front.tip, c.front.innerHead, c.front.innerBand].map s.point) ++
    [s.arc c.radii.bandInner c.innerFrom (-c.innerSweep)] ++ Sketch.lines (tail.map s.point) ++
    [.close]

def circularArrow : Frame α → Sketch α :=
  circularArrowOf
    { counterclockwise := false, doubleHeaded := false
      band := 12500, headSweep := 1142319, stop := 20457681, start := 10800000, head := 12500 }

def leftCircularArrow : Frame α → Sketch α :=
  circularArrowOf
    { counterclockwise := true, doubleHeaded := false
      band := 12500, headSweep := -1142319, stop := 1142319, start := 10800000, head := 12500 }

def leftRightCircularArrow : Frame α → Sketch α :=
  circularArrowOf
    { counterclockwise := false, doubleHeaded := true
      band := 12500, headSweep := 1142319, stop := 20457681, start := 11942319, head := 12500 }

end ShapeOutline.Shape
