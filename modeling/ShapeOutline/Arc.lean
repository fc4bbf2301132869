import ShapeOutline.Point

/-!
Arcs of axis-parallel ellipses. An arc is given from the pen by its radii, a start angle and a
sweep; its centre follows from the pen. Angles are visual: they name the ray from the centre to the
point drawn, which is the parametric angle only on a circle.
-/

namespace ShapeOutline

open Scalar

variable {α : Type} [Scalar α]

/-- The parametric angle, in radians, of the point seen at `deg` degrees. -/
def visualToParametric (radii : Point α) (deg : α) : α :=
  let t := radians deg
  atan2 (radii.x * sin t) (radii.y * cos t)

/-- The visual angle, in degrees, of the point with parametric angle `deg` degrees. -/
def parametricToVisual (radii : Point α) (deg : α) : α :=
  let t := radians deg
  degrees (atan2 (radii.y * sin t) (radii.x * cos t))

/-- The vector from the centre to the point with parametric angle `t` radians. -/
def ellipseRadius (radii : Point α) (t : α) : Point α := ⟨radii.x * cos t, radii.y * sin t⟩

/-- The point of an ellipse at a visual angle. -/
def ellipsePoint (center radii : Point α) (deg : α) : Point α :=
  center + ellipseRadius radii (visualToParametric radii deg)

/-- The point of an ellipse at a parametric angle in degrees. -/
def polar (center radii : Point α) (deg : α) : Point α :=
  center + ellipseRadius radii (radians deg)

/-- An arc by its end, with the two flags that choose it among the four arcs with these radii. -/
structure ArcSegment (α : Type) where
  target : Point α
  center : Point α
  large : Bool
  sweep : Bool

def arcSegment (pen radii : Point α) (start sweep : α) : ArcSegment α :=
  let center := pen - ellipseRadius radii (visualToParametric radii start)
  { target := center + ellipseRadius radii (visualToParametric radii (start + sweep))
    center := center
    large := decide (180 < abs sweep)
    sweep := decide (0 < sweep) }

/-- The clockwise sweep between two angles; equal angles are a full turn apart. -/
def sweepBetween (start stop : α) : α :=
  let sweep := emod (stop - start) 360
  if sweep == 0 then 360 else sweep

/-- Holds of an arc that draws nothing. -/
def isDegenerate (radii : Point α) (sweep : α) : Bool :=
  decide (radii.x ≤ 0) || decide (radii.y ≤ 0) || sweep == 0 || !isFinite sweep

/-- Holds of an arc that has to be written in two halves, because its end is where it starts. -/
def needsHalves (sweep : α) (pen target : Point α) : Bool :=
  decide (360 ≤ abs sweep) || (decide (180 < abs sweep) && pen.sameText target)

end ShapeOutline
