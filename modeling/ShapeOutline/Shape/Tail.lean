import ShapeOutline.Frame
import ShapeOutline.Sketch

/-!
Callouts with a tail. The tip lies `adj1` and `adj2` from the centre of the frame, in 100000ths of
its sides. The tail leaves the side on which the tip is further out, each offset rescaled to the
other side of the frame; in a frame that is not square this need not be the side nearest to the tip.
-/

namespace ShapeOutline.Shape

open Scalar

variable {α : Type} [Scalar α]

inductive Side where
  | top
  | right
  | bottom
  | left
  deriving DecidableEq

structure Tail (α : Type) where
  tip : Point α
  side : Side
  /-- Whether the tip lies past the middle of the side. -/
  past : Bool

/-- Both offsets are rescaled, so `adj1` of the height is compared with `adj2` of the width. -/
def Tail.ofFrame (f : Frame α) : Tail α :=
  let dx := f.widthPart (f.adjustment "adj1" (-20833))
  let dy := f.heightPart (f.adjustment "adj2" 62500)
  let tip : Point α := ⟨f.hc + dx, f.vc + dy⟩
  if abs (divOrZero (dy * f.w) f.h) < abs (divOrZero (dx * f.h) f.w) then
    ⟨tip, if 0 < dx then .right else .left, decide (0 < dy)⟩
  else ⟨tip, if 0 < dy then .bottom else .top, decide (0 < dx)⟩

/-- A rectangle with corners of radius `d` and a wedge on the tail's side. -/
def wedged (f : Frame α) (d : α) : Sketch α :=
  let t := Tail.ofFrame f
  let r := f.w
  let b := f.h
  let near (side : α) : α := side * (if t.past then 7 else 2) / 12
  let far (side : α) : α := side * (if t.past then 10 else 5) / 12
  let wedge (side : Side) (p q : Point α) : Sketch α :=
    if t.side = side then Sketch.lines [p, t.tip, q] else []
  let curve : Point α := ⟨d, d⟩
  [.move ⟨0, d⟩, .arc curve 180 90] ++ wedge .top ⟨near r, 0⟩ ⟨far r, 0⟩ ++
    [.line ⟨r - d, 0⟩, .arc curve 270 90] ++ wedge .right ⟨r, near b⟩ ⟨r, far b⟩ ++
    [.line ⟨r, b - d⟩, .arc curve 0 90] ++ wedge .bottom ⟨far r, b⟩ ⟨near r, b⟩ ++
    [.line ⟨d, b⟩, .arc curve 90 90] ++ wedge .left ⟨0, far b⟩ ⟨0, near b⟩ ++ [.close]

def wedgeRectCallout (f : Frame α) : Sketch α := wedged f 0

def wedgeRoundRectCallout (f : Frame α) : Sketch α :=
  wedged f (f.shortPart (f.pinned "adj3" 16667 0 50000))

/-- The parametric direction of a tip in degrees. -/
def tipAngle (f : Frame α) (tip : Point α) : α :=
  let d := tip - f.center
  (⟨d.x * f.h, d.y * f.w⟩ : Point α).heading

/-- An ellipse that opens 11 degrees on either side of the tip. -/
def wedgeEllipseCallout (f : Frame α) : Sketch α :=
  let tip := (Tail.ofFrame f).tip
  let c := f.center
  let r := f.half
  let deg := tipAngle f tip
  let start := parametricToVisual r (deg + 11)
  let stop := parametricToVisual r (deg - 11)
  [.move tip, .line (polar c r (deg + 11)), .arc r start (sweepBetween start stop),
    .line (polar c r (deg - 11)), .close]

end ShapeOutline.Shape
