import ShapeOutline.Frame
import ShapeOutline.Sketch

/-!
Gears: teeth on the frame's ellipse, and between them arcs of a smaller one.
-/

namespace ShapeOutline.Shape

open Scalar

variable {α : Type} [Scalar α]

/-- The ellipse between the teeth, the angle from one tooth to the next, and half the angles of a
tooth at its tip and at its root. -/
structure GearGuides (α : Type) where
  root : Point α
  pitch : α
  tipHalf : α
  rootHalf : α

def GearGuides.ofFrame (f : Frame α) (teeth : Nat) (defaultHeight defaultTip mostTip : α) :
    GearGuides α :=
  let height := f.shortPart (f.pinned "adj1" defaultHeight 0 20000)
  let tip := f.shortPart (f.pinned "adj2" defaultTip 0 mostTip)
  let r := f.ss / 2
  let pitch : α := 360 / ofNat teeth
  let tipHalf := min (degrees (asin (clamp 0 1 (divOrZero tip r)))) (pitch / 4)
  { root := f.half * divOrZero (max (r - height) 0) r
    pitch, tipHalf, rootHalf := min (tipHalf + pitch / 8) (pitch * 0.45) }

/-- The parametric angle of the middle of tooth `k`. -/
def GearGuides.middle (g : GearGuides α) (k : Nat) : α := -90 + ofNat k * g.pitch

/-- Tooth `k`, from the root before it, and the arc to the next one. -/
def GearGuides.tooth (g : GearGuides α) (f : Frame α) (k : Nat) : Sketch α :=
  let c := f.center
  let middle := g.middle k
  let start := parametricToVisual g.root (middle + g.rootHalf)
  let stop := parametricToVisual g.root (middle + g.pitch - g.rootHalf)
  [.line (polar c f.half (middle - g.tipHalf)), .line (polar c f.half (middle + g.tipHalf)),
    .line (polar c g.root (middle + g.rootHalf)), .arc g.root start (emod (stop - start) 360)]

def gear (teeth : Nat) (defaultHeight defaultTip mostTip : α) (f : Frame α) : Sketch α :=
  let g := GearGuides.ofFrame f teeth defaultHeight defaultTip mostTip
  .move (polar f.center g.root (-90 - g.rootHalf)) ::
    (List.range teeth).flatMap (g.tooth f) ++ [.close]

def gear6 : Frame α → Sketch α := gear 6 15000 3526 5358

def gear9 : Frame α → Sketch α := gear 9 10000 1763 2679

end ShapeOutline.Shape
