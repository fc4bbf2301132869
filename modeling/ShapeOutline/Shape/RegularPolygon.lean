import ShapeOutline.Frame
import ShapeOutline.Sketch

/-!
Regular polygons. The adjustments `hf` and `vf` widen the circumscribed ellipse until the corners
touch the sides of the frame.
-/

namespace ShapeOutline.Shape

open Scalar
open Sketch (polygon)

variable {α : Type} [Scalar α]

def pentagon (f : Frame α) : Sketch α :=
  let hf := f.adjustment "hf" 105146
  let vf := f.adjustment "vf" 110557
  let swd2 := f.w / 2 * hf / 100000
  let shd2 := f.h / 2 * vf / 100000
  let svc := f.vc * vf / 100000
  let dx1 := swd2 * cos (radians 18)
  let dx2 := swd2 * cos (radians 306)
  let y1 := svc - shd2 * sin (radians 18)
  let y2 := svc - shd2 * sin (radians 306)
  let hc := f.hc
  polygon [⟨hc - dx1, y1⟩, ⟨hc, 0⟩, ⟨hc + dx1, y1⟩, ⟨hc + dx2, y2⟩, ⟨hc - dx2, y2⟩]

def hexagon (f : Frame α) : Sketch α :=
  let x1 := f.shortPart (f.pinned "adj" 25000 0 (f.maxWidthRatio / 2))
  let x2 := f.w - x1
  let shd2 := f.h / 2 * f.adjustment "vf" 115470 / 100000
  let dy1 := shd2 * sin (radians 60)
  let vc := f.vc
  let y1 := vc - dy1
  let y2 := vc + dy1
  polygon [⟨0, vc⟩, ⟨x1, y1⟩, ⟨x2, y1⟩, ⟨f.w, vc⟩, ⟨x2, y2⟩, ⟨x1, y2⟩]

def heptagon (f : Frame α) : Sketch α :=
  let hf := f.adjustment "hf" 102572
  let vf := f.adjustment "vf" 105210
  let swd2 := f.w / 2 * hf / 100000
  let shd2 := f.h / 2 * vf / 100000
  let svc := f.vc * vf / 100000
  let dx1 := swd2 * 97493 / 100000
  let dx2 := swd2 * 78183 / 100000
  let dx3 := swd2 * 43388 / 100000
  let y1 := svc - shd2 * 62349 / 100000
  let y2 := svc + shd2 * 22252 / 100000
  let y3 := svc + shd2 * 90097 / 100000
  let hc := f.hc
  polygon [⟨hc - dx1, y2⟩, ⟨hc - dx2, y1⟩, ⟨hc, 0⟩, ⟨hc + dx2, y1⟩, ⟨hc + dx1, y2⟩, ⟨hc + dx3, y3⟩,
    ⟨hc - dx3, y3⟩]

def octagon (f : Frame α) : Sketch α :=
  let x1 := f.shortPart (f.pinned "adj" 29289 0 50000)
  let r := f.w
  let b := f.h
  polygon [⟨0, x1⟩, ⟨x1, 0⟩, ⟨r - x1, 0⟩, ⟨r, x1⟩, ⟨r, b - x1⟩, ⟨r - x1, b⟩, ⟨x1, b⟩, ⟨0, b - x1⟩]

def decagon (f : Frame α) : Sketch α :=
  let shd2 := f.h / 2 * f.adjustment "vf" 105146 / 100000
  let wd2 := f.w / 2
  let dx1 := wd2 * cos (radians 36)
  let dx2 := wd2 * cos (radians 72)
  let dy1 := shd2 * sin (radians 72)
  let dy2 := shd2 * sin (radians 36)
  let hc := f.hc
  let vc := f.vc
  polygon [⟨0, vc⟩, ⟨hc - dx1, vc - dy2⟩, ⟨hc - dx2, vc - dy1⟩, ⟨hc + dx2, vc - dy1⟩,
    ⟨hc + dx1, vc - dy2⟩, ⟨f.w, vc⟩, ⟨hc + dx1, vc + dy2⟩, ⟨hc + dx2, vc + dy1⟩,
    ⟨hc - dx2, vc + dy1⟩, ⟨hc - dx1, vc + dy2⟩]

/-- A coordinate `n` of the 21600 units of a side. -/
def sideUnits (side n : α) : α := side * n / 21600

def dodecagon (f : Frame α) : Sketch α :=
  let x1 := sideUnits f.w 2894
  let x2 := sideUnits f.w 7906
  let x3 := sideUnits f.w 13694
  let x4 := sideUnits f.w 18706
  let y1 := sideUnits f.h 2894
  let y2 := sideUnits f.h 7906
  let y3 := sideUnits f.h 13694
  let y4 := sideUnits f.h 18706
  polygon [⟨0, y2⟩, ⟨x1, y1⟩, ⟨x2, 0⟩, ⟨x3, 0⟩, ⟨x4, y1⟩, ⟨f.w, y2⟩, ⟨f.w, y3⟩, ⟨x4, y4⟩, ⟨x3, f.h⟩,
    ⟨x2, f.h⟩, ⟨x1, y4⟩, ⟨0, y3⟩]

end ShapeOutline.Shape
