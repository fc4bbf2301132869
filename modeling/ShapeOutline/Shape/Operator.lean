import ShapeOutline.Frame
import ShapeOutline.Sketch

/-!
The signs of arithmetic. Each spans the same part of the frame.
-/

namespace ShapeOutline.Shape

open Scalar
open Sketch (polygon)

variable {α : Type} [Scalar α]

/-- Half of the part of a side that a sign spans. -/
def halfSpan (side : α) : α := side * (73490 / 200000)

def mathPlus (f : Frame α) : Sketch α :=
  let hc := f.hc
  let vc := f.vc
  let dx1 := halfSpan f.w
  let dy1 := halfSpan f.h
  let dx2 := f.ss * f.pinned "adj1" 23520 0 73490 / 200000
  let x1 := hc - dx1
  let x2 := hc - dx2
  let x3 := hc + dx2
  let x4 := hc + dx1
  let y1 := vc - dy1
  let y2 := vc - dx2
  let y3 := vc + dx2
  let y4 := vc + dy1
  polygon [⟨x1, y2⟩, ⟨x2, y2⟩, ⟨x2, y1⟩, ⟨x3, y1⟩, ⟨x3, y2⟩, ⟨x4, y2⟩, ⟨x4, y3⟩, ⟨x3, y3⟩, ⟨x3, y4⟩,
    ⟨x2, y4⟩, ⟨x2, y3⟩, ⟨x1, y3⟩]

def mathMinus (f : Frame α) : Sketch α :=
  let dy1 := f.h * f.pinned "adj1" 23520 0 100000 / 200000
  let dx1 := halfSpan f.w
  Sketch.rect (f.hc - dx1) (f.vc - dy1) (2 * dx1) (2 * dy1)

def mathEqual (f : Frame α) : Sketch α :=
  let a1 := f.pinned "adj1" 23520 0 36745
  let a2 := f.pinned "adj2" 11760 0 (100000 - 2 * a1)
  let dy1 := f.heightPart a1
  let dy2 := f.h * a2 / 200000
  let dx1 := halfSpan f.w
  let x1 := f.hc - dx1
  Sketch.rect x1 (f.vc - dy2 - dy1) (2 * dx1) dy1 ++ Sketch.rect x1 (f.vc + dy2) (2 * dx1) dy1

/-- Two bars along the diagonals of the frame. -/
def mathMultiply (f : Frame α) : Sketch α :=
  let r := f.w
  let b := f.h
  let hc := f.hc
  let vc := f.vc
  let th := f.shortPart (f.pinned "adj1" 23520 0 51965)
  let a := atan2 b r
  let ta := divOrZero b r
  let diagonal := hypot r b
  let lm := diagonal - diagonal * 51965 / 100000
  let xm := cos a * lm / 2
  let ym := sin a * lm / 2
  let dxam := sin a * th / 2
  let dyam := cos a * th / 2
  let xa := xm - dxam
  let ya := ym + dyam
  let xb := xm + dxam
  let yb := ym - dyam
  let yc := (hc - xb) * ta + yb
  let xd := r - xb
  let xe := r - xa
  let xfe := divOrZero (vc - ya) ta
  let yg := b - ya
  let yh := b - yb
  polygon [⟨xa, ya⟩, ⟨xb, yb⟩, ⟨hc, yc⟩, ⟨xd, yb⟩, ⟨xe, ya⟩, ⟨xe - xfe, vc⟩, ⟨xe, yg⟩, ⟨xd, yh⟩,
    ⟨hc, b - yc⟩, ⟨xb, yh⟩, ⟨xa, yg⟩, ⟨xa + xfe, vc⟩]

/-- A bar between two dots, which leave room for each other. -/
def mathDivide (f : Frame α) : Sketch α :=
  let a1 := f.pinned "adj1" 23520 1000 36745
  let most := min ((73490 - a1) / 4) (divOrZero (36745 * f.w) f.h)
  let a3 := f.pinned "adj3" 11760 1000 most
  let a2 := f.pinned "adj2" 5880 0 (73490 - 4 * a3 - a1)
  let hc := f.hc
  let b := f.h
  let dy1 := b * a1 / 200000
  let radius := f.heightPart a3
  let dx1 := halfSpan f.w
  let y3 := f.vc - dy1
  let y2 := y3 - (f.heightPart a2 + radius)
  let y1 := y2 - radius
  let dot (y start : α) : Sketch α := [.move ⟨hc, y⟩, .arc ⟨radius, radius⟩ start 360, .close]
  dot y1 270 ++ dot (b - y1) 90 ++ Sketch.rect (hc - dx1) y3 (2 * dx1) (2 * dy1)

/-- Two bars and a stroke through them that leans from the vertical. -/
def mathNotEqual (f : Frame α) : Sketch α :=
  let a1 := f.pinned "adj1" 23520 0 50000
  let lean := f.pinned "adj2" 6600000 4200000 6600000 / 60000
  let a3 := f.pinned "adj3" 11760 0 (100000 - 2 * a1)
  let hc := f.hc
  let vc := f.vc
  let b := f.h
  let hd2 := b / 2
  let dy1 := f.heightPart a1
  let dy2 := b * a3 / 200000
  let dx1 := halfSpan f.w
  let x1 := hc - dx1
  let x8 := hc + dx1
  let y2 := vc - dy2
  let y3 := vc + dy2
  let y1 := y2 - dy1
  let y4 := y3 + dy1
  let offset := hd2 * tan (radians (lean - 90))
  let width := divOrZero (hypot offset hd2 * dy1) hd2
  let x7 := hc + offset - width / 2
  let edge (y : α) : α := x7 - divOrZero (offset * y) hd2
  let x6 := edge y1
  let x5 := edge y2
  let x4 := edge y3
  let x3 := edge y4
  let x2 := x7 - 2 * offset
  polygon [⟨x1, y1⟩, ⟨x6, y1⟩, ⟨x7, 0⟩, ⟨x7 + width, 0⟩, ⟨x6 + width, y1⟩, ⟨x8, y1⟩, ⟨x8, y2⟩,
    ⟨x5 + width, y2⟩, ⟨x4 + width, y3⟩, ⟨x8, y3⟩, ⟨x8, y4⟩, ⟨x3 + width, y4⟩, ⟨x2 + width, b⟩,
    ⟨x2, b⟩, ⟨x3, y4⟩, ⟨x1, y4⟩, ⟨x1, y3⟩, ⟨x4, y3⟩, ⟨x5, y2⟩, ⟨x1, y2⟩]

end ShapeOutline.Shape
