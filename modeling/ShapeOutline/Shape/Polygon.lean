import ShapeOutline.Frame
import ShapeOutline.Sketch

/-!
Outlines of straight lines: triangles and quadrilaterals, frames and corners, plates and chevrons.
-/

namespace ShapeOutline.Shape

open Sketch (polygon)

variable {α : Type} [Scalar α]

def rect (f : Frame α) : Sketch α := Sketch.rect 0 0 f.w f.h

def triangle (f : Frame α) : Sketch α :=
  let x1 := f.widthPart (f.pinned "adj" 50000 0 100000)
  polygon [⟨0, f.h⟩, ⟨x1, 0⟩, ⟨f.w, f.h⟩]

def rtTriangle (f : Frame α) : Sketch α := polygon [⟨0, f.h⟩, ⟨0, 0⟩, ⟨f.w, f.h⟩]

def diamond (f : Frame α) : Sketch α :=
  polygon [⟨0, f.vc⟩, ⟨f.hc, 0⟩, ⟨f.w, f.vc⟩, ⟨f.hc, f.h⟩]

def parallelogram (f : Frame α) : Sketch α :=
  let x2 := f.shortPart (f.pinned "adj" 25000 0 f.maxWidthRatio)
  polygon [⟨0, f.h⟩, ⟨x2, 0⟩, ⟨f.w, 0⟩, ⟨f.w - x2, f.h⟩]

def trapezoid (f : Frame α) : Sketch α :=
  let x2 := f.shortPart (f.pinned "adj" 25000 0 (f.maxWidthRatio / 2))
  polygon [⟨0, f.h⟩, ⟨x2, 0⟩, ⟨f.w - x2, 0⟩, ⟨f.w, f.h⟩]

def nonIsoscelesTrapezoid (f : Frame α) : Sketch α :=
  let most := f.maxWidthRatio / 2
  let x1 := f.shortPart (f.pinned "adj1" 25000 0 most)
  let x2 := f.shortPart (f.pinned "adj2" 25000 0 most)
  polygon [⟨0, f.h⟩, ⟨x1, 0⟩, ⟨f.w - x2, 0⟩, ⟨f.w, f.h⟩]

def plus (f : Frame α) : Sketch α :=
  let x1 := f.shortPart (f.pinned "adj" 25000 0 50000)
  let r := f.w
  let b := f.h
  let x2 := r - x1
  let y2 := b - x1
  polygon [⟨0, x1⟩, ⟨x1, x1⟩, ⟨x1, 0⟩, ⟨x2, 0⟩, ⟨x2, x1⟩, ⟨r, x1⟩, ⟨r, y2⟩, ⟨x2, y2⟩, ⟨x2, b⟩,
    ⟨x1, b⟩, ⟨x1, y2⟩, ⟨0, y2⟩]

/-- The frame, and the opening traced the other way round. -/
def frame (f : Frame α) : Sketch α :=
  let x1 := f.shortPart (f.pinned "adj1" 12500 0 50000)
  let r := f.w
  let b := f.h
  Sketch.rect 0 0 r b ++ polygon [⟨x1, x1⟩, ⟨x1, b - x1⟩, ⟨r - x1, b - x1⟩, ⟨r - x1, x1⟩]

/-- The arms of a half frame and the insets of their slanted ends. -/
structure HalfFrame (α : Type) where
  x1 : α
  y1 : α
  dx2 : α
  dy2 : α

/-- The horizontal arm is bounded so that the inner corner stays above the diagonal. -/
def HalfFrame.ofFrame (f : Frame α) : HalfFrame α :=
  let x1 := f.shortPart (f.pinned "adj2" 33333 0 f.maxWidthRatio)
  let g1 := divOrZero (f.h * x1) f.w
  let most := divOrZero (100000 * (f.h - g1)) f.ss
  let y1 := f.shortPart (f.pinned "adj1" 33333 0 most)
  ⟨x1, y1, divOrZero (y1 * f.w) f.h, divOrZero (x1 * f.h) f.w⟩

def halfFrame (f : Frame α) : Sketch α :=
  let g := HalfFrame.ofFrame f
  polygon [⟨0, 0⟩, ⟨f.w, 0⟩, ⟨f.w - g.dx2, g.y1⟩, ⟨g.x1, g.y1⟩, ⟨g.x1, f.h - g.dy2⟩, ⟨0, f.h⟩]

def corner (f : Frame α) : Sketch α :=
  let y1 := f.h - f.shortPart (f.pinned "adj1" 50000 0 f.maxHeightRatio)
  let x1 := f.shortPart (f.pinned "adj2" 50000 0 f.maxWidthRatio)
  polygon [⟨0, 0⟩, ⟨x1, 0⟩, ⟨x1, y1⟩, ⟨f.w, y1⟩, ⟨f.w, f.h⟩, ⟨0, f.h⟩]

def diagStripe (f : Frame α) : Sketch α :=
  let a := f.pinned "adj" 50000 0 100000
  polygon [⟨0, f.heightPart a⟩, ⟨f.widthPart a, 0⟩, ⟨f.w, 0⟩, ⟨0, f.h⟩]

def homePlate (f : Frame α) : Sketch α :=
  let x1 := f.w - f.shortPart (f.pinned "adj" 50000 0 f.maxWidthRatio)
  polygon [⟨0, 0⟩, ⟨x1, 0⟩, ⟨f.w, f.vc⟩, ⟨x1, f.h⟩, ⟨0, f.h⟩]

def chevron (f : Frame α) : Sketch α :=
  let x1 := f.shortPart (f.pinned "adj" 50000 0 f.maxWidthRatio)
  let x2 := f.w - x1
  polygon [⟨0, 0⟩, ⟨x2, 0⟩, ⟨f.w, f.vc⟩, ⟨x2, f.h⟩, ⟨0, f.h⟩, ⟨x1, f.vc⟩]

end ShapeOutline.Shape
