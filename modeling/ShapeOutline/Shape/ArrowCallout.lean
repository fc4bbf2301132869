import ShapeOutline.Shape.Facing

/-!
Arrow callouts: a text box with an arrow on one, two or four of its sides.
-/

namespace ShapeOutline.Shape

open Sketch (polygon)

variable {α : Type} [Scalar α]

/-- Arrows alike on a text box: half the widths of head and shaft, the length of a head, and how far
the box extends as a part of the frame. -/
structure CalloutGuides (α : Type) where
  half : α
  shaft : α
  head : α
  box : α

/-- The guides of a callout with arrows along the side `w`, which leave `room` for one head and the
box on its side. -/
def CalloutGuides.ofFrame (f : Frame α) (h room mostHead defaultBox : α) : CalloutGuides α :=
  let a2 := f.pinned "adj2" 25000 0 (divOrZero (50000 * h) f.ss)
  let a1 := f.pinned "adj1" 25000 0 (2 * a2)
  let a3 := f.pinned "adj3" 25000 0 mostHead
  let a4 := f.pinned "adj4" defaultBox 0 (100000 - divOrZero (a3 * f.ss) room)
  ⟨f.shortPart a2, f.shortPart a1 / 2, f.shortPart a3, a4⟩

def arrowCallout (d : Facing) (f : Frame α) : Sketch α :=
  let w := d.along f
  let h := d.across f
  let g := CalloutGuides.ofFrame f h w (divOrZero (100000 * w) f.ss) 64977
  let vc := h / 2
  let x2 := w * g.box / 100000
  let x3 := w - g.head
  (polygon [⟨0, 0⟩, ⟨x2, 0⟩, ⟨x2, vc - g.shaft⟩, ⟨x3, vc - g.shaft⟩, ⟨x3, vc - g.half⟩, ⟨w, vc⟩,
    ⟨x3, vc + g.half⟩, ⟨x3, vc + g.shaft⟩, ⟨x2, vc + g.shaft⟩, ⟨x2, h⟩, ⟨0, h⟩]).reflect
    (d.reflection f)

def rightArrowCallout : Frame α → Sketch α := arrowCallout .right
def leftArrowCallout : Frame α → Sketch α := arrowCallout .left
def upArrowCallout : Frame α → Sketch α := arrowCallout .up
def downArrowCallout : Frame α → Sketch α := arrowCallout .down

def twoHeadedCallout (d : Facing) (f : Frame α) : Sketch α :=
  let w := d.along f
  let h := d.across f
  let g := CalloutGuides.ofFrame f h (w / 2) (divOrZero (50000 * w) f.ss) 48123
  let vc := h / 2
  let dx := w * g.box / 200000
  let x1 := g.head
  let x2 := w / 2 - dx
  let x3 := w / 2 + dx
  let x4 := w - g.head
  let y1 := vc - g.half
  let y2 := vc - g.shaft
  let y3 := vc + g.shaft
  let y4 := vc + g.half
  (polygon [⟨0, vc⟩, ⟨x1, y1⟩, ⟨x1, y2⟩, ⟨x2, y2⟩, ⟨x2, 0⟩, ⟨x3, 0⟩, ⟨x3, y2⟩, ⟨x4, y2⟩, ⟨x4, y1⟩,
    ⟨w, vc⟩, ⟨x4, y4⟩, ⟨x4, y3⟩, ⟨x3, y3⟩, ⟨x3, h⟩, ⟨x2, h⟩, ⟨x2, y3⟩, ⟨x1, y3⟩, ⟨x1, y4⟩]).reflect
    (d.reflection f)

def leftRightArrowCallout : Frame α → Sketch α := twoHeadedCallout .right
def upDownArrowCallout : Frame α → Sketch α := twoHeadedCallout .down

/-- The adjustments of a callout with four arrows, pinned one after the other. -/
structure QuadCalloutGuides (α : Type) where
  shaft : α
  half : α
  head : α
  box : α

def QuadCalloutGuides.ofFrame (f : Frame α) : QuadCalloutGuides α :=
  let a2 := f.pinned "adj2" 18515 0 50000
  let a1 := f.pinned "adj1" 18515 0 (2 * a2)
  let a3 := f.pinned "adj3" 18515 0 (50000 - a2)
  ⟨a1, a2, a3, f.pinned "adj4" 48123 a1 (100000 - 2 * a3)⟩

def quadArrowCallout (f : Frame α) : Sketch α :=
  let g := QuadCalloutGuides.ofFrame f
  let r := f.w
  let b := f.h
  let hc := f.hc
  let vc := f.vc
  let half := f.shortPart g.half
  let shaft := f.shortPart g.shaft / 2
  let ah := f.shortPart g.head
  let dx1 := r * g.box / 200000
  let dy1 := b * g.box / 200000
  let x2 := hc - dx1
  let x3 := hc - half
  let x4 := hc - shaft
  let x5 := hc + shaft
  let x6 := hc + half
  let x7 := hc + dx1
  let x8 := r - ah
  let y2 := vc - dy1
  let y3 := vc - half
  let y4 := vc - shaft
  let y5 := vc + shaft
  let y6 := vc + half
  let y7 := vc + dy1
  let y8 := b - ah
  polygon [⟨0, vc⟩, ⟨ah, y3⟩, ⟨ah, y4⟩, ⟨x2, y4⟩, ⟨x2, y2⟩, ⟨x4, y2⟩, ⟨x4, ah⟩, ⟨x3, ah⟩, ⟨hc, 0⟩,
    ⟨x6, ah⟩, ⟨x5, ah⟩, ⟨x5, y2⟩, ⟨x7, y2⟩, ⟨x7, y4⟩, ⟨x8, y4⟩, ⟨x8, y3⟩, ⟨r, vc⟩, ⟨x8, y6⟩,
    ⟨x8, y5⟩, ⟨x7, y5⟩, ⟨x7, y7⟩, ⟨x5, y7⟩, ⟨x5, y8⟩, ⟨x6, y8⟩, ⟨hc, b⟩, ⟨x3, y8⟩, ⟨x4, y8⟩,
    ⟨x4, y7⟩, ⟨x2, y7⟩, ⟨x2, y5⟩, ⟨ah, y5⟩, ⟨ah, y6⟩]

end ShapeOutline.Shape
