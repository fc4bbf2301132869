import ShapeOutline.Shape.Facing

/-!
Straight block arrows. A head is as wide as its side of the frame or as `adj2` asks, and its shaft
lies between the corners of the head.
-/

namespace ShapeOutline.Shape

open Sketch (polygon)

variable {α : Type} [Scalar α]

/-- A length as the greatest value of an adjustment in parts of the short side. -/
def shortRatio (f : Frame α) (length : α) : α := divOrZero (100000 * length) f.ss

/-- An arrow pointing right: the length of its heads and the edges of its shaft. -/
structure ArrowGuides (α : Type) where
  head : α
  top : α
  bottom : α

/-- The guides in a frame of height `h`, with heads of at most `most`. -/
def ArrowGuides.ofFrame (f : Frame α) (h most : α) : ArrowGuides α :=
  let dy := h * f.pinned "adj1" 50000 0 100000 / 200000
  ⟨f.shortPart (f.pinned "adj2" 50000 0 most), h / 2 - dy, h / 2 + dy⟩

def blockArrow (d : Facing) (f : Frame α) : Sketch α :=
  let w := d.along f
  let h := d.across f
  let g := ArrowGuides.ofFrame f h (shortRatio f w)
  let x1 := w - g.head
  (polygon [⟨0, g.top⟩, ⟨x1, g.top⟩, ⟨x1, 0⟩, ⟨w, h / 2⟩, ⟨x1, h⟩, ⟨x1, g.bottom⟩,
    ⟨0, g.bottom⟩]).reflect (d.reflection f)

def rightArrow : Frame α → Sketch α := blockArrow .right
def leftArrow : Frame α → Sketch α := blockArrow .left
def upArrow : Frame α → Sketch α := blockArrow .up
def downArrow : Frame α → Sketch α := blockArrow .down

def twoHeadedArrow (d : Facing) (f : Frame α) : Sketch α :=
  let w := d.along f
  let h := d.across f
  let g := ArrowGuides.ofFrame f h (shortRatio f w / 2)
  let vc := h / 2
  let x1 := g.head
  let x2 := w - g.head
  (polygon [⟨0, vc⟩, ⟨x1, 0⟩, ⟨x1, g.top⟩, ⟨x2, g.top⟩, ⟨x2, 0⟩, ⟨w, vc⟩, ⟨x2, h⟩, ⟨x2, g.bottom⟩,
    ⟨x1, g.bottom⟩, ⟨x1, h⟩]).reflect (d.reflection f)

def leftRightArrow : Frame α → Sketch α := twoHeadedArrow .right
def upDownArrow : Frame α → Sketch α := twoHeadedArrow .down

/-- Arrows with several heads alike: the length of a head, half its width and half the shaft's. -/
structure HeadGuides (α : Type) where
  length : α
  half : α
  shaft : α

/-- Heads across from each other do not overlap, and a shaft is no wider than its head. -/
def HeadGuides.ofFrame (f : Frame α) (default : α) : HeadGuides α :=
  let a2 := f.pinned "adj2" default 0 50000
  let a1 := f.pinned "adj1" default 0 (2 * a2)
  let a3 := f.pinned "adj3" default 0 ((100000 - 2 * a2) / 2)
  ⟨f.shortPart a3, f.shortPart a2, f.shortPart a1 / 2⟩

def quadArrow (f : Frame α) : Sketch α :=
  let g := HeadGuides.ofFrame f 22500
  let r := f.w
  let b := f.h
  let hc := f.hc
  let vc := f.vc
  let x1 := g.length
  let x2 := hc - g.half
  let x3 := hc - g.shaft
  let x4 := hc + g.shaft
  let x5 := hc + g.half
  let x6 := r - g.length
  let y2 := vc - g.half
  let y3 := vc - g.shaft
  let y4 := vc + g.shaft
  let y5 := vc + g.half
  let y6 := b - g.length
  polygon [⟨0, vc⟩, ⟨x1, y2⟩, ⟨x1, y3⟩, ⟨x3, y3⟩, ⟨x3, x1⟩, ⟨x2, x1⟩, ⟨hc, 0⟩, ⟨x5, x1⟩, ⟨x4, x1⟩,
    ⟨x4, y3⟩, ⟨x6, y3⟩, ⟨x6, y2⟩, ⟨r, vc⟩, ⟨x6, y5⟩, ⟨x6, y4⟩, ⟨x4, y4⟩, ⟨x4, y6⟩, ⟨x5, y6⟩,
    ⟨hc, b⟩, ⟨x2, y6⟩, ⟨x3, y6⟩, ⟨x3, y4⟩, ⟨x1, y4⟩, ⟨x1, y5⟩]

def leftRightUpArrow (f : Frame α) : Sketch α :=
  let g := HeadGuides.ofFrame f 25000
  let r := f.w
  let b := f.h
  let hc := f.hc
  let x1 := g.length
  let x2 := hc - g.half
  let x3 := hc - g.shaft
  let x4 := hc + g.shaft
  let x5 := hc + g.half
  let x6 := r - g.length
  let y2 := b - 2 * g.half
  let y4 := b - g.half
  let y3 := y4 - g.shaft
  let y5 := y4 + g.shaft
  polygon [⟨0, y4⟩, ⟨x1, y2⟩, ⟨x1, y3⟩, ⟨x3, y3⟩, ⟨x3, x1⟩, ⟨x2, x1⟩, ⟨hc, 0⟩, ⟨x5, x1⟩, ⟨x4, x1⟩,
    ⟨x4, y3⟩, ⟨x6, y3⟩, ⟨x6, y2⟩, ⟨r, y4⟩, ⟨x6, b⟩, ⟨x6, y5⟩, ⟨x1, y5⟩, ⟨x1, b⟩]

def leftUpArrow (f : Frame α) : Sketch α :=
  let g := HeadGuides.ofFrame f 25000
  let r := f.w
  let b := f.h
  let x1 := g.length
  let x2 := r - g.half
  let y2 := b - g.half
  let x4 := r - 2 * g.half
  let y4 := b - 2 * g.half
  let x3 := x2 - g.shaft
  let x5 := x2 + g.shaft
  let y3 := y2 - g.shaft
  let y5 := y2 + g.shaft
  polygon [⟨0, y2⟩, ⟨x1, y4⟩, ⟨x1, y3⟩, ⟨x3, y3⟩, ⟨x3, x1⟩, ⟨x4, x1⟩, ⟨x2, 0⟩, ⟨r, x1⟩, ⟨x5, x1⟩,
    ⟨x5, y5⟩, ⟨x1, y5⟩, ⟨x1, b⟩]

/-- An arrow whose tail is two stripes before the solid shaft. -/
def stripedRightArrow (f : Frame α) : Sketch α :=
  let r := f.w
  let b := f.h
  let ss := f.ss
  let g := ArrowGuides.ofFrame f b (divOrZero (84375 * r) ss)
  let x4 := ss * 5 / 32
  let x5 := r - g.head
  let stripe (x0 x1 : α) : Sketch α :=
    polygon [⟨x0, g.top⟩, ⟨x1, g.top⟩, ⟨x1, g.bottom⟩, ⟨x0, g.bottom⟩]
  stripe 0 (ss / 32) ++ stripe (ss / 16) (ss / 8) ++
    polygon [⟨x4, g.top⟩, ⟨x5, g.top⟩, ⟨x5, 0⟩, ⟨r, f.vc⟩, ⟨x5, b⟩, ⟨x5, g.bottom⟩, ⟨x4, g.bottom⟩]

/-- How far the notch in the tail of an arrow reaches, which is as steep as its head. -/
def notchDepth (f : Frame α) (head : α) : α :=
  divOrZero (f.h * f.pinned "adj1" 50000 0 100000 / 200000 * head) (f.h / 2)

def notchedRightArrow (f : Frame α) : Sketch α :=
  let r := f.w
  let b := f.h
  let vc := f.vc
  let g := ArrowGuides.ofFrame f b (shortRatio f r)
  let x2 := r - g.head
  polygon [⟨0, g.top⟩, ⟨x2, g.top⟩, ⟨x2, 0⟩, ⟨r, vc⟩, ⟨x2, b⟩, ⟨x2, g.bottom⟩, ⟨0, g.bottom⟩,
    ⟨notchDepth f g.head, vc⟩]

end ShapeOutline.Shape
