import ShapeOutline.Shape.BlockArrow

/-!
Arrows that turn: around a corner, back on themselves, or in a sweep.
-/

namespace ShapeOutline.Shape

open Scalar
open Sketch (polygon)

variable {α : Type} [Scalar α]

def bentUpArrow (f : Frame α) : Sketch α :=
  let thickness := f.shortPart (f.pinned "adj1" 25000 0 50000)
  let half := f.shortPart (f.pinned "adj2" 25000 0 50000)
  let y1 := f.shortPart (f.pinned "adj3" 25000 0 50000)
  let r := f.w
  let b := f.h
  let x1 := r - 2 * half
  let x3 := r - half
  let x2 := x3 - thickness / 2
  let x4 := x3 + thickness / 2
  let y2 := b - thickness
  polygon [⟨0, y2⟩, ⟨x2, y2⟩, ⟨x2, y1⟩, ⟨x1, y1⟩, ⟨x3, 0⟩, ⟨r, y1⟩, ⟨x4, y1⟩, ⟨x4, b⟩, ⟨0, b⟩]

/-- A shaft around a corner: its thickness, half the width of its head, how far the head stands out
on each side, the head's length, and the radii of the bend. -/
structure BendGuides (α : Type) where
  thickness : α
  half : α
  overhang : α
  head : α
  outer : α
  inner : α

def BendGuides.ofBentArrow (f : Frame α) : BendGuides α :=
  let a2 := f.pinned "adj2" 25000 0 50000
  let a1 := f.pinned "adj1" 25000 0 (2 * a2)
  let a3 := f.pinned "adj3" 25000 0 50000
  let thickness := f.shortPart a1
  let half := f.shortPart a2
  let overhang := half - thickness / 2
  let head := f.shortPart a3
  let room := min (f.w - head) (f.h - overhang)
  let outer := f.shortPart (f.pinned "adj4" 43750 0 (shortRatio f room))
  ⟨thickness, half, overhang, head, outer, max (outer - thickness) 0⟩

def bentArrow (f : Frame α) : Sketch α :=
  let g := BendGuides.ofBentArrow f
  let r := f.w
  let b := f.h
  let x3 := g.thickness + g.inner
  let x4 := r - g.head
  let y3 := g.overhang + g.thickness
  let y4 := y3 + g.overhang
  let y5 := g.overhang + g.outer
  [.move ⟨0, b⟩, .line ⟨0, y5⟩, .arc ⟨g.outer, g.outer⟩ 180 90, .line ⟨x4, g.overhang⟩,
    .line ⟨x4, 0⟩, .line ⟨r, g.half⟩, .line ⟨x4, y4⟩, .line ⟨x4, y3⟩, .line ⟨x3, y3⟩,
    .arc ⟨g.inner, g.inner⟩ 270 (-90), .line ⟨g.thickness, b⟩, .close]

/-- The bend of a U-turn, with the height of its tip and the least value of the adjustment that
sets it. -/
structure UturnGuides (α : Type) extends BendGuides α where
  tip : α
  leastTip : α

def UturnGuides.ofFrame (f : Frame α) : UturnGuides α :=
  let b := f.h
  let ss := f.ss
  let a2 := f.pinned "adj2" 25000 0 25000
  let a1 := f.pinned "adj1" 25000 0 (2 * a2)
  let q3 := 100000 - divOrZero (a1 * ss) b
  let a3 := f.pinned "adj3" 25000 0 (divOrZero (q3 * b) ss)
  let leastTip := divOrZero ((a3 + a1) * ss) b
  let tip := f.heightPart (f.pinned "adj5" 75000 leastTip 100000)
  let thickness := f.shortPart a1
  let half := f.shortPart a2
  let overhang := half - thickness / 2
  let head := f.shortPart a3
  let room := min ((f.w - overhang) / 2) (tip - head)
  let outer := f.shortPart (f.pinned "adj4" 43750 0 (shortRatio f room))
  { thickness, half, overhang, head, outer, inner := max (outer - thickness) 0, tip, leastTip }

def uturnArrow (f : Frame α) : Sketch α :=
  let g := UturnGuides.ofFrame f
  let r := f.w
  let b := f.h
  let y4 := g.tip - g.head
  let x9 := r - g.overhang
  let x3 := g.thickness + g.inner
  let x8 := r - g.half
  let x6 := x8 - g.half
  let x7 := x6 + g.overhang
  let x4 := x9 - g.outer
  [.move ⟨0, b⟩, .line ⟨0, g.outer⟩, .arc ⟨g.outer, g.outer⟩ 180 90, .line ⟨x4, 0⟩,
    .arc ⟨g.outer, g.outer⟩ 270 90, .line ⟨x9, y4⟩, .line ⟨r, y4⟩, .line ⟨x8, g.tip⟩,
    .line ⟨x6, y4⟩, .line ⟨x7, y4⟩, .line ⟨x7, x3⟩, .arc ⟨g.inner, g.inner⟩ 0 (-90),
    .line ⟨x3, g.thickness⟩, .arc ⟨g.inner, g.inner⟩ 270 (-90), .line ⟨g.thickness, b⟩, .close]

/-- A stroke that tapers from the bottom left corner into a head at the top right. -/
def swooshArrow (f : Frame α) : Sketch α :=
  let ad1 := f.heightPart (f.pinned "adj1" 25000 1 75000)
  let a2 := f.pinned "adj2" 16667 0 (divOrZero (70000 * f.w) f.ss)
  let r := f.w
  let b := f.h
  let yb := f.ss / 8
  let xb := r - f.shortPart a2
  let slant := tan (radians (90 / 14))
  let dx0 := yb * slant
  let yf := yb + ad1
  let xf := xb + ad1 * slant
  let xe := xf + dx0
  let ye := yf + yb
  let yd := ye / 2 + b / 20
  [.move ⟨0, b⟩, .quad ⟨r / 6, b / 3⟩ ⟨xb, yb⟩, .line ⟨xb - dx0, 0⟩, .line ⟨r, yd⟩, .line ⟨xe, ye⟩,
    .line ⟨xf, yf⟩, .quad ⟨r / 4, yf + b / 12⟩ ⟨0, b⟩, .close]

end ShapeOutline.Shape
