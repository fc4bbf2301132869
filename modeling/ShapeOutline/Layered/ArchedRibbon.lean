import ShapeOutline.Layered.Ribbon

/-!
The arched ribbon: a straight banner whose every height is lowered by a parabola. A horizontal line
becomes one exact quadratic curve.
-/

namespace ShapeOutline.Layered

variable {α : Type} [Scalar α]

/-- The parabola through both ends of a width, and `depth` below them in the middle. -/
structure Arch (α : Type) where
  width : α
  depth : α

namespace Arch

variable (b : Arch α)

def sag (x : α) : α :=
  if b.width ≤ 0 then 0
  else
    let u := x / b.width
    4 * b.depth * u * (1 - u)

/-- The slope of the parabola. -/
def slope (x : α) : α := if 0 < b.width then 4 * b.depth * (1 - 2 * x / b.width) / b.width else 0

/-- Where the arch takes a point of the straight banner. -/
def point (x y : α) : Point α := ⟨x, y + b.sag x⟩

def start (x y : α) : Stroke α := .move (b.point x y)

def line (x y : α) : Stroke α := .line (b.point x y)

/-- The image of the line from `x0` to `x1` at the height `y` of the straight banner. -/
def curve (x0 x1 y : α) : Stroke α :=
  let xm := (x0 + x1) / 2
  .quad ⟨xm, y + b.sag x0 + b.slope x0 * (xm - x0)⟩ (b.point x1 y)

end Arch

/-- A straight banner of height `s` and its arch: the panel lies between `x2` and `x5` and its folds
reach in to `x3` and `x4`; the tails are `yt` high, their notches `notch` deep. -/
structure ArchGuides (α : Type) where
  arch : Arch α
  s : α
  notch : α
  x2 : α
  x3 : α
  x4 : α
  x5 : α
  y1 : α
  yt : α
  ym : α

def ArchGuides.ofFrame (f : Frame α) : ArchGuides α :=
  let a1 := f.pinned "adj1" 25000 0 50000
  let a2 := f.pinned "adj2" 50000 25000 75000
  let a3 := f.pinned "adj3" 12500 0 50000
  let arch : Arch α := ⟨f.w, f.heightPart a3⟩
  let s := f.h - arch.depth
  let notch := f.w / 8
  let dx2 := f.w * a2 / 200000
  let x2 := f.hc - dx2
  let x5 := f.hc + dx2
  let y1 := s * a1 / 100000
  let yt := s - y1
  { arch, s, notch, x2, x3 := x2 + notch, x4 := x5 - notch, x5, y1, yt, ym := yt / 2 }

namespace ArchGuides

variable (g : ArchGuides α)

def body (r : α) : Sketch α :=
  let b := g.arch
  [b.start 0 0, b.curve 0 g.x3 0, b.line g.x3 g.y1, b.curve g.x3 g.x4 g.y1, b.line g.x4 0,
    b.curve g.x4 r 0, b.line (r - g.notch) g.ym, b.line r g.yt, b.curve r g.x5 g.yt,
    b.line g.x5 g.s, b.curve g.x5 g.x2 g.s, b.line g.x2 g.yt, b.curve g.x2 0 g.yt,
    b.line g.notch g.ym, .close]

def fold (xa xb : α) : Sketch α :=
  let b := g.arch
  [b.start xa 0, b.curve xa xb 0, b.line xb g.y1, b.curve xb xa g.y1, .close]

def seams : Sketch α :=
  let b := g.arch
  [b.start g.x2 g.y1, b.line g.x2 g.yt, b.start g.x5 g.yt, b.line g.x5 g.y1]

end ArchGuides

def archedBanner (f : Frame α) : Banner α :=
  let g := ArchGuides.ofFrame f
  { body := g.body f.w
    folds := g.fold g.x2 g.x3 ++ g.fold g.x4 g.x5
    outline := g.body f.w ++ g.seams }

def ellipseRibbon (f : Frame α) : List (Layer α) := (archedBanner f).layers .identity

def ellipseRibbon2 (f : Frame α) : List (Layer α) := (archedBanner f).layers (.upsideDown f.h)

end ShapeOutline.Layered
