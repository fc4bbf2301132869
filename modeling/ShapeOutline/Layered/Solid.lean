import ShapeOutline.Frame
import ShapeOutline.Layer

/-!
Shaded bodies: cube, can and bevel, whose faces are lit from the top left, the sheet with a folded
corner, and the smiling face.
-/

namespace ShapeOutline.Layered

open Sketch (polygon rect ellipse)

variable {α : Type} [Scalar α]

def cube (f : Frame α) : List (Layer α) :=
  let r := f.w
  let b := f.h
  let y1 := f.shortPart (f.pinned "adj" 25000 0 100000)
  let x4 := r - y1
  let y4 := b - y1
  let outline := polygon [⟨0, y1⟩, ⟨y1, 0⟩, ⟨r, 0⟩, ⟨r, y4⟩, ⟨x4, b⟩, ⟨0, b⟩] ++
    [.move ⟨0, y1⟩, .line ⟨x4, y1⟩, .line ⟨r, 0⟩, .move ⟨x4, y1⟩, .line ⟨x4, b⟩]
  [.fill (rect 0 y1 x4 (b - y1)) .normal,
    .fill (polygon [⟨x4, b⟩, ⟨x4, y1⟩, ⟨r, 0⟩, ⟨r, y4⟩]) .darkenLess,
    .fill (polygon [⟨0, y1⟩, ⟨y1, 0⟩, ⟨r, 0⟩, ⟨x4, y1⟩]) .lightenLess,
    .stroke outline]

def can (f : Frame α) : List (Layer α) :=
  let r := f.w
  let rx := f.w / 2
  let y1 := f.ss * f.pinned "adj" 25000 0 (divOrZero (50000 * f.h) f.ss) / 200000
  let y3 := f.h - y1
  let rim : Point α := ⟨rx, y1⟩
  let body : Sketch α :=
    [.move ⟨0, y1⟩, .arc rim 180 (-180), .line ⟨r, y3⟩, .arc rim 0 180, .close]
  let outline : Sketch α :=
    [.move ⟨r, y1⟩, .arc rim 0 180, .arc rim 180 180, .line ⟨r, y3⟩, .arc rim 0 180, .line ⟨0, y1⟩]
  [.fill body .normal, .fill (ellipse 0 0 r (2 * y1)) .lighten, .stroke outline]

def bevel (f : Frame α) : List (Layer α) :=
  let r := f.w
  let b := f.h
  let x1 := f.shortPart (f.pinned "adj" 12500 0 50000)
  let x2 := r - x1
  let y2 := b - x1
  let face := rect x1 x1 (x2 - x1) (y2 - x1)
  let outline := rect 0 0 r b ++ face ++
    [.move ⟨0, 0⟩, .line ⟨x1, x1⟩, .move ⟨0, b⟩, .line ⟨x1, y2⟩, .move ⟨r, 0⟩, .line ⟨x2, x1⟩,
      .move ⟨r, b⟩, .line ⟨x2, y2⟩]
  [.fill face .normal,
    .fill (polygon [⟨0, 0⟩, ⟨r, 0⟩, ⟨x2, x1⟩, ⟨x1, x1⟩]) .lightenLess,
    .fill (polygon [⟨0, b⟩, ⟨x1, y2⟩, ⟨x2, y2⟩, ⟨r, b⟩]) .darkenLess,
    .fill (polygon [⟨0, 0⟩, ⟨x1, x1⟩, ⟨x1, y2⟩, ⟨0, b⟩]) .lighten,
    .fill (polygon [⟨r, 0⟩, ⟨r, b⟩, ⟨x2, y2⟩, ⟨x2, x1⟩]) .darken,
    .stroke outline]

def foldedCorner (f : Frame α) : List (Layer α) :=
  let r := f.w
  let b := f.h
  let size := f.shortPart (f.pinned "adj" 16667 0 50000)
  let lift := size / 5
  let x1 := r - size
  let y2 := b - size
  let x2 := x1 + lift
  let y1 := y2 + lift
  let outline : Sketch α :=
    [.move ⟨x1, b⟩, .line ⟨x2, y1⟩, .line ⟨r, y2⟩, .line ⟨x1, b⟩, .line ⟨0, b⟩, .line ⟨0, 0⟩,
      .line ⟨r, 0⟩, .line ⟨r, y2⟩]
  [.fill (polygon [⟨0, 0⟩, ⟨r, 0⟩, ⟨r, y2⟩, ⟨x1, b⟩, ⟨0, b⟩]) .normal,
    .shade (polygon [⟨x1, b⟩, ⟨x2, y1⟩, ⟨r, y2⟩]) .darkenLess,
    .stroke outline]

/-- A face with dark eyes; its mouth smiles where `adj` is positive and frowns where it is
negative. -/
def smileyFace (f : Frame α) : List (Layer α) :=
  let a := f.pinned "adj" 4653 (-4653) 4653
  let r := f.w
  let b := f.h
  let across (n : α) : α := r * n / 21600
  let down (n : α) : α := b * n / 21600
  let y1 := down 7570
  let y3 := down 16515
  let dy2 := f.heightPart a
  let y2 := y3 - dy2
  let y5 := y3 + dy2 + b * a / 50000
  let rx := across 1125
  let ry := down 1125
  let face := ellipse 0 0 r b
  let eye (x : α) : Sketch α := ellipse (x - rx) (y1 - ry) (2 * rx) (2 * ry)
  [.fill face .normal,
    .shade (eye (across 6215) ++ eye (across 13135)) .darkenLess,
    .stroke [.move ⟨across 4969, y2⟩, .quad ⟨f.hc, y5⟩ ⟨across 16640, y2⟩],
    .stroke face]

end ShapeOutline.Layered
