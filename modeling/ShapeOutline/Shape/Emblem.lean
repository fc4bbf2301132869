import ShapeOutline.Grid
import ShapeOutline.Shape.Polygon

/-!
Emblems and small marks: heart, bolt, sun and funnel, the tabs in the corners of a frame, and the
marks of charts.
-/

namespace ShapeOutline.Shape

open Scalar
open Sketch (polygon)

variable {α : Type} [Scalar α]

def heart (f : Frame α) : Sketch α :=
  let hc := f.hc
  let b := f.h
  let dx1 := f.w * 49 / 48
  let dx2 := f.w * 10 / 48
  let y1 := -b / 3
  let y2 := b / 4
  [.move ⟨hc, y2⟩, .cubic ⟨hc + dx2, y1⟩ ⟨hc + dx1, y2⟩ ⟨hc, b⟩,
    .cubic ⟨hc - dx1, y2⟩ ⟨hc - dx2, y1⟩ ⟨hc, y2⟩, .close]

def boltSymbol : GridSymbol α where
  width := 21600
  height := 21600
  sketch := polygon
    [⟨8458, 0⟩, ⟨12860, 6080⟩, ⟨11113, 6833⟩, ⟨16820, 11990⟩, ⟨15492, 12635⟩, ⟨21600, 21600⟩,
      ⟨12226, 14292⟩, ⟨13627, 13668⟩, ⟨7061, 10050⟩, ⟨8811, 9293⟩, ⟨0, 3720⟩]

def lightningBolt (f : Frame α) : Sketch α := boltSymbol.draw f

/-- A disc and eight rays; `adj` sets how far in the rays reach. -/
def sun (f : Frame α) : Sketch α :=
  let c := f.center
  let r := f.half
  let reach := 1 - f.pinned "adj" 25000 12500 46875 / 50000
  let base : Point α := r * reach
  let disc : Point α := base * (0.8 : α)
  let ray (k : Nat) : Sketch α :=
    let deg : α := ofNat k * 45
    polygon [polar c r deg, polar c base (deg + 10), polar c base (deg - 10)]
  Sketch.ellipse (c.x - disc.x) (c.y - disc.y) (2 * disc.x) (2 * disc.y) ++
    (List.range 8).flatMap ray

/-- A body that tapers to a rounded spout, and the inside of its rim traced the other way round. -/
def funnel (f : Frame α) : Sketch α :=
  let b := f.h
  let hc := f.hc
  let rx := f.w / 2
  let ry := b / 4
  let d := f.ss / 20
  let spout : Point α := ⟨f.w / 8, b / 20⟩
  [.move ⟨0, ry⟩, .arc ⟨rx, ry⟩ 180 180, .line ⟨hc + spout.x, b - spout.y⟩, .arc spout 0 180,
    .close, .move ⟨d, ry⟩, .arc ⟨max (rx - d) 0, max (ry - d) 0⟩ 180 (-360), .close]

/-- The size of a tab, a twentieth of the diagonal. -/
def tabSize (f : Frame α) : α := hypot f.w f.h / 20

def cornerTabs (f : Frame α) : Sketch α :=
  let d := tabSize f
  let r := f.w
  let b := f.h
  polygon [⟨0, 0⟩, ⟨d, 0⟩, ⟨0, d⟩] ++ polygon [⟨0, b - d⟩, ⟨d, b⟩, ⟨0, b⟩] ++
    polygon [⟨r - d, 0⟩, ⟨r, 0⟩, ⟨r, d⟩] ++ polygon [⟨r, b - d⟩, ⟨r, b⟩, ⟨r - d, b⟩]

def squareTabs (f : Frame α) : Sketch α :=
  let d := tabSize f
  let r := f.w
  let b := f.h
  Sketch.rect 0 0 d d ++ Sketch.rect 0 (b - d) d d ++ Sketch.rect (r - d) 0 d d ++
    Sketch.rect (r - d) (b - d) d d

def plaqueTabs (f : Frame α) : Sketch α :=
  let d := tabSize f
  let r := f.w
  let b := f.h
  let curve : Point α := ⟨d, d⟩
  [.move ⟨0, 0⟩, .line ⟨d, 0⟩, .arc curve 0 90, .close,
    .move ⟨0, b - d⟩, .arc curve 270 90, .line ⟨0, b⟩, .close,
    .move ⟨r, d⟩, .arc curve 90 90, .line ⟨r, 0⟩, .close,
    .move ⟨r - d, b⟩, .arc curve 180 90, .line ⟨r, b⟩, .close]

def chartPlus (f : Frame α) : Sketch α :=
  [.move ⟨f.hc, 0⟩, .line ⟨f.hc, f.h⟩, .move ⟨0, f.vc⟩, .line ⟨f.w, f.vc⟩]

def chartX (f : Frame α) : Sketch α :=
  [.move ⟨0, 0⟩, .line ⟨f.w, f.h⟩, .move ⟨f.w, 0⟩, .line ⟨0, f.h⟩]

def chartStar (f : Frame α) : Sketch α := chartX f ++ [.move ⟨f.hc, 0⟩, .line ⟨f.hc, f.h⟩]

end ShapeOutline.Shape
