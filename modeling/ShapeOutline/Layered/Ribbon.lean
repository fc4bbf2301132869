import ShapeOutline.Frame
import ShapeOutline.Layer

/-!
Straight ribbons. A banner is a body, the folds behind it in shadow, and the line work.
-/

namespace ShapeOutline.Layered

variable {α : Type} [Scalar α]

structure Banner (α : Type) where
  body : Sketch α
  folds : Sketch α
  outline : Sketch α

def Banner.layers (t : Reflection α) (g : Banner α) : List (Layer α) :=
  [.fill (g.body.reflect t) .normal, .shade (g.folds.reflect t) .darkenLess,
    .stroke (g.outline.reflect t)]

/-- A centre panel that hangs below its tails. Of the horizontal guides `x2` and `x9` are the sides
of the panel, `x3` and `x8` the turns of the folds, and `x5` and `x6` their inner ends. -/
structure RibbonGuides (α : Type) where
  /-- The depth of the notch in a tail. -/
  notch : α
  curl : Point α
  x2 : α
  x3 : α
  x4 : α
  x5 : α
  x6 : α
  x7 : α
  x8 : α
  x9 : α
  x10 : α
  y1 : α
  y2 : α
  y3 : α
  y4 : α
  y5 : α
  y6 : α

def RibbonGuides.ofFrame (f : Frame α) : RibbonGuides α :=
  let a1 := f.pinned "adj1" 16667 0 33333
  let a2 := f.pinned "adj2" 50000 25000 75000
  let b := f.h
  let notch := f.w / 8
  let curl := f.w / 32
  let dx2 := f.w * a2 / 200000
  let x2 := f.hc - dx2
  let x9 := f.hc + dx2
  let x5 := x2 + notch
  let x6 := x9 - notch
  let y2 := f.heightPart a1
  let y4 := b - y2
  let hr := b * a1 / 400000
  { notch, curl := ⟨curl, hr⟩, x2, x3 := x2 + curl, x4 := x5 - curl, x5, x6, x7 := x6 + curl,
    x8 := x9 - curl, x9, x10 := f.w - notch, y1 := b * a1 / 200000, y2, y3 := y4 / 2, y4,
    y5 := b - hr, y6 := y2 - hr }

def ribbonBody (f : Frame α) (g : RibbonGuides α) : Sketch α :=
  [.move ⟨0, 0⟩, .line ⟨g.x4, 0⟩, .arc g.curl 270 180, .line ⟨g.x3, g.y1⟩, .arc g.curl 270 (-180),
    .line ⟨g.x8, g.y2⟩, .arc g.curl 90 (-180), .line ⟨g.x7, g.y1⟩, .arc g.curl 90 180,
    .line ⟨f.w, 0⟩, .line ⟨g.x10, g.y3⟩, .line ⟨f.w, g.y4⟩, .line ⟨g.x9, g.y4⟩, .line ⟨g.x9, g.y5⟩,
    .arc g.curl 0 90, .line ⟨g.x3, f.h⟩, .arc g.curl 90 90, .line ⟨g.x2, g.y4⟩, .line ⟨0, g.y4⟩,
    .line ⟨g.notch, g.y3⟩, .close]

def ribbonBanner (f : Frame α) : Banner α :=
  let g := RibbonGuides.ofFrame f
  let body := ribbonBody f g
  { body
    folds :=
      [.move ⟨g.x5, g.curl.y⟩, .arc g.curl 0 90, .line ⟨g.x3, g.y1⟩, .arc g.curl 270 (-180),
        .line ⟨g.x5, g.y2⟩, .close,
        .move ⟨g.x6, g.curl.y⟩, .arc g.curl 180 (-90), .line ⟨g.x8, g.y1⟩, .arc g.curl 270 180,
        .line ⟨g.x6, g.y2⟩, .close]
    outline := body ++
      [.move ⟨g.x5, g.curl.y⟩, .line ⟨g.x5, g.y2⟩, .move ⟨g.x6, g.y2⟩, .line ⟨g.x6, g.curl.y⟩,
        .move ⟨g.x2, g.y4⟩, .line ⟨g.x2, g.y6⟩, .move ⟨g.x9, g.y6⟩, .line ⟨g.x9, g.y4⟩] }

def ribbon (f : Frame α) : List (Layer α) := (ribbonBanner f).layers .identity

def ribbon2 (f : Frame α) : List (Layer α) := (ribbonBanner f).layers (.upsideDown f.h)

/-- A band from left to right that ends in arrowheads and twists once at the centre, where its left
half passes behind the right one. -/
def twistedBanner (f : Frame α) : Banner α :=
  let a3 := f.pinned "adj3" 16667 0 33333
  let a1 := f.pinned "adj1" 50000 0 (100000 - a3)
  let r := f.w
  let b := f.h
  let hc := f.hc
  let turn := r / 32
  let a2 := f.pinned "adj2" 50000 0 (divOrZero (100000 * (r / 2 - turn)) f.ss)
  let x1 := f.shortPart a2
  let x4 := r - x1
  let dy1 := b * a1 / 200000
  let dy2 := b * a3 / 200000
  let ly1 := f.vc - dy2 - dy1
  let ry4 := f.vc + dy1 + dy2
  let ly2 := ly1 + dy1
  let ry3 := b - ly2
  let ly4 := ly2 * 2
  let ry1 := b - ly4
  let ly3 := ly4 - ly1
  let ry2 := b - ly3
  let hr := f.shortPart a3 / 4
  let x2 := hc - turn
  let x3 := hc + turn
  let curl : Point α := ⟨turn, hr⟩
  let band : Sketch α :=
    [.move ⟨0, ly2⟩, .line ⟨x1, 0⟩, .line ⟨x1, ly1⟩, .line ⟨hc, ly1⟩, .arc curl 270 180,
      .arc curl 270 (-180), .line ⟨x4, ry2⟩, .line ⟨x4, ry1⟩, .line ⟨r, ry3⟩, .line ⟨x4, b⟩,
      .line ⟨x4, ry4⟩, .line ⟨hc, ry4⟩, .arc curl 90 90, .line ⟨x2, ly3⟩, .line ⟨x1, ly3⟩,
      .line ⟨x1, ly4⟩, .close]
  { body := band
    folds :=
      [.move ⟨x3, ly1 + hr⟩, .arc curl 0 90, .arc curl 270 (-180), .line ⟨x3, ry2⟩, .close]
    outline := band ++
      [.move ⟨x3, ly1 + hr⟩, .line ⟨x3, ry2⟩, .move ⟨x2, ry2 - hr⟩, .line ⟨x2, ly3⟩] }

def leftRightRibbon (f : Frame α) : List (Layer α) := (twistedBanner f).layers .identity

end ShapeOutline.Layered
