import ShapeOutline.Layer
import ShapeOutline.Shape.Facing

/-!
Curved arrows: a band between two half ellipses with one edge in common, its upper quarter in
shadow. The arrow is designed bending down the left side and pointing right, and then reflected.
-/

namespace ShapeOutline.Layered

open Shape (Facing)

variable {α : Type} [Scalar α]

/-- The thickness of the band, the width of the head and where it begins, the height of its tip,
and the two half ellipses. -/
structure CurveGuides (α : Type) where
  thickness : α
  headWidth : α
  headStart : α
  tip : α
  outer : Point α
  inner : Point α
  innerCenter : α

/-- The guides of an arrow in the frame's reach of `w` along the arrow and `h` across it. -/
def CurveGuides.ofFrame (f : Frame α) (w h : α) : CurveGuides α :=
  let ss := f.ss
  let a2 := f.pinned "adj2" 50000 0 (divOrZero (50000 * h) ss)
  let a1 := f.pinned "adj1" 25000 0 a2
  let a3 := f.pinned "adj3" 25000 0 (divOrZero (100000 * w) ss)
  let thickness := ss * a1 / 100000
  let headWidth := ss * a2 / 100000
  let headStart := max (w - ss * a3 / 100000) 0
  let tip := h - headWidth / 2
  let innerHeight := max ((tip - thickness / 2 - thickness) / 2) 0
  { thickness, headWidth, headStart, tip
    outer := ⟨headStart, (tip + thickness / 2) / 2⟩
    inner := ⟨max (headStart - thickness) 0, innerHeight⟩
    innerCenter := pin thickness (thickness + innerHeight) h }

namespace CurveGuides

variable (g : CurveGuides α)

def band (w h : α) : Sketch α :=
  [.move ⟨g.headStart, 0⟩, .arc g.outer 270 (-180), .line ⟨g.headStart, h⟩, .line ⟨w, g.tip⟩,
    .line ⟨g.headStart, h - g.headWidth⟩, .line ⟨g.headStart, g.innerCenter + g.inner.y⟩,
    .arc g.inner 90 180, .close]

def back : Sketch α :=
  [.move ⟨g.headStart, 0⟩, .arc g.outer 270 (-90), .line ⟨g.thickness, g.innerCenter⟩,
    .arc g.inner 180 90, .close]

end CurveGuides

def curvedArrow (d : Facing) (f : Frame α) : List (Layer α) :=
  let w := d.along f
  let h := d.across f
  let g := CurveGuides.ofFrame f w h
  let t := d.reflection f
  let band := (g.band w h).reflect t
  [.fill band .normal, .shade (g.back.reflect t) .darkenLess, .stroke band]

def curvedRightArrow : Frame α → List (Layer α) := curvedArrow .right
def curvedLeftArrow : Frame α → List (Layer α) := curvedArrow .left
def curvedDownArrow : Frame α → List (Layer α) := curvedArrow .down
def curvedUpArrow : Frame α → List (Layer α) := curvedArrow .up

end ShapeOutline.Layered
