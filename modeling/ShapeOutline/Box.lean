import ShapeOutline.Point

/-!
Boxes, given by a corner and an extent of either sign, and the bounds that a series of points and
boxes spans.
-/

namespace ShapeOutline

structure Box (α : Type) where
  offset : Point α
  extent : Point α

open Scalar

variable {α : Type} [Scalar α]

namespace Box

/-- The corner opposite the offset. -/
def far (b : Box α) : Point α := b.offset + b.extent

/-- The image of a box under the map that takes `space` to `parent` on each axis. A space without
width or height leaves every box where it is. -/
def remap (child space parent : Box α) : Box α :=
  if space.extent.x == 0 || space.extent.y == 0 then child
  else
    let k : Point α := ⟨parent.extent.x / space.extent.x, parent.extent.y / space.extent.y⟩
    { offset := (child.offset - space.offset).stretch k + parent.offset
      extent := child.extent.stretch k }

/-- The largest square in the middle of a box. -/
def centralSquare (b : Box α) : Box α :=
  let d := min b.extent.x b.extent.y
  { offset := b.offset + (⟨b.extent.x - d, b.extent.y - d⟩ : Point α) / (2 : α)
    extent := ⟨d, d⟩ }

end Box

/-- The least and the greatest coordinates met so far. -/
structure Bounds (α : Type) where
  least : Point α
  greatest : Point α

namespace Bounds

/-- Bounds that met nothing yet: the sentinels are the wrong way round. -/
def empty : Bounds α := ⟨⟨largest, largest⟩, ⟨-largest, -largest⟩⟩

def isEmpty (b : Bounds α) : Bool :=
  decide (b.greatest.x < b.least.x) || decide (b.greatest.y < b.least.y)

def addPoint (b : Bounds α) (p : Point α) : Bounds α := ⟨b.least.least p, b.greatest.greatest p⟩

def addBox (b : Bounds α) (box : Box α) : Bounds α := (b.addPoint box.offset).addPoint box.far

def box? (b : Bounds α) : Option (Box α) :=
  if b.isEmpty then none else some ⟨b.least, b.greatest - b.least⟩

end Bounds

end ShapeOutline
