import ShapeOutline.Adjustments
import ShapeOutline.Dimension
import ShapeOutline.Point

/-!
The frame a shape is drawn into: two side lengths and the adjustment values. Adjustments are in
100000ths of a side, and angles in 60000ths of a degree.
-/

namespace ShapeOutline

structure Frame (α : Type) where
  w : α
  h : α
  adjustments : Adjustments α

open Scalar

variable {α : Type} [Scalar α]

namespace Frame

def ofSides (w h : α) (adjustments : Adjustments α) : Frame α :=
  ⟨dimensionOrZero w, dimensionOrZero h, adjustments⟩

variable (f : Frame α)

/-- The short side. -/
def ss : α := min f.w f.h

/-- The long side. -/
def ls : α := max f.w f.h

/-- The middle of the width. -/
def hc : α := f.w / 2

/-- The middle of the height. -/
def vc : α := f.h / 2

def center : Point α := ⟨f.hc, f.vc⟩

/-- The radii of the inscribed ellipse. -/
def half : Point α := ⟨f.w / 2, f.h / 2⟩

def widthPart (v : α) : α := f.w * v / 100000

def heightPart (v : α) : α := f.h * v / 100000

def shortPart (v : α) : α := f.ss * v / 100000

def adjustment (name : String) (default : α) : α := f.adjustments.getD name default

def pinned (name : String) (default lo hi : α) : α := pin lo (f.adjustment name default) hi

/-- An angle in degrees. -/
def angleOf (name : String) (default : α) : α := f.adjustment name default / 60000

/-- An angle in degrees, below a full turn. -/
def turn (name : String) (default : α) : α := f.pinned name default 0 21599999 / 60000

/-- The width as a part of the short side. -/
def maxWidthRatio : α := if 0 < f.ss then 100000 * f.w / f.ss else 0

/-- The height as a part of the short side. -/
def maxHeightRatio : α := if 0 < f.ss then 100000 * f.h / f.ss else 0

end Frame

end ShapeOutline
