import ShapeOutline.Frame
import ShapeOutline.Sketch

/-!
Rectangles with treated corners. An outline runs clockwise; each corner is entered from the edge
before it and left along the edge after it, at the same distance from the corner.
-/

namespace ShapeOutline.Shape

open Scalar

variable {α : Type} [Scalar α]

/-- What is done to a corner, and how far from it. -/
inductive Corner (α : Type) where
  | square
  | snip (d : α)
  | round (d : α)
  | scoop (d : α)

inductive CornerPlace where
  | topLeft
  | topRight
  | bottomRight
  | bottomLeft

namespace Corner

def inset : Corner α → α
  | square => 0
  | snip d | round d | scoop d => d

/-- Where the outline meets a corner's treatment. -/
def entry (r b d : α) : CornerPlace → Point α
  | .topLeft => ⟨0, d⟩
  | .topRight => ⟨r - d, 0⟩
  | .bottomRight => ⟨r, b - d⟩
  | .bottomLeft => ⟨d, b⟩

/-- Where the outline leaves a corner's treatment. -/
def exit (r b d : α) : CornerPlace → Point α
  | .topLeft => ⟨d, 0⟩
  | .topRight => ⟨r, d⟩
  | .bottomRight => ⟨r - d, b⟩
  | .bottomLeft => ⟨0, b - d⟩

/-- The visual angle of the entry, seen from the centre of a rounded corner. -/
def roundStart : CornerPlace → α
  | .topLeft => 180
  | .topRight => 270
  | .bottomRight => 0
  | .bottomLeft => 90

/-- The visual angle of the entry, seen from the corner. -/
def scoopStart : CornerPlace → α
  | .topLeft => 90
  | .topRight => 180
  | .bottomRight => 270
  | .bottomLeft => 0

/-- The strokes from a corner's entry to its exit. -/
def treatment (r b : α) (place : CornerPlace) : Corner α → Sketch α
  | square => []
  | snip d => [.line (exit r b d place)]
  | round d => [.arc ⟨d, d⟩ (roundStart place) 90]
  | scoop d => [.arc ⟨d, d⟩ (scoopStart place) (-90)]

/-- A line along the edge to the corner, and its treatment. -/
def strokes (r b : α) (place : CornerPlace) (c : Corner α) : Sketch α :=
  .line (entry r b c.inset place) :: c.treatment r b place

/-- The strokes back to the start at the exit of the top left corner, the closing line left out. -/
def last (r b : α) : Corner α → Sketch α
  | square => []
  | snip d => [.line (entry r b d .topLeft)]
  | c => c.strokes r b .topLeft

end Corner

structure CornerRect (α : Type) where
  topLeft : Corner α
  topRight : Corner α
  bottomRight : Corner α
  bottomLeft : Corner α

namespace CornerRect

def uniform (c : Corner α) : CornerRect α := ⟨c, c, c, c⟩

/-- The top edge, the right corners and the bottom edge, up to the left edge. -/
def middle (r b : α) (c : CornerRect α) : Sketch α :=
  c.topRight.strokes r b .topRight ++ c.bottomRight.strokes r b .bottomRight ++
    c.bottomLeft.strokes r b .bottomLeft

/-- The outline from the left edge. -/
def fromEdge (f : Frame α) (c : CornerRect α) : Sketch α :=
  .move (Corner.entry f.w f.h c.topLeft.inset .topLeft) ::
    c.topLeft.treatment f.w f.h .topLeft ++ c.middle f.w f.h ++ [.close]

/-- The outline from the top edge. -/
def fromTop (f : Frame α) (c : CornerRect α) : Sketch α :=
  .move (Corner.exit f.w f.h c.topLeft.inset .topLeft) ::
    c.middle f.w f.h ++ c.topLeft.last f.w f.h ++ [.close]

end CornerRect

/-- The distance from a corner that an adjustment asks for, at most half the short side. -/
def cornerInset (f : Frame α) (name : String) (default : α) : α :=
  f.shortPart (f.pinned name default 0 50000)

def roundRect (f : Frame α) : Sketch α :=
  (CornerRect.uniform (.round (cornerInset f "adj" 16667))).fromEdge f

def plaque (f : Frame α) : Sketch α :=
  (CornerRect.uniform (.scoop (cornerInset f "adj" 16667))).fromEdge f

def flowChartAlternateProcess (f : Frame α) : Sketch α :=
  (CornerRect.uniform (.round (f.ss / 6))).fromEdge f

def round1Rect (f : Frame α) : Sketch α :=
  CornerRect.fromTop f ⟨.square, .round (cornerInset f "adj" 16667), .square, .square⟩

def round2SameRect (f : Frame α) : Sketch α :=
  let top := .round (cornerInset f "adj1" 16667)
  let bottom := .round (cornerInset f "adj2" 0)
  CornerRect.fromTop f ⟨top, top, bottom, bottom⟩

def round2DiagRect (f : Frame α) : Sketch α :=
  let main := .round (cornerInset f "adj1" 16667)
  let other := .round (cornerInset f "adj2" 0)
  CornerRect.fromTop f ⟨main, other, main, other⟩

def snip1Rect (f : Frame α) : Sketch α :=
  CornerRect.fromTop f ⟨.square, .snip (cornerInset f "adj" 16667), .square, .square⟩

def snip2SameRect (f : Frame α) : Sketch α :=
  let top := .snip (cornerInset f "adj1" 16667)
  let bottom := .snip (cornerInset f "adj2" 0)
  CornerRect.fromTop f ⟨top, top, bottom, bottom⟩

def snip2DiagRect (f : Frame α) : Sketch α :=
  let main := .snip (cornerInset f "adj1" 0)
  let other := .snip (cornerInset f "adj2" 16667)
  CornerRect.fromTop f ⟨main, other, main, other⟩

def snipRoundRect (f : Frame α) : Sketch α :=
  CornerRect.fromTop f
    ⟨.round (cornerInset f "adj1" 16667), .snip (cornerInset f "adj2" 16667), .square, .square⟩

end ShapeOutline.Shape
