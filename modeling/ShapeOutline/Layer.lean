import ShapeOutline.FillMode
import ShapeOutline.Sketch

/-!
Layers: the parts of a shape that is painted in several passes, each over the ones before it. A
layer either belongs to the silhouette of the shape or is shading and line work upon it.
-/

namespace ShapeOutline

structure Layer (α : Type) where
  sketch : Sketch α
  mode : FillMode
  stroked : Bool
  silhouette : Bool

variable {α : Type} [Scalar α]

namespace Layer

/-- A part of the silhouette without an outline. -/
def fill (s : Sketch α) (m : FillMode) : Layer α := ⟨s, m, false, true⟩

/-- Shading of a region that an earlier layer covers. -/
def shade (s : Sketch α) (m : FillMode) : Layer α := ⟨s, m, false, false⟩

/-- Line work, without a fill. -/
def stroke (s : Sketch α) : Layer α := ⟨s, .none, true, false⟩

/-- A part of the silhouette with its outline. -/
def solid (s : Sketch α) : Layer α := ⟨s, .normal, true, true⟩

def path (l : Layer α) : Path α := l.sketch.path

/-- The silhouette layers as one sketch, in paint order. -/
def flatten (ls : List (Layer α)) : Sketch α := (ls.filter silhouette).flatMap sketch

end Layer

end ShapeOutline
