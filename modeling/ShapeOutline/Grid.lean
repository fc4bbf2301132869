import ShapeOutline.Custom
import ShapeOutline.Frame

/-!
Symbols authored on a fixed grid, which fills the frame.
-/

namespace ShapeOutline

structure GridSymbol (α : Type) where
  width : α
  height : α
  sketch : Sketch α

variable {α : Type} [Scalar α]

namespace GridSymbol

/-- The factor of each axis from the grid to the frame. -/
def scale (g : GridSymbol α) (f : Frame α) : Point α := ⟨f.w / g.width, f.h / g.height⟩

def draw (g : GridSymbol α) (f : Frame α) : Sketch α := g.sketch.stretch (g.scale f)

/-- The symbol as custom geometry with the grid as its declared size. -/
def authored (g : GridSymbol α) : CustomPath α :=
  { width := some g.width, height := some g.height, commands := g.sketch.map .stroke }

end GridSymbol

end ShapeOutline
