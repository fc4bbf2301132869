import ShapeOutline.Frame
import ShapeOutline.Sketch

/-!
The four directions of an arrow. An arrow is designed pointing right and then reflected; a vertical
one is designed in the frame lying on its side, so that its adjustments follow its own axis.
-/

namespace ShapeOutline.Shape

inductive Facing where
  | right
  | left
  | down
  | up

variable {α : Type} [Scalar α]

namespace Facing

/-- The side along the arrow. -/
def along (d : Facing) (f : Frame α) : α :=
  match d with
  | right | left => f.w
  | down | up => f.h

/-- The side across the arrow. -/
def across (d : Facing) (f : Frame α) : α :=
  match d with
  | right | left => f.h
  | down | up => f.w

def reflection (d : Facing) (f : Frame α) : Reflection α :=
  match d with
  | right => .identity
  | left => .leftRight f.w
  | down => .transpose
  | up => { Reflection.transpose with flipY := some f.h }

end Facing

end ShapeOutline.Shape
