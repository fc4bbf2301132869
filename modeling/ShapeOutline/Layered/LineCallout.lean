import ShapeOutline.Frame
import ShapeOutline.Layer

/-!
Line callouts: a text box with a leader of one to three segments. An accented one has a bar where
its leader begins, and a bordered one has its box outlined.
-/

namespace ShapeOutline.Layered

variable {α : Type} [Scalar α]

inductive Leader where
  | one
  | two
  | three

/-- The default vertices of a leader, in 100000ths of the frame. -/
def Leader.vertices : Leader → List (Point α)
  | one => [⟨-8333, 18750⟩, ⟨-38333, 112500⟩]
  | two => [⟨-8333, 18750⟩, ⟨-16667, 18750⟩, ⟨-46667, 112500⟩]
  | three => [⟨-8333, 18750⟩, ⟨-16667, 18750⟩, ⟨-16667, 100000⟩, ⟨-8333, 112963⟩]

/-- Vertex `i` of a leader: the adjustments come in pairs, first `y` and then `x`. -/
def leaderVertex (f : Frame α) (default : Point α) (i : Nat) : Point α :=
  let y := f.heightPart (f.adjustment ("adj" ++ toString (2 * i + 1)) default.y)
  let x := f.widthPart (f.adjustment ("adj" ++ toString (2 * i + 2)) default.x)
  ⟨x, y⟩

def leaderVertices (f : Frame α) (l : Leader) : List (Point α) :=
  l.vertices.mapIdx fun i p => leaderVertex f p i

/-- The open line through the points. -/
def polyline : List (Point α) → Sketch α
  | [] => []
  | p :: ps => .move p :: Sketch.lines ps

structure CalloutStyle where
  leader : Leader
  accent : Bool
  border : Bool

def lineCallout (s : CalloutStyle) (f : Frame α) : List (Layer α) :=
  let box := Sketch.rect 0 0 f.w f.h
  let vertices := leaderVertices f s.leader
  let bar := vertices.head?.map fun p => Layer.stroke [.move ⟨p.x, 0⟩, .line ⟨p.x, f.h⟩]
  (if s.border then .solid box else .fill box .normal) ::
    (if s.accent then bar.toList else []) ++ [.stroke (polyline vertices)]

end ShapeOutline.Layered
