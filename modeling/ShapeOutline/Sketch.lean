import ShapeOutline.Path

/-!
Sketches: strokes of the pen, drawn in order. A sketch keeps its arcs as angles, so a reflected
sketch is again a sketch.
-/

namespace ShapeOutline

inductive Stroke (α : Type) where
  | move (p : Point α)
  | line (p : Point α)
  | cubic (a b p : Point α)
  | quad (a p : Point α)
  | arc (radii : Point α) (start sweep : α)
  | close

abbrev Sketch (α : Type) := List (Stroke α)

variable {α : Type} [Scalar α]

namespace Path

def stroke (p : Path α) : Stroke α → Path α
  | .move a => p.push (.move a)
  | .line a => p.push (.line a)
  | .cubic a b c => p.push (.cubic a b c)
  | .quad a b => p.push (.quad a b)
  | .arc radii start sweep => p.arcTo radii start sweep
  | .close => p.push .close

def draw (p : Path α) (s : Sketch α) : Path α := s.foldl stroke p

end Path

/-- Both axes scaled by their own factor. The angles of arcs stay as they are. -/
def Stroke.stretch (k : Point α) : Stroke α → Stroke α
  | .move p => .move (p.stretch k)
  | .line p => .line (p.stretch k)
  | .cubic a b p => .cubic (a.stretch k) (b.stretch k) (p.stretch k)
  | .quad a p => .quad (a.stretch k) (p.stretch k)
  | .arc radii start sweep => .arc (radii.stretch k) start sweep
  | .close => .close

namespace Sketch

def path (s : Sketch α) : Path α := Path.empty.draw s

def stretch (k : Point α) (s : Sketch α) : Sketch α := s.map (Stroke.stretch k)

/-- Lines to each point in turn. -/
def lines (ps : List (Point α)) : Sketch α := ps.map .line

/-- The closed polygon through the points. -/
def polygon : List (Point α) → Sketch α
  | [] => []
  | p :: ps => .move p :: lines ps ++ [.close]

def rect (x y w h : α) : Sketch α := polygon [⟨x, y⟩, ⟨x + w, y⟩, ⟨x + w, y + h⟩, ⟨x, y + h⟩]

/-- The ellipse inscribed in a box, from its leftmost point. -/
def ellipse (x y w h : α) : Sketch α :=
  [.move ⟨x, y + h / 2⟩, .arc ⟨w / 2, h / 2⟩ 180 360, .close]

end Sketch

/-- The axes exchanged if `swap` is set, and then each axis reversed within its extent, if it has
one. -/
structure Reflection (α : Type) where
  swap : Bool := false
  flipX : Option α := none
  flipY : Option α := none

namespace Reflection

def identity : Reflection α := {}

def leftRight (w : α) : Reflection α := { flipX := some w }

def upsideDown (h : α) : Reflection α := { flipY := some h }

def transpose : Reflection α := { swap := true }

def flip (extent : Option α) (v : α) : α :=
  match extent with
  | some e => e - v
  | none => v

def point (t : Reflection α) (p : Point α) : Point α :=
  let q := if t.swap then p.transpose else p
  ⟨flip t.flipX q.x, flip t.flipY q.y⟩

def radii (t : Reflection α) (r : Point α) : Point α := if t.swap then r.transpose else r

/-- The visual start angle and the sweep of a reflected arc. -/
def angles (t : Reflection α) (start sweep : α) : α × α :=
  let (start, sweep) := if t.swap then (90 - start, -sweep) else (start, sweep)
  let (start, sweep) := if t.flipX.isSome then (180 - start, -sweep) else (start, sweep)
  if t.flipY.isSome then (-start, -sweep) else (start, sweep)

def stroke (t : Reflection α) : Stroke α → Stroke α
  | .move p => .move (t.point p)
  | .line p => .line (t.point p)
  | .cubic a b p => .cubic (t.point a) (t.point b) (t.point p)
  | .quad a p => .quad (t.point a) (t.point p)
  | .arc radii start sweep =>
    let (start, sweep) := t.angles start sweep
    .arc (t.radii radii) start sweep
  | .close => .close

end Reflection

namespace Sketch

def reflect (t : Reflection α) (s : Sketch α) : Sketch α := s.map t.stroke

def render (s : Sketch α) (t : Reflection α) : Path α := (s.reflect t).path

end Sketch

end ShapeOutline
