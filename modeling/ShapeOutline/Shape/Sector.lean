import ShapeOutline.Frame
import ShapeOutline.Sketch

/-!
Shapes cut from the ellipse of the frame: sectors, segments, rings and the crescent. Start and end
angles are visual, and a sector runs clockwise between them.
-/

namespace ShapeOutline.Shape

open Scalar

variable {α : Type} [Scalar α]

def ellipse (f : Frame α) : Sketch α := Sketch.ellipse 0 0 f.w f.h

/-- The arc of the frame's ellipse from one angle to another. -/
def rim (f : Frame α) (start stop : α) : Sketch α :=
  [.move (ellipsePoint f.center f.half start), .arc f.half start (sweepBetween start stop)]

def pie (f : Frame α) : Sketch α :=
  rim f (f.turn "adj1" 0) (f.turn "adj2" 16200000) ++ [.line f.center, .close]

def pieWedge (f : Frame α) : Sketch α :=
  [.move ⟨0, f.h⟩, .arc ⟨f.w, f.h⟩ 180 90, .line ⟨f.w, f.h⟩, .close]

def chord (f : Frame α) : Sketch α :=
  rim f (f.turn "adj1" 2700000) (f.turn "adj2" 16200000) ++ [.close]

def arc (f : Frame α) : Sketch α := rim f (f.turn "adj1" 16200000) (f.turn "adj2" 0)

/-- The radii of a ring's hole. -/
def holeRadii (f : Frame α) (thickness : α) : Point α :=
  ⟨max (f.w / 2 - thickness) 0, max (f.h / 2 - thickness) 0⟩

def blockArc (f : Frame α) : Sketch α :=
  let start := f.turn "adj1" 10800000
  let stop := f.turn "adj2" 0
  let hole := holeRadii f (f.shortPart (f.pinned "adj3" 25000 0 50000))
  rim f start stop ++
    [.line (ellipsePoint f.center hole stop), .arc hole stop (-sweepBetween start stop), .close]

def donut (f : Frame α) : Sketch α :=
  let thickness := f.shortPart (f.pinned "adj" 25000 0 50000)
  ellipse f ++ [.move ⟨thickness, f.vc⟩, .arc (holeRadii f thickness) 180 (-360), .close]

/-- A ring and the two segments of its hole that a diagonal bar of the same thickness leaves. -/
def noSmoking (f : Frame α) : Sketch α :=
  let thickness := f.shortPart (f.pinned "adj" 18750 0 50000)
  let hole := holeRadii f thickness
  let diagonal := (⟨f.w, f.h⟩ : Point α).heading
  let radius := (ellipsePoint .zero hole diagonal).norm
  let spread := (⟨radius, thickness / 2⟩ : Point α).heading
  let sweep := 2 * spread - 180
  let start := diagonal - spread
  let segment (start : α) : Sketch α :=
    [.move (ellipsePoint f.center hole start), .arc hole start sweep, .close]
  ellipse f ++ segment start ++ segment (start - 180)

def teardrop (f : Frame α) : Sketch α :=
  let a := f.pinned "adj" 100000 0 200000
  let hc := f.hc
  let vc := f.vc
  let x1 := hc + sqrt 2 * (f.w / 2) * a / 100000 * cos (radians 45)
  let y1 := vc - sqrt 2 * (f.h / 2) * a / 100000 * sin (radians 45)
  let x2 := (hc + x1) / 2
  let y2 := (vc + y1) / 2
  [.move ⟨0, vc⟩, .arc f.half 180 90, .quad ⟨x2, 0⟩ ⟨x1, y1⟩, .quad ⟨f.w, y2⟩ ⟨f.w, vc⟩,
    .arc f.half 0 90, .arc f.half 90 90, .close]

/-- The inner arc of a crescent. -/
structure Crescent (α : Type) where
  radii : Point α
  start : α
  sweep : α

/-- The arc from the upper to the lower right corner whose leftmost point is where `adj` asks. -/
def Crescent.ofFrame (f : Frame α) : Crescent α :=
  let ss := f.ss
  let hd2 := f.h / 2
  let g0 := f.shortPart (f.pinned "adj" 50000 0 87500)
  let g0w := divOrZero (g0 * f.w) ss
  let g1 := ss - g0
  let g2 := divOrZero (g0 * g0) g1
  let g3 := divOrZero (ss * ss) g1
  let g5 := 2 * g3 - g2
  let g6w := divOrZero ((g5 - g0) * f.w) ss
  let dy1 := divOrZero ((g5 / 2 - g0) * hd2) ss
  let rx := (g6w - g0w) / 2
  let dx2 := f.w - g0w - rx
  let start := (⟨dx2, -hd2⟩ : Point α).heading
  ⟨⟨rx, dy1⟩, start, (⟨dx2, hd2⟩ : Point α).heading - 360 - start⟩

def moon (f : Frame α) : Sketch α :=
  let inner := Crescent.ofFrame f
  [.move ⟨f.w, f.h⟩, .arc ⟨f.w, f.h / 2⟩ 90 180, .arc inner.radii inner.start inner.sweep, .close]

end ShapeOutline.Shape
