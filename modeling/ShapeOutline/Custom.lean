import ShapeOutline.Dimension
import ShapeOutline.Sketch

/-!
Custom geometry: strokes authored in a coordinate space of their own and drawn into a target box.
The ends of arcs are computed among the authored coordinates, where the visual angles are meant, and
only then scaled on each axis.
-/

namespace ShapeOutline

inductive Authored (α : Type) where
  | stroke (s : Stroke α)
  /-- A command that is not understood, and skipped. -/
  | unknown (word : String)

structure CustomPath (α : Type) where
  width : Option α := none
  height : Option α := none
  commands : List (Authored α)

open Scalar

variable {α : Type} [Scalar α]

/-- The multiples of a right angle from `lo` up to `hi`, at most five. -/
def rightAngles (lo hi : α) : List α :=
  let first := ceil (lo / 90)
  ((List.range 5).map fun k => (first + ofNat k) * 90).takeWhile fun deg => !decide (hi < deg)

/-- The greatest coordinates along an arc: those of its ends, and of the points at right angles in
between. -/
def furthestOnArc (pen radii : Point α) (start sweep : α) : Point α × Point α :=
  let sweep := clamp (-360) 360 sweep
  let s := arcSegment pen radii start sweep
  let ends := pen.greatest s.target
  if !isFinite start then (s.target, ends)
  else
    let stop := start + sweep
    (s.target, (rightAngles (min start stop) (max start stop)).foldl
      (fun reach deg => reach.greatest (ellipsePoint s.center radii deg)) ends)

/-- The pen and the greatest coordinates while commands are measured. -/
structure Extent (α : Type) where
  pen : Point α
  start : Point α
  reach : Point α

namespace Extent

def initial : Extent α := ⟨.zero, .zero, .zero⟩

/-- Points that are not finite do not count. -/
def reachTo (e : Extent α) (p : Point α) : Extent α :=
  if p.isFinite then { e with reach := e.reach.greatest p } else e

def goTo (e : Extent α) (p furthest : Point α) : Extent α := { e with pen := p }.reachTo furthest

def apply (e : Extent α) : Authored α → Extent α
  | .stroke (.move p) => { e with start := p }.goTo p p
  | .stroke (.line p) => e.goTo p p
  | .stroke (.cubic a b p) => e.goTo p ((a.greatest b).greatest p)
  | .stroke (.quad a p) => e.goTo p (a.greatest p)
  | .stroke (.arc radii start sweep) =>
    if isDegenerate radii sweep then e
    else
      let (target, furthest) := furthestOnArc e.pen radii start sweep
      e.goTo target furthest
  | .stroke .close => { e with pen := e.start }
  | .unknown _ => e

end Extent

/-- The pen among the authored coordinates while commands are drawn at a scale. -/
structure Tracing (α : Type) where
  out : Path α
  pen : Point α
  start : Point α
  scale : Point α

namespace Tracing

def ofScale (scale : Point α) : Tracing α := ⟨.empty, .zero, .zero, scale⟩

def target (r : Tracing α) (p : Point α) : Point α := p.stretch r.scale

def pushArc (r : Tracing α) (radii : Point α) (start sweep : α) : Tracing α :=
  let s := arcSegment r.pen radii start sweep
  { r with
    out := r.out.push (.arc (radii.stretch r.scale) 0 s.large s.sweep (r.target s.target))
    pen := s.target }

def arcTo (r : Tracing α) (radii : Point α) (start sweep : α) : Tracing α :=
  if isDegenerate radii sweep then r
  else
    let sweep := clamp (-360) 360 sweep
    let stop := (arcSegment r.pen radii start sweep).target
    if needsHalves sweep (r.target r.pen) (r.target stop) then
      let half := sweep / 2
      (r.pushArc radii start half).pushArc radii (start + half) half
    else r.pushArc radii start sweep

def apply (r : Tracing α) : Authored α → Tracing α
  | .stroke (.move p) => { r with out := r.out.push (.move (r.target p)), pen := p, start := p }
  | .stroke (.line p) => { r with out := r.out.push (.line (r.target p)), pen := p }
  | .stroke (.cubic a b p) =>
    { r with out := r.out.push (.cubic (r.target a) (r.target b) (r.target p)), pen := p }
  | .stroke (.quad a p) => { r with out := r.out.push (.quad (r.target a) (r.target p)), pen := p }
  | .stroke (.arc radii start sweep) => r.arcTo radii start sweep
  | .stroke .close => { r with out := r.out.push .close, pen := r.start }
  | .unknown _ => r

end Tracing

/-- An axis without authored extent keeps its coordinates. -/
def fit (target source : α) : α := if 0 < source then target / source else 1

namespace CustomPath

/-- The greatest coordinates that the commands reach, control points counted in and nothing below
zero. -/
def reached (p : CustomPath α) : Point α := (p.commands.foldl Extent.apply .initial).reach

/-- A declared size counts if it is finite and positive. -/
def validSize? (size : Option α) : Option α := size.filter fun v => isFinite v && decide (0 < v)

theorem validSize?_eq_some_iff {size : Option α} {v : α} :
    validSize? size = some v ↔ size = some v ∧ isFinite v = true ∧ 0 < v := by
  simp [validSize?, Option.filter_eq_some_iff]

/-- The extent of one axis: the declared one, else the hinted one, else the inferred one. -/
def axisExtent (declared hinted : Option α) (inferred : α) : α :=
  ((validSize? declared).or (validSize? hinted)).getD inferred

def extent (p : CustomPath α) (hint : Option (Point α)) : Point α :=
  let inferred := p.reached
  ⟨axisExtent p.width (hint.map Point.x) inferred.x,
    axisExtent p.height (hint.map Point.y) inferred.y⟩

def scale (p : CustomPath α) (w h : α) (hint : Option (Point α)) : Point α :=
  let source := p.extent hint
  ⟨fit (dimensionOrZero w) source.x, fit (dimensionOrZero h) source.y⟩

/-- The path drawn into a box of sides `w` and `h`. -/
def resolve (p : CustomPath α) (w h : α) (hint : Option (Point α)) : Path α :=
  (p.commands.foldl Tracing.apply (.ofScale (p.scale w h hint))).out

/-- The greatest extent of several paths on each axis. -/
def sharedExtent (ps : List (CustomPath α)) : Point α :=
  ps.foldl (fun shared p => shared.greatest (p.extent none)) .zero

/-- Paths drawn together: those without a declared size scale by the extent of all. -/
def resolveAll (ps : List (CustomPath α)) (w h : α) : List (Path α) :=
  ps.map (·.resolve w h (some (sharedExtent ps)))

end CustomPath

end ShapeOutline
