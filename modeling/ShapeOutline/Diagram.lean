import ShapeOutline.Box
import ShapeOutline.Name

/-!
Diagrams: the coordinate space that the shapes of a diagram were laid out in, and their places in
the box of the parent.
-/

namespace ShapeOutline

/-- A shape as a diagram sees it. -/
structure DiagramShape (α : Type) where
  box : Option (Box α) := none
  preset : Option String := none

structure DiagramRules (α : Type) where
  /-- How many frame extents the shapes may span. -/
  oversizeFactor : α
  /-- Whether shapes may not reach below zero. -/
  rejectNegative : Bool
  /-- The presets that make a diagram circular. -/
  circularPresets : List String

/-- The rule that gave a space. -/
inductive SpaceRule where
  | frame
  | rejected
  | native
  | aspectCorrected

structure ChildSpace (α : Type) where
  space : Box α
  circular : Bool
  source : SpaceRule

open Scalar

variable {α : Type} [Scalar α]

namespace DiagramRules

def standard : DiagramRules α where
  oversizeFactor := 2
  rejectNegative := true
  circularPresets :=
    ["pie", "arc", "blockArc", "donut", "circularArrow", "leftCircularArrow",
      "leftRightCircularArrow"]

def isCircular (d : DiagramRules α) (preset : String) : Bool :=
  d.circularPresets.any (sameName · preset)

end DiagramRules

/-- The scale that fills a side, which a side without length does not limit. -/
def sideScale? (frame side : α) : Option α := if 0 < side then some (frame / side) else none

/-- The smaller of two scales, as far as there are any. -/
def leastScale? : Option α → Option α → Option α
  | some a, some b => some (min a b)
  | some a, none => some a
  | none, b => b

/-- The smallest box of the frame's proportions around `tight`, with the same centre. -/
def proportioned? (tight : Box α) (frame : Point α) : Option (Box α) :=
  match leastScale? (sideScale? frame.x tight.extent.x) (sideScale? frame.y tight.extent.y) with
  | none => none
  | some scale =>
    if isFinite scale && decide (0 < scale) then
      let extent := frame / scale
      some ⟨tight.offset - (extent - tight.extent) / (2 : α), extent⟩
    else none

def shapeBounds (shapes : List (DiagramShape α)) : Bounds α :=
  (shapes.filterMap DiagramShape.box).foldl Bounds.addBox Bounds.empty

/-- The first rule that applies: without any box the frame; shapes that are negative or too large
are rejected for the frame's extent at the origin; so are shapes none of which is circular, as
native; circular ones get the frame's proportions. -/
def childSpace (shapes : List (DiagramShape α)) (frame : Box α) (d : DiagramRules α) :
    ChildSpace α :=
  let circular := (shapes.filterMap DiagramShape.preset).any d.isCircular
  let native : Box α := ⟨.zero, frame.extent⟩
  match (shapeBounds shapes).box? with
  | none => ⟨frame, circular, .frame⟩
  | some tight =>
    let negative := d.rejectNegative && (decide (tight.offset.x < 0) || decide (tight.offset.y < 0))
    let oversized :=
      decide (d.oversizeFactor * frame.extent.x < tight.extent.x) ||
        decide (d.oversizeFactor * frame.extent.y < tight.extent.y)
    if negative || oversized then ⟨native, circular, .rejected⟩
    else if !circular then ⟨native, circular, .native⟩
    else
      match proportioned? tight frame.extent with
      | some space => ⟨space, circular, .aspectCorrected⟩
      | none => ⟨native, circular, .native⟩

/-- A child by its index among the children, with its box in the parent. -/
structure Placement (α : Type) where
  index : Nat
  box : Option (Box α)

structure Layout (α : Type) where
  children : List (Placement α)
  cycle : Bool

def cycleMembers : List String :=
  ["pie", "pie", "pie", "circularArrow", "circularArrow", "circularArrow"]

def DiagramShape.isPreset (s : DiagramShape α) (name : String) : Bool :=
  s.preset.any (sameName · name)

/-- Holds of three pies followed by three circular arrows. -/
def isCycle (children : List (DiagramShape α)) : Bool :=
  children.length == cycleMembers.length &&
    (children.zip cycleMembers).all fun c => c.1.isPreset c.2

/-- The children in paint order. In a cycle the arrows come first, and the pies share one square. -/
def layoutChildren (children : List (DiagramShape α)) (space parent : Box α) : Layout α :=
  let placed := children.mapIdx fun i c => ⟨i, c.box.map (·.remap space parent)⟩
  if isCycle children then
    let pies := (placed.take 3).map fun p => { p with box := some parent.centralSquare }
    ⟨placed.drop 3 ++ pies, true⟩
  else ⟨placed, false⟩

end ShapeOutline
