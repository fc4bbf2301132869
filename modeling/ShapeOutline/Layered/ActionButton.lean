import ShapeOutline.Frame
import ShapeOutline.Layer

/-!
Action buttons: a bordered rectangle with an icon. Icons are drawn on a unit square, which lies in
the middle of the frame and whose side is three quarters of the short side.
-/

namespace ShapeOutline.Layered

variable {α : Type} [Scalar α]

/-- Where the unit square of an icon lies. -/
structure IconSquare (α : Type) where
  origin : Point α
  size : α

namespace IconSquare

def ofFrame (f : Frame α) : IconSquare α :=
  let half := f.ss * 3 / 8
  ⟨f.center - ⟨half, half⟩, 2 * half⟩

variable (i : IconSquare α)

def point (p : Point α) : Point α := i.origin + p * i.size

def stroke : Stroke α → Stroke α
  | .move p => .move (i.point p)
  | .line p => .line (i.point p)
  | .cubic a b p => .cubic (i.point a) (i.point b) (i.point p)
  | .quad a p => .quad (i.point a) (i.point p)
  | .arc radii start sweep => .arc (radii * i.size) start sweep
  | .close => .close

/-- A drawing on the unit square. -/
def place (s : Sketch α) : Sketch α := s.map i.stroke

def polygon (ps : List (Point α)) : Sketch α := i.place (Sketch.polygon ps)

def rect (u v w h : α) : Sketch α :=
  let p := i.point ⟨u, v⟩
  Sketch.rect p.x p.y (w * i.size) (h * i.size)

def circle (u v r : α) : Sketch α :=
  let p := i.point ⟨u - r, v - r⟩
  Sketch.ellipse p.x p.y (2 * r * i.size) (2 * r * i.size)

end IconSquare

/-- An icon: its shaded parts in paint order, and marks that are only stroked. -/
structure IconArt (α : Type) where
  parts : List (Sketch α × FillMode)
  marks : Sketch α := []

def IconArt.outline (a : IconArt α) : Sketch α := a.parts.flatMap Prod.fst ++ a.marks

def actionButton (art : IconSquare α → IconArt α) (f : Frame α) : List (Layer α) :=
  let border := Sketch.rect 0 0 f.w f.h
  let a := art (IconSquare.ofFrame f)
  .fill border .normal :: a.parts.map (fun p => .shade p.1 p.2) ++
    (if a.outline.isEmpty then [] else [.stroke a.outline]) ++ [.stroke border]

def actionButtonBlank (f : Frame α) : List (Layer α) := [.solid (Sketch.rect 0 0 f.w f.h)]

def homeIcon (i : IconSquare α) : IconArt α :=
  let house := i.polygon
    [⟨0.5, 0⟩, ⟨1, 0.5⟩, ⟨0.875, 0.5⟩, ⟨0.875, 1⟩, ⟨0.125, 1⟩, ⟨0.125, 0.5⟩, ⟨0, 0.5⟩]
  let chimney := i.polygon [⟨0.7, 0.05⟩, ⟨0.8, 0.05⟩, ⟨0.8, 0.3⟩, ⟨0.7, 0.2⟩]
  let door := i.rect 0.4 0.65 0.2 0.35
  { parts := [(house, .darkenLess), (chimney ++ door, .darken)] }

def actionButtonHome : Frame α → List (Layer α) := actionButton homeIcon

def helpIcon (i : IconSquare α) : IconArt α :=
  let hook := i.place
    [.move ⟨0.2, 0.32⟩, .arc ⟨0.3, 0.3⟩ 180 240, .line ⟨0.575, 0.65⟩, .line ⟨0.575, 0.75⟩,
      .line ⟨0.425, 0.75⟩, .line ⟨0.425, 0.6⟩, .line ⟨0.575, 0.45⟩, .arc ⟨0.15, 0.15⟩ 60 (-240),
      .close]
  { parts := [(hook ++ i.circle 0.5 0.9 0.07, .darken)] }

def actionButtonHelp : Frame α → List (Layer α) := actionButton helpIcon

def informationIcon (i : IconSquare α) : IconArt α :=
  let stem := i.polygon
    [⟨0.42, 0.38⟩, ⟨0.58, 0.38⟩, ⟨0.58, 0.8⟩, ⟨0.64, 0.8⟩, ⟨0.64, 0.86⟩, ⟨0.36, 0.86⟩, ⟨0.36, 0.8⟩,
      ⟨0.42, 0.8⟩]
  { parts := [(i.circle 0.5 0.5 0.5, .darken), (i.circle 0.5 0.22 0.08 ++ stem, .lighten)] }

def actionButtonInformation : Frame α → List (Layer α) := actionButton informationIcon

def backIcon (i : IconSquare α) : IconArt α :=
  { parts := [(i.polygon [⟨1, 0⟩, ⟨1, 1⟩, ⟨0, 0.5⟩], .darken)] }

def actionButtonBackPrevious : Frame α → List (Layer α) := actionButton backIcon

def forwardIcon (i : IconSquare α) : IconArt α :=
  { parts := [(i.polygon [⟨0, 0⟩, ⟨1, 0.5⟩, ⟨0, 1⟩], .darken)] }

def actionButtonForwardNext : Frame α → List (Layer α) := actionButton forwardIcon

def beginningIcon (i : IconSquare α) : IconArt α :=
  { parts := [(i.polygon [⟨1, 0⟩, ⟨1, 1⟩, ⟨0.25, 0.5⟩] ++ i.rect 0 0 0.125 1, .darken)] }

def actionButtonBeginning : Frame α → List (Layer α) := actionButton beginningIcon

def endIcon (i : IconSquare α) : IconArt α :=
  { parts := [(i.polygon [⟨0, 0⟩, ⟨0.75, 0.5⟩, ⟨0, 1⟩] ++ i.rect 0.875 0 0.125 1, .darken)] }

def actionButtonEnd : Frame α → List (Layer α) := actionButton endIcon

/-- An arrow that turns back, its head on the left and pointing up. -/
def returnIcon (i : IconSquare α) : IconArt α :=
  let arrow := i.place
    [.move ⟨0.875, 0.25⟩, .line ⟨0.875, 0.625⟩, .arc ⟨0.25, 0.25⟩ 0 90, .line ⟨0.375, 0.875⟩,
      .arc ⟨0.25, 0.25⟩ 90 90, .line ⟨0.125, 0.25⟩, .line ⟨0, 0.25⟩, .line ⟨0.1875, 0⟩,
      .line ⟨0.375, 0.25⟩, .line ⟨0.25, 0.25⟩, .line ⟨0.25, 0.625⟩, .arc ⟨0.125, 0.125⟩ 180 (-90),
      .line ⟨0.625, 0.75⟩, .arc ⟨0.125, 0.125⟩ 90 (-90), .line ⟨0.75, 0.25⟩, .close]
  { parts := [(arrow, .darken)] }

def actionButtonReturn : Frame α → List (Layer α) := actionButton returnIcon

def documentIcon (i : IconSquare α) : IconArt α :=
  let page := i.polygon [⟨0.125, 0⟩, ⟨0.625, 0⟩, ⟨0.875, 0.25⟩, ⟨0.875, 1⟩, ⟨0.125, 1⟩]
  let fold := i.polygon [⟨0.625, 0⟩, ⟨0.625, 0.25⟩, ⟨0.875, 0.25⟩]
  { parts := [(page, .darkenLess), (fold, .darken)] }

def actionButtonDocument : Frame α → List (Layer α) := actionButton documentIcon

def soundIcon (i : IconSquare α) : IconArt α :=
  let speaker := i.polygon
    [⟨0, 0.3125⟩, ⟨0.25, 0.3125⟩, ⟨0.5, 0⟩, ⟨0.5, 1⟩, ⟨0.25, 0.6875⟩, ⟨0, 0.6875⟩]
  let waves := i.place
    [.move ⟨0.625, 0.3125⟩, .line ⟨0.875, 0.125⟩, .move ⟨0.625, 0.5⟩, .line ⟨1, 0.5⟩,
      .move ⟨0.625, 0.6875⟩, .line ⟨0.875, 0.875⟩]
  { parts := [(speaker, .darken)], marks := waves }

def actionButtonSound : Frame α → List (Layer α) := actionButton soundIcon

def movieIcon (i : IconSquare α) : IconArt α :=
  let camera := i.rect 0 0.3 0.75 0.45 ++ i.polygon [⟨0.75, 0.525⟩, ⟨1, 0.3⟩, ⟨1, 0.75⟩]
  let reels := i.circle 0.2 0.17 0.13 ++ i.circle 0.5 0.17 0.13
  { parts := [(camera, .darken), (reels, .darkenLess)] }

def actionButtonMovie : Frame α → List (Layer α) := actionButton movieIcon

end ShapeOutline.Layered
