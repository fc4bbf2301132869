import ShapeOutline.Frame
import ShapeOutline.Sketch

/-!
Lines and connectors: open strokes from the top left to the bottom right corner of the frame.
-/

namespace ShapeOutline.Shape

variable {α : Type} [Scalar α]

/-- A diagonal. A frame without width or height is drawn through at a fixed offset, so that
something is seen. -/
def diagonal (f : Frame α) (rising : Bool) : Sketch α :=
  if f.w == 0 then [.move ⟨0.5, 0⟩, .line ⟨0.5, f.h⟩]
  else if f.h == 0 then [.move ⟨0, 0.5⟩, .line ⟨f.w, 0.5⟩]
  else if rising then [.move ⟨0, f.h⟩, .line ⟨f.w, 0⟩]
  else [.move ⟨0, 0⟩, .line ⟨f.w, f.h⟩]

def line (f : Frame α) : Sketch α := diagonal f false

def lineInv (f : Frame α) : Sketch α := diagonal f true

def straightConnector1 (f : Frame α) : Sketch α := diagonal f false

/-- A column of the frame, set by an adjustment. -/
def column (f : Frame α) (name : String) : α := f.widthPart (f.adjustment name 50000)

/-- A row of the frame, set by an adjustment. -/
def row (f : Frame α) (name : String) : α := f.heightPart (f.adjustment name 50000)

def bentConnector2 (f : Frame α) : Sketch α := [.move ⟨0, 0⟩, .line ⟨f.w, 0⟩, .line ⟨f.w, f.h⟩]

def bentConnector3 (f : Frame α) : Sketch α :=
  let x1 := column f "adj1"
  [.move ⟨0, 0⟩, .line ⟨x1, 0⟩, .line ⟨x1, f.h⟩, .line ⟨f.w, f.h⟩]

def bentConnector4 (f : Frame α) : Sketch α :=
  let x1 := column f "adj1"
  let y2 := row f "adj2"
  [.move ⟨0, 0⟩, .line ⟨x1, 0⟩, .line ⟨x1, y2⟩, .line ⟨f.w, y2⟩, .line ⟨f.w, f.h⟩]

def bentConnector5 (f : Frame α) : Sketch α :=
  let x1 := column f "adj1"
  let y2 := row f "adj2"
  let x3 := column f "adj3"
  [.move ⟨0, 0⟩, .line ⟨x1, 0⟩, .line ⟨x1, y2⟩, .line ⟨x3, y2⟩, .line ⟨x3, f.h⟩, .line ⟨f.w, f.h⟩]

def curvedConnector2 (f : Frame α) : Sketch α :=
  [.move ⟨0, 0⟩, .cubic ⟨f.w / 2, 0⟩ ⟨f.w, f.h / 2⟩ ⟨f.w, f.h⟩]

def curvedConnector3 (f : Frame α) : Sketch α :=
  let r := f.w
  let b := f.h
  let x2 := column f "adj1"
  let x1 := x2 / 2
  let x3 := (r + x2) / 2
  [.move ⟨0, 0⟩, .cubic ⟨x1, 0⟩ ⟨x2, b / 4⟩ ⟨x2, b / 2⟩, .cubic ⟨x2, b * 3 / 4⟩ ⟨x3, b⟩ ⟨r, b⟩]

def curvedConnector4 (f : Frame α) : Sketch α :=
  let r := f.w
  let b := f.h
  let x2 := column f "adj1"
  let y4 := row f "adj2"
  let x1 := x2 / 2
  let x3 := (r + x2) / 2
  let x4 := (x2 + x3) / 2
  let x5 := (x3 + r) / 2
  let y1 := y4 / 2
  let y2 := y1 / 2
  let y3 := (y1 + y4) / 2
  let y5 := (b + y4) / 2
  [.move ⟨0, 0⟩, .cubic ⟨x1, 0⟩ ⟨x2, y2⟩ ⟨x2, y1⟩, .cubic ⟨x2, y3⟩ ⟨x4, y4⟩ ⟨x3, y4⟩,
    .cubic ⟨x5, y4⟩ ⟨r, y5⟩ ⟨r, b⟩]

def curvedConnector5 (f : Frame α) : Sketch α :=
  let r := f.w
  let b := f.h
  let x3 := column f "adj1"
  let y4 := row f "adj2"
  let x6 := column f "adj3"
  let x1 := (x3 + x6) / 2
  let x2 := x3 / 2
  let x4 := (x3 + x1) / 2
  let x5 := (x6 + x1) / 2
  let x7 := (x6 + r) / 2
  let y1 := y4 / 2
  let y2 := y1 / 2
  let y3 := (y1 + y4) / 2
  let y5 := (b + y4) / 2
  let y6 := (y5 + y4) / 2
  let y7 := (y5 + b) / 2
  [.move ⟨0, 0⟩, .cubic ⟨x2, 0⟩ ⟨x3, y2⟩ ⟨x3, y1⟩, .cubic ⟨x3, y3⟩ ⟨x4, y4⟩ ⟨x1, y4⟩,
    .cubic ⟨x5, y4⟩ ⟨x6, y6⟩ ⟨x6, y5⟩, .cubic ⟨x6, y7⟩ ⟨x7, b⟩ ⟨r, b⟩]

end ShapeOutline.Shape
