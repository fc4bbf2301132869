import ShapeOutline.Frame
import ShapeOutline.Sketch

/-!
Brackets and braces: open outlines. The right one of each is the left one reflected.
-/

namespace ShapeOutline.Shape

variable {α : Type} [Scalar α]

def leftBracket (f : Frame α) : Sketch α :=
  let y1 := f.shortPart (f.pinned "adj" 8333 0 (divOrZero (50000 * f.h) f.ss))
  [.move ⟨f.w, f.h⟩, .arc ⟨f.w, y1⟩ 90 90, .line ⟨0, y1⟩, .arc ⟨f.w, y1⟩ 180 90]

def rightBracket (f : Frame α) : Sketch α := (leftBracket f).reflect (.leftRight f.w)

/-- The curls are bounded so that they fit between the tip and the nearer end. -/
def leftBrace (f : Frame α) : Sketch α :=
  let a2 := f.pinned "adj2" 50000 0 100000
  let q3 := min (100000 - a2) a2 / 2
  let y1 := f.shortPart (f.pinned "adj1" 8333 0 (divOrZero (q3 * f.h) f.ss))
  let y3 := f.heightPart a2
  let hc := f.hc
  let curl : Point α := ⟨f.w / 2, y1⟩
  [.move ⟨f.w, f.h⟩, .arc curl 90 90, .line ⟨hc, y3 + y1⟩, .arc curl 0 (-90), .arc curl 90 (-90),
    .line ⟨hc, y1⟩, .arc curl 180 90]

def rightBrace (f : Frame α) : Sketch α := (leftBrace f).reflect (.leftRight f.w)

def bracketPair (f : Frame α) : Sketch α :=
  let x1 := f.shortPart (f.pinned "adj" 16667 0 50000)
  let r := f.w
  let b := f.h
  let curl : Point α := ⟨x1, x1⟩
  [.move ⟨x1, b⟩, .arc curl 90 90, .line ⟨0, x1⟩, .arc curl 180 90,
    .move ⟨r - x1, 0⟩, .arc curl 270 90, .line ⟨r, b - x1⟩, .arc curl 0 90]

def bracePair (f : Frame α) : Sketch α :=
  let x1 := f.shortPart (f.pinned "adj" 8333 0 25000)
  let x2 := 2 * x1
  let r := f.w
  let b := f.h
  let vc := f.vc
  let curl : Point α := ⟨x1, x1⟩
  [.move ⟨x2, b⟩, .arc curl 90 90, .line ⟨x1, vc + x1⟩, .arc curl 0 (-90), .arc curl 90 (-90),
    .line ⟨x1, x1⟩, .arc curl 180 90,
    .move ⟨r - x2, 0⟩, .arc curl 270 90, .line ⟨r - x1, vc - x1⟩, .arc curl 180 (-90),
    .arc curl 270 (-90), .line ⟨r - x1, b - x1⟩, .arc curl 0 90]

end ShapeOutline.Shape
