import ShapeOutline.Sketch

/-!
The text of a path while it is written. Each command goes behind what is written so far; the writer
keeps the pen, the start of the current sub-path and whether a number that was infinite or not a
number has been written.
-/

namespace ShapeOutline

structure PathWriter (α : Type) where
  text : String
  pen : Point α
  start : Point α
  nonFinite : Bool

variable {α : Type} [Scalar α]

namespace PathWriter

def empty : PathWriter α := ⟨"", .zero, .zero, false⟩

/-- A single blank parts `s` from what is written, if there is anything. -/
def textThen (w : PathWriter α) (s : String) : String :=
  if w.text.isEmpty then s else w.text ++ " " ++ s

def push (w : PathWriter α) (c : Command α) : PathWriter α :=
  ⟨w.textThen c.text, c.pen w.start, c.subpath w.start, w.nonFinite || !c.isFinite⟩

def pushArc (w : PathWriter α) (radii : Point α) (start sweep : α) : PathWriter α :=
  let s := arcSegment w.pen radii start sweep
  w.push (.arc radii 0 s.large s.sweep s.target)

def arcTo (w : PathWriter α) (radii : Point α) (start sweep : α) : PathWriter α :=
  if isDegenerate radii sweep then w
  else
    let sweep := Scalar.clamp (-360) 360 sweep
    if needsHalves sweep w.pen (arcSegment w.pen radii start sweep).target then
      let half := sweep / 2
      (w.pushArc radii start half).pushArc radii (start + half) half
    else w.pushArc radii start sweep

def stroke (w : PathWriter α) : Stroke α → PathWriter α
  | .move a => w.push (.move a)
  | .line a => w.push (.line a)
  | .cubic a b c => w.push (.cubic a b c)
  | .quad a b => w.push (.quad a b)
  | .arc radii start sweep => w.arcTo radii start sweep
  | .close => w.push .close

def draw (w : PathWriter α) (s : Sketch α) : PathWriter α := s.foldl stroke w

/-- What `w` has written and then what `v` has. -/
def append (w v : PathWriter α) : PathWriter α :=
  if v.text.isEmpty then w
  else ⟨w.textThen v.text, v.pen, v.start, w.nonFinite || v.nonFinite⟩

instance : Append (PathWriter α) := ⟨append⟩

end PathWriter

def Sketch.text (s : Sketch α) : String := (PathWriter.empty.draw s).text

end ShapeOutline
