import ShapeOutline.Arc

/-!
Path data: the commands written so far, with the pen and the start of the current sub-path. The
text is the commands' text joined by single blanks.
-/

namespace ShapeOutline

inductive Command (α : Type) where
  | move (p : Point α)
  | line (p : Point α)
  | cubic (a b p : Point α)
  | quad (a p : Point α)
  | arc (radii : Point α) (rotation : α) (large sweep : Bool) (p : Point α)
  | close

open Scalar

variable {α : Type} [Scalar α]

namespace Command

/-- Where the pen is afterwards in a sub-path that began at `start`. -/
def pen (start : Point α) : Command α → Point α
  | move p | line p | cubic _ _ p | quad _ p | arc _ _ _ _ p => p
  | close => start

/-- Where the sub-path begins afterwards. -/
def subpath (start : Point α) : Command α → Point α
  | move p => p
  | _ => start

def isFinite : Command α → Bool
  | move p | line p => p.isFinite
  | cubic a b p => a.isFinite && b.isFinite && p.isFinite
  | quad a p => a.isFinite && p.isFinite
  | arc r rotation _ _ p => r.isFinite && Scalar.isFinite rotation && p.isFinite
  | close => true

def flag (b : Bool) : String := if b then "1" else "0"

def text : Command α → String
  | move p => "M" ++ p.text
  | line p => "L" ++ p.text
  | cubic a b p => "C" ++ a.text ++ " " ++ b.text ++ " " ++ p.text
  | quad a p => "Q" ++ a.text ++ " " ++ p.text
  | arc r rotation large sweep p =>
    "A" ++ r.text ++ " " ++ numeral rotation ++ " " ++ flag large ++ "," ++ flag sweep ++ " " ++
      p.text
  | close => "Z"

end Command

structure Path (α : Type) where
  commands : List (Command α)
  pen : Point α
  start : Point α

namespace Path

def empty : Path α := ⟨[], .zero, .zero⟩

def isEmpty (p : Path α) : Bool := p.commands.isEmpty

/-- Holds as long as no number written was infinite or not a number. -/
def isFinite (p : Path α) : Bool := p.commands.all Command.isFinite

def text (p : Path α) : String := " ".intercalate (p.commands.map Command.text)

def push (p : Path α) (c : Command α) : Path α :=
  ⟨p.commands ++ [c], c.pen p.start, c.subpath p.start⟩

/-- One arc command, its end computed from the pen. -/
def pushArc (p : Path α) (radii : Point α) (start sweep : α) : Path α :=
  let s := arcSegment p.pen radii start sweep
  p.push (.arc radii 0 s.large s.sweep s.target)

/-- An arc from the pen, of at most a full turn. One that ends where it starts is written in two
halves, and one that draws nothing is left out. -/
def arcTo (p : Path α) (radii : Point α) (start sweep : α) : Path α :=
  if isDegenerate radii sweep then p
  else
    let sweep := clamp (-360) 360 sweep
    if needsHalves sweep p.pen (arcSegment p.pen radii start sweep).target then
      let half := sweep / 2
      (p.pushArc radii start half).pushArc radii (start + half) half
    else p.pushArc radii start sweep

/-- The commands of `p` and then those of `q`. -/
def append (p q : Path α) : Path α :=
  if q.isEmpty then p else ⟨p.commands ++ q.commands, q.pen, q.start⟩

instance : Append (Path α) := ⟨append⟩

end Path

end ShapeOutline
