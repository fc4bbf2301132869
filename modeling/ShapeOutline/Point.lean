import ShapeOutline.Decimal

/-!
Points and vectors of the plane, `y` growing downwards.
-/

namespace ShapeOutline

structure Point (α : Type) where
  x : α
  y : α

open Scalar

variable {α : Type} [Scalar α]

namespace Point

instance : Inhabited (Point α) := ⟨⟨0, 0⟩⟩

instance : Add (Point α) := ⟨fun a b => ⟨a.x + b.x, a.y + b.y⟩⟩
instance : Sub (Point α) := ⟨fun a b => ⟨a.x - b.x, a.y - b.y⟩⟩
instance : Neg (Point α) := ⟨fun a => ⟨-a.x, -a.y⟩⟩
instance : HMul (Point α) α (Point α) := ⟨fun a k => ⟨a.x * k, a.y * k⟩⟩
instance : HDiv (Point α) α (Point α) := ⟨fun a k => ⟨a.x / k, a.y / k⟩⟩

def zero : Point α := ⟨0, 0⟩

/-- Both axes scaled by their own factor. -/
def stretch (p s : Point α) : Point α := ⟨p.x * s.x, p.y * s.y⟩

def transpose (p : Point α) : Point α := ⟨p.y, p.x⟩

def dot (a b : Point α) : α := a.x * b.x + a.y * b.y

def normSq (a : Point α) : α := a.dot a

def norm (a : Point α) : α := sqrt a.normSq

/-- The unit vector of `a`, or zero where `a` has no direction. -/
def direction (a : Point α) : Point α :=
  let k := 1 / a.norm
  if isFinite k && decide (0 < k) then a * k else zero

def least (a b : Point α) : Point α := ⟨min a.x b.x, min a.y b.y⟩

def greatest (a b : Point α) : Point α := ⟨max a.x b.x, max a.y b.y⟩

def isFinite (a : Point α) : Bool := Scalar.isFinite a.x && Scalar.isFinite a.y

def text (a : Point α) : String := numeral a.x ++ "," ++ numeral a.y

/-- Points that a path writes alike. -/
def sameText (a b : Point α) : Bool := numeral a.x == numeral b.x && numeral a.y == numeral b.y

/-- The angle of a vector in degrees, from minus a half turn to a half turn. -/
def heading (v : Point α) : α := degrees (atan2 v.y v.x)

/-- The angle of a vector in degrees, from zero up to a full turn. -/
def angle (v : Point α) : α := emod v.heading 360

/-- The parameters along `d` at which the line through `p` meets the circle of radius `r` about the
origin, the smaller one first. -/
def circleCrossings (p d : Point α) (r : α) : Option (α × α) :=
  let a := d.normSq
  if a == 0 then none
  else
    let b := 2 * p.dot d
    let c := p.normSq - r * r
    let disc := b * b - 4 * a * c
    if disc < 0 then none
    else
      let s := sqrt disc
      some ((-b - s) / (2 * a), (-b + s) / (2 * a))

end Point

end ShapeOutline
