/-!
The numbers a drawing is computed in. `Scalar` names the operations and fixes no representation,
so one definition of a shape serves machine numbers and exact ones.
-/

namespace ShapeOutline

class Scalar (α : Type) where
  add : α → α → α
  sub : α → α → α
  mul : α → α → α
  div : α → α → α
  neg : α → α
  lt : α → α → Prop
  le : α → α → Prop
  decLt : (a b : α) → Decidable (lt a b)
  decLe : (a b : α) → Decidable (le a b)
  beq : α → α → Bool
  ofNat : Nat → α
  /-- Digits `m`, divided by `10 ^ e` if the flag is set and multiplied by it otherwise. -/
  ofDecimal : (m : Nat) → Bool → (e : Nat) → α
  isFinite : α → Bool
  /-- The nearest whole number, a half going away from zero. -/
  round : α → α
  ceil : α → α
  /-- The remainder that is at least zero. -/
  emod : α → α → α
  /-- The whole number nearest to a thousand times the argument, a half going to the even one. -/
  thousandths : α → Int
  pi : α
  sqrt : α → α
  sin : α → α
  cos : α → α
  tan : α → α
  asin : α → α
  /-- The angle of the point `(x, y)`, from `y` and then `x`. -/
  atan2 : α → α → α
  hypot : α → α → α

section Operators

variable {α : Type} [Scalar α]

instance (priority := low) instAddScalar : Add α := ⟨Scalar.add⟩
instance (priority := low) instSubScalar : Sub α := ⟨Scalar.sub⟩
instance (priority := low) instMulScalar : Mul α := ⟨Scalar.mul⟩
instance (priority := low) instDivScalar : Div α := ⟨Scalar.div⟩
instance (priority := low) instNegScalar : Neg α := ⟨Scalar.neg⟩
instance (priority := low) instLTScalar : LT α := ⟨Scalar.lt⟩
instance (priority := low) instLEScalar : LE α := ⟨Scalar.le⟩
instance (priority := low) instBEqScalar : BEq α := ⟨Scalar.beq⟩
instance (priority := low) instDecLTScalar (a b : α) : Decidable (a < b) := Scalar.decLt a b
instance (priority := low) instDecLEScalar (a b : α) : Decidable (a ≤ b) := Scalar.decLe a b
instance (priority := low) instOfNatScalar (n : Nat) : OfNat α n := ⟨Scalar.ofNat n⟩
instance (priority := low) instOfScientificScalar : OfScientific α := ⟨Scalar.ofDecimal⟩

end Operators

namespace Scalar

variable {α : Type} [Scalar α]

/-- Holds of a value that differs from itself. -/
def isNaN (x : α) : Bool := !(x == x)

/-- If one of two values is not a number, the smaller and the larger are the other one. -/
instance (priority := low) instMinScalar : Min α :=
  ⟨fun a b => if isNaN a then b else if b < a then b else a⟩

instance (priority := low) instMaxScalar : Max α :=
  ⟨fun a b => if isNaN a then b else if a < b then b else a⟩

def abs (x : α) : α := if x < 0 then -x else x

def clamp (lo hi x : α) : α := if x < lo then lo else if hi < x then hi else x

/-- The greatest magnitude of a finite double, the starting sentinel of a bounding box. -/
def largest : α := ofNat (Nat.pow 2 1024 - Nat.pow 2 971)

end Scalar

open Scalar

variable {α : Type} [Scalar α]

/-- `v` between `lo` and `hi`; of an inverted range `lo` wins. -/
def pin (lo v hi : α) : α := if v < lo then lo else if hi < v then max hi lo else v

/-- A quotient that is zero where it would not be a finite number. -/
def divOrZero (num den : α) : α :=
  if den == 0 || !isFinite den then 0
  else
    let r := num / den
    if isFinite r then r else 0

def sqrtOrZero (v : α) : α := if 0 < v then sqrt v else 0

def radians (deg : α) : α := deg * (pi / 180)

def degrees (rad : α) : α := rad * (180 / pi)

end ShapeOutline
