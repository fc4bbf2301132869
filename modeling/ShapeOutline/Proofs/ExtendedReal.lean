import ShapeOutline.Proofs.RealScalar

/-! The real numbers with one undefined value as scalars. An operation outside
its domain gives the undefined value, and so does every operation on it. It
stands for whatever is not a finite number. -/

namespace ShapeOutline
noncomputable section

inductive Extended where
  | real (x : ℝ)
  | undefined

namespace Extended

def map (f : ℝ → ℝ) : Extended → Extended
  | real x => real (f x)
  | undefined => undefined

def map₂ (f : ℝ → ℝ → ℝ) : Extended → Extended → Extended
  | real x, real y => real (f x y)
  | _, _ => undefined

/-- Where the relation of the reals holds; of the undefined value it does not. -/
def Holds (r : ℝ → ℝ → Prop) : Extended → Extended → Prop
  | real x, real y => r x y
  | _, _ => False

def decidableHolds (r : ℝ → ℝ → Prop) (dec : ∀ x y, Decidable (r x y)) :
    (a b : Extended) → Decidable (Holds r a b)
  | real x, real y => dec x y
  | real _, undefined => .isFalse id
  | undefined, _ => .isFalse id

/-- A function where its domain allows it. -/
def mapOn (domain : ℝ → Prop) [DecidablePred domain] (f : ℝ → ℝ) : Extended → Extended
  | real x => if domain x then real (f x) else undefined
  | undefined => undefined

/-- A function of two numbers of which the second must not be zero. -/
def mapOver (f : ℝ → ℝ → ℝ) : Extended → Extended → Extended
  | real x, real y => if y = 0 then undefined else real (f x y)
  | _, _ => undefined

end Extended

open Extended in
instance instScalarExtended : Scalar Extended where
  add := map₂ Scalar.add
  sub := map₂ Scalar.sub
  mul := map₂ Scalar.mul
  div := mapOver Scalar.div
  neg := map Scalar.neg
  lt := Holds (· < ·)
  le := Holds (· ≤ ·)
  decLt := decidableHolds _ Real.decidableLT
  decLe := decidableHolds _ Real.decidableLE
  beq
    | real x, real y => decide (x = y)
    | _, _ => false
  ofNat n := real (Scalar.ofNat n)
  ofDecimal m divided e := real (Scalar.ofDecimal m divided e)
  isFinite
    | real _ => true
    | undefined => false
  round := map Scalar.round
  ceil := map Scalar.ceil
  emod := mapOver Scalar.emod
  thousandths
    | real x => Scalar.thousandths x
    | undefined => 0
  pi := real Scalar.pi
  sqrt := mapOn (0 ≤ ·) Scalar.sqrt
  sin := map Scalar.sin
  cos := map Scalar.cos
  tan := mapOn (Real.cos · ≠ 0) Scalar.tan
  asin := mapOn (fun x => -1 ≤ x ∧ x ≤ 1) Scalar.asin
  atan2 := map₂ Scalar.atan2
  hypot := map₂ Scalar.hypot

end
end ShapeOutline
