import ShapeOutline.Scalar

/-!
Side lengths. A length that is not one counts as zero where a shape is drawn.
-/

namespace ShapeOutline

inductive DimensionError where
  | notANumber
  | infinite
  | negative

def DimensionError.message : DimensionError → String
  | notANumber => "value is NaN"
  | infinite => "value is infinite"
  | negative => "value is negative"

open Scalar

variable {α : Type} [Scalar α]

def dimension (v : α) : Except DimensionError α :=
  if isNaN v then .error .notANumber
  else if !isFinite v then .error .infinite
  else if v < 0 then .error .negative
  else .ok v

def dimensionOrZero (v : α) : α :=
  match dimension v with
  | .ok v => v
  | .error _ => 0

end ShapeOutline
