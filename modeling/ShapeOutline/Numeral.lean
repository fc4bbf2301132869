import ShapeOutline.Scalar

/-!
Reading a decimal numeral: a sign, digits with a point before, among or after them, and an
exponent. The value is the scalar nearest to `digits * 10 ^ exponent`.
-/

namespace ShapeOutline

namespace Numeral

structure Parts where
  negative : Bool
  digits : Nat
  exponent : Int

def digitsValue (acc : Nat) (cs : List Char) : Nat :=
  cs.foldl (fun n c => 10 * n + (c.toNat - '0'.toNat)) acc

/-- A sign, if there is one, and what follows it. -/
def sign : List Char → Bool × List Char
  | '-' :: cs => (true, cs)
  | '+' :: cs => (false, cs)
  | cs => (false, cs)

def digits (cs : List Char) : List Char × List Char :=
  (cs.takeWhile Char.isDigit, cs.dropWhile Char.isDigit)

/-- The digits after a point, if there is one. -/
def fraction : List Char → List Char × List Char
  | '.' :: cs => digits cs
  | cs => ([], cs)

/-- The exponent is zero if none is written; one without digits is no exponent. -/
def exponent : List Char → Option Int
  | [] => some 0
  | c :: cs =>
    if c = 'e' ∨ c = 'E' then
      let (negative, cs) := sign cs
      match digits cs with
      | ([], _) | (_, _ :: _) => none
      | (ds, []) => some (if negative then -(digitsValue 0 ds : Int) else digitsValue 0 ds)
    else none

def parts? (cs : List Char) : Option Parts :=
  let (negative, cs) := sign cs
  let (whole, cs) := digits cs
  let (part, cs) := fraction cs
  if whole.isEmpty && part.isEmpty then none
  else (exponent cs).map fun e =>
    { negative, digits := digitsValue (digitsValue 0 whole) part, exponent := e - part.length }

open Scalar

variable {α : Type} [Scalar α]

def Parts.value (p : Parts) : α :=
  let magnitude : α := ofDecimal p.digits (decide (p.exponent < 0)) p.exponent.natAbs
  if p.negative then -magnitude else magnitude

/-- The finite value that a numeral denotes. -/
def value? (cs : List Char) : Option α :=
  match parts? cs with
  | none => none
  | some p =>
    let v : α := p.value
    if isFinite v then some v else none

end Numeral

end ShapeOutline
