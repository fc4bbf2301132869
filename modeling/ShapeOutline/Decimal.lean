import ShapeOutline.Scalar

/-!
Decimal text. `decimal p n` is the numeral of `n / 10 ^ p`, printed with `p` digits after the
point and then trimmed, and `numeral` writes a coordinate to the nearest thousandth.
-/

namespace ShapeOutline

/-- The `p` digits of `r`, which is below `10 ^ p`, with the zeros in front. -/
def fixedDigits : Nat → Nat → List Char
  | 0, _ => []
  | p + 1, r => Nat.digitChar (r / Nat.pow 10 p) :: fixedDigits p (r % Nat.pow 10 p)

/-- `n / 10 ^ p` with `p` digits after the point. -/
def fixedDecimal (p : Nat) (n : Int) : String :=
  (if n < 0 then "-" else "") ++ toString (n.natAbs / Nat.pow 10 p) ++ "." ++
    String.ofList (fixedDigits p (n.natAbs % Nat.pow 10 p))

def trimEnd (c : Char) (s : String) : String :=
  String.ofList (s.toList.reverse.dropWhile (· == c)).reverse

/-- The point goes too if nothing but zeros is behind it. -/
def decimal (p : Nat) (n : Int) : String :=
  trimEnd '.' (trimEnd '0' (fixedDecimal p n))

variable {α : Type} [Scalar α]

open Scalar

/-- A coordinate as a path writes it. What is not finite is written `0`; a value so large that its
thousandths overflow is written `inf` under its sign. -/
def numeral (v : α) : String :=
  if !isFinite v then "0"
  else
    let r := round (v * 1000) / 1000
    if r == 0 then "0"
    else if isFinite r then decimal 3 (thousandths r)
    else if r < 0 then "-inf" else "inf"

end ShapeOutline
