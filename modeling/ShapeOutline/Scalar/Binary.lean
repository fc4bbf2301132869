import ShapeOutline.Scalar

/-!
Double precision numbers as scalars. Rounding, remainders and decimal places are computed from
the exact value `± mantissa * 2 ^ exponent`, so none of them rounds twice.
-/

namespace ShapeOutline

namespace Binary

/-- The exact value of a finite double. -/
structure Parts where
  negative : Bool
  mantissa : Nat
  exponent : Int

def parts (x : Float) : Parts :=
  let bits : Nat := x.toBits.toNat
  let fraction : Nat := bits % Nat.pow 2 52
  let biased : Nat := bits / Nat.pow 2 52 % Nat.pow 2 11
  { negative := bits / Nat.pow 2 63 == 1
    mantissa := if biased = 0 then fraction else Nat.pow 2 52 + fraction
    exponent := if biased = 0 then -1074 else (biased : Int) - 1075 }

def halfEven (num den : Nat) : Nat :=
  let q := num / den
  let twice := 2 * (num % den)
  if twice < den then q else if den < twice then q + 1 else q + q % 2

def halfUp (num den : Nat) : Nat := (2 * num + den) / (2 * den)

def ceilDiv (num den : Nat) : Nat := (num + den - 1) / den

namespace Parts

/-- The magnitude times `k` as a fraction, passed on to a rule of rounding. -/
def magnitude (p : Parts) (k : Nat) (rule : Nat → Nat → Nat) : Nat :=
  if 0 ≤ p.exponent then rule (p.mantissa * k * Nat.pow 2 p.exponent.toNat) 1
  else rule (p.mantissa * k) (Nat.pow 2 (-p.exponent).toNat)

def signed (p : Parts) (n : Nat) : Int := if p.negative then -(n : Int) else n

end Parts

/-- The whole number nearest to `k * x`, a half going to the even one. -/
def scaled (k : Nat) (x : Float) : Int :=
  let p := parts x
  p.signed (p.magnitude k halfEven)

def round (x : Float) : Float :=
  if x.isFinite then
    let p := parts x
    Float.ofInt (p.signed (p.magnitude 1 halfUp))
  else x

def ceil (x : Float) : Float :=
  if x.isFinite then
    let p := parts x
    Float.ofInt (p.signed (p.magnitude 1 (if p.negative then (· / ·) else ceilDiv)))
  else x

/-- `n * 2 ^ e`, exact if that is a double. -/
def ofScaled (n : Nat) (e : Int) : Float :=
  if 0 ≤ e then Float.ofNat (n * Nat.pow 2 e.toNat)
  else
    let k := (-e).toNat
    Float.ofNat n / Float.ofNat (Nat.pow 2 (k / 2)) / Float.ofNat (Nat.pow 2 (k - k / 2))

/-- The exact remainder, with the sign of `x`. -/
def remainder (x m : Float) : Float :=
  if !x.isFinite || m.isNaN || m == 0 then 0 / 0
  else if m.isInf then x
  else
    let p := parts x
    let q := parts m
    let e := min p.exponent q.exponent
    let dividend := p.mantissa * Nat.pow 2 (p.exponent - e).toNat
    let r := ofScaled (dividend % (q.mantissa * Nat.pow 2 (q.exponent - e).toNat)) e
    if p.negative then -r else r

def emod (x m : Float) : Float :=
  let r := remainder x m
  if r < 0 then r + m.abs else r

/-- The double nearest to a decimal, decided without the power of ten where that is far outside the
range. -/
def ofDecimal (m : Nat) (negative : Bool) (e : Nat) : Float :=
  if m = 0 then 0
  else if negative then
    if Nat.log2 m + 400 < e then 0 else Float.ofScientific m true e
  else if 400 < e then 1 / 0 else Float.ofScientific m false e

/-- The length of `(a, b)` for `0 ≤ b ≤ a`: the root `h` of the rounded sum of squares, less its
excess `h * h - a * a - b * b` over `2 * h`. The excess is put together from differences that keep
their digits, which leaves the last bit of the length right in nearly every case. -/
def rootOfSquares (a b : Float) : Float :=
  let h := Float.sqrt (a * a + b * b)
  let excess :=
    if h ≤ 2 * b then
      let d := h - b
      a * (2 * d - a) + (d - 2 * (a - b)) * d
    else
      let d := h - a
      2 * d * (a - 2 * b) + ((4 * d - b) * b + d * d)
  h - excess / (2 * h)

/-- The length of `(a, b)` for `0 ≤ b ≤ a`, scaled by a power of two where the squares would leave
the range. A leg below the last bit of the other adds no square. -/
def lengthOfLegs (a b : Float) : Float :=
  let k := Float.ofNat (Nat.pow 2 600)
  if b * Float.ofNat (Nat.pow 2 54) ≤ a then a + b
  else if Float.ofNat (Nat.pow 2 511) < a then rootOfSquares (a / k) (b / k) * k
  else if b < 1 / Float.ofNat (Nat.pow 2 459) then rootOfSquares (a * k) (b * k) / k
  else rootOfSquares a b

/-- The length of `(x, y)`, infinite as soon as one of the two is. -/
def hypot (x y : Float) : Float :=
  if x.isInf || y.isInf then 1 / 0
  else if x.abs < y.abs then lengthOfLegs y.abs x.abs
  else lengthOfLegs x.abs y.abs

end Binary

instance : Scalar Float where
  add := Float.add
  sub := Float.sub
  mul := Float.mul
  div := Float.div
  neg := Float.neg
  lt a b := a < b
  le a b := a ≤ b
  decLt a b := inferInstanceAs (Decidable (a < b))
  decLe a b := inferInstanceAs (Decidable (a ≤ b))
  beq := Float.beq
  ofNat := Float.ofNat
  ofDecimal := Binary.ofDecimal
  isFinite := Float.isFinite
  round := Binary.round
  ceil := Binary.ceil
  emod := Binary.emod
  thousandths := Binary.scaled 1000
  pi := 3.141592653589793
  sqrt := Float.sqrt
  sin := Float.sin
  cos := Float.cos
  tan := Float.tan
  asin := Float.asin
  atan2 := Float.atan2
  hypot := Binary.hypot

end ShapeOutline
