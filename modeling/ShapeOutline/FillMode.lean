import ShapeOutline.Scalar

/-!
Fill modes: how a layer's colour is blended from the base colour of its shape.
-/

namespace ShapeOutline

inductive FillMode where
  | normal
  | darken
  | darkenLess
  | lighten
  | lightenLess
  | none
  deriving DecidableEq

inductive Tone where
  | black
  | white

structure Color where
  red : Nat
  green : Nat
  blue : Nat

namespace FillMode

/-- The spelling in shape definitions. -/
def name : FillMode → String
  | normal => "norm"
  | darken => "darken"
  | darkenLess => "darkenLess"
  | lighten => "lighten"
  | lightenLess => "lightenLess"
  | none => "none"

def ofName? : String → Option FillMode
  | "norm" | "normal" => some normal
  | "darken" => some darken
  | "darkenLess" => some darkenLess
  | "lighten" => some lighten
  | "lightenLess" => some lightenLess
  | "none" => some none
  | _ => Option.none

def unknown (name : String) : String := "unknown fill mode `" ++ name ++ "`"

def isFilled (m : FillMode) : Bool := m != none

/-- The strength of the blend, in fifths. -/
def fifths? : FillMode → Option Nat
  | normal => some 0
  | darken | lighten => some 2
  | darkenLess | lightenLess => some 1
  | none => Option.none

def ratio? {α : Type} [Scalar α] (m : FillMode) : Option α :=
  m.fifths?.map fun k => Scalar.ofNat k / 5

/-- The colour that is blended in. -/
def tone? : FillMode → Option Tone
  | darken | darkenLess => some .black
  | lighten | lightenLess => some .white
  | normal | none => Option.none

/-- A channel taken `k` fifths of the way to `goal`, to the nearest integer. -/
def blend (k goal channel : Nat) : Nat := (2 * ((5 - k) * channel + k * goal) + 5) / 10

def Tone.level : Tone → Nat
  | .black => 0
  | .white => 255

def apply (m : FillMode) (c : Color) : Option Color :=
  match m.fifths?, m.tone? with
  | some k, some t =>
    let mix := blend k (Tone.level t)
    some ⟨mix c.red, mix c.green, mix c.blue⟩
  | some _, Option.none => some c
  | Option.none, _ => Option.none

end FillMode

end ShapeOutline
