import ShapeOutline.Grid

/-!
Stars, and the seals authored on a grid.
-/

namespace ShapeOutline.Shape

open Scalar
open Sketch (polygon)

variable {α : Type} [Scalar α]

def star4 (f : Frame α) : Sketch α :=
  let a := f.pinned "adj" 12500 0 50000
  let sdx := f.w / 2 * a / 50000 * cos (radians 45)
  let sdy := f.h / 2 * a / 50000 * sin (radians 45)
  let hc := f.hc
  let vc := f.vc
  polygon [⟨0, vc⟩, ⟨hc - sdx, vc - sdy⟩, ⟨hc, 0⟩, ⟨hc + sdx, vc - sdy⟩, ⟨f.w, vc⟩,
    ⟨hc + sdx, vc + sdy⟩, ⟨hc, f.h⟩, ⟨hc - sdx, vc + sdy⟩]

/-- The corners of a star, tips and notches in turn, the first tip straight up. -/
def starCorners (tips : Nat) (center outer inner : Point α) : List (Point α) :=
  let step : α := 180 / ofNat tips
  (List.range (2 * tips)).map fun i =>
    polar center (if i % 2 = 0 then outer else inner) (-90 + step * ofNat i)

/-- A star whose ellipse is widened by `hf` and `vf` until the tips touch the frame. -/
def star (tips : Nat) (defaultAdj defaultHf defaultVf : α) (f : Frame α) : Sketch α :=
  let a := f.pinned "adj" defaultAdj 0 50000
  let hf := f.adjustment "hf" defaultHf / 100000
  let vf := f.adjustment "vf" defaultVf / 100000
  let outer : Point α := ⟨f.w / 2 * hf, f.h / 2 * vf⟩
  let inner := outer * a / (50000 : α)
  polygon (starCorners tips ⟨f.hc, f.vc * vf⟩ outer inner)

def star5 : Frame α → Sketch α := star 5 19098 105146 110557
def star6 : Frame α → Sketch α := star 6 28868 115470 100000
def star7 : Frame α → Sketch α := star 7 34601 102572 105210
def star8 : Frame α → Sketch α := star 8 38268 100000 100000
def star10 : Frame α → Sketch α := star 10 42533 105146 100000
def star12 : Frame α → Sketch α := star 12 37500 100000 100000
def star16 : Frame α → Sketch α := star 16 37500 100000 100000
def star24 : Frame α → Sketch α := star 24 37500 100000 100000
def star32 : Frame α → Sketch α := star 32 37500 100000 100000

def seal1 : GridSymbol α where
  width := 21600
  height := 21600
  sketch := polygon
    [⟨10800, 5800⟩, ⟨14522, 0⟩, ⟨14155, 5325⟩, ⟨18380, 4457⟩, ⟨16702, 7315⟩, ⟨21097, 8137⟩,
      ⟨17607, 10475⟩, ⟨21600, 13290⟩, ⟨16837, 12942⟩, ⟨18145, 18095⟩, ⟨14020, 14457⟩,
      ⟨13247, 19737⟩, ⟨10532, 14935⟩, ⟨8485, 21600⟩, ⟨7715, 15627⟩, ⟨4762, 17617⟩, ⟨5667, 13937⟩,
      ⟨135, 14587⟩, ⟨3722, 11775⟩, ⟨0, 8615⟩, ⟨4627, 6320⟩, ⟨370, 2295⟩, ⟨7312, 6320⟩, ⟨8352, 2295⟩]

def seal2 : GridSymbol α where
  width := 21600
  height := 21600
  sketch := polygon
    [⟨11462, 4342⟩, ⟨14790, 0⟩, ⟨14525, 5777⟩, ⟨18007, 3172⟩, ⟨16380, 6532⟩, ⟨21600, 6645⟩,
      ⟨16985, 9402⟩, ⟨18270, 11290⟩, ⟨16380, 12310⟩, ⟨18877, 15632⟩, ⟨14640, 14350⟩,
      ⟨14942, 17370⟩, ⟨12180, 15935⟩, ⟨11612, 18842⟩, ⟨9872, 17370⟩, ⟨8700, 19712⟩, ⟨7527, 18125⟩,
      ⟨4917, 21600⟩, ⟨4805, 18240⟩, ⟨1285, 17825⟩, ⟨3330, 15370⟩, ⟨0, 12877⟩, ⟨3935, 11592⟩,
      ⟨1172, 8270⟩, ⟨5372, 7817⟩, ⟨4502, 3625⟩, ⟨8550, 6382⟩, ⟨9722, 1887⟩]

def irregularSeal1 (f : Frame α) : Sketch α := seal1.draw f

def irregularSeal2 (f : Frame α) : Sketch α := seal2.draw f

end ShapeOutline.Shape
