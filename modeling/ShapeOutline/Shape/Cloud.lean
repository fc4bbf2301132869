import ShapeOutline.Grid
import ShapeOutline.Shape.Tail

/-!
The cloud, eleven puffs authored on a grid, and the cloud callout with its bubbles.
-/

namespace ShapeOutline.Shape

variable {α : Type} [Scalar α]

/-- A puff with its angles in 60000ths of a degree. -/
def puff (rx ry start sweep : α) : Stroke α := .arc ⟨rx, ry⟩ (start / 60000) (sweep / 60000)

def cloudSymbol : GridSymbol α where
  width := 43200
  height := 43200
  sketch :=
    [.move ⟨3900, 14370⟩,
      puff 6753 9190 (-11429249) 7426832,
      puff 5333 7267 (-8646143) 5396714,
      puff 4365 5945 (-8748475) 5983381,
      puff 4857 6595 (-7859164) 7034504,
      puff 5333 7273 (-4722533) 6541615,
      puff 6775 9220 (-2776035) 7816140,
      puff 5785 7867 37501 6842000,
      puff 6752 9215 1347096 6910353,
      puff 7720 10543 3974558 4542661,
      puff 4360 5918 (-16496525) 8804134,
      puff 4345 5945 (-14809710) 9151131,
      .close]

def cloud (f : Frame α) : Sketch α := cloudSymbol.draw f

/-- A circle about a point. -/
def bubble (center : Point α) (radius : α) : Sketch α :=
  Sketch.ellipse (center.x - radius) (center.y - radius) (2 * radius) (2 * radius)

/-- The cloud and three bubbles, which grow from the tip towards the edge. -/
def cloudCallout (f : Frame α) : Sketch α :=
  let tip := (Tail.ofFrame f).tip
  let edge := polar f.center f.half (tipAngle f tip)
  let ss := f.ss
  cloud f ++ bubble tip (ss * 600 / 21600) ++
    bubble (edge + (tip - edge) * (2 / 3 : α)) (ss * 1200 / 21600) ++
    bubble (edge + (tip - edge) * (1 / 3 : α)) (ss * 1800 / 21600)

end ShapeOutline.Shape
