import ShapeOutline.Frame
import ShapeOutline.Sketch

/-!
Waves: a chain of equal cubics along the top, and along the bottom the same chain turned about the
centre of the frame.
-/

namespace ShapeOutline.Shape

open Scalar

variable {α : Type} [Scalar α]

/-- The ends of the two chains, and the height of their control points. -/
structure WaveGuides (α : Type) where
  top : α
  bottom : α
  swing : α
  leftTop : α
  rightTop : α
  leftBottom : α
  rightBottom : α

def WaveGuides.ofFrame (f : Frame α) (defaultHeight mostHeight : α) : WaveGuides α :=
  let y1 := f.heightPart (f.pinned "adj1" defaultHeight 0 mostHeight)
  let offset := f.w * f.pinned "adj2" 0 (-10000) 10000 / 50000
  { top := y1
    bottom := f.h - y1
    swing := y1 * 10 / 3
    leftTop := max (-offset) 0
    rightTop := f.w - max offset 0
    leftBottom := max offset 0
    rightBottom := f.w + min offset 0 }

/-- Period `i` of the top chain, from left to right. -/
def WaveGuides.topPeriod (g : WaveGuides α) (periods i : Nat) : Stroke α :=
  let span := (g.rightTop - g.leftTop) / ofNat periods
  let x0 := g.leftTop + span * ofNat i
  .cubic ⟨x0 + span / 3, g.top - g.swing⟩ ⟨x0 + span * 2 / 3, g.top + g.swing⟩ ⟨x0 + span, g.top⟩

/-- Period `i` of the bottom chain, from right to left. -/
def WaveGuides.bottomPeriod (g : WaveGuides α) (periods i : Nat) : Stroke α :=
  let span := (g.rightBottom - g.leftBottom) / ofNat periods
  let x0 := g.leftBottom + span * ofNat i
  .cubic ⟨x0 + span * 2 / 3, g.bottom + g.swing⟩ ⟨x0 + span / 3, g.bottom - g.swing⟩ ⟨x0, g.bottom⟩

def waves (periods : Nat) (defaultHeight mostHeight : α) (f : Frame α) : Sketch α :=
  let g := WaveGuides.ofFrame f defaultHeight mostHeight
  .move ⟨g.leftTop, g.top⟩ :: (List.range periods).map (g.topPeriod periods) ++
    .line ⟨g.rightBottom, g.bottom⟩ :: (List.range periods).reverse.map (g.bottomPeriod periods) ++
    [.close]

def wave : Frame α → Sketch α := waves 1 12500 20000

def doubleWave : Frame α → Sketch α := waves 2 6250 12500

end ShapeOutline.Shape
