import ShapeOutline.Layered.Ribbon

/-!
Scrolls: a sheet rolled up at the top right and at the bottom left. The horizontal scroll is the
vertical one of the frame on its side.
-/

namespace ShapeOutline.Layered

variable {α : Type} [Scalar α]

/-- The scroll of width `w` and height `h`. -/
def scrollBanner (f : Frame α) (w h : α) : Banner α :=
  let ch := f.shortPart (f.pinned "adj" 12500 0 25000)
  let ch2 := ch / 2
  let ch4 := ch / 4
  let x3 := ch + ch2
  let x4 := ch + ch
  let x6 := w - ch
  let x7 := w - ch2
  let y3 := h - ch
  let y4 := h - ch2
  let roll : Point α := ⟨ch2, ch2⟩
  let lip : Point α := ⟨ch4, ch4⟩
  { body :=
      [.move ⟨ch2, h⟩, .arc roll 90 (-90), .line ⟨ch, ch2⟩, .arc roll 180 90, .line ⟨x7, 0⟩,
        .arc roll 270 180, .line ⟨x6, ch⟩, .line ⟨x6, y4⟩, .arc roll 0 90, .close,
        .move ⟨x4, ch2⟩, .arc roll 0 90, .arc lip 90 180, .close]
    folds :=
      [.move ⟨x4, ch2⟩, .arc roll 0 90, .arc lip 90 180, .close,
        .move ⟨ch, y4⟩, .arc roll 0 270, .arc lip 270 180, .close]
    outline :=
      [.move ⟨ch, y3⟩, .line ⟨ch, ch2⟩, .arc roll 180 90, .line ⟨x7, 0⟩, .arc roll 270 180,
        .line ⟨x6, ch⟩, .line ⟨x6, y4⟩, .arc roll 0 90, .line ⟨ch2, h⟩, .arc roll 90 180, .close,
        .move ⟨x3, 0⟩, .arc roll 270 180, .arc lip 90 180, .line ⟨x4, ch2⟩,
        .move ⟨x6, ch⟩, .line ⟨x3, ch⟩,
        .move ⟨ch2, y3⟩, .arc lip 270 180, .line ⟨ch, y4⟩,
        .move ⟨ch2, h⟩, .arc roll 90 (-90), .line ⟨ch, y3⟩] }

def verticalScroll (f : Frame α) : List (Layer α) := (scrollBanner f f.w f.h).layers .identity

def horizontalScroll (f : Frame α) : List (Layer α) := (scrollBanner f f.h f.w).layers .transpose

end ShapeOutline.Layered
