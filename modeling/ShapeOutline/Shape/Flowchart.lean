import ShapeOutline.Grid
import ShapeOutline.Shape.Sector

/-!
Flowchart symbols. Most are authored on a small grid that fills the frame; the others depend on its
sides or centre.
-/

namespace ShapeOutline.Shape.Flowchart

open Scalar
open Sketch (polygon)

variable {α : Type} [Scalar α]

/-- A stroke between two points. -/
def segment (a b : Point α) : Sketch α := [.move a, .line b]

def decisionSymbol : GridSymbol α := ⟨2, 2, polygon [⟨0, 1⟩, ⟨1, 0⟩, ⟨2, 1⟩, ⟨1, 2⟩]⟩

def inputOutputSymbol : GridSymbol α := ⟨5, 5, polygon [⟨0, 5⟩, ⟨1, 0⟩, ⟨5, 0⟩, ⟨4, 5⟩]⟩

def documentSymbol : GridSymbol α where
  width := 21600
  height := 21600
  sketch :=
    [.move ⟨0, 0⟩, .line ⟨21600, 0⟩, .line ⟨21600, 17322⟩,
      .cubic ⟨10800, 17322⟩ ⟨10800, 23922⟩ ⟨0, 20172⟩, .close]

def multidocumentSymbol : GridSymbol α where
  width := 21600
  height := 21600
  sketch :=
    [.move ⟨0, 20782⟩, .cubic ⟨9298, 23542⟩ ⟨9298, 18022⟩ ⟨18595, 18022⟩, .line ⟨18595, 3675⟩,
      .line ⟨0, 3675⟩, .close,
      .move ⟨1532, 3675⟩, .line ⟨1532, 1815⟩, .line ⟨20000, 1815⟩, .line ⟨20000, 16252⟩,
      .cubic ⟨19298, 16252⟩ ⟨18595, 16352⟩ ⟨18595, 16352⟩, .line ⟨18595, 3675⟩, .close,
      .move ⟨2972, 1815⟩, .line ⟨2972, 0⟩, .line ⟨21600, 0⟩, .line ⟨21600, 14392⟩,
      .cubic ⟨20800, 14392⟩ ⟨20000, 14467⟩ ⟨20000, 14467⟩, .line ⟨20000, 1815⟩, .close]

def terminatorSymbol : GridSymbol α where
  width := 21600
  height := 21600
  sketch :=
    [.move ⟨3475, 0⟩, .line ⟨18125, 0⟩, .arc ⟨3475, 10800⟩ 270 180, .line ⟨3475, 21600⟩,
      .arc ⟨3475, 10800⟩ 90 180, .close]

def preparationSymbol : GridSymbol α :=
  ⟨10, 10, polygon [⟨0, 5⟩, ⟨2, 0⟩, ⟨8, 0⟩, ⟨10, 5⟩, ⟨8, 10⟩, ⟨2, 10⟩]⟩

def manualInputSymbol : GridSymbol α := ⟨5, 5, polygon [⟨0, 1⟩, ⟨5, 0⟩, ⟨5, 5⟩, ⟨0, 5⟩]⟩

def manualOperationSymbol : GridSymbol α := ⟨5, 5, polygon [⟨0, 0⟩, ⟨5, 0⟩, ⟨4, 5⟩, ⟨1, 5⟩]⟩

def offpageConnectorSymbol : GridSymbol α :=
  ⟨10, 10, polygon [⟨0, 0⟩, ⟨10, 0⟩, ⟨10, 8⟩, ⟨5, 10⟩, ⟨0, 8⟩]⟩

def punchedCardSymbol : GridSymbol α :=
  ⟨5, 5, polygon [⟨0, 1⟩, ⟨1, 0⟩, ⟨5, 0⟩, ⟨5, 5⟩, ⟨0, 5⟩]⟩

def punchedTapeSymbol : GridSymbol α where
  width := 20
  height := 20
  sketch :=
    [.move ⟨0, 2⟩, .arc ⟨5, 2⟩ 180 (-180), .arc ⟨5, 2⟩ 180 180, .line ⟨20, 18⟩,
      .arc ⟨5, 2⟩ 0 (-180), .arc ⟨5, 2⟩ 0 180, .close]

def collateSymbol : GridSymbol α :=
  ⟨2, 2, polygon [⟨0, 0⟩, ⟨2, 0⟩, ⟨1, 1⟩, ⟨2, 2⟩, ⟨0, 2⟩, ⟨1, 1⟩]⟩

def sortSymbol : GridSymbol α :=
  ⟨2, 2, polygon [⟨0, 1⟩, ⟨1, 0⟩, ⟨2, 1⟩, ⟨1, 2⟩] ++ segment ⟨0, 1⟩ ⟨2, 1⟩⟩

def extractSymbol : GridSymbol α := ⟨2, 2, polygon [⟨0, 2⟩, ⟨1, 0⟩, ⟨2, 2⟩]⟩

def mergeSymbol : GridSymbol α := ⟨2, 2, polygon [⟨0, 0⟩, ⟨2, 0⟩, ⟨1, 2⟩]⟩

def offlineStorageSymbol : GridSymbol α :=
  ⟨3, 3, polygon [⟨0, 0⟩, ⟨3, 0⟩, ⟨1.5, 3⟩] ++ segment ⟨1, 2⟩ ⟨2, 2⟩⟩

def onlineStorageSymbol : GridSymbol α where
  width := 6
  height := 6
  sketch :=
    [.move ⟨1, 0⟩, .line ⟨6, 0⟩, .arc ⟨1, 3⟩ 270 (-180), .line ⟨1, 6⟩, .arc ⟨1, 3⟩ 90 180, .close]

def magneticDiskSymbol : GridSymbol α where
  width := 6
  height := 6
  sketch :=
    [.move ⟨0, 1⟩, .arc ⟨3, 1⟩ 180 180, .line ⟨6, 5⟩, .arc ⟨3, 1⟩ 0 180, .close,
      .move ⟨6, 1⟩, .arc ⟨3, 1⟩ 0 180]

def magneticDrumSymbol : GridSymbol α where
  width := 6
  height := 6
  sketch :=
    [.move ⟨1, 0⟩, .line ⟨5, 0⟩, .arc ⟨1, 3⟩ 270 180, .line ⟨1, 6⟩, .arc ⟨1, 3⟩ 90 180, .close,
      .move ⟨5, 6⟩, .arc ⟨1, 3⟩ 90 180]

def displaySymbol : GridSymbol α where
  width := 6
  height := 6
  sketch :=
    [.move ⟨0, 3⟩, .line ⟨1, 0⟩, .line ⟨5, 0⟩, .arc ⟨1, 3⟩ 270 180, .line ⟨1, 6⟩, .close]

def decision : Frame α → Sketch α := decisionSymbol.draw
def inputOutput : Frame α → Sketch α := inputOutputSymbol.draw
def document : Frame α → Sketch α := documentSymbol.draw
def multidocument : Frame α → Sketch α := multidocumentSymbol.draw
def terminator : Frame α → Sketch α := terminatorSymbol.draw
def preparation : Frame α → Sketch α := preparationSymbol.draw
def manualInput : Frame α → Sketch α := manualInputSymbol.draw
def manualOperation : Frame α → Sketch α := manualOperationSymbol.draw
def offpageConnector : Frame α → Sketch α := offpageConnectorSymbol.draw
def punchedCard : Frame α → Sketch α := punchedCardSymbol.draw
def punchedTape : Frame α → Sketch α := punchedTapeSymbol.draw
def collate : Frame α → Sketch α := collateSymbol.draw
def sort : Frame α → Sketch α := sortSymbol.draw
def extract : Frame α → Sketch α := extractSymbol.draw
def merge : Frame α → Sketch α := mergeSymbol.draw
def offlineStorage : Frame α → Sketch α := offlineStorageSymbol.draw
def onlineStorage : Frame α → Sketch α := onlineStorageSymbol.draw
def magneticDisk : Frame α → Sketch α := magneticDiskSymbol.draw
def magneticDrum : Frame α → Sketch α := magneticDrumSymbol.draw
def display : Frame α → Sketch α := displaySymbol.draw

def box (f : Frame α) : Sketch α := Sketch.rect 0 0 f.w f.h

def process (f : Frame α) : Sketch α := box f

def predefinedProcess (f : Frame α) : Sketch α :=
  let x1 := f.w / 8
  let x2 := f.w * 7 / 8
  box f ++ segment ⟨x1, 0⟩ ⟨x1, f.h⟩ ++ segment ⟨x2, 0⟩ ⟨x2, f.h⟩

def internalStorage (f : Frame α) : Sketch α :=
  let x1 := f.w / 8
  let y1 := f.h / 8
  box f ++ segment ⟨x1, 0⟩ ⟨x1, f.h⟩ ++ segment ⟨0, y1⟩ ⟨f.w, y1⟩

def connector (f : Frame α) : Sketch α := ellipse f

def summingJunction (f : Frame α) : Sketch α :=
  let c := f.center
  let d := f.half * cos (radians (45 : α))
  ellipse f ++ segment (c - d) (c + d) ++ segment ⟨c.x + d.x, c.y - d.y⟩ ⟨c.x - d.x, c.y + d.y⟩

def or (f : Frame α) : Sketch α :=
  ellipse f ++ segment ⟨f.hc, 0⟩ ⟨f.hc, f.h⟩ ++ segment ⟨0, f.vc⟩ ⟨f.w, f.vc⟩

/-- Three quarters of the ellipse and on to the corner's diagonal, where the tab begins. -/
def magneticTape (f : Frame α) : Sketch α :=
  let r := f.half
  let y := f.vc + f.h / 2 * sin (radians 45)
  [.move ⟨f.hc, f.h⟩, .arc r 90 90, .arc r 180 90, .arc r 270 90,
    .arc r 0 (⟨f.w, f.h⟩ : Point α).heading, .line ⟨f.w, y⟩, .line ⟨f.w, f.h⟩, .close]

def delay (f : Frame α) : Sketch α :=
  [.move ⟨0, 0⟩, .line ⟨f.hc, 0⟩, .arc f.half 270 180, .line ⟨0, f.h⟩, .close]

end ShapeOutline.Shape.Flowchart
