import ShapeOutline.Drawing
import ShapeOutline.PathWriter

/-!
The gallery: a page of cards in HTML, one for each preset, each drawn into a cell of one size.
-/

namespace ShapeOutline.Gallery

def cellWidth : Nat := 160

def cellHeight : Nat := 100

/-- The room around a cell, on every side. -/
def margin : Nat := 10

def fillColor : Color := ⟨0x44, 0x72, 0xc4⟩

def strokeColor : String := "#2f528f"

def hexDigit (n : Nat) : Char := "0123456789abcdef".toList.getD n '0'

/-- Two hexadecimal digits. -/
def hexByte (n : Nat) : String := String.ofList [hexDigit (n / 16 % 16), hexDigit (n % 16)]

def colorText (c : Color) : String := "#" ++ hexByte c.red ++ hexByte c.green ++ hexByte c.blue

def pathTag (d : String) (fill : Option Color) (stroked : Bool) : String :=
  "<path d=\"" ++ d ++ "\" fill=\"" ++ (fill.map colorText).getD FillMode.none.name ++
    "\" stroke=\"" ++ (if stroked then strokeColor else "none") ++
    "\" stroke-width=\"1.5\" fill-rule=\"evenodd\"/>"

variable {α : Type} [Scalar α]

def layerTag (l : Layer α) : String :=
  pathTag l.sketch.text (l.mode.apply fillColor) l.stroked

def drawingClass : Drawing α → String
  | .single _ => "card"
  | .layered _ => "card multi"

def drawingBody : Drawing α → String
  | .single s => pathTag s.text (some fillColor) true
  | .layered ls => String.join (ls.map layerTag)

/-- The drawing of a name in the cell of its card, without adjustments. -/
def cell (name : String) : Drawing α :=
  Drawing.ofName name (Frame.ofSides (Scalar.ofNat cellWidth) (Scalar.ofNat cellHeight) .empty)

def viewBox : String :=
  s!"-{margin} -{margin} {cellWidth + 2 * margin} {cellHeight + 2 * margin}"

def card (name : String) (d : Drawing α) : String :=
  "<div class=\"" ++ drawingClass d ++ "\" id=\"" ++ name ++ "\">\n" ++
    "    <div class=\"name\">" ++ name ++ "</div>\n" ++
    "    <svg viewBox=\"" ++ viewBox ++ "\" xmlns=\"http://www.w3.org/2000/svg\">" ++
    drawingBody d ++ "</svg>\n</div>\n"

/-- A rule of the style sheet. -/
def styleRule (selector declarations : String) : String :=
  "        " ++ selector ++ " \x7b " ++ declarations ++ " \x7d\n"

def styleSheet : String :=
  String.join
    [styleRule "body"
        "font-family: system-ui, sans-serif; margin: 0; background: #eee; color: #333;",
      styleRule ".page" "max-width: 1200px; margin: 0 auto; padding: 24px;",
      styleRule "h1" "font-weight: 600; font-size: 20px; margin: 0 0 24px 0;",
      styleRule ".grid"
        ("display: grid; grid-template-columns: repeat(auto-fill, minmax(200px, 1fr)); " ++
          "gap: 12px;"),
      styleRule ".card"
        ("background: white; border-radius: 8px; box-shadow: 0 1px 3px rgba(0,0,0,0.08); " ++
          "padding: 12px;"),
      styleRule ".card.multi .name::after" "content: \" (layered)\"; color: #999;",
      styleRule ".name" "font-size: 12px; font-weight: 600; margin-bottom: 8px;",
      styleRule "svg" "width: 100%; height: auto; overflow: visible;"]

/-- The page up to the list of cards. -/
def pageHead (count : Nat) : String :=
  "<!DOCTYPE html>\n<html>\n<head>\n    <meta charset=\"UTF-8\">\n" ++
    "    <title>Preset geometry gallery</title>\n    <style>\n" ++ styleSheet ++
    "    </style>\n</head>\n<body>\n<div class=\"page\">\n" ++
    "<h1>" ++ toString count ++ " presets</h1>\n<div class=\"grid\">\n"

def page (drawings : List (String × Drawing α)) : String :=
  pageHead drawings.length ++ String.join (drawings.map fun d => card d.1 d.2) ++
    "</div>\n</div>\n</body></html>\n"

end ShapeOutline.Gallery
