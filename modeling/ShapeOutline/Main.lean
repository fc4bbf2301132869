import ShapeOutline.Gallery
import ShapeOutline.Scalar.Binary

/-!
The command line: `gallery` prints the page of all presets.
-/

namespace ShapeOutline

def usage : String :=
  "Usage: shape-outline <command>\nCommands:\n  gallery   Render every preset into an HTML page"

def unknownCommand (command : String) : String := "Unknown command: " ++ command

/-- The page of all presets, drawn in double precision. -/
def galleryPage : String :=
  Gallery.page (Drawing.names.map fun name => (name, (Gallery.cell name : Drawing Float)))

end ShapeOutline

open ShapeOutline

def main (args : List String) : IO UInt32 :=
  match args with
  | [] => do
    IO.eprintln usage
    pure 1
  | "gallery" :: _ => do
    IO.print galleryPage
    pure 0
  | command :: _ => do
    IO.eprintln (unknownCommand command)
    pure 1
