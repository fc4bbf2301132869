import ShapeOutline.LayeredPreset
import ShapeOutline.Preset.Sketch

/-!
Drawings by name. A name of no preset draws the whole rectangle of its frame.
-/

namespace ShapeOutline

inductive Drawing (α : Type) where
  | single (s : Sketch α)
  | layered (ls : List (Layer α))

/-- The names of all presets, those drawn as one outline first. -/
def Drawing.names : List String :=
  Preset.all.map Preset.name ++ LayeredPreset.all.map LayeredPreset.name

def isLayered (name : String) : Bool := (LayeredPreset.ofName? name).isSome

variable {α : Type} [Scalar α]

/-- The outline of a preset, which for a layered one is its silhouette. -/
def outlineOf (name : String) (f : Frame α) : Sketch α :=
  match Preset.ofName? name with
  | some p => p.sketch f
  | none =>
    match LayeredPreset.ofName? name with
    | some p => Layer.flatten (p.layers f)
    | none => Sketch.rect 0 0 f.w f.h

namespace Drawing

/-- The layers of a layered preset, and the outline of any other name. -/
def ofName (name : String) (f : Frame α) : Drawing α :=
  match LayeredPreset.ofName? name with
  | some p => .layered (p.layers f)
  | none => .single (outlineOf name f)

/-- One sketch for the whole drawing. -/
def outline : Drawing α → Sketch α
  | single s => s
  | layered ls => Layer.flatten ls

end Drawing

end ShapeOutline
