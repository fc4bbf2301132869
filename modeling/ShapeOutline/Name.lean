/-!
Names of shapes, which are the same name whatever the case of their ASCII letters.
-/

namespace ShapeOutline

def sameName (a b : String) : Bool := a.map Char.toLower == b.map Char.toLower

end ShapeOutline
