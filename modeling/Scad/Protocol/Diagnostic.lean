import Scad.Analysis
import Scad.Document
import Scad.Protocol.Range

/-!
# Scad.Protocol.Diagnostic

Problems as the editor marks them: an error at one position.
-/

namespace Scad

/-- A mark in the editor. -/
structure Diagnostic where
  range : Range
  message : String
  deriving DecidableEq, Repr

namespace Diagnostic

/-- The mark of a problem in an open document, at the position of its offset there. -/
def ofProblem (d : Document) (p : Problem) : Diagnostic :=
  ⟨.point (d.positionAt p.place.offset), p.message⟩

/-- A mark in a message. -/
def toJson (d : Diagnostic) : Json :=
  .obj [("range", d.range.toJson), ("severity", .nat 1), ("source", .str "scad"),
    ("message", .str d.message)]

end Diagnostic
end Scad
