import Scad.Json
import Scad.Place

/-!
# Scad.Protocol.Range

Positions and ranges in messages.
-/

namespace Scad

/-- A position in a message. -/
def Position.toJson (p : Position) : Json :=
  .obj [("line", .nat p.line), ("character", .nat p.character)]

/-- A range between two positions. -/
abbrev Range := Span Position

/-- A range in a message. -/
def Range.toJson (r : Range) : Json := .obj [("start", r.start.toJson), ("end", r.stop.toJson)]

/-- The empty range at a position. -/
def Range.point (p : Position) : Range := ⟨p, p⟩

/-- The range of an extent. -/
def Span.range (s : Span Place) : Range := s.map Place.position

end Scad
