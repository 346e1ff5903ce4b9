import Scad.Declaration
import Scad.FilePath
import Scad.Position

/-!
# Scad.Place

Points of source files: the offset together with the line and column an editor shows.
-/

namespace Scad

/-- A point of a file. Line and column count from 0, columns in UTF-16 units. -/
structure Place where
  file : FilePath
  offset : Nat
  position : Position
  deriving DecidableEq, Repr

/-- The place of an offset in a file with the given text, an offset past the end meaning the end. -/
def Place.at (file : FilePath) (text : List Char) (offset : Nat) : Place :=
  let offset := min offset text.length
  ⟨file, offset, Position.ofOffset text offset⟩

/-- Whether an offset lies in an extent, the point just past its end included. -/
def Span.contains (s : Span Place) (offset : Nat) : Bool :=
  decide (s.start.offset ≤ offset) && decide (offset ≤ s.stop.offset)

/-- The file of a declaration. -/
def Declaration.file (d : Declaration Place) : FilePath := d.nameSpan.start.file

end Scad
