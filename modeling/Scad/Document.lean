import Scad.Place

/-!
# Scad.Document

A document open in the editor: the text the editor shows and the editor's number for it.
-/

namespace Scad

/-- An open document. -/
structure Document where
  text : List Char
  version : Int
  deriving DecidableEq, Repr

namespace Document

/-- The offset of the character at a position. -/
def offsetAt (d : Document) (p : Position) : Nat := Position.offset d.text p

/-- The position of an offset, an offset past the end meaning the end. -/
def positionAt (d : Document) (offset : Nat) : Position := Position.ofOffset d.text offset

/-- The position just past the last character. -/
def endPosition (d : Document) : Position := Position.endOf d.text

/-- The place in `file` of the character at a position. -/
def placeAt (d : Document) (file : FilePath) (p : Position) : Place :=
  ⟨file, d.offsetAt p, d.positionAt (d.offsetAt p)⟩

/-- The number of lines, one more than the newlines. -/
def lineCount (d : Document) : Nat := d.text.count '\n' + 1

end Document
end Scad
