import Scad.Doc.Markdown
import Scad.Document
import Scad.Protocol.Range
import Scad.Uri.File

/-!
# Scad.Protocol.Answer

The answers to the editor's other questions: where a name is declared, what is known of it, and how
the document is laid out.
-/

namespace Scad

/-- A position in a file: the empty range at the name of a declaration. -/
structure Location where
  uri : Uri
  range : Range
  deriving DecidableEq, Repr

/-- Where a declaration's name begins. A file whose path is relative has no uri. -/
def Location.ofDeclaration? (d : Declaration Place) : Option Location :=
  (Uri.ofFilePath? d.file).map fun uri => ⟨uri, .point d.nameSpan.start.position⟩

/-- A location in a message. -/
def Location.toJson (l : Location) : Json :=
  .obj [("uri", .str l.uri.text), ("range", l.range.toJson)]

/-- Documentation shown at a cursor. -/
structure Hover where
  markdown : String
  range : Range
  deriving DecidableEq, Repr

/-- The documentation of a declaration with the given signature. -/
def Hover.ofDeclaration (d : Declaration Place) (signature : String) (cursor : Position) : Hover :=
  ⟨Doc.markdown signature d.doc, .point cursor⟩

/-- Documentation in a message. -/
def Hover.toJson (h : Hover) : Json :=
  .obj [("contents", .obj [("kind", .str "markdown"), ("value", .str h.markdown)]),
    ("range", h.range.toJson)]

/-- A change to a document. -/
structure TextEdit where
  range : Range
  newText : List Char
  deriving DecidableEq, Repr

/-- The change that replaces a whole document. -/
def TextEdit.whole (d : Document) (newText : List Char) : TextEdit :=
  ⟨⟨⟨0, 0⟩, d.endPosition⟩, newText⟩

/-- A change in a message. -/
def TextEdit.toJson (e : TextEdit) : Json :=
  .obj [("range", e.range.toJson), ("newText", .str (String.ofList e.newText))]

end Scad
