import Scad.Protocol.Answer
import Scad.Protocol.Completion
import Scad.Protocol.Symbol
import Scad.Server

/-!
# Scad.Server.Query

The requests about an open document. Every one fails if the document is not open. A text that cannot
be read has no suggestions, no outline and no layout, and asking it for a definition fails; a text
with problems has no outline and no layout.
-/

namespace Scad
namespace Server

/-- An open document with its path. -/
def document (s : Server) (uri : Uri) : Except ServerError (Document × FilePath) :=
  match s.documents.get? uri with
  | none => .error (.missingDocument uri)
  | some document =>
    match uri.toFilePath? with
    | none => .error (.invalidUri uri)
    | some path => .ok (document, path)

/-- The analysis of a file whose text can be read. -/
def readable? (s : Server) (path : FilePath) : Option Analysis :=
  (s.workspace.analysis? path).filter Analysis.isReadable

/-- The item of a suggestion, with the documentation of its declaration. -/
def completionItem (w : Workspace) (index : Nat) (c : Candidate) : CompletionItem :=
  let documentation := c.declaration.map fun d => Doc.markdown (w.signature d) d.doc
  .ofCandidate index c.label c.kind documentation

/-- The suggestions at a position. -/
def completion (s : Server) (disk : Disk) (uri : Uri) (p : Position) :
    Server × Except ServerError (List CompletionItem) :=
  match s.document uri with
  | .error e => (s, .error e)
  | .ok (document, path) =>
    match s.readable? path with
    | none => (s, .ok [])
    | some _ =>
      let (w, found) := s.workspace.candidates disk path (document.offsetAt p)
      ({ s with workspace := w },
        .ok (found.zipIdx.map fun (c, index) => completionItem w index c))

/-- The outline of a document without problems. -/
def symbols (s : Server) (uri : Uri) : Except ServerError (List Symbol) := do
  let (_, path) ← s.document uri
  match s.readable? path with
  | some a => return if a.problems.isEmpty then Symbol.ofDeclarations a.declarations else []
  | none => return []

/-- The declaration that the name at a position means. -/
def declaration (s : Server) (disk : Disk) (uri : Uri) (p : Position) :
    Server × Except ServerError (Option (Declaration Place)) :=
  match s.document uri with
  | .error e => (s, .error e)
  | .ok (document, path) =>
    match s.readable? path with
    | none => (s, .error (.missingAnalysis path))
    | some _ =>
      let (w, found) := s.workspace.definition? disk path (document.offsetAt p)
      ({ s with workspace := w }, .ok found)

/-- Where the name at a position is declared. -/
def definition (s : Server) (disk : Disk) (uri : Uri) (p : Position) :
    Server × Except ServerError (Option Location) :=
  let (s, found) := s.declaration disk uri p
  let answer :=
    match found with
    | .error e => .error e
    | .ok none => .ok none
    | .ok (some d) =>
      match Location.ofDeclaration? d with
      | some location => .ok (some location)
      | none => .error (.invalidPath d.file)
  (s, answer)

/-- What is known of the name at a position. -/
def hover (s : Server) (disk : Disk) (uri : Uri) (p : Position) :
    Server × Except ServerError (Option Hover) :=
  let (s, found) := s.declaration disk uri p
  (s, found.map fun d => d.map fun d => Hover.ofDeclaration d (s.workspace.signature d) p)

/-- The change that brings a document without problems into standard layout. -/
def format (s : Server) (uri : Uri) : Except ServerError (List TextEdit) := do
  let (document, path) ← s.document uri
  match s.readable? path with
  | some a =>
    if a.problems.isEmpty then
      return ((s.workspace.reprint? path).map (TextEdit.whole document)).toList
    else return []
  | none => return []

end Server
end Scad
