import Scad.Json.Shape

/-!
# Scad.Protocol.Shape

The shapes of the values that messages about documents are made of.
-/

namespace Scad
namespace Protocol

open Json (Shape)
open Json.Shape (needed optional omissible)

/-- A list of texts. -/
def texts : Shape := .list .string

/-- A line and a column. -/
def position : Shape := .record "Position" [needed "line" .natural, needed "character" .natural] []

/-- The positions of the two ends of a text. -/
def range : Shape := .record "Range" [needed "start" position, needed "end" position] []

/-- A range in a document. -/
def location : Shape := .record "Location" [needed "uri" .uri, needed "range" range] []

/-- A number or a text that stands for something. -/
def numberOrText : Shape := .choice "NumberOrString" [.integer, .string]

/-- A command of the client. -/
def command : Shape :=
  .record "Command"
    [needed "title" .string, needed "command" .string, optional "arguments" (.list .any)] []

/-! ## Documents -/

/-- The name of a document. -/
def document : Shape := .record "TextDocumentIdentifier" [needed "uri" .uri] []

/-- The name of a document in a version. -/
def versionedDocument : Shape :=
  .record "VersionedTextDocumentIdentifier" [needed "uri" .uri, needed "version" .integer] []

/-- The name of a document, perhaps in a version. -/
def optionallyVersionedDocument : Shape :=
  .record "OptionalVersionedTextDocumentIdentifier"
    [needed "uri" .uri, optional "version" .integer] []

/-- A document with its text. -/
def documentItem : Shape :=
  .record "TextDocumentItem"
    [needed "uri" .uri, needed "languageId" .string, needed "version" .integer,
      needed "text" .string] []

/-- A position in a document. -/
def documentPosition : Shape :=
  .record "TextDocumentPositionParams"
    [needed "textDocument" document, needed "position" position] []

/-- A change of a document, of a range of it or of its whole text. -/
def contentChange : Shape :=
  .record "TextDocumentContentChangeEvent"
    [optional "range" range, optional "rangeLength" .natural, needed "text" .string] []

/-- A folder of the workspace. -/
def workspaceFolder : Shape :=
  .record "WorkspaceFolder" [needed "uri" .uri, needed "name" .string] []

/-! ## Descriptions -/

/-- The formats of a description. -/
def markupKind : Shape := .word ["plaintext", "markdown"]

/-- A description in a format. -/
def markup : Shape :=
  .record "MarkupContent" [needed "kind" markupKind, needed "value" .string] []

/-- A description, called by a name. -/
def described (name : String) : Shape := .choice name [.string, markup]

/-- A related place of a problem. -/
def relatedInformation : Shape :=
  .record "DiagnosticRelatedInformation"
    [needed "location" location, needed "message" .string] []

/-- A problem in a document. -/
def diagnostic : Shape :=
  .record "Diagnostic"
    [needed "range" range, optional "severity" .integer, optional "code" numberOrText,
      optional "codeDescription" (.record "CodeDescription" [needed "href" .uri] []),
      optional "source" .string, needed "message" .string,
      optional "relatedInformation" (.list relatedInformation), optional "tags" (.list .integer),
      optional "data" .any] []

/-! ## Edits -/

/-- The fields of a change of a range. -/
def editFields : List Json.Shape.Field := [needed "range" range, needed "newText" .string]

/-- A change of a range. -/
def textEdit : Shape := .record "TextEdit" editFields []

/-- A change of a range with an annotation. -/
def annotatedEdit : Shape :=
  .record "AnnotatedTextEdit" [needed "annotationId" .string] [textEdit]

/-- The changes of a document. -/
def documentEdit : Shape :=
  .record "TextDocumentEdit"
    [needed "textDocument" optionallyVersionedDocument,
      needed "edits" (.list (.choice "OneOf" [textEdit, annotatedEdit]))] []

/-- What to do about a file that is there already. -/
def overwriteOptions (name : String) : Shape :=
  .record name [optional "overwrite" .bool, optional "ignoreIfExists" .bool] []

/-- The creation of a file. -/
def createFile : Shape :=
  .record "CreateFile"
    [needed "kind" (.word ["create"]), needed "uri" .uri,
      optional "options" (overwriteOptions "CreateFileOptions"),
      optional "annotationId" .string] []

/-- A new name for a file. -/
def renameFile : Shape :=
  .record "RenameFile"
    [needed "kind" (.word ["rename"]), needed "oldUri" .uri, needed "newUri" .uri,
      optional "options" (overwriteOptions "RenameFileOptions"),
      optional "annotationId" .string] []

/-- The removal of a file. -/
def deleteFile : Shape :=
  .record "DeleteFile"
    [needed "kind" (.word ["delete"]), needed "uri" .uri,
      optional "options" (.record "DeleteFileOptions"
        [optional "recursive" .bool, optional "ignoreIfNotExists" .bool,
          optional "annotationId" .string] [])] []

/-- The changes of several documents and files in order. -/
def documentChanges : Shape :=
  .choice "DocumentChanges"
    [.list documentEdit,
      .list (.choice "DocumentChangeOperation" [createFile, renameFile, deleteFile, documentEdit])]

/-- Changes of the whole workspace. -/
def workspaceEdit : Shape :=
  .record "WorkspaceEdit"
    [omissible "changes" (.dict "map" .uri (.list textEdit)),
      optional "documentChanges" documentChanges,
      optional "changeAnnotations" (.dict "a map" .string
        (.record "ChangeAnnotation"
          [needed "label" .string, optional "needsConfirmation" .bool,
            optional "description" .string] []))] []

end Protocol
end Scad
