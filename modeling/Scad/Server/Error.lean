import Scad.Uri.File

/-!
# Scad.Server.Error

Why the server cannot answer a request.
-/

namespace Scad

/-- The reason for which a request fails. -/
inductive ServerError where
  /-- The document is not open. -/
  | missingDocument (uri : Uri)
  /-- The text of the document cannot be read. -/
  | missingAnalysis (path : FilePath)
  /-- The uri names no file. -/
  | invalidUri (uri : Uri)
  /-- The file has no uri. -/
  | invalidPath (path : FilePath)
  deriving DecidableEq, Repr

namespace ServerError

/-- The text of the answer. -/
def message : ServerError → String
  | .missingDocument uri => "Document is not open: " ++ uri.text
  | .missingAnalysis path => "No analysis available for " ++ path.display
  | .invalidUri uri => "Not a file URI: " ++ uri.text
  | .invalidPath path => "Cannot express " ++ path.display ++ " as a file URI"

/-- Whether the fault is the request's, and not the server's. -/
def isInvalidParams : ServerError → Bool
  | .missingDocument _ | .invalidUri _ => true
  | .missingAnalysis _ | .invalidPath _ => false

/-- The number of the answer. -/
def code (e : ServerError) : Int := if e.isInvalidParams then -32602 else -32603

end ServerError
end Scad
