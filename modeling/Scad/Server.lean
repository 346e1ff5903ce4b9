import Scad.Protocol.Diagnostic
import Scad.Server.Error
import Scad.Server.Settings
import Scad.Workspace

/-!
# Scad.Server

The server between two messages: the open documents, the workspace, the settings and what the client
announced. Opening, changing and closing a document keeps store and workspace in step and tells the
client the problems of the new text.

* `Server.opened`, `Server.changed`, `Server.closed`: the life of a document. Uris that name no file
  are passed over.
* `Server.publish`: the client is told the problems of a document, after the settings of the
  document have been asked for if they are not known.
* `Server.configured`: the settings have changed, so all documents are published again.
-/

namespace Scad

/-- A message from the server to its client. -/
inductive Message where
  /-- The problems of a document, in the version they belong to. -/
  | publish (uri : Uri) (diagnostics : List Diagnostic) (version : Option Int)
  /-- The server wants to be told when the settings change. -/
  | register
  /-- The server wants to know the settings of a document. -/
  | configuration (scope : Uri)
  deriving DecidableEq, Repr

/-- The name under which the server asks to be told of changed settings. -/
def Message.registrationId : String := "scad-did-change-configuration"

/-- The message the server asks for. -/
def Message.registeredMethod : String := "workspace/didChangeConfiguration"

/-- What the client answers to a request for settings; nothing if it refuses. -/
abbrev ClientAnswer := Option (List Json)

/-- The state of the server. -/
structure Server where
  documents : Table Uri Document
  workspace : Workspace
  /-- The settings of the open documents that are known. -/
  settings : Table Uri Settings
  /-- The settings for all documents, where the client does not tell them apart. -/
  globalSettings : Settings
  flags : ClientFlags

namespace Server

/-- The server before the first message. -/
def initial : Server := ⟨Table.empty, Workspace.empty, Table.empty, .standard, .none⟩

/-- The name of the program. -/
def name : String := "scad-language-server"

/-- The version of the program. -/
def version : String := "0.1.0"

/-- The name of the analysis. -/
def engineName : String := "outline"

/-- A short description of the server for its own log. -/
def debugText : String :=
  "ScadBackend \x7b engine: \"" ++ engineName ++ "\", documents: \"<HashMap>\" \x7d"

/-- Whether a document is open. -/
def isOpen (s : Server) (uri : Uri) : Bool := s.documents.contains uri

/-- The settings that a client's answer gives. -/
def answered (answer : ClientAnswer) : Settings :=
  match answer with
  | some (value :: _) => .ofJson value
  | _ => .standard

/-- The server that knows the settings of a document, and the request it sent to learn them. -/
def learnSettings (s : Server) (answer : ClientAnswer) (uri : Uri) : Server × List Message :=
  if s.flags.configuration = true ∧ s.settings.contains uri = false then
    let settings := if s.isOpen uri then s.settings.insert uri (answered answer) else s.settings
    ({ s with settings }, [.configuration uri])
  else (s, [])

/-- The problems of the file that a uri names. -/
def problems (s : Server) (uri : Uri) : List Problem :=
  match uri.toFilePath?.bind s.workspace.analysis? with
  | some a => a.problems
  | none => []

/-- The client is told the problems of an open document. -/
def publish (s : Server) (answer : ClientAnswer) (uri : Uri) : Server × List Message :=
  let (t, asked) := s.learnSettings answer uri
  match t.documents.get? uri with
  | none => (t, asked)
  | some document =>
    let diagnostics := (s.problems uri).map (Diagnostic.ofProblem document)
    (t, asked ++ [.publish uri diagnostics (some document.version)])

/-- A document has a new text: the store and the workspace take it, and its problems are published.
-/
def put (s : Server) (answer : ClientAnswer) (uri : Uri) (path : FilePath) (document : Document) :
    Server × List Message :=
  let s := { s with
    documents := s.documents.insert uri document
    workspace := s.workspace.register path document.text }
  s.publish answer uri

/-- The client opens a document. One that is open already stays as it is. -/
def opened (s : Server) (answer : ClientAnswer) (uri : Uri) (text : List Char) :
    Server × List Message :=
  match uri.toFilePath? with
  | none => (s, [])
  | some path => if s.isOpen uri then (s, []) else s.put answer uri path ⟨text, 0⟩

/-- The client changes a document. One that is not open is opened, in the client's version. -/
def changed (s : Server) (answer : ClientAnswer) (uri : Uri) (text : List Char) (version : Int) :
    Server × List Message :=
  match uri.toFilePath? with
  | none => (s, [])
  | some path => s.put answer uri path ⟨text, version⟩

/-- The client closes a document, whose problems disappear. -/
def closed (s : Server) (uri : Uri) : Server × List Message :=
  match uri.toFilePath? with
  | none => (s, [])
  | some path =>
    if s.isOpen uri then
      ({ s with
          documents := s.documents.erase uri
          workspace := s.workspace.forget path
          settings := s.settings.erase uri },
        [.publish uri [] none])
    else (s, [])

/-- The documents in the list are published again, one after another. The client answers for each
document as it likes. -/
def publishAll (answers : Uri → ClientAnswer) (s : Server) : List Uri → Server × List Message
  | [] => (s, [])
  | uri :: uris =>
    let (s, sent) := s.publish (answers uri) uri
    let (s, others) := publishAll answers s uris
    (s, sent ++ others)

/-- The open documents in the order of their uris. -/
def openUris (s : Server) : List Uri :=
  s.documents.keys.mergeSort fun a b => decide (a.text ≤ b.text)

/-- The settings have changed. A client that tells documents apart will be asked again. -/
def configured (s : Server) (answers : Uri → ClientAnswer) (payload : Json) :
    Server × List Message :=
  let s :=
    if s.flags.configuration then { s with settings := Table.empty }
    else { s with globalSettings := .ofJson (payload.member Settings.sectionName) }
  publishAll answers s s.openUris

end Server
end Scad
