import Scad.Server.Query

/-!
# Scad.Session

A conversation between client and server as a sequence of steps. A step is a message of the client,
a change of what the client will answer, or a change of the files on disk.

* `Session.step`: the state after a step, the server's reply, and the messages it sent meanwhile.
* `Session.run`: the same for a sequence of steps.
-/

namespace Scad

/-- The server together with its surroundings. -/
structure Session where
  server : Server
  disk : Disk
  /-- What the client answers for a document where the step says nothing else. -/
  answer : ClientAnswer

namespace Session

/-- A step of a conversation. -/
inductive Step where
  /-- The client announces its features. -/
  | start (flags : ClientFlags)
  /-- The client is ready for messages. -/
  | ready
  | shutdown
  | opened (uri : Uri) (text : List Char)
  /-- The new texts of a document in turn; the last one counts. -/
  | changed (uri : Uri) (version : Int) (texts : List (List Char))
  | closed (uri : Uri)
  /-- The settings have changed. All open documents may be asked about at this one step, and the
  client may answer for each of them in its own way. If nothing is said of that, it answers for all
  as it does for one. -/
  | configured (payload : Json) (each : Option (Uri → ClientAnswer) := none)
  | foldersChanged
  | completion (uri : Uri) (p : Position)
  | resolve (item : CompletionItem)
  | symbols (uri : Uri)
  | definition (uri : Uri) (p : Position)
  | hover (uri : Uri) (p : Position)
  | format (uri : Uri)
  /-- From now on the client answers requests for settings with this. -/
  | answers (answer : ClientAnswer)
  | write (path : FilePath) (entry : Disk.Entry)
  | remove (path : FilePath)

/-- What the server replies to a step. -/
inductive Reply where
  /-- Nothing: the step is no request. -/
  | silent
  /-- The features of the server; whether it follows the folders of the workspace is the client's
  choice. -/
  | capabilities (workspaceFolders : Bool)
  | done
  | items (found : List CompletionItem)
  | item (item : CompletionItem)
  | symbols (found : List Symbol)
  | location (found : Option Location)
  | hover (found : Option Hover)
  | edits (edits : List TextEdit)
  | failed (e : ServerError)

/-- The reply to a request that may fail. -/
def Reply.ofExcept {α : Type} (f : α → Reply) : Except ServerError α → Reply
  | .ok a => f a
  | .error e => .failed e

/-- The session with a new server state. -/
def withServer (s : Session) (server : Server) : Session := { s with server }

/-- A step that is no request. -/
def notify (s : Session) (r : Server × List Message) : Session × Reply × List Message :=
  (s.withServer r.1, .silent, r.2)

/-- A request that may read files. -/
def ask {α : Type} (s : Session) (f : α → Reply) (r : Server × Except ServerError α) :
    Session × Reply × List Message :=
  (s.withServer r.1, .ofExcept f r.2, [])

/-- One step of a conversation. -/
def step (s : Session) : Step → Session × Reply × List Message
  | .start flags =>
    (s.withServer { s.server with flags }, .capabilities flags.workspaceFolders, [])
  | .ready => (s, .silent, if s.server.flags.configuration then [.register] else [])
  | .shutdown => (s, .done, [])
  | .opened uri text => s.notify (s.server.opened s.answer uri text)
  | .changed uri version texts =>
    match texts.getLast? with
    | some text => s.notify (s.server.changed s.answer uri text version)
    | none => (s, .silent, [])
  | .closed uri => s.notify (s.server.closed uri)
  | .configured payload each =>
    s.notify (s.server.configured (each.getD fun _ => s.answer) payload)
  | .foldersChanged => (s, .silent, [])
  | .completion uri p => s.ask .items (s.server.completion s.disk uri p)
  | .resolve item => (s, .item item.resolve, [])
  | .symbols uri => (s, .ofExcept .symbols (s.server.symbols uri), [])
  | .definition uri p => s.ask .location (s.server.definition s.disk uri p)
  | .hover uri p => s.ask .hover (s.server.hover s.disk uri p)
  | .format uri => (s, .ofExcept .edits (s.server.format uri), [])
  | .answers answer => ({ s with answer }, .silent, [])
  | .write path entry => ({ s with disk := s.disk.write path entry }, .silent, [])
  | .remove path => ({ s with disk := s.disk.remove path }, .silent, [])

/-- A conversation: the state after it, and what each step brought. -/
def run (s : Session) : List Step → Session × List (Reply × List Message)
  | [] => (s, [])
  | x :: xs =>
    let (s, reply, sent) := s.step x
    let (s, rest) := run s xs
    (s, (reply, sent) :: rest)

/-! ## Replies in messages -/

/-- What the server says of itself. -/
def capabilitiesJson (workspaceFolders : Bool) : Json :=
  let folders : Json :=
    .obj [("workspaceFolders",
      .obj [("supported", .bool true), ("changeNotifications", .bool true)])]
  .obj [
    ("capabilities", .ofPairs [
      ("textDocumentSync", some (.nat 1)),
      ("documentFormattingProvider", some (.bool true)),
      ("documentSymbolProvider", some (.bool true)),
      ("completionProvider", some (.obj [("resolveProvider", .bool true),
        ("triggerCharacters", .arr [.str "<", .str "/"])])),
      ("definitionProvider", some (.bool true)),
      ("hoverProvider", some (.bool true)),
      ("workspace", if workspaceFolders then some folders else none)]),
    ("serverInfo", .obj [("name", .str Server.name), ("version", .str Server.version)])]

/-- The result in the reply to a request that succeeded. -/
def Reply.toJson : Reply → Json
  | .silent | .done | .failed _ => .null
  | .capabilities workspaceFolders => capabilitiesJson workspaceFolders
  | .items found => .arr (found.map CompletionItem.toJson)
  | .item i => i.toJson
  | .symbols found => .arr (Symbol.toJsons found)
  | .location found => found.elim .null Location.toJson
  | .hover found => found.elim .null Hover.toJson
  | .edits es => .arr (es.map TextEdit.toJson)

end Session
end Scad
