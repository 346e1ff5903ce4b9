import Scad.Rpc.Method
import Scad.Session

/-!
# Scad.Rpc.Params

The steps of the conversation that the methods of the server stand for. Parameters are in the normal
form of their shape when they are read here.

* `Rpc.step?`: the step of a method with its parameters, if the server implements the method.
-/

namespace Scad
namespace Rpc

/-- A uri. -/
def uri? (j : Json) : Option Uri := j.str?.bind Uri.parse?

/-- The document that the parameters name. -/
def documentUri? (params : Json) : Option Uri := uri? ((params.member "textDocument").member "uri")

/-- The position in the parameters. -/
def cursor? (params : Json) : Option Position := do
  let position := params.member "position"
  return ⟨← (position.member "line").nat?, ← (position.member "character").nat?⟩

/-- A step about a position in a document. -/
def place? (f : Uri → Position → Session.Step) (params : Json) : Option Session.Step := do
  return f (← documentUri? params) (← cursor? params)

/-- The opening of a document. -/
def opened? (params : Json) : Option Session.Step := do
  let text ← ((params.member "textDocument").member "text").str?
  return .opened (← documentUri? params) text.toList

/-- A change of a document. -/
def changed? (params : Json) : Option Session.Step := do
  let version ← ((params.member "textDocument").member "version").int?
  let changes ← (params.member "contentChanges").arr?
  let texts ← changes.mapM fun c => (c.member "text").str?
  return .changed (← documentUri? params) version (texts.map String.toList)

/-- The step that a method stands for, if the server implements it. -/
def step? (method : String) (params : Json) : Option Session.Step :=
  match method with
  | "initialize" => some (.start (.ofJson (params.member "capabilities")))
  | "initialized" => some .ready
  | "textDocument/didOpen" => opened? params
  | "textDocument/didChange" => changed? params
  | "textDocument/didClose" => (documentUri? params).map .closed
  | "workspace/didChangeConfiguration" => some (.configured (params.member "settings"))
  | "workspace/didChangeWorkspaceFolders" => some .foldersChanged
  | "textDocument/completion" => place? .completion params
  | "completionItem/resolve" => (CompletionItem.ofJson? params).map .resolve
  | "textDocument/documentSymbol" => (documentUri? params).map .symbols
  | "textDocument/definition" => place? .definition params
  | "textDocument/hover" => place? .hover params
  | "textDocument/formatting" => (documentUri? params).map .format
  | _ => none

end Rpc
end Scad
