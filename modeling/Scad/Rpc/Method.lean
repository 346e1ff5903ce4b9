import Scad.Protocol.Capability
import Scad.Protocol.Completion

/-!
# Scad.Rpc.Method

The methods of the protocol and the shapes of their parameters, whether the server implements them
or not: parameters that do not fit are refused in any case.

* `Rpc.requests`: the methods that are answered.
* `Rpc.notifications`: the methods that are not.
-/

namespace Scad
namespace Rpc

open Json (Shape)
open Json.Shape (needed optional omissible)
open Protocol

/-! ## Parts of parameters -/

/-- A token under which progress is reported. -/
def progress : Shape := .record "WorkDoneProgressParams" [optional "workDoneToken" numberOrText] []

/-- A token under which parts of the result are sent. -/
def partialResult : Shape :=
  .record "PartialResultParams" [optional "partialResultToken" numberOrText] []

/-- The document that parameters are about. -/
def aboutDocument : Json.Shape.Field := needed "textDocument" document

/-- The range that parameters are about. -/
def aboutRange : Json.Shape.Field := needed "range" range

/-- Parameters with a position and both tokens. -/
def atPosition (name : String) : Shape :=
  .record name [] [documentPosition, progress, partialResult]

/-- Parameters with a position and a token for progress. -/
def atPositionOnce (name : String) : Shape := .record name [] [documentPosition, progress]

/-- Parameters with some fields and both tokens. -/
def withTokens (name : String) (fields : List Json.Shape.Field) : Shape :=
  .record name fields [progress, partialResult]

/-! ## The conversation -/

/-- The parameters of the first message. -/
def initializeParams : Shape :=
  .record "InitializeParams"
    [optional "processId" .natural,
      optional "rootPath" .string,
      omissible "rootUri" .uri,
      optional "initializationOptions" .any,
      needed "capabilities" Capability.client,
      omissible "trace" (.word ["off", "messages", "verbose"]),
      optional "workspaceFolders" (.list workspaceFolder),
      optional "clientInfo"
        (.record "ClientInfo" [needed "name" .string, optional "version" .string] []),
      optional "locale" .string] []

/-- A change of the folders of the workspace. -/
def foldersParams : Shape :=
  .record "DidChangeWorkspaceFoldersParams"
    [needed "event" (.record "WorkspaceFoldersChangeEvent"
      [needed "added" (.list workspaceFolder), needed "removed" (.list workspaceFolder)] [])] []

/-! ## Documents -/

/-- The reason for which a document is about to be saved. -/
def willSaveParams : Shape :=
  .record "WillSaveTextDocumentParams" [aboutDocument, needed "reason" .integer] []

/-- A document whose text is new. -/
def changeParams : Shape :=
  .record "DidChangeTextDocumentParams"
    [needed "textDocument" versionedDocument, needed "contentChanges" (.list contentChange)] []

/-- How a document is to be laid out. -/
def formattingOptions : Shape :=
  .record "FormattingOptions"
    [needed "tabSize" .natural, needed "insertSpaces" .bool,
      optional "trimTrailingWhitespace" .bool, optional "insertFinalNewline" .bool,
      optional "trimFinalNewlines" .bool]
    [.dict "a map" .string (.choice "FormattingProperty" [.bool, .integer, .string])]

/-- The options of a layout. -/
def layoutOptions : Json.Shape.Field := needed "options" formattingOptions

/-- The event for which suggestions are wanted. -/
def completionContext : Shape :=
  .record "CompletionContext"
    [needed "triggerKind" .integer, optional "triggerCharacter" .string] []

/-- A parameter of a call. -/
def parameterInformation : Shape :=
  .record "ParameterInformation"
    [needed "label" (.choice "ParameterLabel" [.string, .vector 2 .natural]),
      optional "documentation" (described "Documentation")] []

/-- The form of a call. -/
def signatureInformation : Shape :=
  .record "SignatureInformation"
    [needed "label" .string, optional "documentation" (described "Documentation"),
      optional "parameters" (.list parameterInformation),
      optional "activeParameter" .natural] []

/-- The help that is shown with the parameters of a call. -/
def shownSignatures : Shape :=
  .record "SignatureHelp"
    [needed "signatures" (.list signatureInformation), optional "activeSignature" .natural,
      optional "activeParameter" .natural] []

/-- The event for which help with the parameters of a call is wanted. -/
def signatureContext : Shape :=
  .record "SignatureHelpContext"
    [needed "triggerKind" .integer, optional "triggerCharacter" .string,
      needed "isRetrigger" .bool, optional "activeSignatureHelp" shownSignatures] []

/-- The problems for which actions are wanted. -/
def codeActionContext : Shape :=
  .record "CodeActionContext"
    [needed "diagnostics" (.list diagnostic), optional "only" texts,
      optional "triggerKind" .integer] []

/-- An action on code. -/
def codeAction : Shape :=
  .record "CodeAction"
    [needed "title" .string, optional "kind" .string, optional "diagnostics" (.list diagnostic),
      optional "edit" workspaceEdit, optional "command" command, optional "isPreferred" .bool,
      optional "disabled" (.record "CodeActionDisabled" [needed "reason" .string] []),
      optional "data" .any] []

/-- A colour. -/
def colour : Shape :=
  .record "Color"
    [needed "red" .real, needed "green" .real, needed "blue" .real, needed "alpha" .real] []

/-- A link in a document. -/
def documentLink : Shape :=
  .record "DocumentLink"
    [aboutRange, optional "target" .uri, optional "tooltip" .string, optional "data" .any] []

/-- A command shown with code. -/
def codeLens : Shape :=
  .record "CodeLens" [aboutRange, optional "command" command, optional "data" .any] []

/-- A part of the text of a hint. -/
def inlayHintPart : Shape :=
  .record "InlayHintLabelPart"
    [needed "value" .string, optional "tooltip" (described "InlayHintLabelPartTooltip"),
      optional "location" location, optional "command" command] []

/-- A hint inside a line. -/
def inlayHint : Shape :=
  .record "InlayHint"
    [needed "position" position,
      needed "label" (.choice "InlayHintLabel" [.string, .list inlayHintPart]),
      optional "kind" .integer, optional "textEdits" (.list textEdit),
      optional "tooltip" (described "InlayHintTooltip"), optional "paddingLeft" .bool,
      optional "paddingRight" .bool, optional "data" .any] []

/-- The place where the values of variables are wanted. -/
def inlineValueContext : Shape :=
  .record "InlineValueContext"
    [needed "frameId" .integer, needed "stoppedLocation" range] []

/-! ## The workspace -/

/-- A symbol of the workspace. -/
def workspaceSymbol : Shape :=
  .record "WorkspaceSymbol"
    [needed "name" .string, needed "kind" .integer, optional "tags" (.list .integer),
      optional "containerName" .string,
      needed "location"
        (.choice "OneOf" [location, .record "WorkspaceLocation" [needed "uri" .uri] []]),
      optional "data" .any] []

/-- A member of a hierarchy; `tags` is the shape of its tags. -/
def hierarchyItem (name : String) (tags : Shape) : Shape :=
  .record name
    [needed "name" .string, needed "kind" .integer, optional "tags" tags,
      optional "detail" .string, needed "uri" .uri, aboutRange, needed "selectionRange" range,
      optional "data" .any] []

/-- A caller or a callee. -/
def callItem : Json.Shape.Field :=
  needed "item" (hierarchyItem "CallHierarchyItem" (.list .integer))

/-- A type above or below others. -/
def typeItem : Json.Shape.Field := needed "item" (hierarchyItem "TypeHierarchyItem" .integer)

/-- Files that were or will be created, renamed or deleted. -/
def filesParams (name file : String) (keys : List String) : Shape :=
  .record name
    [needed "files" (.list (.record file (keys.map fun k => needed k .string) []))] []

/-! ## The methods -/

/-- The requests about documents, with the shapes of their parameters. -/
def documentRequests : List (String × Shape) :=
  [("textDocument/willSaveWaitUntil", willSaveParams),
    ("textDocument/declaration", atPosition "GotoDefinitionParams"),
    ("textDocument/definition", atPosition "GotoDefinitionParams"),
    ("textDocument/typeDefinition", atPosition "GotoDefinitionParams"),
    ("textDocument/implementation", atPosition "GotoDefinitionParams"),
    ("textDocument/references", .record "ReferenceParams"
      [needed "context" (.record "ReferenceContext" [needed "includeDeclaration" .bool] [])]
      [documentPosition, progress, partialResult]),
    ("textDocument/prepareCallHierarchy", atPositionOnce "CallHierarchyPrepareParams"),
    ("callHierarchy/incomingCalls", withTokens "CallHierarchyIncomingCallsParams" [callItem]),
    ("callHierarchy/outgoingCalls", withTokens "CallHierarchyOutgoingCallsParams" [callItem]),
    ("textDocument/prepareTypeHierarchy", atPositionOnce "TypeHierarchyPrepareParams"),
    ("typeHierarchy/supertypes", withTokens "TypeHierarchySupertypesParams" [typeItem]),
    ("typeHierarchy/subtypes", withTokens "TypeHierarchySubtypesParams" [typeItem]),
    ("textDocument/documentHighlight", atPosition "DocumentHighlightParams"),
    ("textDocument/documentLink", withTokens "DocumentLinkParams" [aboutDocument]),
    ("documentLink/resolve", documentLink),
    ("textDocument/hover", atPositionOnce "HoverParams"),
    ("textDocument/codeLens", withTokens "CodeLensParams" [aboutDocument]),
    ("codeLens/resolve", codeLens),
    ("textDocument/foldingRange", withTokens "FoldingRangeParams" [aboutDocument]),
    ("textDocument/selectionRange", withTokens "SelectionRangeParams"
      [aboutDocument, needed "positions" (.list position)]),
    ("textDocument/documentSymbol", withTokens "DocumentSymbolParams" [aboutDocument]),
    ("textDocument/semanticTokens/full", withTokens "SemanticTokensParams" [aboutDocument]),
    ("textDocument/semanticTokens/full/delta", withTokens "SemanticTokensDeltaParams"
      [aboutDocument, needed "previousResultId" .string]),
    ("textDocument/semanticTokens/range",
      withTokens "SemanticTokensRangeParams" [aboutDocument, aboutRange]),
    ("textDocument/inlineValue", .record "InlineValueParams"
      [aboutDocument, aboutRange, needed "context" inlineValueContext] [progress]),
    ("textDocument/inlayHint", .record "InlayHintParams" [aboutDocument, aboutRange] [progress]),
    ("inlayHint/resolve", inlayHint),
    ("textDocument/moniker", atPosition "MonikerParams"),
    ("textDocument/completion", .record "CompletionParams"
      [optional "context" completionContext] [documentPosition, progress, partialResult]),
    ("completionItem/resolve", CompletionItem.shape),
    ("textDocument/diagnostic", withTokens "DocumentDiagnosticParams"
      [aboutDocument, optional "identifier" .string, optional "previousResultId" .string]),
    ("textDocument/signatureHelp", .record "SignatureHelpParams"
      [optional "context" signatureContext] [documentPosition, progress]),
    ("textDocument/codeAction", withTokens "CodeActionParams"
      [aboutDocument, aboutRange, needed "context" codeActionContext]),
    ("codeAction/resolve", codeAction),
    ("textDocument/documentColor", withTokens "DocumentColorParams" [aboutDocument]),
    ("textDocument/colorPresentation", withTokens "ColorPresentationParams"
      [aboutDocument, needed "color" colour, aboutRange]),
    ("textDocument/formatting",
      .record "DocumentFormattingParams" [aboutDocument, layoutOptions] [progress]),
    ("textDocument/rangeFormatting", .record "DocumentRangeFormattingParams"
      [aboutDocument, aboutRange, layoutOptions] [progress]),
    ("textDocument/onTypeFormatting", .record "DocumentOnTypeFormattingParams"
      [needed "ch" .string, layoutOptions] [documentPosition]),
    ("textDocument/rename", .record "RenameParams"
      [needed "newName" .string] [documentPosition, progress]),
    ("textDocument/prepareRename", documentPosition),
    ("textDocument/linkedEditingRange", atPositionOnce "LinkedEditingRangeParams")]

/-- The requests about the workspace, with the shapes of their parameters. -/
def workspaceRequests : List (String × Shape) :=
  [("workspace/diagnostic", withTokens "WorkspaceDiagnosticParams"
      [optional "identifier" .string, needed "previousResultIds" (.list
        (.record "PreviousResultId" [needed "uri" .uri, needed "value" .string] []))]),
    ("workspace/symbol", withTokens "WorkspaceSymbolParams" [needed "query" .string]),
    ("workspaceSymbol/resolve", workspaceSymbol),
    ("workspace/willCreateFiles", filesParams "CreateFilesParams" "FileCreate" ["uri"]),
    ("workspace/willRenameFiles",
      filesParams "RenameFilesParams" "FileRename" ["oldUri", "newUri"]),
    ("workspace/willDeleteFiles", filesParams "DeleteFilesParams" "FileDelete" ["uri"]),
    ("workspace/executeCommand", .record "ExecuteCommandParams"
      [needed "command" .string, ("arguments", true, .list .any)] [progress])]

/-- The requests with the shapes of their parameters. Shutdown has none. -/
def requestShapes : List (String × Shape) :=
  ("initialize", initializeParams) :: documentRequests ++ workspaceRequests

/-- The notifications that the server implements, with the shapes of their parameters. -/
def notificationShapes : List (String × Shape) :=
  [("initialized", .record "InitializedParams" [] []),
    ("textDocument/didOpen",
      .record "DidOpenTextDocumentParams" [needed "textDocument" documentItem] []),
    ("textDocument/didChange", changeParams),
    ("textDocument/didClose", .record "DidCloseTextDocumentParams" [aboutDocument] []),
    ("workspace/didChangeWorkspaceFolders", foldersParams),
    ("workspace/didChangeConfiguration",
      .record "DidChangeConfigurationParams" [needed "settings" .any] [])]

/-- The requests of the protocol. -/
def requests : List String := "shutdown" :: requestShapes.map Prod.fst

/-- The notifications of the protocol. -/
def notifications : List String :=
  notificationShapes.map Prod.fst ++
    ["exit", "textDocument/willSave", "textDocument/didSave", "workspace/didChangeWatchedFiles",
      "workspace/didCreateFiles", "workspace/didRenameFiles", "workspace/didDeleteFiles",
      "$/cancelRequest"]

/-- The shape of the parameters of a method. -/
def shapeOf? (method : String) : Option Shape :=
  ((requestShapes ++ notificationShapes).find? fun m => m.1 == method).map Prod.snd

end Rpc
end Scad
