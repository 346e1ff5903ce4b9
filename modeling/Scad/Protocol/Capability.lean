import Scad.Protocol.Shape

/-!
# Scad.Protocol.Capability

The shape of the features that a client announces when the conversation begins.
-/

namespace Scad
namespace Protocol
namespace Capability

open Json (Shape)
open Json.Shape (needed optional omissible)

/-- Optional booleans. -/
def flags (keys : List String) : List Json.Shape.Field := keys.map fun k => optional k .bool

/-- A record of optional booleans. -/
def flagRecord (name : String) (keys : List String) : Shape := .record name (flags keys) []

/-- Whether a feature can be registered later. -/
def dynamic : Shape := flagRecord "DynamicRegistrationClientCapabilities" ["dynamicRegistration"]

/-- Whether the client can be asked to renew something. -/
def refresh (name : String) : Shape := flagRecord name ["refreshSupport"]

/-- The properties that can be asked for later. -/
def resolvable (name : String) : Shape := .record name [needed "properties" texts] []

/-- The tags that the client knows. A boolean stands for all or none. -/
def tagSupport : Json.Shape.Field :=
  omissible "tagSupport" (.orBool (.record "TagSupport" [needed "valueSet" (.list .integer)] []))

/-- The kinds of symbols that the client knows. -/
def symbolKind : Json.Shape.Field :=
  optional "symbolKind"
    (.record "SymbolKindCapability" [optional "valueSet" (.list .integer)] [])

/-! ## The workspace -/

/-- Changes of the workspace. -/
def workspaceEdit : Shape :=
  .record "WorkspaceEditClientCapabilities"
    [optional "documentChanges" .bool,
      optional "resourceOperations" (.list (.word ["create", "rename", "delete"])),
      optional "failureHandling"
        (.word ["abort", "transactional", "textOnlyTransactional", "undo"]),
      optional "normalizesLineEndings" .bool,
      optional "changeAnnotationSupport"
        (flagRecord "ChangeAnnotationWorkspaceEditClientCapabilities" ["groupsOnLabel"])] []

/-- Symbols of the workspace. -/
def workspaceSymbol : Shape :=
  .record "WorkspaceSymbolClientCapabilities"
    [optional "dynamicRegistration" .bool, symbolKind, tagSupport,
      optional "resolveSupport" (resolvable "WorkspaceSymbolResolveSupportCapability")] []

/-- Features of the workspace. -/
def workspace : Shape :=
  .record "WorkspaceClientCapabilities"
    [optional "applyEdit" .bool,
      optional "workspaceEdit" workspaceEdit,
      optional "didChangeConfiguration" dynamic,
      optional "didChangeWatchedFiles" (flagRecord "DidChangeWatchedFilesClientCapabilities"
        ["dynamicRegistration", "relativePatternSupport"]),
      optional "symbol" workspaceSymbol,
      optional "executeCommand" dynamic,
      optional "workspaceFolders" .bool,
      optional "configuration" .bool,
      optional "semanticTokens" (refresh "SemanticTokensWorkspaceClientCapabilities"),
      optional "codeLens" (refresh "CodeLensWorkspaceClientCapabilities"),
      optional "fileOperations" (flagRecord "WorkspaceFileOperationsClientCapabilities"
        ["dynamicRegistration", "didCreate", "willCreate", "didRename", "willRename", "didDelete",
          "willDelete"]),
      optional "inlineValue" (refresh "InlineValueWorkspaceClientCapabilities"),
      optional "inlayHint" (refresh "InlayHintWorkspaceClientCapabilities"),
      optional "diagnostic" (refresh "DiagnosticWorkspaceClientCapabilities")] []

/-! ## Documents -/

/-- What the client can do with an item of a list of suggestions. -/
def completionItem : Shape :=
  .record "CompletionItemCapability"
    [optional "snippetSupport" .bool,
      optional "commitCharactersSupport" .bool,
      optional "documentationFormat" (.list markupKind),
      optional "deprecatedSupport" .bool,
      optional "preselectSupport" .bool,
      tagSupport,
      optional "insertReplaceSupport" .bool,
      optional "resolveSupport" (resolvable "CompletionItemCapabilityResolveSupport"),
      optional "insertTextModeSupport"
        (.record "InsertTextModeSupport" [needed "valueSet" (.list .integer)] []),
      optional "labelDetailsSupport" .bool] []

/-- Suggestions. -/
def completion : Shape :=
  .record "CompletionClientCapabilities"
    [optional "dynamicRegistration" .bool,
      optional "completionItem" completionItem,
      optional "completionItemKind"
        (.record "CompletionItemKindCapability" [optional "valueSet" (.list .integer)] []),
      optional "contextSupport" .bool,
      optional "insertTextMode" .integer,
      optional "completionList"
        (.record "CompletionListCapability" [optional "itemDefaults" texts] [])] []

/-- The help with the parameters of a call. -/
def signatureHelp : Shape :=
  .record "SignatureHelpClientCapabilities"
    [optional "dynamicRegistration" .bool,
      optional "signatureInformation" (.record "SignatureInformationSettings"
        [optional "documentationFormat" (.list markupKind),
          optional "parameterInformation"
            (flagRecord "ParameterInformationSettings" ["labelOffsetSupport"]),
          optional "activeParameterSupport" .bool] []),
      optional "contextSupport" .bool] []

/-- The outline of a document. -/
def documentSymbol : Shape :=
  .record "DocumentSymbolClientCapabilities"
    [optional "dynamicRegistration" .bool, symbolKind,
      optional "hierarchicalDocumentSymbolSupport" .bool, tagSupport] []

/-- Jumps to other places. -/
def goto : Shape := flagRecord "GotoCapability" ["dynamicRegistration", "linkSupport"]

/-- Actions on code. -/
def codeAction : Shape :=
  .record "CodeActionClientCapabilities"
    [optional "dynamicRegistration" .bool,
      optional "codeActionLiteralSupport" (.record "CodeActionLiteralSupport"
        [needed "codeActionKind"
          (.record "CodeActionKindLiteralSupport" [needed "valueSet" texts] [])] []),
      optional "isPreferredSupport" .bool,
      optional "disabledSupport" .bool,
      optional "dataSupport" .bool,
      optional "resolveSupport" (resolvable "CodeActionCapabilityResolveSupport"),
      optional "honorsChangeAnnotations" .bool] []

/-- New names. -/
def rename : Shape :=
  .record "RenameClientCapabilities"
    [optional "dynamicRegistration" .bool, optional "prepareSupport" .bool,
      optional "prepareSupportDefaultBehavior" .integer,
      optional "honorsChangeAnnotations" .bool] []

/-- Problems that the server tells the client. -/
def publishDiagnostics : Shape :=
  .record "PublishDiagnosticsClientCapabilities"
    [optional "relatedInformation" .bool, tagSupport, optional "versionSupport" .bool,
      optional "codeDescriptionSupport" .bool, optional "dataSupport" .bool] []

/-- Ranges that can be folded. -/
def foldingRange : Shape :=
  .record "FoldingRangeClientCapabilities"
    [optional "dynamicRegistration" .bool,
      optional "rangeLimit" .natural,
      optional "lineFoldingOnly" .bool,
      optional "foldingRangeKind" (.record "FoldingRangeKindCapability"
        [optional "valueSet" (.list (.word ["comment", "imports", "region"]))] []),
      optional "foldingRange" (flagRecord "FoldingRangeCapability" ["collapsedText"])] []

/-- Tokens with a meaning. -/
def semanticTokens : Shape :=
  .record "SemanticTokensClientCapabilities"
    [optional "dynamicRegistration" .bool,
      needed "requests" (.record "SemanticTokensClientCapabilitiesRequests"
        [optional "range" .bool,
          optional "full" (.choice "SemanticTokensFullOptions"
            [.bool, .record "SemanticTokensFullOptions" [optional "delta" .bool] []])] []),
      needed "tokenTypes" texts,
      needed "tokenModifiers" texts,
      needed "formats" (.list (.word ["relative"])),
      optional "overlappingTokenSupport" .bool,
      optional "multilineTokenSupport" .bool,
      optional "serverCancelSupport" .bool,
      optional "augmentsSyntaxTokens" .bool] []

/-- Features of documents. -/
def textDocument : Shape :=
  .record "TextDocumentClientCapabilities"
    [optional "synchronization" (flagRecord "TextDocumentSyncClientCapabilities"
        ["dynamicRegistration", "willSave", "willSaveWaitUntil", "didSave"]),
      optional "completion" completion,
      optional "hover" (.record "HoverClientCapabilities"
        [optional "dynamicRegistration" .bool, optional "contentFormat" (.list markupKind)] []),
      optional "signatureHelp" signatureHelp,
      optional "references" dynamic,
      optional "documentHighlight" dynamic,
      optional "documentSymbol" documentSymbol,
      optional "formatting" dynamic,
      optional "rangeFormatting" dynamic,
      optional "onTypeFormatting" dynamic,
      optional "declaration" goto,
      optional "definition" goto,
      optional "typeDefinition" goto,
      optional "implementation" goto,
      optional "codeAction" codeAction,
      optional "codeLens" dynamic,
      optional "documentLink" (flagRecord "DocumentLinkClientCapabilities"
        ["dynamicRegistration", "tooltipSupport"]),
      optional "colorProvider" dynamic,
      optional "rename" rename,
      optional "publishDiagnostics" publishDiagnostics,
      optional "foldingRange" foldingRange,
      optional "selectionRange"
        (flagRecord "SelectionRangeClientCapabilities" ["dynamicRegistration"]),
      optional "linkedEditingRange" dynamic,
      optional "callHierarchy" dynamic,
      optional "semanticTokens" semanticTokens,
      optional "moniker" dynamic,
      optional "typeHierarchy" dynamic,
      optional "inlineValue" dynamic,
      optional "inlayHint" (.record "InlayHintClientCapabilities"
        [optional "dynamicRegistration" .bool,
          optional "resolveSupport" (resolvable "InlayHintResolveClientCapabilities")] []),
      optional "diagnostic" (flagRecord "DiagnosticClientCapabilities"
        ["dynamicRegistration", "relatedDocumentSupport"])] []

/-! ## The client as a whole -/

/-- Features of the window. -/
def window : Shape :=
  .record "WindowClientCapabilities"
    [optional "workDoneProgress" .bool,
      optional "showMessage" (.record "ShowMessageRequestClientCapabilities"
        [optional "messageActionItem"
          (flagRecord "MessageActionItemCapabilities" ["additionalPropertiesSupport"])] []),
      optional "showDocument"
        (.record "ShowDocumentClientCapabilities" [needed "support" .bool] [])] []

/-- General features. -/
def general : Shape :=
  .record "GeneralClientCapabilities"
    [optional "regularExpressions" (.record "RegularExpressionsClientCapabilities"
        [needed "engine" .string, optional "version" .string] []),
      optional "markdown" (.record "MarkdownClientCapabilities"
        [needed "parser" .string, optional "version" .string, optional "allowedTags" texts] []),
      optional "staleRequestSupport" (.record "StaleRequestSupportClientCapabilities"
        [needed "cancel" .bool, needed "retryOnContentModified" texts] []),
      optional "positionEncodings" texts] []

/-- All features of a client. -/
def client : Shape :=
  .record "ClientCapabilities"
    [optional "workspace" workspace, optional "textDocument" textDocument,
      optional "window" window, optional "general" general, optional "experimental" .any] []

end Capability
end Protocol
end Scad
