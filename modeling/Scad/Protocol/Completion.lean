import Scad.Candidate
import Scad.Protocol.Shape

/-!
# Scad.Protocol.Completion

Suggestions as the editor lists them, and the details it asks for when one is selected.

* `CompletionItem.ofCandidate`: the item of a suggestion. Its data is its place in the list, from 1.
* `CompletionItem.resolve`: the item with details. Only the items with the data 1 and 2 have any.
* `CompletionItem.ofJson?`: the item that a message writes. What the server has no use for is kept
  as it came.
-/

namespace Scad

/-- The documentation of an item: plain text, or text with the name of its format. -/
inductive CompletionItem.Documentation where
  | plain (text : String)
  | markup (format text : String)
  deriving DecidableEq, Repr

/-- An item of the editor's list. -/
structure CompletionItem where
  label : String
  kind : Option Int
  detail : Option String
  documentation : Option CompletionItem.Documentation
  data : Option Json
  /-- The other members of the item in a message. -/
  others : List (String × Json)
  deriving Repr

namespace CompletionItem

open Json.Shape (needed optional)

/-- The number of a kind of suggestion. -/
def kindCode : Candidate.Kind → Int
  | .declared .function => 3
  | .declared .variable => 6
  | .declared .module => 9
  | .keyword => 14
  | .file => 17
  | .directory => 19

/-- The item of the suggestion at a place in the list, with its documentation in Markdown. -/
def ofCandidate (index : Nat) (label : String) (kind : Candidate.Kind)
    (documentation : Option String) : CompletionItem :=
  { label
    kind := some (kindCode kind)
    detail := none
    documentation := documentation.map (.markup "markdown")
    data := some (.nat (index + 1))
    others := [] }

/-- The detail and the documentation of the items at the first two places. -/
def details? (place : Nat) : Option (String × String) :=
  if place = 1 then some ("SCAD details", "Declarations visible in the current scope.")
  else if place = 2 then some ("SCAD keywords", "Language keywords and built-in constants.")
  else none

/-- The item with details, if its data asks for some. Documentation that is there stays. -/
def resolve (item : CompletionItem) : CompletionItem :=
  match (item.data.bind Json.nat?).bind details? with
  | none => item
  | some (detail, text) =>
    { item with
      detail := some detail
      documentation := item.documentation.or (some (.plain text)) }

/-- Documentation in a message. -/
def Documentation.toJson : Documentation → Json
  | .plain text => .str text
  | .markup format text => .obj [("kind", .str format), ("value", .str text)]

/-- Documentation from a message. -/
def Documentation.ofJson? (j : Json) : Option Documentation :=
  match j with
  | .str text => some (.plain text)
  | _ => do
    let format ← (j.member "kind").str?
    let text ← (j.member "value").str?
    return .markup format text

/-- An item in a message. What an item does not have is left out. -/
def toJson (item : CompletionItem) : Json :=
  let known : Json := .ofPairs [("label", some (.str item.label)), ("kind", item.kind.map Json.int),
    ("detail", item.detail.map Json.str), ("documentation", item.documentation.map (·.toJson)),
    ("data", item.data)]
  .obj ((known.obj?).getD [] ++ item.others)

/-- The change that an item makes: of one range, or of one of two. -/
def editShape : Json.Shape :=
  .choice "CompletionTextEdit"
    [Protocol.textEdit,
      .record "InsertReplaceEdit"
        [needed "newText" .string, needed "insert" Protocol.range,
          needed "replace" Protocol.range] []]

/-- The shape of an item in a message. -/
def shape : Json.Shape :=
  .record "CompletionItem"
    [needed "label" .string,
      optional "labelDetails" (.record "CompletionItemLabelDetails"
        [optional "detail" .string, optional "description" .string] []),
      optional "kind" .integer,
      optional "detail" .string,
      optional "documentation" (Protocol.described "Documentation"),
      optional "deprecated" .bool,
      optional "preselect" .bool,
      optional "sortText" .string,
      optional "filterText" .string,
      optional "insertText" .string,
      optional "insertTextFormat" .integer,
      optional "insertTextMode" .integer,
      optional "textEdit" editShape,
      optional "additionalTextEdits" (.list Protocol.textEdit),
      optional "command" Protocol.command,
      optional "commitCharacters" Protocol.texts,
      optional "data" .any,
      optional "tags" (.list .integer)] []

/-- The keys of the members that the server itself reads. -/
def knownKeys : List String := ["label", "kind", "detail", "documentation", "data"]

/-- An item from a message. -/
def ofJson? (j : Json) : Option CompletionItem := do
  let j ← (shape.read j).toOption
  return {
    label := ← (j.member "label").str?
    kind := (j.member "kind").int?
    detail := (j.member "detail").str?
    documentation := Documentation.ofJson? (j.member "documentation")
    data := j.get? "data"
    others := ((j.obj?).getD []).filter fun m => !knownKeys.contains m.1 }

end CompletionItem
end Scad
