import Scad.Text.Blank
import Scad.Text.Line

/-!
# Scad.Doc

Documentation of a declaration: free text and the annotations `@param` and `@see`.

* `Doc.contentLines`: the lines of one comment without the comment's markers.
* `Doc.ofLines?`: the documentation that a list of such lines holds. A line whose first word is a
  tag opens an annotation; a line of text right below an `@param` annotation continues its
  description; every other line is body text, unknown tags included.

A parameter is written `@param name (passing) {type|type} description`. The groups in brackets may
be missing, repeated and in any order before the description.
-/

namespace Scad

/-- How a caller passes a parameter. -/
inductive Doc.Passing where
  | positional
  | named
  deriving DecidableEq, Repr

/-- The documentation of one parameter. -/
structure Doc.Param where
  name : String
  passing : Option Doc.Passing
  types : List String
  description : String
  deriving DecidableEq, Repr

/-- A structured part of a documentation comment. -/
inductive Doc.Annotation where
  | param (p : Doc.Param)
  | see (link : String)
  deriving DecidableEq, Repr

/-- A documentation comment: its text and its annotations, each in source order. -/
structure Doc where
  body : String
  annotations : List Doc.Annotation
  deriving DecidableEq, Repr

namespace Doc

open Text

/-- The word for a way of passing. -/
def Passing.label : Passing → String
  | .positional => "positional"
  | .named => "named"

/-! ## Content of a comment -/

/-- A line without the mark at its beginning and one blank after it. -/
def contentLine (mark s : List Char) : List Char := trimEnd (dropLead [' '] (dropLead mark s))

/-- The lines of a comment without `//`, `///`, `/*`, `/**`, `*/` and the star that begins a line.
-/
def contentLines (comment : List Char) : List (List Char) :=
  match dropLead? ['/', '/'] comment with
  | some line => [contentLine ['/'] line]
  | none =>
    let inner :=
      ((dropLead? ['/', '*'] comment).bind (dropTail? ['*', '/'])).getD comment
    (lines (dropLead ['*'] inner)).map fun line => contentLine ['*'] (trim line)

/-! ## Annotations -/

/-- What follows a tag on a line that has it as its first word. -/
def tagContent? (tag : String) (line : List Char) : Option (List Char) :=
  match dropLead? tag.toList line with
  | some [] => some []
  | some (c :: cs) => if isBlank c then some (trimStart cs) else none
  | none => none

/-- The types named between the braces of a type group. -/
def typeNames (group : List Char) : List String :=
  ((splitOn (· == '|') group).map trim).filterMap fun t =>
    if t.isEmpty then none else some (String.ofList t)

/-- The way of passing that a group in parentheses names. -/
def passing? (group : List Char) : Option Passing :=
  if trim group = "positional".toList then some .positional
  else if trim group = "named".toList then some .named
  else none

/-- The groups at the head of a parameter's text and the description after them. A later group in
parentheses that names a way of passing overrides an earlier one; types add up. -/
def readGroups (passing : Option Passing) (types : List String) (s : List Char) :
    Option Passing × List String × List Char :=
  match _hs : trimStart s with
  | '(' :: cs =>
    match _h : splitAt? (· == ')') cs with
    | some (group, rest) => readGroups ((passing? group).or passing) types rest
    | none => (passing, types, '(' :: cs)
  | '{' :: cs =>
    match _h : splitAt? (· == '}') cs with
    | some (group, rest) => readGroups passing (types ++ typeNames group) rest
    | none => (passing, types, '{' :: cs)
  | rest => (passing, types, rest)
termination_by s.length
decreasing_by
  all_goals
    have h1 := length_of_splitAt? _h
    have h2 := length_trimStart_le s
    rw [_hs] at h2
    simp only [List.length_cons] at h2
    omega

/-- The parameter described by the text after `@param`. -/
def Param.ofText (content : List Char) : Param :=
  let (name, rest) := (splitAt? isBlank content).getD (content, [])
  let (passing, types, description) := readGroups none [] rest
  ⟨String.ofList name, passing, types, String.ofList (trim description)⟩

/-- The parameter with one more line of description. -/
def Param.extend (p : Param) (line : List Char) : Param :=
  let space := if p.description.isEmpty then "" else " "
  { p with description := p.description ++ space ++ String.ofList line }

/-- The link named by the text after `@see`. -/
def linkOf (content : List Char) : String :=
  String.ofList (content.takeWhile fun c => !isBlank c)

/-- The annotations and the body lines of a comment. `current` is the parameter whose description
the next line may continue. -/
def read (current : Option Param) : List (List Char) → List Annotation × List (List Char)
  | [] => ((current.map Annotation.param).toList, [])
  | line :: rest =>
    let text := trim line
    let done := (current.map Annotation.param).toList
    match tagContent? "@param" text, tagContent? "@see" text, current with
    | some content, _, _ =>
      let (annotations, body) := read (some (.ofText content)) rest
      (done ++ annotations, body)
    | none, some content, _ =>
      let (annotations, body) := read none rest
      (done ++ .see (linkOf content) :: annotations, body)
    | none, none, some p =>
      if text.isEmpty then
        let (annotations, body) := read none rest
        (done ++ annotations, text :: body)
      else read (some (p.extend text)) rest
    | none, none, none =>
      let (annotations, body) := read none rest
      (annotations, text :: body)

/-- The documentation held by the content lines of a comment, if they hold any. -/
def ofLines? (content : List (List Char)) : Option Doc :=
  let (annotations, lines) := read none content
  let body := String.ofList (trim (join ['\n'] lines))
  if body.isEmpty && annotations.isEmpty then none else some ⟨body, annotations⟩

end Doc
end Scad
