import Scad.Doc
import Scad.Uri

/-!
# Scad.Doc.Markdown

Documentation as the editor shows it: the signature in a code block, the body, the parameters as a
list and a line for each link, with a blank line between them.
-/

namespace Scad
namespace Doc

/-- The line of a parameter. -/
def Param.markdown (p : Param) : String :=
  let passing := p.passing.elim "" fun w => " *(" ++ w.label ++ ")*"
  let types := if p.types.isEmpty then "" else " `" ++ String.intercalate " | " p.types ++ "`"
  let description := if p.description.isEmpty then "" else ": " ++ p.description
  "- `" ++ p.name ++ "`" ++ passing ++ types ++ description

/-- Whether a host is the encyclopedia's. -/
def isEncyclopedia (host : String) : Bool :=
  host == "wikipedia.org" || host.endsWith ".wikipedia.org"

/-- Whether a uri is a page of the language's manual. -/
def isManual (host : String) (u : Uri) : Bool :=
  host == "en.wikibooks.org" && "/wiki/OpenSCAD_User_Manual".toList.isPrefixOf u.path

/-- The line of a link. It is a hyperlink if the link is a uri with a host. -/
def linkMarkdown (link : String) : String :=
  match (Uri.parse? link).bind fun u => u.hostText?.map fun host => (u, host) with
  | none => "See also: " ++ link
  | some (u, host) =>
    if isEncyclopedia host then "[See more on Wikipedia](" ++ link ++ ")"
    else if isManual host u then "[See more on the User Manual](" ++ link ++ ")"
    else "See also: [" ++ host ++ "](" ++ link ++ ")"

/-- The line of an annotation that is a parameter. -/
def paramLine? : Annotation → Option String
  | .param p => some p.markdown
  | .see _ => none

/-- The line of an annotation that is a link. -/
def seeLine? : Annotation → Option String
  | .param _ => none
  | .see link => some (linkMarkdown link)

/-- The sections of a documentation comment. -/
def sections (d : Doc) : List String :=
  let params := d.annotations.filterMap paramLine?
  let body := if d.body.isEmpty then [] else [d.body]
  let list :=
    if params.isEmpty then [] else ["**Parameters:**\n\n" ++ String.intercalate "\n" params]
  body ++ list ++ d.annotations.filterMap seeLine?

/-- A signature with its documentation. -/
def markdown (signature : String) (doc : Option Doc) : String :=
  let code := "```scad\n" ++ signature ++ "\n```"
  String.intercalate "\n\n" (code :: doc.elim [] sections)

end Doc
end Scad
