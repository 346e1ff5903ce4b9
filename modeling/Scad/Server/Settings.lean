import Scad.Json

/-!
# Scad.Server.Settings

What the server takes from its client: the user's settings, and which features the client announced.
-/

namespace Scad

/-- The settings of a user. -/
structure Settings where
  maxNumberOfProblems : Nat
  deriving DecidableEq, Repr

namespace Settings

/-- The section that holds the server's settings. -/
def sectionName : String := "scadLanguageServer"

/-- The settings of a user who has made none. -/
def standard : Settings := ⟨1000⟩

/-- The settings that the value of the section writes: an object, or an array with the one setting
at most. A missing setting has its standard value. -/
def read? (j : Json) : Option Settings :=
  match j with
  | .obj _ =>
    match j.get? "maxNumberOfProblems" with
    | none => some standard
    | some value => value.nat?.map Settings.mk
  | .arr [] => some standard
  | .arr [value] => value.nat?.map Settings.mk
  | _ => none

/-- The settings in the value of the section, the standard ones if it writes none. -/
def ofJson (j : Json) : Settings := (read? j).getD standard

end Settings

/-- The features of the client that matter to the server. -/
structure ClientFlags where
  /-- The client answers requests for the settings of a document. -/
  configuration : Bool
  workspaceFolders : Bool
  relatedInformation : Bool
  deriving DecidableEq, Repr

namespace ClientFlags

/-- No feature. -/
def none : ClientFlags := ⟨false, false, false⟩

/-- The features that a client announces. What is absent is not supported. -/
def ofJson (capabilities : Json) : ClientFlags :=
  let flag (j : Json) (key : String) := (j.member key).bool?.getD false
  let workspace := capabilities.member "workspace"
  let publish := (capabilities.member "textDocument").member "publishDiagnostics"
  ⟨flag workspace "configuration", flag workspace "workspaceFolders",
    flag publish "relatedInformation"⟩

end ClientFlags
end Scad
