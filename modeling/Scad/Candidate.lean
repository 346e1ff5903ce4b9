import Scad.Place

/-!
# Scad.Candidate

Suggestions for what to type at a cursor.
-/

namespace Scad

/-- What a suggestion stands for. -/
inductive Candidate.Kind where
  | declared (kind : Declaration.Kind)
  | keyword
  | directory
  | file
  deriving DecidableEq, Repr

/-- A suggestion, with the declaration it comes from. -/
structure Candidate where
  label : String
  kind : Candidate.Kind
  declaration : Option (Declaration Place)
  deriving Repr

namespace Candidate

/-- The words of the language and its constants. -/
def keywords : List String :=
  ["module", "function", "include", "use", "if", "else", "for", "let", "each", "assert", "echo",
    "intersection_for", "true", "false", "undef", "PI"]

/-- The suggestion of a word of the language. -/
def ofKeyword (word : String) : Candidate := ⟨word, .keyword, none⟩

/-- The suggestion of a declared name. -/
def ofDeclaration (d : Declaration Place) : Candidate := ⟨d.name, .declared d.kind, some d⟩

/-- The declarations without those of a name and kind that came before. -/
def distinct (seen : List (String × Declaration.Kind)) :
    List (Declaration Place) → List (Declaration Place)
  | [] => []
  | d :: ds =>
    if seen.contains (d.name, d.kind) then distinct seen ds
    else d :: distinct ((d.name, d.kind) :: seen) ds

end Candidate
end Scad
