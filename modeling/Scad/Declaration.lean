import Scad.Doc

/-!
# Scad.Declaration

Named declarations with their extent, the extent of their name, their documentation and the
declarations nested in them. The type of points is a parameter: the scanner works with offsets, the
editor with places that also tell file, line and column.

* `Declaration.map`: the same forest with every point replaced.
-/

namespace Scad

/-- What a declaration introduces. -/
inductive Declaration.Kind where
  | function
  | module
  | variable
  deriving DecidableEq, Repr

/-- The word for a kind of declaration. -/
def Declaration.Kind.keyword : Declaration.Kind → String
  | .function => "function"
  | .module => "module"
  | .variable => "variable"

/-- An extent from its first point to the point just past its last character. -/
structure Span (P : Type) where
  start : P
  stop : P
  deriving DecidableEq, Repr

/-- The span with both points replaced. -/
def Span.map {P Q : Type} (f : P → Q) (s : Span P) : Span Q := ⟨f s.start, f s.stop⟩

/-- A declaration with the declarations nested in it, in source order. -/
structure Declaration (P : Type) where
  name : String
  kind : Declaration.Kind
  span : Span P
  nameSpan : Span P
  doc : Option Doc
  children : List (Declaration P)
  deriving Repr

namespace Declaration

mutual

/-- The declaration with every point replaced, nested ones included. -/
def map {P Q : Type} (f : P → Q) : Declaration P → Declaration Q
  | ⟨name, kind, span, nameSpan, doc, children⟩ =>
    ⟨name, kind, span.map f, nameSpan.map f, doc, mapAll f children⟩

/-- The forest with every point replaced. -/
def mapAll {P Q : Type} (f : P → Q) : List (Declaration P) → List (Declaration Q)
  | [] => []
  | d :: ds => d.map f :: mapAll f ds

end

end Declaration
end Scad
