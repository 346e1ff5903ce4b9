import Scad.Protocol.Range

/-!
# Scad.Protocol.Symbol

The declarations of a file as the editor's outline shows them.
-/

namespace Scad

/-- An entry of the editor's outline with those below it. -/
structure Symbol where
  name : String
  kind : Declaration.Kind
  range : Range
  selection : Range
  children : List Symbol
  deriving Repr

namespace Symbol

mutual

/-- The entry of a declaration. -/
def ofDeclaration : Declaration Place → Symbol
  | ⟨name, kind, span, nameSpan, _, children⟩ =>
    ⟨name, kind, span.range, nameSpan.range, ofDeclarations children⟩

/-- The entries of declarations. -/
def ofDeclarations : List (Declaration Place) → List Symbol
  | [] => []
  | d :: ds => ofDeclaration d :: ofDeclarations ds

end

/-- The number of a kind of entry. -/
def kindCode : Declaration.Kind → Nat
  | .module => 2
  | .function => 12
  | .variable => 13

mutual

/-- An entry in a message. The list of entries below is left out if it is empty. -/
def toJson : Symbol → Json
  | ⟨name, kind, range, selection, children⟩ =>
    let below := toJsons children
    .ofPairs [("name", some (.str name)), ("kind", some (.nat (kindCode kind))),
      ("range", some range.toJson), ("selectionRange", some selection.toJson),
      ("children", if below.isEmpty then none else some (.arr below))]

/-- Entries in a message. -/
def toJsons : List Symbol → List Json
  | [] => []
  | s :: ss => toJson s :: toJsons ss

end

end Symbol
end Scad
