import Scad.Declaration

/-!
# Scad.Outline.Fault

What can be wrong with the structure of a source that has tokens, with the offset where it shows.
-/

namespace Scad

/-- A structural problem. -/
inductive Fault.Cause where
  /-- A closing bracket that does not belong to the innermost open one. -/
  | mismatched (expected found : Char)
  /-- A closing bracket where none is open. -/
  | unmatched (found : Char)
  /-- An opening bracket without an end. -/
  | unclosed (opener : Char)
  /-- No identifier after the keyword of a declaration. -/
  | missingName (kind : Declaration.Kind)
  /-- No parameter list after the name of a declaration. -/
  | missingParameters (kind : Declaration.Kind)
  /-- A function without an equals sign. -/
  | missingDefinition
  /-- An expression without a semicolon at its end. -/
  | missingSemicolon
  deriving DecidableEq, Repr

/-- A structural problem and the offset where it shows. -/
structure Fault where
  offset : Nat
  cause : Fault.Cause
  deriving DecidableEq, Repr

/-- The text shown for a structural problem. -/
def Fault.Cause.message : Fault.Cause → String
  | .mismatched expected found =>
    "Expected '" ++ String.singleton expected ++ "' but found '" ++ String.singleton found ++ "'"
  | .unmatched found => "Unexpected '" ++ String.singleton found ++ "'"
  | .unclosed opener => "Unclosed '" ++ String.singleton opener ++ "'"
  | .missingName kind => "Expected name after '" ++ kind.keyword ++ "'"
  | .missingParameters kind => "Expected '(' after " ++ kind.keyword ++ " name"
  | .missingDefinition => "Expected '=' in function definition"
  | .missingSemicolon => "Expected ';'"

/-- The text shown for a structural problem. -/
def Fault.message (f : Fault) : String := f.cause.message

end Scad
