import Scad.Outline.Fault
import Scad.Token

/-!
# Scad.Outline.Bracket

Matching of the three kinds of bracket over a token list. Only punctuation of one character counts,
so a bracket inside a string or a comment is none.

`Bracket.faults` reads the tokens with a stack of the open brackets. A closing bracket always takes
the innermost open one off the stack, also where the two do not belong together.
-/

namespace Scad
namespace Bracket

/-- The closing bracket that belongs to an opening one. -/
def closerOf (opener : Char) : Char :=
  if opener = '(' then ')' else if opener = '[' then ']' else '}'

/-- The faults of the tokens, where `stack` holds the open brackets with their offsets, innermost
first. Brackets left open are reported last, outermost first. -/
def faultsFrom (stack : List (Char × Nat)) : List Token → List Fault
  | [] => stack.reverse.map fun (opener, offset) => ⟨offset, .unclosed opener⟩
  | t :: ts =>
    match t.bracket? with
    | none => faultsFrom stack ts
    | some c =>
      if t.isOpener then faultsFrom ((c, t.start) :: stack) ts
      else
        match stack with
        | [] => ⟨t.start, .unmatched c⟩ :: faultsFrom [] ts
        | (opener, _) :: rest =>
          if closerOf opener = c then faultsFrom rest ts
          else ⟨t.start, .mismatched (closerOf opener) c⟩ :: faultsFrom rest ts

/-- The bracket faults of a token list. -/
def faults (ts : List Token) : List Fault := faultsFrom [] ts

end Bracket
end Scad
