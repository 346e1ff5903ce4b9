import Scad.Declaration
import Scad.Text.Letter
import Scad.Token

/-!
# Scad.Signature

The one-line text of a declaration: all of a function or variable, and of a module the part up to
the end of its parameter list. Comments are left out, and blanks stand where `needsSpace` puts them,
so the text does not depend on the layout of the source.
-/

namespace Scad
namespace Signature

open Text

/-- The tokens of a module up to the parenthesis that closes its parameter list, or up to its block
if that comes first. -/
def header (depth : Nat) : List Token → List Token
  | [] => []
  | t :: ts =>
    if t.is "(" then t :: header (depth + 1) ts
    else if t.is ")" then if depth - 1 = 0 then [t] else t :: header (depth - 1) ts
    else if depth = 0 ∧ t.is Token.braceOpen = true then []
    else t :: header depth ts

/-- Whether a text can end an operand: a closing bracket, a name, a number or a string. -/
def isOperandEnd (text : List Char) : Bool :=
  text == [')'] || text == [']'] ||
    text.head?.any fun c => isAlphanumeric c || c == '_' || c == '$' || c == '"' || c == '.'

/-- Whether a blank separates the texts `prev` and that of `t`, where `before` is the text before
`prev`. A minus that follows no operand is a sign and sticks to what it negates. -/
def needsSpace (before : Option (List Char)) (prev : List Char) (t : Token) : Bool :=
  if [['('], ['['], ['!'], ['#']].contains prev then false
  else if t.isAny [")", "]", ",", ";", ":"] then false
  else if t.isAny ["(", "["] && t.kind == .punct && isOperandEnd prev then false
  else if prev == ['-'] && before.all (fun b => !isOperandEnd b) then false
  else !(prev == [':'] && before.isSome)

/-- The texts of the tokens, each after the blank it needs; `before` and `prev` are the two texts
that come before them. -/
def joinFrom (before : Option (List Char)) (prev : List Char) : List Token → List Char
  | [] => []
  | t :: ts =>
    let space := if needsSpace before prev t then [' '] else []
    space ++ t.text ++ joinFrom (some prev) t.text ts

/-- The texts of the tokens with the blanks they need between them. -/
def join : List Token → List Char
  | [] => []
  | t :: ts => t.text ++ joinFrom none t.text ts

/-- The signature of a declaration, given the tokens of its extent. -/
def render (kind : Declaration.Kind) (ts : List Token) : List Char :=
  let significant := Token.significant ts
  match kind with
  | .module => join (header 0 significant)
  | _ => join significant

end Signature
end Scad
