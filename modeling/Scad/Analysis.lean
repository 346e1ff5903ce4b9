import Scad.Outline
import Scad.Place
import Scad.Token.Lexer

/-!
# Scad.Analysis

All that is known of one file from its text: tokens, declarations, references to other files, and
problems, each with its place. A text whose tokens cannot be read has one problem and nothing else.

* `Analysis.tokenAt?`: the token under a cursor.
* `Analysis.visible`: the declarations in scope at an offset, innermost scope first.
-/

namespace Scad

/-- Something wrong in a file. -/
structure Problem where
  place : Place
  message : String
  deriving DecidableEq, Repr

/-- What is known of a file. `tokens` is missing if the text cannot be read. -/
structure Analysis where
  file : FilePath
  source : List Char
  tokens : Option (List Token)
  declarations : List (Declaration Place)
  references : List Reference
  problems : List Problem
  deriving Repr

namespace Analysis

/-- The analysis of a file with the given text. -/
def ofText (file : FilePath) (source : List Char) : Analysis :=
  let place := Place.at file source
  match tokenize source with
  | .ok tokens =>
    let outline := Outline.ofTokens source.length tokens
    { file, source
      tokens := some tokens
      declarations := Declaration.mapAll place outline.declarations
      references := outline.references
      problems := outline.faults.map fun f => ⟨place f.offset, f.message⟩ }
  | .error e =>
    { file, source
      tokens := none
      declarations := []
      references := []
      problems := [⟨place e.offset, e.message⟩] }

/-- Whether the text could be read. -/
def isReadable (a : Analysis) : Bool := a.tokens.isSome

/-- The first token that satisfies `p`, with the tokens after it. -/
def findToken? (p : Token → Bool) : List Token → Option (Token × List Token)
  | [] => none
  | t :: ts => if p t then some (t, ts) else findToken? p ts

/-- The token that holds the character at an offset, or else the one that ends there, with those
after it. Comments are no tokens here. -/
def tokenAt? (a : Analysis) (offset : Nat) : Option (Token × List Token) :=
  let ts := Token.significant (a.tokens.getD [])
  (findToken? (fun t => decide (t.start ≤ offset) && decide (offset < t.stop)) ts).or
    (findToken? (fun t => t.stop == offset) ts)

/-- The tokens inside an extent. -/
def tokensIn (a : Analysis) (span : Span Place) : List Token :=
  (a.tokens.getD []).filter fun t =>
    decide (span.start.offset ≤ t.start) && decide (t.stop ≤ span.stop.offset)

end Analysis

mutual

/-- The declarations in scope at an offset inside a module, down to and including its own. -/
def Declaration.scope (offset : Nat) : Declaration Place → List (Declaration Place)
  | ⟨_, _, _, _, _, children⟩ => Declaration.enclosed offset children ++ children

/-- The declarations in scope inside the first of the modules that holds the offset. -/
def Declaration.enclosed (offset : Nat) : List (Declaration Place) → List (Declaration Place)
  | [] => []
  | d :: ds =>
    if d.kind = .module ∧ d.span.contains offset = true then d.scope offset
    else Declaration.enclosed offset ds

end

/-- The declarations in scope at an offset, innermost scope first. -/
def Declaration.visible (ds : List (Declaration Place)) (offset : Nat) : List (Declaration Place) :=
  Declaration.enclosed offset ds ++ ds

end Scad
