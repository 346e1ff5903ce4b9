import Scad.Doc
import Scad.Token

/-!
# Scad.Outline.Leaf

Tokens that matter to the structure of a source, each with the comments before it.

* `Leaf.ofTokens`: the tokens other than comments, with the comments since the previous one.
* `Leaf.doc`: the documentation that a declaration beginning at the leaf has. It comes from the run
  of comments right above: each begins its line, at most one newline separates it from what follows,
  and a block comment ends the run.
-/

namespace Scad

/-- A token that is no comment, with the comments between the previous such token and it, the
nearest comment first. -/
structure Leaf where
  comments : List Token
  token : Token
  deriving DecidableEq, Repr

namespace Leaf

/-- The leaves of a token list, after comments already read (nearest first). Comments after the last
leaf belong to none. -/
def ofTokensFrom (comments : List Token) : List Token → List Leaf
  | [] => []
  | t :: ts =>
    if t.isComment then ofTokensFrom (t :: comments) ts else ⟨comments, t⟩ :: ofTokensFrom [] ts

/-- The leaves of a token list. -/
def ofTokens (ts : List Token) : List Leaf := ofTokensFrom [] ts

/-- Whether the leaf reads exactly `s`. -/
def is (l : Leaf) (s : String) : Bool := l.token.is s

/-- Whether the leaf reads as one of the given texts. -/
def isAny (l : Leaf) (ss : List String) : Bool := l.token.isAny ss

/-- The comments, nearest first, that document what begins `newlines` newlines below the first of
them. -/
def docRun (newlines : Nat) : List Token → List Token
  | [] => []
  | c :: cs =>
    if 1 < newlines ∨ c.startsLine = false then []
    else if c.kind = .blockComment then [c]
    else c :: docRun c.newlinesBefore cs

/-- The documentation of a declaration that begins at the leaf. -/
def doc (l : Leaf) : Option Doc :=
  let run := (docRun l.token.newlinesBefore l.comments).reverse
  Doc.ofLines? (run.flatMap fun c => Doc.contentLines c.text)

end Leaf
end Scad
