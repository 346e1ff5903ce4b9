import Scad.Text.Blank
import Scad.Text.Line
import Scad.Token

/-!
# Scad.Layout

The standard layout of a source. A line is trimmed and indented by four blanks for every bracket
open before it, closing brackets at its beginning discounted; runs of blank lines become one; a line
that begins inside a string or a block comment stays as it is. Every line of the result ends with a
newline.

* `Layout.lines`: the lines of a source with the tokens that start on them.
* `Layout.reindent`: the source in standard layout.
-/

namespace Scad
namespace Layout

open Text

/-- A line of a source: its text without the newline, whether it begins inside a string or a block
comment, and the tokens that start on it. -/
structure Line where
  text : List Char
  continues : Bool
  tokens : List Token
  deriving DecidableEq, Repr

/-- The lines with the given texts, of which the first starts at `offset`. `tokens` are those from
there on, and `covered` is the end of the last string or block comment before them. -/
def linesFrom (offset covered : Nat) : List (List Char) → List Token → List Line
  | [], _ => []
  | text :: rest, tokens =>
    let stop := offset + text.length
    let here := tokens.takeWhile fun t => decide (t.start ≤ stop)
    let later := tokens.dropWhile fun t => decide (t.start ≤ stop)
    let covers := (here.filter Token.isMultiline).foldl (fun m t => max m t.stop) covered
    ⟨text, decide (offset < covered), here⟩ :: linesFrom (stop + 1) covers rest later

/-- The lines of a source. -/
def lines (source : List Char) (tokens : List Token) : List Line :=
  linesFrom 0 0 (splitOn (· == '\n') source) tokens

/-- The number of brackets a line opens. -/
def Line.opens (l : Line) : Nat := l.tokens.countP Token.isOpener

/-- The number of brackets a line closes. -/
def Line.closes (l : Line) : Nat := l.tokens.countP Token.isCloser

/-- The number of closing brackets before anything else on a line. -/
def Line.leadingClosers (l : Line) : Nat := (l.tokens.takeWhile Token.isCloser).length

/-- The blanks of an indentation. -/
def indent (depth : Nat) : List Char := List.replicate (4 * depth) ' '

/-- The lines in standard layout. `depth` brackets are open before them, `pending` says that blank
lines were passed over, and `started` that something has been written. -/
def renderFrom (depth : Nat) (pending started : Bool) : List Line → List Char
  | [] => []
  | l :: ls =>
    let after := depth + l.opens - l.closes
    if l.continues then l.text ++ '\n' :: renderFrom after pending true ls
    else
      let text := trim l.text
      if text.isEmpty then renderFrom after started started ls
      else
        (if pending then ['\n'] else []) ++ indent (depth - l.leadingClosers) ++ text ++
          '\n' :: renderFrom after false true ls

/-- A source with the given tokens in standard layout. -/
def reindent (source : List Char) (tokens : List Token) : List Char :=
  renderFrom 0 false false (lines source tokens)

end Layout
end Scad
