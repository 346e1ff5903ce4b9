/-!
# Scad.Token

Tokens of the modelling language. A token keeps its kind, the offset where it starts, its text and
the blanks skipped before it, so a token list together with the blanks after the last token is the
source again. Offsets count characters from 0.

* `Token.stop`: the offset just past the token.
* `Token.is`: comparison with a fixed text, whatever the kind.
* `Token.startsLine`: nothing but blanks stands before the token on its line.
-/

namespace Scad

/-- The sorts of token. -/
inductive Token.Kind where
  | ident
  | number
  | str
  /-- The bracketed path after `include` or `use`, brackets included. -/
  | path
  | punct
  | lineComment
  | blockComment
  deriving DecidableEq, Repr

/-- A token: `text` starts at offset `start` and follows the blanks `gap`. -/
structure Token where
  kind : Token.Kind
  start : Nat
  gap : List Char
  text : List Char
  deriving DecidableEq, Repr

namespace Token

/-- The text of an opening brace. -/
def braceOpen : String := "\x7b"

/-- The text of a closing brace. -/
def braceClose : String := "\x7d"

/-- The offset just past the last character. -/
def stop (t : Token) : Nat := t.start + t.text.length

/-- Whether the token reads exactly `s`. -/
def is (t : Token) (s : String) : Bool := t.text == s.toList

/-- Whether the token reads as one of the given texts. -/
def isAny (t : Token) (ss : List String) : Bool := ss.any t.is

/-- Comments of either form. -/
def isComment (t : Token) : Bool := t.kind == .lineComment || t.kind == .blockComment

/-- Tokens that may run over several lines besides the blanks between tokens. -/
def isMultiline (t : Token) : Bool := t.kind == .str || t.kind == .blockComment

/-- The newlines between the end of the previous token and this one. -/
def newlinesBefore (t : Token) : Nat := t.gap.count '\n'

/-- Whether nothing but blanks stands before the token on its line: a newline was skipped on the way
to it, or it is the first token of the source. -/
def startsLine (t : Token) : Bool := t.gap.contains '\n' || t.start == t.gap.length

/-- The bracket a token consists of, if it is one of the six. -/
def bracket? (t : Token) : Option Char :=
  match t.kind, t.text with
  | .punct, [c] => if ['(', ')', '[', ']', '{', '}'].contains c then some c else none
  | _, _ => none

/-- Opening brackets. -/
def isOpener (t : Token) : Bool := t.bracket?.any ['(', '[', '{'].contains

/-- Closing brackets. -/
def isCloser (t : Token) : Bool := t.bracket?.any [')', ']', '}'].contains

/-- The tokens other than comments. -/
def significant (ts : List Token) : List Token := ts.filter fun t => !t.isComment

end Token
end Scad
