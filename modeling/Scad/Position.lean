/-!
# Scad.Position

Places in a text as an editor names them: a line and a column in UTF-16 units, both from 0. Lines
end at newlines only.

* `Position.ofOffset`: the position of the character with a given offset.
* `Position.offset`: the offset of the character at a position. A column inside a surrogate pair
  means the character it splits, a column past the end of a line runs on into the next, and a
  position past the end of the text means its last character.
-/

namespace Scad

/-- A line and a column in UTF-16 units. -/
structure Position where
  line : Nat
  character : Nat
  deriving DecidableEq, Repr

namespace Position

/-- The number of UTF-16 units of a character. -/
def units (c : Char) : Nat := if c.toNat < 0x10000 then 1 else 2

/-- The number of UTF-16 units of a text. -/
def width (s : List Char) : Nat := s.foldr (fun c n => units c + n) 0

/-- The position after a text that begins at the position `p`. -/
def advance (p : Position) (s : List Char) : Position :=
  s.foldl (fun p c => if c = '\n' then ⟨p.line + 1, 0⟩ else ⟨p.line, p.character + units c⟩) p

/-- The position of the offset `offset` in a text, an offset past the end meaning the end. -/
def ofOffset (text : List Char) (offset : Nat) : Position := advance ⟨0, 0⟩ (text.take offset)

/-- The position just past the last character of a text. -/
def endOf (text : List Char) : Position := advance ⟨0, 0⟩ text

/-- The text from the beginning of a line on; empty if there are not so many lines. -/
def fromLine : Nat → List Char → List Char
  | 0, s => s
  | _ + 1, [] => []
  | n + 1, c :: cs => if c = '\n' then fromLine n cs else fromLine (n + 1) cs

/-- The number of characters before the one that holds the UTF-16 unit `column`, if the text is so
long. -/
def charAtUnit? (column : Nat) : List Char → Option Nat
  | [] => none
  | c :: cs => if column < units c then some 0 else (charAtUnit? (column - units c) cs).map (· + 1)

/-- The offset of the character at a position. -/
def offset (text : List Char) (p : Position) : Nat :=
  let tail := fromLine p.line text
  match charAtUnit? p.character tail with
  | some n => text.length - tail.length + n
  | none => text.length - 1

end Position
end Scad
