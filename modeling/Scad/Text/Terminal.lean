import Scad.Text.Utf8

/-!
# Scad.Text.Terminal

Text without the control sequences of a terminal. A sequence begins with an escape and ends as its
kind prescribes; control characters are left out wherever they stand, all but the white ones.

* `Terminal.strip`: the text that a terminal would show.
-/

namespace Scad
namespace Text
namespace Terminal

/-- Where a terminal stands in a text. -/
inductive State where
  /-- Outside of all sequences. -/
  | text
  /-- After an escape. -/
  | escape
  /-- After an escape and some intermediate characters. -/
  | intermediate
  /-- In a sequence that a character from `@` on ends. -/
  | control
  /-- At the head of a device string. -/
  | device
  /-- Among the numbers in the head of a device string. -/
  | deviceNumbers
  /-- After the numbers in the head of a device string. -/
  | deviceMarks
  /-- In a string that only its terminator ends. -/
  | string
  /-- In a command string, which a bell ends. -/
  | command
  deriving DecidableEq, Repr

/-- Whether a character stands between two code points. -/
def within (low high : Nat) (c : Char) : Bool := decide (low ≤ c.toNat) && decide (c.toNat ≤ high)

/-- The state after the first character of a sequence. -/
def State.afterEscape (c : Char) : State :=
  if c = '[' then .control
  else if c = ']' then .command
  else if c = 'P' then .device
  else if c = 'X' ∨ c = '^' ∨ c = '_' then .string
  else if within 0x20 0x2F c then .intermediate
  else if within 0x30 0x7E c then .text
  else .escape

/-- The state after an ASCII character. Escape begins a sequence everywhere, and the characters
cancel and substitute end one. -/
def State.next (s : State) (c : Char) : State :=
  if c.toNat = 0x1B then .escape
  else if c.toNat = 0x18 ∨ c.toNat = 0x1A then .text
  else
    match s with
    | .text => .text
    | .escape => .afterEscape c
    | .intermediate => if within 0x30 0x7E c then .text else .intermediate
    | .control => if within 0x40 0x7E c then .text else .control
    | .device =>
      if within 0x20 0x2F c then .deviceMarks
      else if within 0x30 0x3F c then .deviceNumbers
      else if within 0x40 0x7E c then .string
      else .device
    | .deviceNumbers =>
      if within 0x20 0x2F c then .deviceMarks
      else if within 0x3C 0x7E c then .string
      else .deviceNumbers
    | .deviceMarks => if within 0x30 0x7E c then .string else .deviceMarks
    | .string => .string
    | .command => if c.toNat = 7 then .text else .command

/-- The bytes of a character above ASCII say nothing in a sequence, unless one of them is the
terminator of a string. -/
def State.nextWide (s : State) (c : Char) : State :=
  if s = .string ∧ (Utf8.encode [c]).contains 0x9C = true then .text else s

/-- Tabs and the characters that end a line or a page. -/
def isWhite (c : Char) : Bool := c == '\t' || c == '\n' || c == '\r' || c.toNat == 12

/-- Whether an ASCII character is shown in a state. Sequences show what is white, strings nothing.
-/
def State.shows (s : State) (c : Char) : Bool :=
  match s with
  | .text => within 0x20 0x7E c || isWhite c
  | .escape | .intermediate | .control => isWhite c
  | _ => false

/-- The characters that are shown of a text. `shown` says that the last character was, and then the
following ones are for as long as they can be shown outside of sequences. -/
def stripFrom (s : State) (shown : Bool) : List Char → List Char
  | [] => []
  | c :: rest =>
    if 0x80 ≤ c.toNat then
      if shown || s == .text then c :: stripFrom .text true rest
      else stripFrom (s.nextWide c) false rest
    else if shown && State.text.shows c then c :: stripFrom s true rest
    else if s.shows c then c :: stripFrom (s.next c) true rest
    else stripFrom (s.next c) false rest

/-- The text that a terminal shows. -/
def strip (text : String) : String := String.ofList (stripFrom .text false text.toList)

end Terminal
end Text
end Scad
