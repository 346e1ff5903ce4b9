import Scad.Text.Utf8

/-!
# Scad.Uri.Percent

Percent encoding. A set says which ASCII characters are written as `%` and two hexadecimal digits;
bytes above ASCII always are. Decoding leaves a `%` that no two hexadecimal digits follow as it is.
-/

namespace Scad
namespace Uri

open Text

/-- Which ASCII characters are written as percent escapes. -/
abbrev EscapeSet := Char → Bool

namespace Escape

/-- Control characters. -/
def control : EscapeSet := fun c => decide (c.toNat < 0x20) || c.toNat == 0x7F

/-- The fragment of a uri. -/
def fragment : EscapeSet := fun c => control c || [' ', '"', '<', '>', Char.ofNat 0x60].contains c

/-- The query of a uri. -/
def query : EscapeSet := fun c => control c || [' ', '"', '#', '<', '>'].contains c

/-- The query of a uri with a special scheme. -/
def specialQuery : EscapeSet := fun c => query c || c.toNat == 0x27

/-- The path of a uri. -/
def path : EscapeSet := fun c => fragment c || ['#', '?', '{', '}'].contains c

/-- One segment of the path of a file, where a slash, a backslash and a percent sign are text. -/
def segment : EscapeSet := fun c => path c || ['/', '%', '\\'].contains c

/-- The user name and password of a uri. -/
def userinfo : EscapeSet :=
  fun c => path c || ['/', ':', ';', '=', '@', '[', '\\', ']', '^', '|'].contains c

end Escape

/-- An upper-case hexadecimal digit. -/
def hexDigit (n : Nat) : Char := (Nat.digitChar (n % 16)).toUpper

/-- A byte as a percent escape. -/
def escapeByte (b : UInt8) : List Char := ['%', hexDigit (b.toNat / 16), hexDigit b.toNat]

/-- A byte, escaped if it is not ASCII or in the set. -/
def encodeByte (set : EscapeSet) (b : UInt8) : List Char :=
  let c := Char.ofNat b.toNat
  if 0x80 ≤ b.toNat ∨ set c = true then escapeByte b else [c]

/-- Bytes with percent escapes for those of the set. -/
def encodeBytes (set : EscapeSet) (bs : List UInt8) : List Char := bs.flatMap (encodeByte set)

/-- A text with percent escapes for the characters of the set and all above ASCII. -/
def encodeText (set : EscapeSet) (s : List Char) : List Char := encodeBytes set (Utf8.encode s)

/-- The value of a hexadecimal digit. -/
def hexValue? (c : Char) : Option Nat :=
  if '0' ≤ c ∧ c ≤ '9' then some (c.toNat - '0'.toNat)
  else if 'a' ≤ c ∧ c ≤ 'f' then some (c.toNat - 'a'.toNat + 10)
  else if 'A' ≤ c ∧ c ≤ 'F' then some (c.toNat - 'A'.toNat + 10)
  else none

/-- The bytes of a text, percent escapes undone. -/
def decodeText : List Char → List UInt8
  | [] => []
  | c :: cs =>
    match cs with
    | a :: b :: rest =>
      match c, hexValue? a, hexValue? b with
      | '%', some high, some low => UInt8.ofNat (16 * high + low) :: decodeText rest
      | _, _, _ => Utf8.encodeChar c ++ decodeText (a :: b :: rest)
    | rest => Utf8.encodeChar c ++ decodeText rest

end Uri
end Scad
