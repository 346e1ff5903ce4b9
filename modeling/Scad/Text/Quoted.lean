import Scad.Text.Printable

/-!
# Scad.Text.Quoted

A text between quotes, as messages show it: quotes and backslashes are escaped, and characters that
do not stand for themselves are written by name or by number.

* `Quoted.render`: the quoted text.
-/

namespace Scad
namespace Text
namespace Quoted

/-- A character by its number, in lower-case hexadecimal between braces. -/
def byNumber (c : Char) : List Char :=
  ['\\', 'u', '\x7b'] ++ Nat.toDigits 16 c.toNat ++ ['\x7d']

/-- A character as it stands between quotes. -/
def escape (c : Char) : List Char :=
  if c = '"' ∨ c = '\\' then ['\\', c]
  else if c = '\n' then ['\\', 'n']
  else if c = '\r' then ['\\', 'r']
  else if c = '\t' then ['\\', 't']
  else if c.toNat = 0 then ['\\', '0']
  else if isPrintable c then [c]
  else byNumber c

/-- A text between quotes. -/
def render (text : String) : String :=
  String.ofList ('"' :: text.toList.flatMap escape ++ ['"'])

end Quoted
end Text
end Scad
