import Scad.Text.Line

/-!
# Scad.Text.CodeTable

Tables of characters in compact form. A table is a list of lines, a line a list of words between
spaces, a word a list of groups between hyphens, and a group a list of code points between dots,
each written in hexadecimal. What the groups of a word mean is up to the table.

* `CodeTable.read`: the words of a table.
* `CodeTable.holds`: membership in a table whose words are single code points and ranges.
-/

namespace Scad
namespace Text
namespace CodeTable

/-- A word of a table. -/
abbrev Word := List (List Nat)

/-- The value of an upper-case hexadecimal digit. -/
def digit (c : Char) : Nat :=
  if c.toNat < 'A'.toNat then c.toNat - '0'.toNat else c.toNat - 'A'.toNat + 10

/-- The code point that hexadecimal digits write. -/
def point (s : List Char) : Nat := s.foldl (fun n c => 16 * n + digit c) 0

/-- The word that a text writes. -/
def word (s : List Char) : Word :=
  (splitOn (· == '-') s).map fun group => (splitOn (· == '.') group).map point

/-- The words of a table. -/
def read (lines : List String) : List Word :=
  lines.flatMap fun line => (splitOn (· == ' ') line.toList).map word

/-- Whether a code point is in a table of single code points and ranges. -/
def holds (table : List Word) (n : Nat) : Bool :=
  table.any fun
    | [[a]] => a == n
    | [[a], [b]] => decide (a ≤ n) && decide (n ≤ b)
    | _ => false

end CodeTable
end Text
end Scad
