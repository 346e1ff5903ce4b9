import Scad.Number.Double

/-!
# Scad.Text.Similarity

Jaro similarity of two words, in double precision. Characters match if they are equal and not too
far apart, each of them once; matched characters that come in another order count for half.
-/

namespace Scad
namespace Text

/-- The characters of a word with those marked that are taken, after the first free `c` between the
indices `low` and `high` has been taken; `j` is the index of the first character. -/
def takeMatch? (c : Char) (low high j : Nat) : List (Char × Bool) → Option (List (Char × Bool))
  | [] => none
  | (d, taken) :: rest =>
    if low ≤ j ∧ j < high ∧ d = c ∧ taken = false then some ((d, true) :: rest)
    else (takeMatch? c low high (j + 1) rest).map ((d, taken) :: ·)

/-- The matched characters of the first word, and the second word with its matched characters
marked. `range` is how far apart matches may be, and `i` the index of the first character. -/
def matchAll (range i : Nat) : List Char → List (Char × Bool) → List Char × List (Char × Bool)
  | [], b => ([], b)
  | c :: cs, b =>
    match takeMatch? c (i - range) (i + range + 1) 0 b with
    | some b =>
      let (matched, b) := matchAll range (i + 1) cs b
      (c :: matched, b)
    | none => matchAll range (i + 1) cs b

/-- The Jaro similarity of two words: the mean of the share of matched characters in each word and
the share of them that come in the same order. -/
def similarity (a b : List Char) : Double :=
  if a.isEmpty ∧ b.isEmpty then .ofNat 1
  else
    let range := max a.length b.length / 2 - 1
    let (matched, marked) := matchAll range 0 a (b.map fun c => (c, false))
    let other := (marked.filter Prod.snd).map Prod.fst
    let m := matched.length
    let moved := ((matched.zip other).countP fun p => p.1 != p.2) / 2
    if m = 0 then .ofNat 0
    else
      let share (part whole : Nat) : Double := .ofNat part / .ofNat whole
      (share m a.length + share m b.length + share (m - moved) m) / .ofNat 3

end Text
end Scad
