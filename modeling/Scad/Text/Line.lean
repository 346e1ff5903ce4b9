/-!
# Scad.Text.Line

Cutting a text into pieces and putting pieces together.

* `splitOn`: the pieces between the occurrences of a separator, so one more piece than separators.
* `lines`: the pieces ended by a newline, each without the carriage return before its newline, and
  no empty piece after the last newline.
* `join`: the pieces with a separator between them.
* `splitAt?`: the parts before and after the first character that satisfies a test.
* `dropLead`, `dropLead?`, `dropTail?`: a text without a fixed beginning or end.
-/

namespace Scad
namespace Text

/-- The pieces of a text between the characters that satisfy `p`; never empty. -/
def splitOn (p : Char → Bool) : List Char → List (List Char)
  | [] => [[]]
  | c :: cs =>
    if p c then [] :: splitOn p cs
    else
      match splitOn p cs with
      | [] => [[c]]
      | piece :: rest => (c :: piece) :: rest

/-- A line without the carriage return that ends it. -/
def dropCarriageReturn (s : List Char) : List Char :=
  if s.getLast? = some '\r' then s.dropLast else s

/-- The lines of a text. A newline ends a line, together with a carriage return right before it;
what follows the last newline is a line if it is not empty. -/
def lines (s : List Char) : List (List Char) :=
  let pieces := splitOn (· == '\n') s
  let ended := pieces.dropLast.map dropCarriageReturn
  match pieces.getLast? with
  | none | some [] => ended
  | some tail => ended ++ [tail]

/-- The pieces in order with `sep` between neighbours. -/
def join (sep : List Char) : List (List Char) → List Char
  | [] => []
  | [piece] => piece
  | piece :: rest => piece ++ sep ++ join sep rest

/-- The parts before and after the first character satisfying `p`, if there is one. -/
def splitAt? (p : Char → Bool) : List Char → Option (List Char × List Char)
  | [] => none
  | c :: cs =>
    if p c then some ([], cs) else (splitAt? p cs).map fun (before, after) => (c :: before, after)

/-- What follows the cut is shorter than the text. -/
theorem length_of_splitAt? {p : Char → Bool} {s before after : List Char}
    (h : splitAt? p s = some (before, after)) : after.length < s.length := by
  induction s generalizing before with
  | nil => simp [splitAt?] at h
  | cons c cs ih =>
    simp only [splitAt?] at h
    split at h
    · cases h; simp
    · obtain ⟨⟨b, a⟩, hb, he⟩ := Option.map_eq_some_iff.1 h
      obtain ⟨rfl, rfl⟩ := Prod.mk.inj he
      exact Nat.lt_succ_of_lt (ih hb)

/-- What follows `lead` in a text that begins with it. -/
def dropLead? : List Char → List Char → Option (List Char)
  | [], s => some s
  | _ :: _, [] => none
  | l :: ls, c :: cs => if l = c then dropLead? ls cs else none

/-- The text without `lead` at its beginning, or the whole text where it begins otherwise. -/
def dropLead (lead s : List Char) : List Char := (dropLead? lead s).getD s

/-- What comes before `tail` in a text that ends with it. -/
def dropTail? (tail s : List Char) : Option (List Char) :=
  (dropLead? tail.reverse s.reverse).map List.reverse

end Text
end Scad
