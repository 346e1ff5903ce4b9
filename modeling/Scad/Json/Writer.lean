import Scad.Json
import Scad.Number.Shortest

/-!
# Scad.Json.Writer

The compact text of a JSON value: no blanks, members of an object in the order of their keys,
control characters escaped and all other characters written as they are.

`renderReal` writes the fewest digits that read back: in place while the point falls within the
first sixteen digits or within five zeros before them, and with an exponent beyond.
-/

namespace Scad
namespace Json

/-- The two lower-case hexadecimal digits of a number below 256. -/
def hexPair (n : Nat) : String :=
  let digit (k : Nat) := (Nat.digitChar (k % 16)).toString
  digit (n / 16) ++ digit n

/-- A character as it stands inside a JSON string. -/
def escapeChar (c : Char) : String :=
  if c = '"' then "\\\""
  else if c = '\\' then "\\\\"
  else if c = '\n' then "\\n"
  else if c = '\r' then "\\r"
  else if c = '\t' then "\\t"
  else if c.toNat = 8 then "\\b"
  else if c.toNat = 12 then "\\f"
  else if c.toNat < 32 then "\\u00" ++ hexPair c.toNat
  else c.toString

/-- A JSON string with its quotes. -/
def quote (s : String) : String := "\"" ++ String.join (s.toList.map escapeChar) ++ "\""

/-- Digits without trailing zeros, and how many of those there were. -/
def stripZeros (digits : List Char) : List Char × Nat :=
  let zeros := (digits.reverse.takeWhile (· == '0')).length
  (digits.take (digits.length - zeros), zeros)

/-- A power of ten as it is written after digits, always with its sign. -/
def renderPower (n : Int) : String := "e" ++ (if n < 0 then "" else "+") ++ toString n

/-- A positive decimal `digits * 10 ^ exponent`, in which the last digit is not zero. -/
def renderDigits (digits : List Char) (exponent : Int) : String :=
  let point := Int.ofNat digits.length + exponent
  if 0 ≤ exponent ∧ point ≤ 16 then
    String.ofList (digits ++ List.replicate exponent.toNat '0') ++ ".0"
  else if 0 < point ∧ point ≤ 16 then
    String.ofList (digits.take point.toNat) ++ "." ++ String.ofList (digits.drop point.toNat)
  else if -5 < point ∧ point ≤ 0 then
    "0." ++ String.ofList (List.replicate (-point).toNat '0' ++ digits)
  else
    let fraction := digits.drop 1
    String.ofList (digits.take 1) ++
      (if fraction.isEmpty then "" else "." ++ String.ofList fraction) ++ renderPower (point - 1)

/-- A real number with a point or an exponent, so that it never reads as an integer. -/
def renderReal (negative : Bool) (magnitude : Double) : String :=
  let (n, exponent) := magnitude.shortest
  let (digits, zeros) := stripZeros (Nat.toDigits 10 n)
  (if negative then "-" else "") ++
    (if magnitude.isZero then "0.0" else renderDigits digits (exponent + Int.ofNat zeros))

mutual

/-- The compact text of a value. -/
def render : Json → String
  | .null => "null"
  | .bool b => if b then "true" else "false"
  | .int n => toString n
  | .real negative magnitude => renderReal negative magnitude
  | .str s => quote s
  | .arr items => "[" ++ String.intercalate "," (renderItems items) ++ "]"
  | .obj members =>
    let sorted := (renderMembers members).mergeSort fun a b => decide (a.1 ≤ b.1)
    "\x7b" ++ String.intercalate "," (sorted.map fun m => quote m.1 ++ ":" ++ m.2) ++ "\x7d"

/-- The compact texts of the items of an array. -/
def renderItems : List Json → List String
  | [] => []
  | j :: js => render j :: renderItems js

/-- The keys of an object with the compact texts of their values. -/
def renderMembers : List (String × Json) → List (String × String)
  | [] => []
  | (key, j) :: ms => (key, render j) :: renderMembers ms

end

end Json
end Scad
