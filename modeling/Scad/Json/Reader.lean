import Scad.Json

/-!
# Scad.Json.Reader

Reading JSON text. Each reader takes the characters still unread and gives the value at their head
and what follows it, or nothing if no value stands there. Values nest, so the readers of values,
items and members call each other; their first argument bounds the number of calls, and the length
of the text is always enough because every call reads a character.

Objects have their members in the order of their keys, and of a repeated key the last value counts.
A real number is computed from its first digits, as many as fit 64 bits, and a power of ten. Each
operation rounds, so a number with many digits need not be the nearest to its text.

* `Json.parse?`: the value of a whole text.
-/

namespace Scad
namespace Json
namespace Reader

/-- JSON's own blanks. -/
def isSpace (c : Char) : Bool := c == ' ' || c == '\n' || c == '\r' || c == '\t'

/-- The text without leading blanks. -/
def skip (s : List Char) : List Char := s.dropWhile isSpace

/-- The ASCII digits. -/
def isDigit (c : Char) : Bool := decide ('0' ≤ c) && decide (c ≤ '9')

/-- The value of a decimal digit string. -/
def digitsValue (ds : List Char) : Nat := ds.foldl (fun n d => 10 * n + (d.toNat - '0'.toNat)) 0

/-- The value of a hexadecimal digit. -/
def hexDigit? (c : Char) : Option Nat :=
  if isDigit c then some (c.toNat - '0'.toNat)
  else if 'a' ≤ c ∧ c ≤ 'f' then some (c.toNat - 'a'.toNat + 10)
  else if 'A' ≤ c ∧ c ≤ 'F' then some (c.toNat - 'A'.toNat + 10)
  else none

/-- The UTF-16 unit written by four hexadecimal digits. -/
def unit? : List Char → Option (Nat × List Char)
  | a :: b :: c :: d :: rest => do
    let w ← hexDigit? a
    let x ← hexDigit? b
    let y ← hexDigit? c
    let z ← hexDigit? d
    return (4096 * w + 256 * x + 16 * y + z, rest)
  | _ => none

/-- The character of an escape `\u`, which takes two units above the basic plane. -/
def unicodeEscape (s : List Char) : Option (Char × List Char) := do
  let (high, rest) ← unit? s
  if 0xD800 ≤ high ∧ high < 0xDC00 then
    match rest with
    | '\\' :: 'u' :: rest =>
      let (low, rest) ← unit? rest
      if 0xDC00 ≤ low ∧ low < 0xE000 then
        return (Char.ofNat (0x10000 + 1024 * (high - 0xD800) + (low - 0xDC00)), rest)
      else none
    | _ => none
  else if 0xDC00 ≤ high ∧ high < 0xE000 then none
  else return (Char.ofNat high, rest)

/-- The character after a backslash. -/
def escape : List Char → Option (Char × List Char)
  | 'u' :: rest => unicodeEscape rest
  | 'n' :: rest => some ('\n', rest)
  | 't' :: rest => some ('\t', rest)
  | 'r' :: rest => some ('\r', rest)
  | 'b' :: rest => some (Char.ofNat 8, rest)
  | 'f' :: rest => some (Char.ofNat 12, rest)
  | c :: rest => if c = '"' ∨ c = '\\' ∨ c = '/' then some (c, rest) else none
  | [] => none

/-- The rest of a string up to its closing quote; `done` holds the characters read so far, last one
first. -/
def stringTail : Nat → List Char → List Char → Option (String × List Char)
  | 0, _, _ => none
  | _ + 1, _, [] => none
  | fuel + 1, done, c :: rest =>
    if c = '"' then some (String.ofList done.reverse, rest)
    else if c = '\\' then do
      let (e, rest) ← escape rest
      stringTail fuel (e :: done) rest
    else if c.toNat < 32 then none
    else stringTail fuel (c :: done) rest

/-- A digit string with at least one digit. -/
def digits (s : List Char) : Option (List Char × List Char) :=
  match s.takeWhile isDigit with
  | [] => none
  | ds => some (ds, s.dropWhile isDigit)

/-- The digits of a fraction, none if no point follows. -/
def fraction : List Char → Option (List Char × List Char)
  | '.' :: rest => digits rest
  | rest => some ([], rest)

/-- The exponent of a number, if one follows. -/
def power : List Char → Option (Option Int × List Char)
  | e :: rest =>
    if e = 'e' ∨ e = 'E' then do
      let (negative, rest) :=
        match rest with
        | '-' :: rest => (true, rest)
        | '+' :: rest => (false, rest)
        | rest => (false, rest)
      let (ds, rest) ← digits rest
      let n := Int.ofNat (digitsValue ds)
      return (some (if negative then -n else n), rest)
    else some (none, e :: rest)
  | [] => some (none, [])

/-- Whether an integer fits 64 bits, signed or unsigned. -/
def fitsWord (n : Int) : Bool := decide (-wordLimit ≤ 2 * n) && decide (n < wordLimit)

/-- A significand with as many of the following digits as fit 64 bits, and the digits left over. -/
def absorb (significand : Nat) : List Char → Nat × List Char
  | [] => (significand, [])
  | d :: ds =>
    let next := 10 * significand + (d.toNat - '0'.toNat)
    if fitsWord (Int.ofNat next) then absorb next ds else (significand, d :: ds)

/-- The greatest power of ten that one operation takes. -/
def longestPower : Nat := 308

/-- The product of a number and a power of ten, if it is finite. A small power is taken in steps. -/
def scale (f : Double) (e : Int) : Option Double :=
  if e.natAbs ≤ longestPower then
    let p := Double.ofNat (Nat.pow 10 e.natAbs)
    let product := if 0 ≤ e then f * p else f / p
    if product.isFinite then some product else none
  else if f.isZero then some f
  else if 0 ≤ e then none
  else scale (f / Double.ofNat (Nat.pow 10 longestPower)) (e + Int.ofNat longestPower)
termination_by e.natAbs
decreasing_by simp only [longestPower, Int.ofNat_eq_natCast] at *; omega

/-- The real number with the given digits before and after the point and the given exponent. Digits
before the point that are left over count as zeros, and those after it not at all. -/
def real? (whole part : List Char) (exponent : Int) : Option Double :=
  let (significand, more) := absorb 0 whole
  let (significand, rest) := absorb significand part
  let taken := part.length - rest.length
  scale (.ofNat significand) (exponent + Int.ofNat more.length - Int.ofNat taken)

/-- A number. Zero stands alone or before the point. -/
def number (s : List Char) : Option (Json × List Char) := do
  let (negative, s) :=
    match s with
    | '-' :: rest => (true, rest)
    | rest => (false, rest)
  let (whole, rest) ← digits s
  if 1 < whole.length ∧ whole.head? = some '0' then none
  else
    let (part, rest) ← fraction rest
    let (exponent, rest) ← power rest
    let value := digitsValue whole
    let signed : Int := if negative then -Int.ofNat value else Int.ofNat value
    let written := part.isEmpty && exponent.isNone
    if written && fitsWord signed && !(negative && value == 0) then return (.int signed, rest)
    else return (.real negative (← real? whole part (exponent.getD 0)), rest)

/-- The text after a fixed word. -/
def word (w : List Char) (s : List Char) : Option (List Char) :=
  if w.isPrefixOf s then some (s.drop w.length) else none

mutual

/-- The value at the head of a text. -/
def value : Nat → List Char → Option (Json × List Char)
  | 0, _ => none
  | fuel + 1, s =>
    match skip s with
    | [] => none
    | c :: rest =>
      if c = '"' then (stringTail (rest.length + 1) [] rest).map fun (t, rest) => (.str t, rest)
      else if c = '[' then
        match skip rest with
        | ']' :: rest => some (.arr [], rest)
        | rest => (items fuel rest).map fun (js, rest) => (.arr js, rest)
      else if c = '{' then
        match skip rest with
        | '}' :: rest => some (.obj [], rest)
        | rest => (members fuel rest).map fun (ms, rest) => (.obj (distinct ms), rest)
      else if c = 'n' then (word ['u', 'l', 'l'] rest).map fun rest => (.null, rest)
      else if c = 't' then (word ['r', 'u', 'e'] rest).map fun rest => (.bool true, rest)
      else if c = 'f' then (word ['a', 'l', 's', 'e'] rest).map fun rest => (.bool false, rest)
      else number (c :: rest)

/-- The items of an array up to its closing bracket. -/
def items : Nat → List Char → Option (List Json × List Char)
  | 0, _ => none
  | fuel + 1, s => do
    let (j, rest) ← value fuel s
    match skip rest with
    | ',' :: rest =>
      let (js, rest) ← items fuel rest
      return (j :: js, rest)
    | ']' :: rest => return ([j], rest)
    | _ => none

/-- The members of an object up to its closing brace. -/
def members : Nat → List Char → Option (List (String × Json) × List Char)
  | 0, _ => none
  | fuel + 1, s =>
    match skip s with
    | '"' :: rest => do
      let (key, rest) ← stringTail (rest.length + 1) [] rest
      match skip rest with
      | ':' :: rest =>
        let (j, rest) ← value fuel rest
        match skip rest with
        | ',' :: rest =>
          let (ms, rest) ← members fuel rest
          return ((key, j) :: ms, rest)
        | '}' :: rest => return ([(key, j)], rest)
        | _ => none
      | _ => none
    | _ => none

end

end Reader

/-- The value that a whole text writes, blanks around it aside. -/
def parse? (text : String) : Option Json :=
  let s := text.toList
  match Reader.value (s.length + 1) s with
  | some (j, rest) => if (Reader.skip rest).isEmpty then some j else none
  | none => none

end Json
end Scad
