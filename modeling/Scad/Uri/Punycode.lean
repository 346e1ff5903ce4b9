/-!
# Scad.Uri.Punycode

Bootstring coding of a label with characters above ASCII in ASCII letters, digits and hyphens. The
ASCII characters come first, as they are; the others follow as the gaps between their code points in
increasing order, each a number in base 36 whose digits have adaptive thresholds.
-/

namespace Scad
namespace Uri
namespace Punycode

/-- The character of a digit below 36: letters, then decimal digits. -/
def digitChar (d : Nat) : Char := if d < 26 then Char.ofNat (0x61 + d) else Char.ofNat (0x16 + d)

/-- The value of a digit. -/
def digitValue? (c : Char) : Option Nat :=
  if 'a' ≤ c ∧ c ≤ 'z' then some (c.toNat - 'a'.toNat)
  else if 'A' ≤ c ∧ c ≤ 'Z' then some (c.toNat - 'A'.toNat)
  else if '0' ≤ c ∧ c ≤ '9' then some (c.toNat - '0'.toNat + 26)
  else none

/-- The threshold of the digit with weight index `k`. -/
def threshold (bias k : Nat) : Nat := if k ≤ bias then 1 else if bias + 26 ≤ k then 26 else k - bias

/-- No digit has the threshold 0, so every gap has a last digit. -/
theorem one_le_threshold (bias k : Nat) : 1 ≤ threshold bias k := by grind [threshold]

/-- The bias that a scaled gap leads to. -/
def biasOf (k delta : Nat) : Nat :=
  if 455 < delta then biasOf (k + 36) (delta / 35) else k + 36 * delta / (delta + 38)
termination_by delta
decreasing_by exact Nat.div_lt_self (by omega) (by omega)

/-- The bias after the gap `delta` before the character that makes `count` of them. -/
def adapt (delta count : Nat) (first : Bool) : Nat :=
  let scaled := if first then delta / 700 else delta / 2
  biasOf 0 (scaled + scaled / count)

/-- The digits of a gap. -/
def encodeGap (bias k q : Nat) : List Char :=
  let t := threshold bias k
  if q < t then [digitChar q]
  else digitChar (t + (q - t) % (36 - t)) :: encodeGap bias (k + 36) ((q - t) / (36 - t))
termination_by q
decreasing_by
  have h := one_le_threshold bias k
  exact Nat.lt_of_le_of_lt (Nat.div_le_self _ _) (by omega)

/-- What is known between two characters of a label being encoded. -/
structure State where
  digits : List Char
  delta : Nat
  bias : Nat
  count : Nat

/-- One character of the label on the pass for the code point `m`; `basic` ASCII characters were
there to begin with. -/
def encodeStep (basic m : Nat) (s : State) (c : Char) : State :=
  if c.toNat < m then { s with delta := s.delta + 1 }
  else if c.toNat = m then
    ⟨s.digits ++ encodeGap s.bias 36 s.delta, 0, adapt s.delta (s.count + 1) (s.count == basic),
      s.count + 1⟩
  else s

/-- The passes for the code points of a label in increasing order, `n` being the least that may come
next. -/
def encodePasses (label : List Char) (basic : Nat) : Nat → State → List Nat → State
  | _, s, [] => s
  | n, s, m :: ms =>
    let s := { s with delta := s.delta + (m - n) * (s.count + 1) }
    let s := label.foldl (encodeStep basic m) s
    encodePasses label basic (m + 1) { s with delta := s.delta + 1 } ms

/-- A label in ASCII. -/
def encode (label : List Char) : List Char :=
  let basic := label.filter fun c => decide (c.toNat < 0x80)
  let others := (label.map Char.toNat).filter fun n => decide (0x80 ≤ n)
  let points := (others.mergeSort fun a b => decide (a ≤ b)).eraseDups
  let state := encodePasses label basic.length 0x80 ⟨[], 0, 72, basic.length⟩ points
  basic ++ (if basic.isEmpty then [] else ['-']) ++ state.digits

/-- The gap whose digits are at the head of the list, weighted by `w` from the digit with index `k`.
-/
def decodeGap (bias k w i : Nat) : List Char → Option (Nat × List Char)
  | [] => none
  | c :: cs =>
    match digitValue? c with
    | none => none
    | some d =>
      let i := i + d * w
      let t := threshold bias k
      if d < t then some (i, cs) else decodeGap bias (k + 36) (w * (36 - t)) i cs

/-- The label that `done` becomes when the characters coded by `cs` are put in. The last one put in
had the code point `n` and stands before the index `i`; `fuel` bounds the number of characters to
come. -/
def decodeGaps (fuel n i bias : Nat) (done cs : List Char) : Option (List Char) :=
  match fuel, cs with
  | _, [] => some done
  | 0, _ => none
  | fuel + 1, cs =>
    match decodeGap bias 36 1 i cs with
    | none => none
    | some (j, rest) =>
      let count := done.length + 1
      let point := n + j / count
      let index := j % count
      if point < 0x110000 ∧ ¬(0xD800 ≤ point ∧ point < 0xE000) then
        decodeGaps fuel point (index + 1) (adapt (j - i) count (i == 0))
          (done.take index ++ Char.ofNat point :: done.drop index) rest
      else none

/-- The label that an ASCII text codes, if it codes one. -/
def decode? (text : List Char) : Option (List Char) :=
  let tail := (text.reverse.takeWhile (· != '-')).reverse
  let basic := text.take (text.length - tail.length - 1)
  let coded := if basic.isEmpty then text else tail
  decodeGaps coded.length 0x80 0 72 basic coded

end Punycode
end Uri
end Scad
