import Scad.Number.Double

/-!
# Scad.Number.Shortest

The decimal with the fewest digits that reads back as a given number; of several the one nearest to
it. With seventeen digits there always is one.

* `Double.shortest`: the digits as a natural number, and the power of ten to multiply it with.
-/

namespace Scad
namespace Double

/-- The number nearest to `digits * 10 ^ exponent`. -/
def ofDecimal (digits : Nat) (exponent : Int) : Double :=
  if 0 ≤ exponent then round (digits * Nat.pow 10 exponent.toNat) 1
  else round digits (Nat.pow 10 (-exponent).toNat)

/-- The fraction `num / (den * 10 ^ e)` as numerator and denominator. -/
def decimalScaled (num den : Nat) (e : Int) : Nat × Nat :=
  if 0 ≤ e then (num, den * Nat.pow 10 e.toNat) else (num * Nat.pow 10 (-e).toNat, den)

/-- The number of decimal digits of a positive integer. -/
def digitCount (n : Nat) : Nat := (Nat.toDigits 10 n).length

/-- The place of the decimal point: the least `k` with `num / den < 10 ^ k`. -/
def pointOf (num den : Nat) : Int :=
  let k := Int.ofNat (digitCount num) - Int.ofNat (digitCount den)
  let (n, d) := decimalScaled num den k
  if n < d then k else k + 1

/-- The decimal whose last digit stands at `10 ^ exponent` and that reads back as a number: of the
two neighbours of the number the nearer one, if it does, or else the other. -/
def decimalAt? (a : Double) (exponent : Int) : Option Nat :=
  let (n, d) := decimalScaled a.fraction.1 a.fraction.2 exponent
  let near := nearest n d
  let far := if near = n / d then near + 1 else near - 1
  [near, far].find? fun digits => decide (ofDecimal digits exponent = a)

/-- The decimal with at least `digits` digits, and as few as possible, that reads back as a number
whose decimal point stands at `point`; `more` is how many digits may be added. -/
def shortestFrom (a : Double) (point : Int) (digits : Nat) : Nat → Nat × Int
  | 0 => (0, 0)
  | more + 1 =>
    let exponent := point - Int.ofNat digits
    match a.decimalAt? exponent with
    | some n => (n, exponent)
    | none => shortestFrom a point (digits + 1) more

/-- The decimal `digits * 10 ^ exponent` with the fewest digits that reads back as a number. -/
def shortest (a : Double) : Nat × Int :=
  if a.isZero then (0, 0) else shortestFrom a (pointOf a.fraction.1 a.fraction.2) 1 17

end Double
end Scad
