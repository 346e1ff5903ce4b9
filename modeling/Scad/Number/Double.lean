/-!
# Scad.Number.Double

Nonnegative binary floating point numbers of double precision. A number is a mantissa below `2 ^ 53`
times a power of two from `2 ^ -1074` on, and an operation gives the number nearest to the exact
result, of two equally near ones the one with the even mantissa. Exponents have no upper limit here;
`Double.isFinite` tells the numbers that the format can hold.

* `Double.round`: the number nearest to a fraction. Every operation is an exact fraction, rounded.
-/

namespace Scad

/-- The number `mantissa * 2 ^ exponent`. -/
structure Double where
  mantissa : Nat
  exponent : Int
  deriving DecidableEq, Repr

namespace Double

/-- The number of bits of a mantissa. -/
def precision : Nat := 53

/-- The least exponent. -/
def lowest : Int := -1074

/-- The exponent of the greatest numbers that the format can hold. -/
def highest : Int := 971

/-- The fraction `num * 2 ^ (-e) / den` as numerator and denominator. -/
def scaled (num den : Nat) (e : Int) : Nat × Nat :=
  if 0 ≤ e then (num, den * Nat.pow 2 e.toNat) else (num * Nat.pow 2 (-e).toNat, den)

/-- The integer nearest to a fraction, of two the even one. -/
def nearest (num den : Nat) : Nat :=
  let q := num / den
  let twice := 2 * (num % den)
  if twice < den ∨ (twice = den ∧ q % 2 = 0) then q else q + 1

/-- The exponent with which a positive fraction fills a mantissa, but not less than the lowest. -/
def exponentOf (num den : Nat) : Int :=
  let e := Int.ofNat (Nat.log2 num) - Int.ofNat (Nat.log2 den) + 1 - Int.ofNat precision
  let (n, d) := scaled num den e
  let e := if n < d * Nat.pow 2 (precision - 1) then e - 1 else e
  if e < lowest then lowest else e

/-- The number nearest to the fraction `num / den`. -/
def round (num den : Nat) : Double :=
  if num = 0 then ⟨0, lowest⟩
  else
    let e := exponentOf num den
    let (n, d) := scaled num den e
    let m := nearest n d
    if m = Nat.pow 2 precision then ⟨Nat.pow 2 (precision - 1), e + 1⟩ else ⟨m, e⟩

/-- The number nearest to an integer. -/
def ofNat (n : Nat) : Double := round n 1

/-- Whether a number is zero. -/
def isZero (a : Double) : Bool := a.mantissa == 0

/-- Whether the format can hold a number. -/
def isFinite (a : Double) : Bool := decide (a.exponent ≤ highest)

/-- The value as a fraction. -/
def fraction (a : Double) : Nat × Nat :=
  if 0 ≤ a.exponent then (a.mantissa * Nat.pow 2 a.exponent.toNat, 1)
  else (a.mantissa, Nat.pow 2 (-a.exponent).toNat)

/-- The sum of two numbers. -/
def add (a b : Double) : Double :=
  round (a.fraction.1 * b.fraction.2 + b.fraction.1 * a.fraction.2) (a.fraction.2 * b.fraction.2)

/-- The product of two numbers. -/
def mul (a b : Double) : Double :=
  round (a.fraction.1 * b.fraction.1) (a.fraction.2 * b.fraction.2)

/-- The quotient of two numbers, of which the second is not zero. -/
def div (a b : Double) : Double :=
  round (a.fraction.1 * b.fraction.2) (a.fraction.2 * b.fraction.1)

/-- Whether a number is less than another. -/
def lt (a b : Double) : Bool :=
  decide (a.fraction.1 * b.fraction.2 < b.fraction.1 * a.fraction.2)

instance : Add Double := ⟨add⟩
instance : Mul Double := ⟨mul⟩
instance : Div Double := ⟨div⟩

end Double
end Scad
