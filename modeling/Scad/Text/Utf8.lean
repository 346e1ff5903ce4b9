/-!
# Scad.Text.Utf8

UTF-8, both ways. `Utf8.decode` keeps what is ill-formed as `none`, one for each longest beginning
of a character that is broken off, so that a reader can refuse it or show a replacement.

* `encode`: the bytes of a text.
* `decode?`: the text of well-formed bytes.
* `decodeLossy`: the text with U+FFFD for each ill-formed part.
-/

namespace Scad
namespace Text
namespace Utf8

/-- The bytes of a character. -/
def encodeChar (c : Char) : List UInt8 :=
  let n := c.toNat
  let tail (shift : Nat) : UInt8 := UInt8.ofNat (0x80 + n / shift % 64)
  if n < 0x80 then [UInt8.ofNat n]
  else if n < 0x800 then [UInt8.ofNat (0xC0 + n / 64), tail 1]
  else if n < 0x10000 then [UInt8.ofNat (0xE0 + n / 4096), tail 64, tail 1]
  else [UInt8.ofNat (0xF0 + n / 262144), tail 4096, tail 64, tail 1]

/-- The bytes of a text. -/
def encode (s : List Char) : List UInt8 := s.flatMap encodeChar

/-- The bytes that may follow a first byte: their number, the range of the first of them, and the
bits of the character that the first byte holds. -/
def lead? (b : UInt8) : Option (Nat × Nat × Nat × Nat) :=
  let n := b.toNat
  if n < 0x80 then some (0, 0x80, 0xBF, n)
  else if n < 0xC2 then none
  else if n < 0xE0 then some (1, 0x80, 0xBF, n - 0xC0)
  else if n = 0xE0 then some (2, 0xA0, 0xBF, 0)
  else if n = 0xED then some (2, 0x80, 0x9F, n - 0xE0)
  else if n < 0xF0 then some (2, 0x80, 0xBF, n - 0xE0)
  else if n = 0xF0 then some (3, 0x90, 0xBF, 0)
  else if n < 0xF4 then some (3, 0x80, 0xBF, n - 0xF0)
  else if n = 0xF4 then some (3, 0x80, 0x8F, n - 0xF0)
  else none

/-- The character whose last `count` bytes are at the head of the list, the next of them between
`low` and `high`, and whose bits so far are `bits`; `none` with the rest from the offending byte on
if they are not there. -/
def continueChar (count low high bits : Nat) (bs : List UInt8) : Option Char × List UInt8 :=
  match count, bs with
  | 0, bs => (some (Char.ofNat bits), bs)
  | _ + 1, [] => (none, [])
  | count + 1, b :: bs =>
    if low ≤ b.toNat ∧ b.toNat ≤ high then
      continueChar count 0x80 0xBF (64 * bits + (b.toNat - 0x80)) bs
    else (none, b :: bs)

theorem length_continueChar_le (count low high bits : Nat) (bs : List UInt8) :
    (continueChar count low high bits bs).2.length ≤ bs.length := by
  fun_induction continueChar count low high bits bs with
  | case1 => exact Nat.le_refl _
  | case2 => exact Nat.le_refl _
  | case3 low high bits count b bs _ ih => exact Nat.le_succ_of_le ih
  | case4 => exact Nat.le_refl _

/-- The characters of a byte list, `none` for an ill-formed part. -/
def decode : List UInt8 → List (Option Char)
  | [] => []
  | b :: bs =>
    match lead? b with
    | none => none :: decode bs
    | some (count, low, high, bits) =>
      (continueChar count low high bits bs).1 :: decode (continueChar count low high bits bs).2
termination_by bs => bs.length
decreasing_by
  · simp
  · exact Nat.lt_succ_of_le (length_continueChar_le ..)

/-- The text of a byte list, if all of it is well-formed. -/
def decode? (bs : List UInt8) : Option (List Char) := (decode bs).mapM id

/-- The text of a byte list with U+FFFD for what is ill-formed. -/
def decodeLossy (bs : List UInt8) : List Char := (decode bs).map (·.getD (Char.ofNat 0xFFFD))

end Utf8
end Text
end Scad
