import Scad.Text.Line
import Scad.Uri.Domain
import Scad.Uri.Fault
import Scad.Uri.Percent

/-!
# Scad.Uri.Host

The host of a uri: a domain name, a numeric address of version 4 or one of version 6.

* `Host.ofSpecial`: the host of a uri with a special scheme. Percent escapes are undone, the name
  is brought into its ASCII form, and a name whose last label is a number must be an address.
* `Host.ofOpaque`: the host of any other uri, which is kept as written.
* `Host.text`: the host as it stands in the uri.
-/

namespace Scad
namespace Uri

open Text

/-- The host of a uri. -/
inductive Host where
  | domain (name : List Char)
  | ipv4 (address : Nat)
  | ipv6 (pieces : List Nat)
  deriving DecidableEq, Repr

namespace Host

/-! ## Addresses of version 4 -/

/-- The value of a digit string in a base up to 16. -/
def radixValue? (base : Nat) (s : List Char) : Option Nat :=
  s.foldlM (fun n c => (hexValue? c).bind fun d => if d < base then some (base * n + d) else none) 0

/-- The number a part of an address writes: decimal, octal after `0`, hexadecimal after `0x`. -/
def ipv4Number? : List Char → Option Nat
  | [] => none
  | '0' :: 'x' :: digits | '0' :: 'X' :: digits => radixValue? 16 digits
  | '0' :: d :: digits => radixValue? 8 (d :: digits)
  | digits => radixValue? 10 digits

/-- The labels of a name without the empty one after a dot at the end. -/
def labels (name : List Char) : List (List Char) :=
  let parts := splitOn (· == '.') name
  if parts.getLast? = some [] ∧ 1 < parts.length then parts.dropLast else parts

/-- Whether the last label of a name is a number, so that the name has to be an address. -/
def endsInNumber (name : List Char) : Bool :=
  match (labels name).getLast? with
  | some last => (!last.isEmpty && last.all Char.isDigit) || (ipv4Number? last).isSome
  | none => false

/-- The address whose parts are the given numbers. The last one fills the bytes that are left. -/
def ipv4OfParts? (parts : List Nat) : Option Nat :=
  match parts.reverse with
  | [] => none
  | last :: before =>
    let firsts := before.reverse
    let room := Nat.pow 256 (4 - firsts.length)
    if 4 < parts.length ∨ firsts.any (fun n => decide (255 < n)) ∨ room ≤ last then none
    else some (firsts.zipIdx.foldl (fun sum (n, k) => sum + n * Nat.pow 256 (3 - k)) last)

/-- The address a name writes. -/
def ipv4? (name : List Char) : Option Nat := do
  let parts ← (labels name).mapM ipv4Number?
  ipv4OfParts? parts

/-- The four decimal parts of an address. -/
def ipv4Text (address : Nat) : List Char :=
  let part (k : Nat) := Nat.toDigits 10 (address / Nat.pow 256 k % 256)
  join ['.'] [part 3, part 2, part 1, part 0]

/-! ## Addresses of version 6 -/

/-- A decimal part of an address of version 4 inside one of version 6: no superfluous zero. -/
def decimalByte? (s : List Char) : Option Nat :=
  match s with
  | [] => none
  | ['0'] => some 0
  | '0' :: _ => none
  | _ => (radixValue? 10 s).bind fun n => if n < 256 then some n else none

/-- The two pieces written as an address of version 4. -/
def embeddedPieces? (s : List Char) : Option (List Nat) := do
  let parts ← (splitOn (· == '.') s).mapM decimalByte?
  match parts with
  | [a, b, c, d] => some [256 * a + b, 256 * c + d]
  | _ => none

/-- The pieces that a text adds to those already read, and where the run of zeros written `::` ends.
`fuel` bounds the number of pieces. -/
def readPieces (fuel : Nat) (pieces : List Nat) (zeros : Option Nat) (s : List Char) :
    Option (List Nat × Option Nat) :=
  match fuel, s with
  | _, [] => some (pieces, zeros)
  | 0, _ => none
  | fuel + 1, c :: cs =>
    if 8 ≤ pieces.length then none
    else if c = ':' then
      if zeros.isSome then none
      else readPieces fuel (pieces ++ [0]) (some (pieces.length + 1)) cs
    else
      let digits := ((c :: cs).take 4).takeWhile fun d => (hexValue? d).isSome
      let rest := (c :: cs).drop digits.length
      match rest with
      | [] => some (pieces ++ [(radixValue? 16 digits).getD 0], zeros)
      | ':' :: more =>
        if digits.isEmpty ∨ more.isEmpty then none
        else readPieces fuel (pieces ++ [(radixValue? 16 digits).getD 0]) zeros more
      | '.' :: _ =>
        if digits.isEmpty ∨ 6 < pieces.length then none
        else (embeddedPieces? (c :: cs)).map fun last => (pieces ++ last, zeros)
      | _ => none

/-- The eight pieces of the address between the brackets. -/
def ipv6? (s : List Char) : Option (List Nat) := do
  let read ←
    match s with
    | ':' :: ':' :: rest => readPieces (rest.length + 1) [0] (some 1) rest
    | ':' :: _ => none
    | [] | [_] => none
    | _ => readPieces (s.length + 1) [] none s
  match read with
  | (pieces, none) => if pieces.length = 8 then some pieces else none
  | (pieces, some k) =>
    some (pieces.take k ++ List.replicate (8 - pieces.length) 0 ++ pieces.drop k)

/-- The longest run of two or more zeros, as its first index and its length; of several the first.
-/
def zeroRun (pieces : List Nat) : Option (Nat × Nat) :=
  let runs := (List.range pieces.length).map fun i =>
    (i, ((pieces.drop i).takeWhile (· == 0)).length)
  runs.foldl (fun best r =>
    if 2 ≤ r.2 ∧ (best.elim 0 Prod.snd) < r.2 then some r else best) none

/-- Pieces in hexadecimal with colons between them. -/
def piecesText (pieces : List Nat) : List Char := join [':'] (pieces.map (Nat.toDigits 16))

/-- An address with its longest run of zeros written `::`. -/
def ipv6Text (pieces : List Nat) : List Char :=
  match zeroRun pieces with
  | none => piecesText pieces
  | some (i, n) => piecesText (pieces.take i) ++ [':', ':'] ++ piecesText (pieces.drop (i + n))

/-! ## Hosts -/

/-- The address in square brackets, for the text after the first one. -/
def bracketed (s : List Char) : Except Fault Host :=
  match (dropTail? [']'] s).bind ipv6? with
  | some pieces => .ok (.ipv6 pieces)
  | none => .error .ipv6

/-- The host that a uri with a special scheme writes. -/
def ofSpecial (s : List Char) : Except Fault Host :=
  match s with
  | '[' :: rest => bracketed rest
  | _ =>
    match (Utf8.decode? (decodeText s)).bind Domain.toAscii? with
    | none => .error .domainName
    | some name =>
      if name.isEmpty then .error .emptyHost
      else if endsInNumber name then (ipv4? name).elim (.error .ipv4) fun n => .ok (.ipv4 n)
      else .ok (.domain name)

/-- Characters that no host may hold. -/
def isForbidden (c : Char) : Bool :=
  [Char.ofNat 0, '\t', '\n', '\r', ' ', '#', '/', ':', '<', '>', '?', '@', '[', '\\', ']', '^',
    '|'].contains c

/-- The host that a uri without a special scheme writes. -/
def ofOpaque (s : List Char) : Except Fault Host :=
  match s with
  | '[' :: rest => bracketed rest
  | _ =>
    if s.any isForbidden then .error .hostCharacter
    else .ok (.domain (encodeText Escape.control s))

/-- The host as it stands in a uri. -/
def text : Host → List Char
  | .domain name => name
  | .ipv4 address => ipv4Text address
  | .ipv6 pieces => '[' :: ipv6Text pieces ++ [']']

end Host
end Uri
end Scad
