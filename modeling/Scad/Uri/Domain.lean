import Scad.Text.Composed
import Scad.Uri.Domain.Direction
import Scad.Uri.Domain.Joiner
import Scad.Uri.Domain.Mapping
import Scad.Uri.Punycode

/-!
# Scad.Uri.Domain

The ASCII form of a domain name. Characters are replaced by what they are equivalent to and the name
is composed; then each label that is not ASCII is coded, after the mark `xn--`.

* `Domain.reveal?`: the label that a label stands for, if both are well-formed.
* `Domain.toAscii?`: the ASCII form of a name, if it has one.
-/

namespace Scad
namespace Uri
namespace Domain

open Text

/-- ASCII characters that no domain name may hold. -/
def isForbidden (c : Char) : Bool :=
  decide (c.toNat ≤ 0x20) || c.toNat == 0x7F ||
    ['%', '#', '/', ':', '<', '>', '?', '@', '[', '\\', ']', '^', '|'].contains c

/-- Whether a label is ASCII. -/
def isAscii (label : List Char) : Bool := label.all fun c => decide (c.toNat < 0x80)

/-- The beginning of a coded label. -/
def codeMark : List Char := "xn--".toList

/-- Whether a label begins with no mark and its joiners are in place. -/
def isWellFormed (label : List Char) : Bool :=
  !(label.head?.any Mark.isMark) && joinersInPlace [] label

/-- Whether a label is what every name equivalent to it becomes. -/
def isNormal (label : List Char) : Bool :=
  label.all (fun c => replacement? c == some [c]) && composed label == label

/-- The greatest number of characters of a label that is coded. -/
def longestLabel : Nat := 1000

/-- The greatest number of characters that code a label. -/
def longestCode : Nat := 2000

/-- The label that a label stands for, which is another one if it is coded. Only a label with
characters above ASCII may be coded, and its code is ASCII. -/
def reveal? (label : List Char) : Option (List Char) :=
  match dropLead? codeMark label with
  | none => if isWellFormed label then some label else none
  | some code =>
    if isAscii code = false ∨ longestCode < code.length then none
    else do
      let plain ← Punycode.decode? code
      if !isAscii plain && isNormal plain && isWellFormed plain then some plain else none

/-- Whether a label, once it is revealed, can be coded. -/
def isEncodable (label : List Char) : Bool := isAscii label || decide (label.length ≤ longestLabel)

/-- A label in ASCII. -/
def encodeLabel (label : List Char) : List Char :=
  if isAscii label then label else codeMark ++ Punycode.encode label

/-- The ASCII form of a domain name, if it has one. -/
def toAscii? (name : List Char) : Option (List Char) := do
  let replaced ← name.mapM replacement?
  let labels := splitOn (· == '.') (composed replaced.flatten)
  let plain ← labels.mapM reveal?
  if plain.any hasRight && !plain.all isLegible || !plain.all isEncodable then none
  else
    let ascii := join ['.'] (labels.map encodeLabel)
    if ascii.any isForbidden then none else some ascii

end Domain
end Uri
end Scad
