import Scad.Number.Double

/-!
# Scad.Json

JSON values as the editor sends and receives them. A number is an integer only if it was written as
one and fits 64 bits; every other number is a real number of double precision, so `1.0` is not the
integer `1`.

* `Json.get?`: the member of an object; the last one where a key is repeated.
* `Json.member`: the same, with an absent member read as `null`.
* `Json.ofPairs`: an object without its absent members.
-/

namespace Scad

/-- JSON values. A real number has its sign apart, because zero has one too. -/
inductive Json where
  | null
  | bool (b : Bool)
  | int (n : Int)
  | real (negative : Bool) (magnitude : Double)
  | str (s : String)
  | arr (items : List Json)
  | obj (members : List (String × Json))
  deriving Repr

namespace Json

instance : Inhabited Json := ⟨.null⟩

/-- The member of an object with the given key; of several the last. -/
def get? (j : Json) (key : String) : Option Json :=
  match j with
  | .obj members => (members.reverse.find? fun m => m.1 == key).map Prod.snd
  | _ => none

/-- The member of an object with the given key, `null` if there is none. -/
def member (j : Json) (key : String) : Json := (j.get? key).getD .null

/-- Members in the order of their keys; of several with one key the last. -/
def distinct (members : List (String × Json)) : List (String × Json) :=
  let kept := members.foldr (fun m later =>
    if later.any fun l => l.1 == m.1 then later else m :: later) []
  kept.mergeSort fun a b => decide (a.1 ≤ b.1)

/-- Whether a value is `null`. -/
def isNull : Json → Bool
  | .null => true
  | _ => false

/-- The text of a string. -/
def str? : Json → Option String
  | .str s => some s
  | _ => none

/-- The truth value of a boolean. -/
def bool? : Json → Option Bool
  | .bool b => some b
  | _ => none

/-- The value of an integer. -/
def int? : Json → Option Int
  | .int n => some n
  | _ => none

/-- The least number that takes more than 64 bits. -/
def wordLimit : Int := 18446744073709551616

/-- The value of an integer from 0 up to the limit of 64 bits. -/
def nat? : Json → Option Nat
  | .int n => if 0 ≤ n ∧ n < wordLimit then some n.toNat else none
  | _ => none

/-- The items of an array. -/
def arr? : Json → Option (List Json)
  | .arr items => some items
  | _ => none

/-- The members of an object. -/
def obj? : Json → Option (List (String × Json))
  | .obj members => some members
  | _ => none

/-- The integer with the value of a natural number. -/
def nat (n : Nat) : Json := .int (Int.ofNat n)

/-- The object of the members that are present. -/
def ofPairs (members : List (String × Option Json)) : Json :=
  .obj (members.filterMap fun m => m.2.map fun v => (m.1, v))

end Json
end Scad
