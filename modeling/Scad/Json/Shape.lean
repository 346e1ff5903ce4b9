import Scad.Json.Writer
import Scad.Text.Quoted
import Scad.Uri

/-!
# Scad.Json.Shape

The shapes that JSON values must have where a message is read, and the reason for which a value does
not have its shape. A record is an object with certain members, or an array of their values in
order. Members are read in the order of their keys, and the first that does not fit decides.

A record may also be made of parts that share its object. What a part takes is read later than the
members of the record itself, and records with parts cannot be written as arrays.

* `Json.Shape.read`: the value in normal form: records are objects, with only the members of their
  shape, and members that are optional and `null` are left out.
* `Json.Shape.Misfit.message`: the text of a reason.
-/

namespace Scad
namespace Json

/-- The shapes of values. -/
inductive Shape where
  | any
  | bool
  | string
  /-- An integer of 32 bits without a sign. -/
  | natural
  /-- An integer of 32 bits with a sign. -/
  | integer
  | real
  | uri
  /-- A value that may be `null`, and as a member of an object may be absent. -/
  | option (shape : Shape)
  | list (item : Shape)
  /-- A list with a fixed number of items. -/
  | vector (count : Nat) (item : Shape)
  /-- An object with any keys of a shape; `name` is what it is called. -/
  | dict (name : String) (key value : Shape)
  /-- One of some words. -/
  | word (options : List String)
  /-- The first of some shapes that fits. -/
  | choice (name : String) (alternatives : List Shape)
  /-- A boolean or a value of a shape. -/
  | orBool (shape : Shape)
  /-- A record of the named kind. Each field has a key, whether it may be absent even from an array,
  and a shape. -/
  | record (name : String) (fields : List (String × Bool × Shape)) (parts : List Shape)

namespace Shape

instance : Inhabited Shape := ⟨.any⟩

/-- A field of a record: its key, whether it may be absent even from an array, and its shape. -/
abbrev Field := String × Bool × Shape

/-- A field that must be there. -/
def needed (key : String) (shape : Shape) : Field := (key, false, shape)

/-- A field that an object need not have. -/
def optional (key : String) (shape : Shape) : Field := (key, false, .option shape)

/-- A field that neither an object nor an array need have. -/
def omissible (key : String) (shape : Shape) : Field := (key, true, .option shape)

/-- The reason for which a value does not have a shape. -/
inductive Misfit where
  /-- A value of another type. -/
  | type (found : Json) (expected : String)
  /-- A value of the right type that cannot be used. -/
  | value (found : Json) (expected : String)
  /-- An array of the wrong length. -/
  | length (found : Nat) (expected : String)
  /-- A member that must be there. -/
  | missing (key : String)
  /-- A value that fits none of the shapes of a choice. -/
  | unmatched (name : String)
  /-- A word that is none of the expected ones. -/
  | unknown (found : String) (options : List String)
  /-- A text that is no uri. -/
  | uri (fault : Uri.Fault) (text : String)

/-- What a value is. -/
def describe : Json → String
  | .null => "null"
  | .bool b => "boolean `" ++ (if b then "true" else "false") ++ "`"
  | .int n => "integer `" ++ toString n ++ "`"
  | .real negative magnitude => "floating point `" ++ renderReal negative magnitude ++ "`"
  | .str s => "string " ++ Text.Quoted.render s
  | .arr _ => "sequence"
  | .obj _ => "map"

/-- A word between backticks. -/
def ticked (s : String) : String := "`" ++ s ++ "`"

/-- A choice of words. -/
def oneOf : List String → String
  | [a] => ticked a
  | [a, b] => ticked a ++ " or " ++ ticked b
  | options => "one of " ++ String.intercalate ", " (options.map ticked)

/-- A number of elements. -/
def elements (n : Nat) : String := toString n ++ (if n = 1 then " element" else " elements")

/-- The text of a reason. -/
def Misfit.message : Misfit → String
  | .type found expected => "invalid type: " ++ describe found ++ ", expected " ++ expected
  | .value found expected => "invalid value: " ++ describe found ++ ", expected " ++ expected
  | .length found expected => "invalid length " ++ toString found ++ ", expected " ++ expected
  | .missing key => "missing field " ++ ticked key
  | .unmatched name => "data did not match any variant of untagged enum " ++ name
  | .unknown found options => "unknown variant " ++ ticked found ++ ", expected " ++ oneOf options
  | .uri fault text => fault.message ++ ": " ++ Text.Quoted.render text

/-- Whether a member of this shape may be absent from an object. -/
def isOptional : Shape → Bool
  | .option _ => true
  | _ => false

/-- The keys of the members that a record has itself. -/
def keys : Shape → List String
  | .record _ fields _ => fields.map Prod.fst
  | _ => []

/-! ## Reading -/

/-- An integer between two bounds. -/
def readInt (low high : Int) (name : String) (j : Json) : Except Misfit Json :=
  match j with
  | .int n => if low ≤ n ∧ n ≤ high then .ok j else .error (.value j name)
  | _ => .error (.type j name)

/-- The text of a uri. -/
def readUri (j : Json) : Except Misfit Json :=
  match j with
  | .str text =>
    match Uri.parse text with
    | .ok _ => .ok j
    | .error fault => .error (.uri fault text)
  | _ => .error (.type j "a string representing an URL")

/-- One of some words. -/
def readWord (options : List String) (j : Json) : Except Misfit Json :=
  match j with
  | .str text => if options.contains text then .ok j else .error (.unknown text options)
  | .obj [(text, content)] =>
    if options.contains text then
      if content.isNull then .ok (.str text) else .error (.type content "unit")
    else .error (.unknown text options)
  | .obj _ => .error (.value j "map with a single key")
  | _ => .error (.type j "string or map")

/-- The members that an object must have, if they are there. -/
def checkFields (fields : List Field) (members : List (String × Json)) :
    Except Misfit Unit :=
  let present (key : String) := members.any fun m => m.1 == key
  match fields.find? fun f => !(f.2.1 || f.2.2.isOptional || present f.1) with
  | some f => .error (.missing f.1)
  | none => .ok ()

/-- The members of a value in normal form. An optional one that is `null` is left out. -/
def keep (key : String) (shape : Shape) (value : Json) : List (String × Json) :=
  if shape.isOptional && value.isNull then [] else [(key, value)]

/-- The refusal of the items of an array of `length` items that are left over after `taken`. Inside
of parts and choices it has other words. -/
def surplus (inner : Bool) (length taken : Nat) : Misfit :=
  .length length (if inner then elements taken ++ " in sequence" else "fewer elements in array")

mutual

/-- A value in the normal form of its shape. `inner` says that it belongs to a part or a choice. -/
def readAs (inner : Bool) : Shape → Json → Except Misfit Json
  | .any, j => .ok j
  | .bool, j =>
    match j with
    | .bool _ => .ok j
    | _ => .error (.type j "a boolean")
  | .string, j =>
    match j with
    | .str _ => .ok j
    | _ => .error (.type j "a string")
  | .natural, j => readInt 0 4294967295 "u32" j
  | .integer, j => readInt (-2147483648) 2147483647 "i32" j
  | .real, j =>
    match j with
    | .int _ | .real _ _ => .ok j
    | _ => .error (.type j "f32")
  | .uri, j => readUri j
  | .option shape, j => if j.isNull then .ok .null else readAs inner shape j
  | .list item, j =>
    match j with
    | .arr items => (items.mapM fun i => readAs inner item i).map Json.arr
    | _ => .error (.type j "a sequence")
  | .vector count item, j =>
    let name := "an array of length " ++ toString count
    match j with
    | .arr items => do
      let read ← (items.take count).mapM fun i => readAs inner item i
      if items.length < count then .error (.length items.length name)
      else if count < items.length then .error (surplus inner items.length count)
      else .ok (.arr read)
    | _ => .error (.type j name)
  | .dict name key value, j =>
    match j with
    | .obj members => do
      let read ← (distinct members).mapM fun m => do
        let _ ← readAs inner key (.str m.1)
        return (m.1, ← readAs inner value m.2)
      return .obj read
    | _ => .error (.type j name)
  | .word options, j => readWord options j
  | .choice name alternatives, j =>
    match readFirst? alternatives j with
    | some read => .ok read
    | none => .error (.unmatched name)
  | .orBool shape, j =>
    match j with
    | .bool _ => .ok j
    | _ => readAs inner shape j
  | .record name fields parts, j =>
    match j with
    | .obj members => do
      let members := distinct members
      let own ← members.mapM fun m => readField inner fields m
      checkFields fields members
      let rest := members.filter fun m => !(fields.map Prod.fst).contains m.1
      return .obj (own.flatten ++ (← readParts parts rest))
    | .arr items =>
      if parts.isEmpty then
        (readItems inner fields items items.length 0
          ("struct " ++ name ++ " with " ++ elements fields.length)).map Json.obj
      else .error (.type j ("struct " ++ name))
    | _ => .error (.type j ("struct " ++ name))

/-- The member of a record that is read from a member of an object, if it is one. -/
def readField (inner : Bool) :
    List Field → String × Json → Except Misfit (List (String × Json))
  | [], _ => .ok []
  | (key, _, shape) :: fields, member =>
    if key = member.1 then (readAs inner shape member.2).map (keep key shape)
    else readField inner fields member

/-- The members of a record that are read from the items of an array; `index` items of `length` were
read before, and `name` is what the whole array should be. -/
def readItems (inner : Bool) : List Field → List Json → Nat → Nat → String →
    Except Misfit (List (String × Json))
  | [], [], _, _, _ => .ok []
  | [], _ :: _, length, index, _ => .error (surplus inner length index)
  | (_, absent, _) :: fields, [], length, index, name =>
    if absent then readItems inner fields [] length (index + 1) name
    else .error (.length index name)
  | (key, _, shape) :: fields, item :: items, length, index, name => do
    let read ← readAs inner shape item
    let others ← readItems inner fields items length (index + 1) name
    return keep key shape read ++ others

/-- The members that the parts of a record take from the members left over. -/
def readParts : List Shape → List (String × Json) → Except Misfit (List (String × Json))
  | [], _ => .ok []
  | part :: parts, members => do
    let read ← readAs true part (.obj members)
    let others ← readParts parts (members.filter fun m => !part.keys.contains m.1)
    return (read.obj?).getD [] ++ others

/-- A value in the normal form of the first shape that fits. -/
def readFirst? : List Shape → Json → Option Json
  | [], _ => none
  | shape :: shapes, j =>
    match readAs true shape j with
    | .ok read => some read
    | .error _ => readFirst? shapes j

end

/-- A value in the normal form of its shape. -/
def read (shape : Shape) (j : Json) : Except Misfit Json := readAs false shape j

end Shape
end Json
end Scad
