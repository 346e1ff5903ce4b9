import Scad.Text.Line
import Scad.Text.Utf8

/-!
# Scad.FilePath

Paths of files. A path is a list of bytes, kept as it was given, and is compared by its components:
repeated and trailing slashes and `.` do not count, `..` does.

* `FilePath.components`: what a path is compared by.
* `FilePath.parent?`: the path of the directory that holds the last component, as far as it is
  written.
* `FilePath.join`: a path relative to a directory; an absolute path stands for itself.
* `FilePath.nameExtension?`: the part of a file name after its last dot, if something precedes the
  dot.
-/

namespace Scad

/-- A path as it was given. -/
structure FilePath where
  bytes : List UInt8
  deriving DecidableEq, Repr

namespace FilePath

open Text

/-- The byte between components. -/
def slash : UInt8 := 47

/-- The byte before an extension. -/
def dot : UInt8 := 46

/-- The path written by a text. -/
def ofString (s : String) : FilePath := ⟨Utf8.encode s.toList⟩

/-- The path as text, with U+FFFD for what is not UTF-8. -/
def display (p : FilePath) : String := String.ofList (Utf8.decodeLossy p.bytes)

/-- A step of a path. -/
inductive Component where
  | root
  /-- The directory itself, written at the beginning of a relative path. -/
  | current
  | up
  | name (bytes : List UInt8)
  deriving DecidableEq, Repr

/-- The pieces between the slashes of a byte list; never empty. -/
def segments : List UInt8 → List (List UInt8)
  | [] => [[]]
  | b :: bs =>
    if b = slash then [] :: segments bs
    else
      match segments bs with
      | [] => [[b]]
      | s :: rest => (b :: s) :: rest

/-- Whether a path begins at the root. -/
def isAbsolute (p : FilePath) : Bool := p.bytes.head? == some slash

/-- The component a piece stands for, if it counts. -/
def component? (s : List UInt8) : Option Component :=
  if s = [] ∨ s = [dot] then none else if s = [dot, dot] then some .up else some (.name s)

/-- The components of a path. -/
def components (p : FilePath) : List Component :=
  let pieces := segments p.bytes
  let body := pieces.filterMap component?
  if p.isAbsolute then .root :: body
  else if pieces.head? = some [dot] then .current :: body
  else body

/-- Whether two paths have the same components. -/
def same (p q : FilePath) : Bool := p.components == q.components

/-- Pieces, last one first, without those at the front that do not count. -/
def dropIdle (reversed : List (List UInt8)) : List (List UInt8) :=
  reversed.dropWhile fun s => (component? s).isNone

/-- The path with the given pieces between slashes. -/
def ofSegments : List (List UInt8) → FilePath
  | [] => ⟨[]⟩
  | [s] => ⟨s⟩
  | s :: rest => ⟨s ++ slash :: (ofSegments rest).bytes⟩

/-- A path given by its pieces, last one first, without trailing pieces that do not count, but with
what makes it absolute or begins it with `.`. -/
def ofReversed (first : List UInt8) (absolute : Bool) (reversed : List (List UInt8)) : FilePath :=
  match dropIdle reversed with
  | [] =>
    if absolute then ⟨[slash]⟩ else if first = [dot] ∧ reversed ≠ [] then ⟨[dot]⟩ else ⟨[]⟩
  | pieces => ofSegments pieces.reverse

/-- The path without its last component. The root, the empty path and nothing else have none. -/
def parent? (p : FilePath) : Option FilePath :=
  let pieces := segments p.bytes
  let first := pieces.headD []
  match dropIdle pieces.reverse with
  | _ :: before => some (ofReversed first p.isAbsolute before)
  | [] => if p.isAbsolute ∨ first ≠ [dot] then none else some ⟨[]⟩

/-- The path `q` seen from the directory `p`. -/
def join (p q : FilePath) : FilePath :=
  if q.isAbsolute then q
  else if p.bytes = [] ∨ p.bytes.getLast? = some slash then ⟨p.bytes ++ q.bytes⟩
  else ⟨p.bytes ++ slash :: q.bytes⟩

/-- The part of a file name after its last dot, if the name does not begin with that dot. -/
def nameExtension? (name : List UInt8) : Option (List UInt8) :=
  let after := (name.reverse.takeWhile (· != dot)).reverse
  if name.length ≤ after.length + 1 then none else some after

end FilePath
end Scad
