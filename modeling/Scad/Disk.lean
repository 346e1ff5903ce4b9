import Scad.FilePath
import Scad.Table

/-!
# Scad.Disk

The files that can be read. A disk gives every location below the root, a list of names, its file or
directory.

* `Disk.locate?`: where a path leads. Every step but the last must be made in a directory, the steps
  `.` and `..` and the one after a trailing slash included.
* `Disk.readText?`: the text of the file a path leads to.
* `Disk.list?`: the entries of the directory a path leads to.
* `Disk.write`, `Disk.remove`: a disk with one entry changed.
-/

namespace Scad

/-- The name of a file or directory in the directory that holds it. -/
abbrev Disk.Name := List UInt8

/-- What stands at a location. -/
inductive Disk.Entry where
  | file (content : List UInt8)
  | directory
  deriving DecidableEq, Repr

/-- The files and directories below the root. -/
structure Disk where
  entries : Table (List Disk.Name) Disk.Entry

namespace Disk

open Text

/-- A disk with nothing on it. -/
def empty : Disk := ⟨Table.empty⟩

/-- What stands at a location. The root is a directory. -/
def entry? (d : Disk) (location : List Name) : Option Entry :=
  if location = [] then some .directory else d.entries.get? location

/-- The location one step from another. -/
def step? (d : Disk) (location : List Name) (s : List UInt8) : Option (List Name) :=
  if d.entry? location = some .directory then
    match FilePath.component? s with
    | some (.name n) => if (d.entry? (location ++ [n])).isSome then some (location ++ [n]) else none
    | some .up => some location.dropLast
    | _ => some location
  else none

/-- The number of bytes of the longest path that can be followed. -/
def longestPath : Nat := 4095

/-- The location that a path leads to. Only an absolute path leads anywhere, and it must be neither
too long nor hold a zero. -/
def locate? (d : Disk) (p : FilePath) : Option (List Name) :=
  if p.isAbsolute ∧ p.bytes.all (· != 0) = true ∧ p.bytes.length ≤ longestPath then
    (FilePath.segments p.bytes).tail.foldlM d.step? []
  else none

/-- The text of the file that a path leads to, if it is well-formed. -/
def readText? (d : Disk) (p : FilePath) : Option (List Char) := do
  match d.entry? (← d.locate? p) with
  | some (.file content) => Utf8.decode? content
  | _ => none

/-- The names in the directory that a path leads to, with what they stand for. -/
def list? (d : Disk) (p : FilePath) : Option (List (Name × Entry)) := do
  let location ← d.locate? p
  if d.entry? location = some .directory then
    some (d.entries.entries.filterMap fun (place, entry) =>
      match place.getLast? with
      | some n => if place.dropLast = location then some (n, entry) else none
      | none => none)
  else none

/-! ## Changes -/

/-- The location that a step of a path leads to. -/
def follow (location : List Name) : FilePath.Component → List Name
  | .name n => location ++ [n]
  | .up => location.dropLast
  | .root | .current => location

/-- The locations that the steps of a path lead to, one after another. -/
def way (location : List Name) : List FilePath.Component → List (List Name)
  | [] => []
  | c :: cs => follow location c :: way (follow location c) cs

/-- The location that a path names, whether there is something or not. -/
def locationOf (p : FilePath) : List Name := p.components.foldl follow []

/-- The disk with a directory at a location where there was nothing. -/
def makeDirectory (d : Disk) (location : List Name) : Disk :=
  if (d.entry? location).isSome then d else ⟨d.entries.insert location .directory⟩

/-- The disk with an entry at the location that a path names, and the directories on the way. A
directory stays one. -/
def write (d : Disk) (p : FilePath) (e : Entry) : Disk :=
  let location := locationOf p
  let d := (way [] p.components).dropLast.foldl makeDirectory d
  if d.entry? location = some .directory then d else ⟨d.entries.insert location e⟩

/-- The disk without the file or the whole directory that a path names. -/
def remove (d : Disk) (p : FilePath) : Disk :=
  ⟨⟨d.entries.entries.filter fun e => !(locationOf p).isPrefixOf e.1⟩⟩

end Disk
end Scad
