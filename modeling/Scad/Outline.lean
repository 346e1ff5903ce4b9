import Scad.Outline.Bracket
import Scad.Outline.Item

/-!
# Scad.Outline

The outline of a source: its declarations, nested as the blocks are, the files it refers to and its
structural faults.

`Outline.nest` turns the flat sequence of items into a forest. Declarations in the block of a module
become its children; declarations in the block of any other statement join those around it. A
closing brace outside all blocks is passed over, and blocks still open at the end of the source end
there.
-/

namespace Scad

/-- A reference to another file: the text between the angle brackets, and the extent with them. -/
structure Reference where
  path : String
  span : Span Nat
  deriving DecidableEq, Repr

/-- The outline of a source, each list in source order. -/
structure Outline where
  declarations : List (Declaration Nat)
  references : List Reference
  faults : List Fault
  deriving Repr

namespace Outline

/-- The extent of a token. -/
def spanOf (t : Token) : Span Nat := ⟨t.start, t.stop⟩

/-- The declaration that begins at the leaf `first` and ends at `stop`. -/
def declare (kind : Declaration.Kind) (first : Leaf) (name : Token) (stop : Nat)
    (children : List (Declaration Nat)) : Declaration Nat :=
  ⟨String.ofList name.text, kind, ⟨first.token.start, stop⟩, spanOf name, first.doc, children⟩

/-- An open block: the module it belongs to, if it is a module's, by first leaf and name, and the
declarations found before it in the block around it. -/
structure Frame where
  owner : Option (Leaf × Token)
  before : List (Declaration Nat)
  deriving Repr

/-- The declarations of the surrounding block after a block with the declarations `inner` has ended
at `stop`. -/
def Frame.close (f : Frame) (inner : List (Declaration Nat)) (stop : Nat) :
    List (Declaration Nat) :=
  match f.owner with
  | some (first, name) => f.before ++ [declare .module first name stop inner]
  | none => f.before ++ inner

/-- The declarations of the outermost block, where `frames` are the open blocks, innermost first,
`found` the declarations of the innermost block so far and `stop` the end of what has been read. -/
def nestFrom (frames : List Frame) (found : List (Declaration Nat)) (stop : Nat) :
    List Item → List (Declaration Nat)
  | [] => frames.foldl (fun inner f => f.close inner stop) found
  | it :: items =>
    match it.shape with
    | .skipped | .included _ => nestFrom frames found it.stop items
    | .declared kind name =>
      nestFrom frames (found ++ [declare kind it.first name it.stop []]) it.stop items
    | .openedModule name => nestFrom (⟨some (it.first, name), found⟩ :: frames) [] it.stop items
    | .openedBlock => nestFrom (⟨none, found⟩ :: frames) [] it.stop items
    | .closed =>
      match frames with
      | [] => nestFrom [] found it.stop items
      | f :: frames => nestFrom frames (f.close found it.stop) it.stop items

/-- The forest of declarations of a sequence of items. -/
def nest (items : List Item) : List (Declaration Nat) := nestFrom [] [] 0 items

/-- The file reference of an item, if it is one. -/
def reference? (it : Item) : Option Reference :=
  match it.shape with
  | .included path => some ⟨String.ofList path.text.tail.dropLast, spanOf path⟩
  | _ => none

/-- The outline of a source of `length` characters with the given tokens. Faults are in the order of
their offsets, and at one offset bracket faults come first. -/
def ofTokens (length : Nat) (ts : List Token) : Outline :=
  let items := Item.ofLeaves length (Leaf.ofTokens ts)
  let faults := Bracket.faults ts ++ items.flatMap Item.faults
  { declarations := nest items
    references := items.filterMap reference?
    faults := faults.mergeSort fun a b => decide (a.offset ≤ b.offset) }

end Outline
end Scad
