import Scad.Outline.Fault
import Scad.Outline.Leaf

/-!
# Scad.Outline.Item

A source as a flat sequence of items. An item is a whole declaration, a reference to another file, a
statement, or the part of one of these up to the brace that opens its block; a closing brace is an
item of its own. Items are read one after another and do not depend on how deep they stand, so
nesting is left to the outline.

* `Item.next`: the item at the head of the leaves and the leaves after it.
* `Item.ofLeaves`: all items. `Item.leaves_ofLeaves` says that no leaf is lost or read twice.

What cannot be read as intended gives a fault and never stops the reading.
-/

namespace Scad

/-- What an item is to the outline. -/
inductive Item.Shape where
  /-- Nothing to remember. -/
  | skipped
  /-- A reference to another file, with the token of its path. -/
  | included (path : Token)
  /-- A declaration that is complete, with the token of its name. -/
  | declared (kind : Declaration.Kind) (name : Token)
  /-- A module up to the brace of its block, with the token of its name. -/
  | openedModule (name : Token)
  /-- A statement up to the brace of its block. -/
  | openedBlock
  /-- A closing brace. -/
  | closed
  deriving DecidableEq, Repr

/-- An item: its first leaf, the other leaves it consists of, and the faults found in it. -/
structure Item where
  shape : Item.Shape
  first : Leaf
  others : List Leaf
  faults : List Fault
  deriving DecidableEq, Repr

namespace Item

/-- All leaves of an item. -/
def leaves (it : Item) : List Leaf := it.first :: it.others

/-- The offset just past the last leaf of an item. -/
def stop (it : Item) : Nat := (it.others.getLast?.getD it.first).token.stop

/-! ## Stretches of leaves -/

/-- The beginning of a list of leaves: what belongs to it, what follows it, and whether it came to
the end it was looking for. -/
structure Stretch where
  ended : Bool
  taken : List Leaf
  rest : List Leaf
  deriving DecidableEq, Repr

/-- The stretch with one more leaf in front. -/
def Stretch.cons (l : Leaf) (s : Stretch) : Stretch := ⟨s.ended, l :: s.taken, s.rest⟩

/-- A parameter list, which ends at the parenthesis that closes the first one. -/
def parameters (depth : Nat) : List Leaf → Stretch
  | [] => ⟨false, [], []⟩
  | l :: ls =>
    if l.is "(" then (parameters (depth + 1) ls).cons l
    else if l.is ")" then
      if depth - 1 = 0 then ⟨true, [l], ls⟩ else (parameters (depth - 1) ls).cons l
    else (parameters depth ls).cons l

/-- An expression, which ends with a semicolon outside all brackets. A closing brace or the keyword
of a declaration outside all brackets comes too early: the expression stops before it. -/
def expression (depth : Nat) : List Leaf → Stretch
  | [] => ⟨false, [], []⟩
  | l :: ls =>
    if depth = 0 ∧ l.is ";" = true then ⟨true, [l], ls⟩
    else if depth = 0 ∧ l.isAny [Token.braceClose, "module", "function"] = true then
      ⟨false, [], l :: ls⟩
    else if l.isAny ["(", "[", Token.braceOpen] then (expression (depth + 1) ls).cons l
    else if l.isAny [")", "]", Token.braceClose] then (expression (depth - 1) ls).cons l
    else (expression depth ls).cons l

/-- A statement after its first leaf. It ends with the brace that opens its block, and otherwise
with a semicolon outside parentheses and square brackets or before a closing brace there. `ended`
says that a block was opened. -/
def statementRest (depth : Nat) : List Leaf → Stretch
  | [] => ⟨false, [], []⟩
  | l :: ls =>
    if l.is Token.braceOpen then ⟨true, [l], ls⟩
    else if depth = 0 ∧ l.is Token.braceClose = true then ⟨false, [], l :: ls⟩
    else if l.isAny ["(", "["] then (statementRest (depth + 1) ls).cons l
    else if l.isAny [")", "]"] then (statementRest (depth - 1) ls).cons l
    else if depth = 0 ∧ l.is ";" = true then ⟨false, [l], ls⟩
    else (statementRest depth ls).cons l

/-- A statement. Its first leaf belongs to it even if that is a closing brace. -/
def statement : List Leaf → Stretch
  | [] => ⟨false, [], []⟩
  | l :: ls =>
    if l.is Token.braceOpen then ⟨true, [l], ls⟩
    else if l.isAny ["(", "["] then (statementRest 1 ls).cons l
    else if l.is ";" then ⟨false, [l], ls⟩
    else (statementRest 0 ls).cons l

/-! ## Items -/

/-- Where the next leaf starts, or the end of the source. -/
def here (eof : Nat) (ls : List Leaf) : Nat := ls.head?.elim eof fun l => l.token.start

/-- The parameter list of a declaration, whose parenthesis must come next. -/
def parameterList (eof : Nat) (kind : Declaration.Kind) (ls : List Leaf) : Stretch × List Fault :=
  if ls.head?.any (Leaf.is · "(") then (parameters 0 ls, [])
  else (⟨false, [], ls⟩, [⟨here eof ls, .missingParameters kind⟩])

/-- The expression after an equals sign that ends at `stop`. -/
def definition (stop : Nat) (ls : List Leaf) : Stretch × List Fault :=
  let e := expression 0 ls
  let last := (e.taken.getLast?.map fun l => l.token.stop).getD stop
  (e, if e.ended then [] else [⟨last, .missingSemicolon⟩])

/-- A module: name, parameter list, and a block, a semicolon or one statement. -/
def moduleItem (eof : Nat) (keyword name : Leaf) (ls : List Leaf) : Item × List Leaf :=
  let (ps, faults) := parameterList eof .module ls
  let body := statement ps.rest
  let shape := if body.ended then .openedModule name.token else .declared .module name.token
  (⟨shape, keyword, name :: ps.taken ++ body.taken, faults⟩, body.rest)

/-- A function: name, parameter list, equals sign and expression. -/
def functionItem (eof : Nat) (keyword name : Leaf) (ls : List Leaf) : Item × List Leaf :=
  let (ps, faults) := parameterList eof .function ls
  let shape := .declared .function name.token
  match ps.rest with
  | l :: rest =>
    if l.is "=" then
      let (e, missing) := definition l.token.stop rest
      (⟨shape, keyword, name :: ps.taken ++ l :: e.taken, faults ++ missing⟩, e.rest)
    else
      (⟨shape, keyword, name :: ps.taken, faults ++ [⟨l.token.start, .missingDefinition⟩]⟩,
        l :: rest)
  | [] => (⟨shape, keyword, name :: ps.taken, faults ++ [⟨eof, .missingDefinition⟩]⟩, [])

/-- A declaration that begins with a keyword. Without a name only the keyword is read. -/
def keywordDeclaration (eof : Nat) (kind : Declaration.Kind) (keyword : Leaf) (ls : List Leaf) :
    Item × List Leaf :=
  match ls with
  | name :: rest =>
    if name.token.kind = .ident then
      match kind with
      | .function => functionItem eof keyword name rest
      | _ => moduleItem eof keyword name rest
    else (⟨.skipped, keyword, [], [⟨name.token.start, .missingName kind⟩]⟩, name :: rest)
  | [] => (⟨.skipped, keyword, [], [⟨eof, .missingName kind⟩]⟩, [])

/-- A variable: its name, the equals sign and the expression. -/
def variableItem (name equals : Leaf) (ls : List Leaf) : Item × List Leaf :=
  let (e, missing) := definition equals.token.stop ls
  (⟨.declared .variable name.token, name, equals :: e.taken, missing⟩, e.rest)

/-- A reference to another file with the semicolon that may follow it. -/
def reference (word path : Leaf) : List Leaf → Item × List Leaf
  | l :: rest =>
    if l.is ";" then (⟨.included path.token, word, [path, l], []⟩, rest)
    else (⟨.included path.token, word, [path], []⟩, l :: rest)
  | [] => (⟨.included path.token, word, [path], []⟩, [])

/-- Any other statement. -/
def other (l : Leaf) (ls : List Leaf) : Item × List Leaf :=
  let s := statement (l :: ls)
  (⟨if s.ended then .openedBlock else .skipped, l, s.taken.tail, []⟩, s.rest)

/-- The item that begins with `l`, and the leaves after it. -/
def next (eof : Nat) (l : Leaf) (ls : List Leaf) : Item × List Leaf :=
  if l.is Token.braceClose then (⟨.closed, l, [], []⟩, ls)
  else if l.token.kind = .ident ∧ l.is "module" = true then keywordDeclaration eof .module l ls
  else if l.token.kind = .ident ∧ l.is "function" = true then keywordDeclaration eof .function l ls
  else
    match ls with
    | m :: rest =>
      if l.token.kind = .ident ∧ l.isAny ["include", "use"] = true ∧ m.token.kind = .path then
        reference l m rest
      else if l.token.kind = .ident ∧ m.is "=" = true then variableItem l m rest
      else other l (m :: rest)
    | [] => other l []

/-! ## No leaf is lost -/

@[simp] theorem Stretch.taken_cons (l : Leaf) (s : Stretch) : (s.cons l).taken = l :: s.taken := rfl

@[simp] theorem Stretch.rest_cons (l : Leaf) (s : Stretch) : (s.cons l).rest = s.rest := rfl

theorem parameters_append (depth : Nat) (ls : List Leaf) :
    (parameters depth ls).taken ++ (parameters depth ls).rest = ls := by
  fun_induction parameters depth ls <;> simp_all

theorem expression_append (depth : Nat) (ls : List Leaf) :
    (expression depth ls).taken ++ (expression depth ls).rest = ls := by
  fun_induction expression depth ls <;> simp_all

theorem statementRest_append (depth : Nat) (ls : List Leaf) :
    (statementRest depth ls).taken ++ (statementRest depth ls).rest = ls := by
  fun_induction statementRest depth ls <;> simp_all

theorem statement_append (ls : List Leaf) :
    (statement ls).taken ++ (statement ls).rest = ls := by
  fun_cases statement ls <;> simp_all [statementRest_append]

/-- A statement takes at least its first leaf. -/
theorem statement_taken (l : Leaf) (ls : List Leaf) :
    l :: (statement (l :: ls)).taken.tail = (statement (l :: ls)).taken := by
  simp only [statement]
  repeat' split
  all_goals rfl

theorem parameterList_append (eof : Nat) (kind : Declaration.Kind) (ls : List Leaf) :
    (parameterList eof kind ls).1.taken ++ (parameterList eof kind ls).1.rest = ls := by
  unfold parameterList
  split
  · exact parameters_append 0 ls
  · rfl

theorem moduleItem_append (eof : Nat) (keyword name : Leaf) (ls : List Leaf) :
    (moduleItem eof keyword name ls).1.leaves ++ (moduleItem eof keyword name ls).2 =
      keyword :: name :: ls := by
  simp only [moduleItem, leaves, List.cons_append, List.append_assoc]
  rw [statement_append, parameterList_append]

theorem functionItem_append (eof : Nat) (keyword name : Leaf) (ls : List Leaf) :
    (functionItem eof keyword name ls).1.leaves ++ (functionItem eof keyword name ls).2 =
      keyword :: name :: ls := by
  have h := parameterList_append eof .function ls
  unfold functionItem
  dsimp only
  split
  · rename_i l rest hr
    rw [hr] at h
    split
    · simp only [definition, leaves, List.cons_append, List.append_assoc]
      rw [expression_append, h]
    · simp only [leaves, List.cons_append]
      rw [h]
  · rename_i hr
    rw [hr] at h
    simp only [leaves, List.cons_append]
    rw [h]

theorem keywordDeclaration_append (eof : Nat) (kind : Declaration.Kind) (keyword : Leaf)
    (ls : List Leaf) :
    (keywordDeclaration eof kind keyword ls).1.leaves ++
      (keywordDeclaration eof kind keyword ls).2 =
      keyword :: ls := by
  unfold keywordDeclaration
  split
  · split
    · split
      · exact functionItem_append ..
      · exact moduleItem_append ..
    · rfl
  · rfl

theorem variableItem_append (name equals : Leaf) (ls : List Leaf) :
    (variableItem name equals ls).1.leaves ++ (variableItem name equals ls).2 =
      name :: equals :: ls := by
  simp only [variableItem, definition, leaves, List.cons_append]
  rw [expression_append]

theorem reference_append (word path : Leaf) (ls : List Leaf) :
    (reference word path ls).1.leaves ++ (reference word path ls).2 = word :: path :: ls := by
  fun_cases reference word path ls <;> simp [leaves]

theorem other_append (l : Leaf) (ls : List Leaf) :
    (other l ls).1.leaves ++ (other l ls).2 = l :: ls := by
  simp only [other, leaves]
  rw [statement_taken, statement_append]

/-- The leaves of an item and the leaves after it are all leaves there are. -/
theorem next_append (eof : Nat) (l : Leaf) (ls : List Leaf) :
    (next eof l ls).1.leaves ++ (next eof l ls).2 = l :: ls := by
  unfold next
  split
  · rfl
  split
  · exact keywordDeclaration_append ..
  split
  · exact keywordDeclaration_append ..
  split
  · split
    · exact reference_append ..
    split
    · exact variableItem_append ..
    · exact other_append ..
  · exact other_append ..

/-- Every item takes at least one leaf. -/
theorem next_length (eof : Nat) (l : Leaf) (ls : List Leaf) :
    (next eof l ls).2.length < (l :: ls).length := by
  have h := congrArg List.length (next_append eof l ls)
  simp only [leaves, List.length_append, List.length_cons] at h ⊢
  omega

/-- The items of a list of leaves, in order. `eof` is the length of the source. -/
def ofLeaves (eof : Nat) : List Leaf → List Item
  | [] => []
  | l :: ls => (next eof l ls).1 :: ofLeaves eof (next eof l ls).2
termination_by ls => ls.length
decreasing_by exact next_length eof l ls

/-- The items hold every leaf once, in order. -/
theorem leaves_ofLeaves (eof : Nat) (ls : List Leaf) :
    (ofLeaves eof ls).flatMap leaves = ls := by
  fun_induction ofLeaves eof ls with
  | case1 => rfl
  | case2 l ls ih =>
    simp only [List.flatMap_cons]
    rw [ih, next_append]

end Item
end Scad
