import Mathlib.Data.List.Forall2
import Scad.Proofs.Outline.State

/-!
# Scad.Proofs.Outline.Core

What the outline takes from the comments and the blanks of a source: documentation, and nothing
else.

* `Token.core`, `Leaf.core`: a token without the blanks before it, a leaf without comments and
  blanks.
* `Item.ofLeaves_core`: the items of a source without comments and blanks are its items without
  comments and blanks.
* `Declaration.Sketch`: a declaration but for its documentation and its end.
* `Outline.ofTokens_core`: tokens with the same cores, comments left out, have the same outline but
  for documentation and the faults of brackets.
-/

namespace Scad

/-- The token without the blanks before it. -/
def Token.core (t : Token) : Token := { t with gap := [] }

namespace Leaf

/-- The leaf without comments and blanks. -/
def core (l : Leaf) : Leaf := ⟨[], l.token.core⟩

@[simp] theorem is_core (l : Leaf) (s : String) : l.core.is s = l.is s := rfl

@[simp] theorem isAny_core (l : Leaf) (ss : List String) : l.core.isAny ss = l.isAny ss := rfl

@[simp] theorem kind_core (l : Leaf) : l.core.token.kind = l.token.kind := rfl

@[simp] theorem start_core (l : Leaf) : l.core.token.start = l.token.start := rfl

@[simp] theorem stop_core (l : Leaf) : l.core.token.stop = l.token.stop := rfl

theorem map_core_ofTokensFrom (cs ts : List Token) :
    (ofTokensFrom cs ts).map core = (Token.significant ts).map fun t => ⟨[], t.core⟩ := by
  induction ts generalizing cs with
  | nil => rfl
  | cons t ts ih =>
    rw [ofTokensFrom, Token.significant]
    cases hc : t.isComment with
    | true =>
      rw [if_pos rfl, ih, List.filter_cons_of_neg (by simp [hc])]
      rfl
    | false =>
      rw [if_neg Bool.false_ne_true, List.map_cons, ih, List.filter_cons_of_pos (by simp [hc])]
      rfl

/-- The leaves of a source are known up to comments and blanks by its tokens that are no
comments. -/
theorem map_core_ofTokens {ts : List Token} {ls : List Leaf}
    (h : (Token.significant ts).map Token.core = ls.map fun l => l.token.core) :
    (ofTokens ts).map core = ls.map core := by
  have hmap := congrArg (List.map fun t => (⟨[], t⟩ : Leaf)) h
  rw [List.map_map, List.map_map] at hmap
  rw [ofTokens, map_core_ofTokensFrom]
  exact hmap

end Leaf

/-! ## Items -/

namespace Item

open Leaf

def Stretch.core (s : Stretch) : Stretch := ⟨s.ended, s.taken.map Leaf.core, s.rest.map Leaf.core⟩

def Shape.core : Shape → Shape
  | .skipped => .skipped
  | .included path => .included path.core
  | .declared kind name => .declared kind name.core
  | .openedModule name => .openedModule name.core
  | .openedBlock => .openedBlock
  | .closed => .closed

/-- The item without comments and blanks. -/
def core (it : Item) : Item := ⟨it.shape.core, it.first.core, it.others.map Leaf.core, it.faults⟩

@[simp] theorem Stretch.core_cons (l : Leaf) (s : Stretch) :
    (s.cons l).core = s.core.cons l.core := rfl

theorem stop_core (it : Item) : it.core.stop = it.stop := by
  simp only [stop, core, List.getLast?_map]
  cases it.others.getLast? <;> rfl

theorem Stretch.core_mk (ended : Bool) (taken rest : List Leaf) :
    core ⟨ended, taken, rest⟩ = ⟨ended, taken.map Leaf.core, rest.map Leaf.core⟩ := rfl

theorem parameters_core (depth : Nat) (ls : List Leaf) :
    parameters depth (ls.map Leaf.core) = (parameters depth ls).core := by
  induction ls generalizing depth with
  | nil => rfl
  | cons l ls ih =>
    simp only [List.map_cons, parameters, is_core, ih, apply_ite Stretch.core, Stretch.core_cons,
      Stretch.core_mk, List.map_nil]

theorem expression_core (depth : Nat) (ls : List Leaf) :
    expression depth (ls.map Leaf.core) = (expression depth ls).core := by
  induction ls generalizing depth with
  | nil => rfl
  | cons l ls ih =>
    simp only [List.map_cons, expression, is_core, isAny_core, ih, apply_ite Stretch.core,
      Stretch.core_cons, Stretch.core_mk, List.map_nil]

theorem statementRest_core (depth : Nat) (ls : List Leaf) :
    statementRest depth (ls.map Leaf.core) = (statementRest depth ls).core := by
  induction ls generalizing depth with
  | nil => rfl
  | cons l ls ih =>
    simp only [List.map_cons, statementRest, is_core, isAny_core, ih, apply_ite Stretch.core,
      Stretch.core_cons, Stretch.core_mk, List.map_nil]

theorem statement_core (ls : List Leaf) :
    statement (ls.map Leaf.core) = (statement ls).core := by
  cases ls with
  | nil => rfl
  | cons l ls =>
    simp only [List.map_cons, statement, is_core, isAny_core, statementRest_core,
      apply_ite Stretch.core, Stretch.core_cons, Stretch.core_mk, List.map_nil]

theorem here_core (eof : Nat) (ls : List Leaf) : here eof (ls.map Leaf.core) = here eof ls := by
  cases ls <;> rfl

theorem parameterList_core (eof : Nat) (kind : Declaration.Kind) (ls : List Leaf) :
    parameterList eof kind (ls.map Leaf.core) =
      ((parameterList eof kind ls).1.core, (parameterList eof kind ls).2) := by
  have hhead : (ls.map Leaf.core).head?.any (Leaf.is · "(") = ls.head?.any (Leaf.is · "(") := by
    cases ls <;> rfl
  simp only [parameterList, hhead, parameters_core, here_core]
  split <;> rfl

theorem definition_core (stop : Nat) (ls : List Leaf) :
    definition stop (ls.map Leaf.core) = ((definition stop ls).1.core, (definition stop ls).2) := by
  simp only [definition, expression_core, Stretch.core, List.getLast?_map, Option.map_map]
  rfl

/-- An item and the leaves after it, without comments and blanks. -/
def coreRest (r : Item × List Leaf) : Item × List Leaf := (r.1.core, r.2.map Leaf.core)

theorem moduleItem_core (eof : Nat) (keyword name : Leaf) (ls : List Leaf) :
    moduleItem eof keyword.core name.core (ls.map Leaf.core) =
      coreRest (moduleItem eof keyword name ls) := by
  have hbody := statement_core (parameterList eof .module ls).1.rest
  simp only [moduleItem, parameterList_core, Stretch.core, hbody, coreRest, core,
    apply_ite Shape.core, List.map_append, List.map_cons]
  rfl

theorem functionItem_core (eof : Nat) (keyword name : Leaf) (ls : List Leaf) :
    functionItem eof keyword.core name.core (ls.map Leaf.core) =
      coreRest (functionItem eof keyword name ls) := by
  simp only [functionItem, parameterList_core, Stretch.core]
  cases (parameterList eof .function ls).1.rest with
  | nil => rfl
  | cons l rest =>
    have hdefinition := definition_core l.token.stop rest
    simp only [List.map_cons, is_core, Leaf.stop_core, start_core, hdefinition,
      apply_ite coreRest]
    simp only [coreRest, core, Stretch.core, List.map_append, List.map_cons]
    rfl

theorem keywordDeclaration_core (eof : Nat) (kind : Declaration.Kind) (keyword : Leaf)
    (ls : List Leaf) :
    keywordDeclaration eof kind keyword.core (ls.map Leaf.core) =
      coreRest (keywordDeclaration eof kind keyword ls) := by
  cases ls with
  | nil => rfl
  | cons name rest =>
    simp only [keywordDeclaration, List.map_cons, kind_core, apply_ite coreRest]
    cases kind <;> simp only [functionItem_core, moduleItem_core] <;> rfl

theorem variableItem_core (name equals : Leaf) (ls : List Leaf) :
    variableItem name.core equals.core (ls.map Leaf.core) =
      coreRest (variableItem name equals ls) := by
  simp only [variableItem, Leaf.stop_core, definition_core]
  rfl

theorem reference_core (word path : Leaf) (ls : List Leaf) :
    reference word.core path.core (ls.map Leaf.core) = coreRest (reference word path ls) := by
  cases ls with
  | nil => rfl
  | cons l rest =>
    simp only [reference, List.map_cons, is_core, apply_ite coreRest]
    rfl

theorem other_core (l : Leaf) (ls : List Leaf) :
    other l.core (ls.map Leaf.core) = coreRest (other l ls) := by
  have hstatement := statement_core (l :: ls)
  rw [List.map_cons] at hstatement
  simp only [other, hstatement, Stretch.core, coreRest, core, List.map_tail, apply_ite Shape.core]
  rfl

theorem next_core (eof : Nat) (l : Leaf) (ls : List Leaf) :
    next eof l.core (ls.map Leaf.core) = coreRest (next eof l ls) := by
  cases ls with
  | nil =>
    simp only [next, is_core, kind_core, apply_ite coreRest, ← keywordDeclaration_core,
      ← other_core]
    rfl
  | cons m rest =>
    simp only [next, is_core, isAny_core, kind_core, List.map_cons, apply_ite coreRest,
      ← keywordDeclaration_core, ← reference_core, ← variableItem_core, ← other_core]
    rfl

/-- No test of the reading sees comments or blanks. -/
theorem ofLeaves_core (eof : Nat) (ls : List Leaf) :
    ofLeaves eof (ls.map Leaf.core) = (ofLeaves eof ls).map core := by
  fun_induction ofLeaves eof ls with
  | case1 => rw [List.map_nil, ofLeaves, List.map_nil]
  | case2 l ls ih =>
    rw [List.map_cons, ofLeaves, next_core, List.map_cons]
    exact congrArg _ ih

end Item

/-! ## Outlines -/

/-- What there is to a declaration besides its documentation and its end. -/
inductive Declaration.Sketch where
  | mk (name : String) (kind : Declaration.Kind) (start : Nat) (nameSpan : Span Nat)
      (children : List Declaration.Sketch)
  deriving Repr

namespace Declaration

mutual

def sketch : Declaration Nat → Sketch
  | ⟨name, kind, span, nameSpan, _, children⟩ =>
    ⟨name, kind, span.start, nameSpan, sketches children⟩

/-- A forest of declarations without documentation and without the ends of declarations. -/
def sketches : List (Declaration Nat) → List Sketch
  | [] => []
  | d :: ds => d.sketch :: sketches ds

end

@[simp] theorem sketches_nil : sketches [] = [] := by rw [sketches]

@[simp] theorem sketches_cons (d : Declaration Nat) (ds : List (Declaration Nat)) :
    sketches (d :: ds) = d.sketch :: sketches ds := by rw [sketches]

@[simp] theorem sketches_append (ds es : List (Declaration Nat)) :
    sketches (ds ++ es) = sketches ds ++ sketches es := by
  induction ds with
  | nil => rfl
  | cons d ds ih => rw [List.cons_append, sketches_cons, ih, sketches_cons, List.cons_append]

end Declaration

namespace Outline

open Declaration

theorem sketch_declare (kind : Declaration.Kind) (first : Leaf) (name : Token) (stop : Nat)
    (inner : List (Declaration Nat)) :
    (declare kind first name stop inner).sketch =
      ⟨String.ofList name.text, kind, first.token.start, spanOf name, sketches inner⟩ := by
  rw [declare, sketch]

/-- The block `g` is `f` without comments and blanks, after declarations of the same sketches. -/
structure Frame.Cored (f g : Frame) : Prop where
  owner : g.owner = f.owner.map fun o => (o.1.core, o.2.core)
  before : sketches g.before = sketches f.before

theorem sketches_close {f g : Frame} (h : f.Cored g) {ds es : List (Declaration Nat)}
    (hd : sketches es = sketches ds) (stop stop' : Nat) :
    sketches (g.close es stop') = sketches (f.close ds stop) := by
  obtain ⟨ho, hb⟩ := h
  rw [Frame.close, Frame.close, ho]
  cases f.owner with
  | none => simp only [Option.map_none, sketches_append, hb, hd]
  | some o =>
    simp only [Option.map_some, sketches_append, hb, sketches_cons, sketch_declare, hd]
    rfl

theorem sketches_foldl_close {fs gs : List Frame} (h : List.Forall₂ Frame.Cored fs gs)
    {ds es : List (Declaration Nat)} (hd : sketches es = sketches ds) (stop stop' : Nat) :
    sketches (gs.foldl (fun inner f => f.close inner stop') es) =
      sketches (fs.foldl (fun inner f => f.close inner stop) ds) := by
  induction h generalizing ds es with
  | nil => exact hd
  | cons hf _ ih => exact ih (sketches_close hf hd stop stop')

theorem sketches_nestFrom (its : List Item) {fs gs : List Frame}
    (h : List.Forall₂ Frame.Cored fs gs) {ds es : List (Declaration Nat)}
    (hd : sketches es = sketches ds) (stop stop' : Nat) :
    sketches (nestFrom gs es stop' (its.map Item.core)) = sketches (nestFrom fs ds stop its) := by
  induction its generalizing fs gs ds es stop stop' with
  | nil => exact sketches_foldl_close h hd stop stop'
  | cons it its ih =>
    have hshape : it.core.shape = it.shape.core := rfl
    simp only [List.map_cons, nestFrom, hshape]
    cases it.shape with
    | skipped => exact ih h hd _ _
    | included path => exact ih h hd _ _
    | declared kind name =>
      refine ih h ?_ _ _
      simp only [sketches_append, hd, sketches_cons, sketch_declare]
      rfl
    | openedModule name => exact ih (.cons ⟨rfl, hd⟩ h) rfl _ _
    | openedBlock => exact ih (.cons ⟨rfl, hd⟩ h) rfl _ _
    | closed =>
      cases h with
      | nil => exact ih .nil hd _ _
      | cons hf hfs => exact ih hfs (sketches_close hf hd _ _) _ _

/-- Comments and blanks change documentation only. -/
theorem sketches_nest_core (its : List Item) :
    sketches (nest (its.map Item.core)) = sketches (nest its) :=
  sketches_nestFrom its .nil rfl 0 0

theorem references_core (its : List Item) :
    (its.map Item.core).filterMap reference? = its.filterMap reference? := by
  have hreference : reference? ∘ Item.core = reference? := by
    funext it
    obtain ⟨shape, first, others, faults⟩ := it
    cases shape <;> rfl
  rw [List.filterMap_map, hreference]

theorem faults_core (its : List Item) :
    (its.map Item.core).flatMap Item.faults = its.flatMap Item.faults := by
  rw [List.flatMap_map]
  rfl

/-- The outline but for documentation is read off any leaves with the same cores. -/
theorem ofTokens_core (length : Nat) {ts : List Token} {ls : List Leaf}
    (h : (Token.significant ts).map Token.core = ls.map fun l => l.token.core) :
    sketches (ofTokens length ts).declarations = sketches (nest (Item.ofLeaves length ls)) ∧
      (ofTokens length ts).references = (Item.ofLeaves length ls).filterMap reference? ∧
      (ofTokens length ts).faults =
        (Bracket.faults ts ++ (Item.ofLeaves length ls).flatMap Item.faults).mergeSort
          fun a b => decide (a.offset ≤ b.offset) := by
  have hitems : (Item.ofLeaves length (Leaf.ofTokens ts)).map Item.core =
      (Item.ofLeaves length ls).map Item.core := by
    rw [← Item.ofLeaves_core, ← Item.ofLeaves_core, Leaf.map_core_ofTokens h]
  refine ⟨?_, ?_, ?_⟩
  · rw [ofTokens, ← sketches_nest_core, hitems, sketches_nest_core]
  · rw [ofTokens, ← references_core, hitems, references_core]
  · rw [ofTokens, ← faults_core, hitems, faults_core]

end Outline
end Scad
