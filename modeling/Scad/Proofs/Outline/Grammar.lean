import Scad.Proofs.Outline.Nesting
import Scad.Proofs.Outline.State
import Scad.Token.Lexer

/-!
# Scad.Proofs.Outline.Grammar

Well-formed programs and their outline.

* `Program`: the syntax trees of well-formed programs, whose leaves are `Program.leaves`. Parameter
  lists, expressions and simple statements are any leaves with their brackets in order.
* `Program.declarations`, `Program.references`: what a program declares and refers to, read off its
  tree.
* `Outline.State.read_program`: reading the leaves of a program adds just that to an outline.
* `Outline.ofTokens_program`: the outline of every well-formed program is that of its tree.
-/

namespace Scad

open Scad.Bracket Leaf

namespace Program

/-- A leaf that is the punctuation `s`. -/
structure Mark (s : String) where
  leaf : Leaf
  punct : leaf.token.kind = .punct
  reads : leaf.is s = true

/-- A leaf that is the word `s`. -/
structure Word (s : String) where
  leaf : Leaf
  ident : leaf.token.kind = .ident
  reads : leaf.is s = true

/-- A leaf that can name a module or a function: any identifier. -/
structure Name where
  leaf : Leaf
  ident : leaf.token.kind = .ident
  starts : leaf.token.text.head?.any Lexeme.isNameStart = true

structure VariableName extends Name where
  not_keyword : leaf.isAny ["module", "function"] = false

/-- The word that begins a reference to another file. -/
structure ReferenceWord where
  leaf : Leaf
  ident : leaf.token.kind = .ident
  reads : leaf.isAny ["include", "use"] = true

structure Path where
  leaf : Leaf
  path : leaf.token.kind = .path
  starts : leaf.token.text.head? = some '<'

/-- What stands between the brackets of a parameter list. -/
structure Parameters where
  leaves : List Leaf
  nested : Leads (fun _ _ => True) [] leaves []

/-- Outside all brackets an expression has neither a semicolon nor the keyword of a declaration. -/
structure Expression where
  leaves : List Leaf
  nested : Leads (fun σ l => σ = [] → l.isAny [";", "module", "function"] = false) [] leaves []

/-- What may stand in a simple statement inside the brackets `σ`. -/
def Plain (σ : List Kind) (l : Leaf) : Prop :=
  l.isAny [Token.braceOpen, Token.braceClose, "module", "function"] = false ∧
    (σ = [] → l.is ";" = false)

instance (σ : List Kind) (l : Leaf) : Decidable (Plain σ l) := inferInstanceAs (Decidable (_ ∧ _))

/-- What a statement takes inside the brackets `σ` without coming to its end. -/
def Bare (σ : List Kind) (l : Leaf) : Prop :=
  l.isAny [Token.braceOpen, Token.braceClose] = false ∧ (σ = [] → l.is ";" = false)

instance (σ : List Kind) (l : Leaf) : Decidable (Bare σ l) := inferInstanceAs (Decidable (_ ∧ _))

/-- A statement up to its semicolon or its block, which may be nothing. -/
structure Simple where
  leaves : List Leaf
  nested : Leads Plain [] leaves []

/-- The leaves begin as a variable or a reference does. -/
def Declares : List Leaf → Prop
  | l :: m :: _ =>
    l.token.kind = .ident ∧
      (m.is "=" = true ∨ l.isAny ["include", "use"] = true ∧ m.token.kind = .path)
  | _ => False

theorem Simple.bare (s : Simple) : Leads Bare [] s.leaves [] := by
  refine s.nested.mono fun σ l _ h => ⟨?_, h.2⟩
  have hword := h.1
  simp only [isAny_cons, isAny_nil, Bool.or_eq_false_iff] at hword ⊢
  exact ⟨hword.1, hword.2.1, trivial⟩

structure Statement extends Simple where
  not_declares : ¬ Declares leaves

/-- Keyword, name and parameter list of a declaration. -/
structure Head (word : String) where
  keyword : Word word
  name : Name
  opener : Mark "("
  parameters : Parameters
  closer : Mark ")"

/-- What follows the head of a function or the name of a variable. -/
structure Definition where
  equals : Mark "="
  value : Expression
  semicolon : Mark ";"

def Head.leaves {word : String} (h : Head word) : List Leaf :=
  h.keyword.leaf :: h.name.leaf :: h.opener.leaf :: (h.parameters.leaves ++ [h.closer.leaf])

def Definition.leaves (d : Definition) : List Leaf :=
  d.equals.leaf :: (d.value.leaves ++ [d.semicolon.leaf])

end Program

open Program

/-- A well-formed program. A module or a statement ends with a semicolon or has a block; either may
begin without a simple statement, so that an empty statement is a semicolon alone. -/
inductive Program where
  | nil
  | moduleLine (h : Head "module") (s : Simple) (semicolon : Mark ";") (rest : Program)
  | moduleBlock (h : Head "module") (s : Simple) (opener : Mark Token.braceOpen) (inner : Program)
      (closer : Mark Token.braceClose) (rest : Program)
  | function (h : Head "function") (d : Definition) (rest : Program)
  | assignment (name : VariableName) (d : Definition) (rest : Program)
  | reference (word : ReferenceWord) (path : Path) (semicolon : Option (Mark ";")) (rest : Program)
  | line (s : Statement) (semicolon : Mark ";") (rest : Program)
  | block (s : Statement) (opener : Mark Token.braceOpen) (inner : Program)
      (closer : Mark Token.braceClose) (rest : Program)

namespace Program

def leaves : Program → List Leaf
  | .nil => []
  | .moduleLine h s semicolon rest => h.leaves ++ (s.leaves ++ semicolon.leaf :: rest.leaves)
  | .moduleBlock h s opener inner closer rest =>
    h.leaves ++ (s.leaves ++ opener.leaf :: (inner.leaves ++ closer.leaf :: rest.leaves))
  | .function h d rest => h.leaves ++ (d.leaves ++ rest.leaves)
  | .assignment name d rest => name.leaf :: (d.leaves ++ rest.leaves)
  | .reference word path none rest => word.leaf :: path.leaf :: rest.leaves
  | .reference word path (some semicolon) rest =>
    word.leaf :: path.leaf :: semicolon.leaf :: rest.leaves
  | .line s semicolon rest => s.leaves ++ semicolon.leaf :: rest.leaves
  | .block s opener inner closer rest =>
    s.leaves ++ opener.leaf :: (inner.leaves ++ closer.leaf :: rest.leaves)

/-- The declarations of a program. Those in the block of a module are its children; those in the
block of a statement join the declarations around it. -/
def declarations : Program → List (Declaration Nat)
  | .nil => []
  | .moduleLine h _ semicolon rest =>
    Outline.declare .module h.keyword.leaf h.name.leaf.token semicolon.leaf.token.stop [] ::
      rest.declarations
  | .moduleBlock h _ _ inner closer rest =>
    Outline.declare .module h.keyword.leaf h.name.leaf.token closer.leaf.token.stop
      inner.declarations :: rest.declarations
  | .function h d rest =>
    Outline.declare .function h.keyword.leaf h.name.leaf.token d.semicolon.leaf.token.stop [] ::
      rest.declarations
  | .assignment name d rest =>
    Outline.declare .variable name.leaf name.leaf.token d.semicolon.leaf.token.stop [] ::
      rest.declarations
  | .reference _ _ _ rest => rest.declarations
  | .line _ _ rest => rest.declarations
  | .block _ _ inner _ rest => inner.declarations ++ rest.declarations

/-- The references of a program, in the order of its leaves. -/
def references : Program → List Reference
  | .nil => []
  | .moduleLine _ _ _ rest => rest.references
  | .moduleBlock _ _ _ inner _ rest => inner.references ++ rest.references
  | .function _ _ rest => rest.references
  | .assignment _ _ rest => rest.references
  | .reference _ path _ rest =>
    ⟨String.ofList path.leaf.token.text.tail.dropLast, Outline.spanOf path.leaf.token⟩ ::
      rest.references
  | .line _ _ rest => rest.references
  | .block _ _ inner _ rest => inner.references ++ rest.references

/-- The end of a program that follows something that ends at `stop`. -/
def stop (stop : Nat) : Program → Nat
  | .nil => stop
  | .moduleLine _ _ semicolon rest => rest.stop semicolon.leaf.token.stop
  | .moduleBlock _ _ _ _ closer rest => rest.stop closer.leaf.token.stop
  | .function _ d rest => rest.stop d.semicolon.leaf.token.stop
  | .assignment _ d rest => rest.stop d.semicolon.leaf.token.stop
  | .reference _ path none rest => rest.stop path.leaf.token.stop
  | .reference _ _ (some semicolon) rest => rest.stop semicolon.leaf.token.stop
  | .line _ semicolon rest => rest.stop semicolon.leaf.token.stop
  | .block _ _ _ closer rest => rest.stop closer.leaf.token.stop

end Program

/-! ## Leaves -/

theorem Program.Name.is_eq_false (n : Name) {s : String}
    (hs : s.toList.head?.any Lexeme.isNameStart = false) : n.leaf.is s = false := by
  rw [Leaf.is, Token.is, beq_eq_false_iff_ne]
  intro h
  have hn := n.starts
  rw [h, hs] at hn
  cases hn

theorem Leaf.role_eq_plain {l : Leaf}
    (h : ∀ c ∈ ['(', ')', '[', ']', '{', '}'], l.token.text.head? ≠ some c) : l.role = .plain := by
  cases hr : l.role with
  | plain => rfl
  | opens k =>
    rw [Role.ofText_eq_opens.1 hr] at h
    cases k <;> simp [Kind.opener] at h
  | closes k =>
    rw [Role.ofText_eq_closes.1 hr] at h
    cases k <;> simp [Kind.closer] at h

theorem Program.Name.role_eq_plain (n : Name) : n.leaf.role = .plain := by
  apply Leaf.role_eq_plain
  intro c hc h
  have hall : ['(', ')', '[', ']', '{', '}'].all (Lexeme.isNameStart · == false) = true := by decide
  have hstart := n.starts
  rw [h, Option.any_some] at hstart
  have := List.all_eq_true.1 hall c hc
  simp [hstart] at this

theorem Program.ReferenceWord.role_eq_plain (w : ReferenceWord) : w.leaf.role = .plain := by
  have hall : ∀ s ∈ ["include", "use"], Role.ofText s.toList = .plain := by decide
  obtain ⟨s, hs, hw⟩ := exists_of_isAny w.reads
  exact (role_of_is hw).trans (hall s hs)

theorem Program.Path.role_eq_plain (p : Path) : p.leaf.role = .plain := by
  apply Leaf.role_eq_plain
  intro c hc h
  rw [p.starts] at h
  cases h
  revert hc
  decide

/-! ## Stretches -/

namespace Item

theorem expression_of_leads {σ τ : List Kind} {ls : List Leaf}
    (h : Leads (fun σ l => σ = [] → l.isAny [";", "module", "function"] = false) σ ls τ)
    (rest : List Leaf) :
    expression σ.length (ls ++ rest) = (expression τ.length rest).prepend ls := by
  induction h with
  | done => rfl
  | @next σ ρ τ l ls hf hl _ ih =>
    rw [List.cons_append, ← Stretch.cons_prepend, ← ih]
    cases nests_of_nest hl with
    | plain hr =>
      rw [expression_plain hr, if_neg, if_neg]
      · rintro ⟨hσ, hword⟩
        have hno := hf (List.length_eq_zero_iff.1 hσ)
        rw [isAny_cons, hword, Bool.or_true] at hno
        cases hno
      · rintro ⟨hσ, hsemi⟩
        have hno := hf (List.length_eq_zero_iff.1 hσ)
        rw [isAny_cons, hsemi, Bool.true_or] at hno
        cases hno
    | opens hr _ => exact expression_opens hr _ _
    | closes hr _ => exact expression_closes hr _ _

theorem statementRest_of_leads {σ τ : List Kind} {ls : List Leaf} (h : Leads Bare σ ls τ)
    (rest : List Leaf) :
    statementRest σ.length (ls ++ rest) = (statementRest τ.length rest).prepend ls := by
  induction h with
  | done => rfl
  | @next σ ρ τ l ls hf hl _ ih =>
    rw [List.cons_append, ← Stretch.cons_prepend, ← ih]
    obtain ⟨hword, hsemi⟩ := hf
    cases nests_of_nest hl with
    | plain hr =>
      rw [statementRest_plain hr, if_neg]
      rintro ⟨hσ, hs⟩
      rw [hsemi (List.length_eq_zero_iff.1 hσ)] at hs
      cases hs
    | @opens _ _ k hr _ =>
      rw [statementRest_opens hr]
      cases k with
      | curly =>
        simp only [isAny_cons, is_of_opens hr] at hword
        cases hword
      | round => rfl
      | square => rfl
    | @closes _ _ k hr _ =>
      rw [statementRest_closes hr]
      cases k with
      | curly =>
        simp only [isAny_cons, is_of_closes hr] at hword
        cases hword
      | round => rfl
      | square => rfl

/-- A statement ends with the first semicolon or brace it can end with. -/
theorem statement_of_leads {ls : List Leaf} (h : Leads Bare [] ls []) {l : Leaf}
    (hl : l.isAny [";", Token.braceOpen] = true) (rest : List Leaf) :
    statement (ls ++ l :: rest) = ⟨l.is Token.braceOpen, ls ++ [l], rest⟩ := by
  have hend : statementRest 0 (l :: rest) = ⟨l.is Token.braceOpen, [l], rest⟩ := by
    obtain ⟨s, hs, hl⟩ := exists_of_isAny hl
    rw [statementRest]
    simp only [List.mem_cons, List.not_mem_nil, or_false] at hs
    rcases hs with rfl | rfl
    · simp only [isAny_cons, isAny_nil, is_of_is hl]
      rfl
    · simp [hl]
  have hclose : ∀ m ∈ (ls ++ l :: rest).head?, m.is Token.braceClose = false := by
    cases h with
    | done =>
      intro m hm
      cases hm
      exact is_of_isAny hl (by decide)
    | next hf _ _ =>
      intro m hm
      cases hm
      simp only [Bare, isAny_cons, isAny_nil, Bool.or_eq_false_iff] at hf
      exact hf.1.2.1
  -- the first leaf is no closing brace, so the statement is read as the rest of one
  obtain ⟨m, ms, hms⟩ := List.exists_cons_of_ne_nil (l := ls ++ l :: rest) (by simp)
  have hrest := statementRest_of_leads h (l :: rest)
  rw [hms] at hclose hrest ⊢
  rw [statement_eq_statementRest (hclose m rfl) ms, ← List.length_nil, hrest, List.length_nil, hend]
  rfl

/-! ## Items -/

/-- The parameter list of a declaration. -/
theorem parameterList_head {word : String} (h : Head word) (eof : Nat) (kind : Declaration.Kind)
    (rest : List Leaf) :
    parameterList eof kind (h.opener.leaf :: (h.parameters.leaves ++ h.closer.leaf :: rest)) =
      (⟨true, h.opener.leaf :: (h.parameters.leaves ++ [h.closer.leaf]), rest⟩, []) := by
  rw [parameterList, List.head?_cons, Option.any_some, h.opener.reads, if_pos rfl,
    parameters_nested h.opener.reads h.parameters.nested h.closer.reads]

theorem definition_leaves (d : Definition) (rest : List Leaf) :
    definition d.equals.leaf.token.stop (d.value.leaves ++ d.semicolon.leaf :: rest) =
      (⟨true, d.value.leaves ++ [d.semicolon.leaf], rest⟩, []) := by
  have he := expression_of_leads d.value.nested (d.semicolon.leaf :: rest)
  have hend : expression 0 (d.semicolon.leaf :: rest) = ⟨true, [d.semicolon.leaf], rest⟩ := by
    rw [expression, if_pos ⟨rfl, d.semicolon.reads⟩]
  rw [List.length_nil] at he
  rw [definition, he, hend]
  rfl

theorem next_module (eof : Nat) (h : Head "module") {ls : List Leaf} (hs : Leads Bare [] ls [])
    {l : Leaf} (hl : l.isAny [";", Token.braceOpen] = true) (rest : List Leaf) :
    next eof h.keyword.leaf
        (h.name.leaf :: h.opener.leaf ::
          (h.parameters.leaves ++ h.closer.leaf :: (ls ++ l :: rest))) =
      (⟨if l.is Token.braceOpen then .openedModule h.name.leaf.token
          else .declared .module h.name.leaf.token,
        h.keyword.leaf,
        h.name.leaf :: h.opener.leaf ::
          (h.parameters.leaves ++ h.closer.leaf :: (ls ++ [l])), []⟩, rest) := by
  rw [next_eq_moduleItem eof h.keyword.ident h.keyword.reads h.name.ident]
  simp [moduleItem, parameterList_head, statement_of_leads hs hl]

/-- A function is read up to the end of its definition, whatever that is. -/
theorem next_function_of_definition (eof : Nat) (h : Head "function") (equals : Mark "=")
    {ls : List Leaf} {e : Stretch} {faults : List Fault}
    (hd : definition equals.leaf.token.stop ls = (e, faults)) :
    next eof h.keyword.leaf
        (h.name.leaf :: h.opener.leaf ::
          (h.parameters.leaves ++ h.closer.leaf :: equals.leaf :: ls)) =
      (⟨.declared .function h.name.leaf.token, h.keyword.leaf,
        h.name.leaf :: h.opener.leaf ::
          (h.parameters.leaves ++ h.closer.leaf :: equals.leaf :: e.taken), faults⟩, e.rest) := by
  have hbrace : h.keyword.leaf.is Token.braceClose = false := is_of_is h.keyword.reads _
  have hmodule : ¬ (h.keyword.leaf.token.kind = .ident ∧ h.keyword.leaf.is "module" = true) := by
    rw [is_of_is h.keyword.reads]
    exact fun hk => Bool.false_ne_true hk.2
  rw [next, hbrace, if_neg Bool.false_ne_true, if_neg hmodule,
    if_pos ⟨h.keyword.ident, h.keyword.reads⟩, keywordDeclaration, if_pos h.name.ident]
  simp [functionItem, parameterList_head, equals.reads, hd]

theorem next_function (eof : Nat) (h : Head "function") (d : Definition) (rest : List Leaf) :
    next eof h.keyword.leaf
        (h.name.leaf :: h.opener.leaf ::
          (h.parameters.leaves ++ h.closer.leaf :: (d.leaves ++ rest))) =
      (⟨.declared .function h.name.leaf.token, h.keyword.leaf,
        h.name.leaf :: h.opener.leaf :: (h.parameters.leaves ++ h.closer.leaf :: d.leaves), []⟩,
        rest) := by
  rw [Definition.leaves, List.cons_append, List.append_assoc, List.singleton_append,
    next_function_of_definition eof h d.equals (definition_leaves d rest)]

/-- What begins with neither a closing brace nor a keyword is known by its second leaf. -/
theorem next_cons (eof : Nat) {l : Leaf}
    (h : l.isAny [Token.braceClose, "module", "function"] = false) (m : Leaf) (rest : List Leaf) :
    next eof l (m :: rest) =
      if l.token.kind = .ident ∧ l.isAny ["include", "use"] = true ∧ m.token.kind = .path then
        reference l m rest
      else if l.token.kind = .ident ∧ m.is "=" = true then variableItem l m rest
      else other l (m :: rest) := by
  simp only [isAny_cons, isAny_nil, Bool.or_eq_false_iff] at h
  simp [next, h]

/-- A variable is read up to the end of its definition, whatever that is. -/
theorem next_variable_of_definition (eof : Nat) (name : VariableName) (equals : Mark "=")
    {ls : List Leaf} {e : Stretch} {faults : List Fault}
    (hd : definition equals.leaf.token.stop ls = (e, faults)) :
    next eof name.leaf (equals.leaf :: ls) =
      (⟨.declared .variable name.leaf.token, name.leaf, equals.leaf :: e.taken, faults⟩,
        e.rest) := by
  have hbrace : name.leaf.is Token.braceClose = false := name.is_eq_false (by decide)
  have hpath : ¬ equals.leaf.token.kind = .path := by
    rw [equals.punct]
    decide
  rw [next_cons eof (by rw [isAny_cons, hbrace, name.not_keyword]; rfl),
    if_neg (fun h => hpath h.2.2), if_pos ⟨name.ident, equals.reads⟩, variableItem, hd]

theorem next_variable (eof : Nat) (name : VariableName) (d : Definition) (rest : List Leaf) :
    next eof name.leaf (d.leaves ++ rest) =
      (⟨.declared .variable name.leaf.token, name.leaf, d.leaves, []⟩, rest) := by
  rw [Definition.leaves, List.cons_append, List.append_assoc, List.singleton_append,
    next_variable_of_definition eof name d.equals (definition_leaves d rest)]

theorem next_reference (eof : Nat) (word : ReferenceWord) (path : Path) (ls : List Leaf) :
    next eof word.leaf (path.leaf :: ls) = reference word.leaf path.leaf ls := by
  have hword : word.leaf.isAny [Token.braceClose, "module", "function"] = false :=
    isAny_of_isAny word.reads (by decide)
  rw [next_cons eof hword, if_pos ⟨word.ident, word.reads, path.path⟩]

theorem next_other (eof : Nat) {l : Leaf} {ls : List Leaf}
    (h : l.isAny [Token.braceClose, "module", "function"] = false) (hd : ¬ Declares (l :: ls)) :
    next eof l ls = other l ls := by
  cases ls with
  | nil =>
    simp only [isAny_cons, isAny_nil, Bool.or_eq_false_iff] at h
    simp [next, h]
  | cons m rest =>
    rw [next_cons eof h, if_neg, if_neg]
    · exact fun hm => hd ⟨hm.1, .inl hm.2⟩
    · exact fun hm => hd ⟨hm.1, .inr hm.2⟩

/-- The end of a statement does not make it a declaration. -/
theorem not_declares_append {ls : List Leaf} (h : ¬ Declares ls) {l : Leaf}
    (hp : l.token.kind = .punct) (he : l.is "=" = false) (rest : List Leaf) :
    ¬ Declares (ls ++ l :: rest) := by
  match ls with
  | [] =>
    cases rest with
    | nil => exact id
    | cons m rest => simp [Declares, hp]
  | [m] => simp [Declares, hp, he]
  | m :: n :: _ => exact h

/-- A statement is read up to its semicolon or the brace of its block. -/
theorem next_statement (eof : Nat) (s : Statement) {l : Leaf}
    (hl : l.isAny [";", Token.braceOpen] = true) (hp : l.token.kind = .punct)
    (rest : List Leaf) :
    ∃ first others, s.leaves ++ [l] = first :: others ∧
      next eof first (others ++ rest) =
        (⟨if l.is Token.braceOpen then .openedBlock else .skipped, first, others, []⟩, rest) := by
  obtain ⟨s, hs⟩ := s
  obtain ⟨first, others, heq⟩ := List.exists_cons_of_ne_nil (l := s.leaves ++ [l]) (by simp)
  have hstatement : statement (first :: (others ++ rest)) =
      ⟨l.is Token.braceOpen, first :: others, rest⟩ := by
    rw [← List.cons_append, ← heq, List.append_assoc, List.singleton_append,
      statement_of_leads s.bare hl, heq]
  refine ⟨first, others, heq, ?_⟩
  have hfirst : first.isAny [Token.braceClose, "module", "function"] = false := by
    obtain ⟨ls, hls⟩ := s
    cases hls with
    | done =>
      cases heq
      exact isAny_of_isAny hl (by decide)
    | next hf _ _ =>
      cases heq
      exact (Bool.or_eq_false_iff.1 hf.1).2
  have hdeclares : ¬ Declares (first :: (others ++ rest)) := by
    rw [← List.cons_append, ← heq, List.append_assoc, List.singleton_append]
    exact not_declares_append hs hp (is_of_isAny hl (by decide)) rest
  rw [next_other eof hfirst hdeclares, other, hstatement]
  rfl

theorem stop_of_concat {it : Item} (ls : List Leaf) (l : Leaf) (h : it.leaves = ls ++ [l]) :
    it.stop = l.token.stop :=
  stop_of_leaves h

end Item

/-! ## Programs -/

namespace Outline.State

/-- The state after more declarations and references, up to `stop`. -/
def add (st : State) (ds : List (Declaration Nat)) (rs : List Reference) (stop : Nat) : State :=
  { st with found := st.found ++ ds, references := st.references ++ rs, stop := stop }

theorem add_add (st : State) (ds es : List (Declaration Nat)) (rs qs : List Reference)
    (stop stop' : Nat) :
    (st.add ds rs stop).add es qs stop' = st.add (ds ++ es) (rs ++ qs) stop' := by
  simp [add]

/-- The state in a new block. -/
def enter (st : State) (owner : Option (Leaf × Token)) (stop : Nat) : State :=
  { st with frames := ⟨owner, st.found⟩ :: st.frames, found := [], stop := stop }

section Step

variable {it : Item} (st : State)

theorem step_skipped (hs : it.shape = .skipped) (hf : it.faults = []) :
    st.step it = st.add [] [] it.stop := by
  simp [step, place, add, reference?, hs, hf]

theorem step_included {path : Token} (hs : it.shape = .included path) (hf : it.faults = []) :
    st.step it =
      st.add [] [⟨String.ofList path.text.tail.dropLast, spanOf path⟩] it.stop := by
  simp [step, place, add, reference?, hs, hf]

theorem step_declared {kind : Declaration.Kind} {name : Token}
    (hs : it.shape = .declared kind name) (hf : it.faults = []) :
    st.step it = st.add [declare kind it.first name it.stop []] [] it.stop := by
  simp [step, place, add, reference?, hs, hf]

theorem step_openedModule {name : Token} (hs : it.shape = .openedModule name)
    (hf : it.faults = []) : st.step it = st.enter (some (it.first, name)) it.stop := by
  simp [step, place, enter, reference?, hs, hf]

theorem step_openedBlock (hs : it.shape = .openedBlock) (hf : it.faults = []) :
    st.step it = st.enter none it.stop := by
  simp [step, place, enter, reference?, hs, hf]

end Step

section Read

variable (eof : Nat) (st : State)

theorem read_moduleLine (h : Head "module") (s : Simple) (semicolon : Mark ";")
    (rest : List Leaf) :
    st.read eof (h.leaves ++ (s.leaves ++ semicolon.leaf :: rest)) =
      (st.add [declare .module h.keyword.leaf h.name.leaf.token semicolon.leaf.token.stop []] []
        semicolon.leaf.token.stop).read eof rest := by
  have hopen : semicolon.leaf.is Token.braceOpen = false := is_of_is semicolon.reads _
  have hnext := Item.next_module eof h s.bare (isAny_of_is semicolon.reads List.mem_cons_self) rest
  simp only [Head.leaves, List.cons_append, List.append_assoc, List.nil_append]
  rw [read_cons, hnext, hopen, if_neg Bool.false_ne_true, step_declared st rfl rfl,
    Item.stop_of_concat (h.leaves ++ s.leaves) semicolon.leaf
      (by simp [Item.leaves, Head.leaves])]

theorem read_moduleOpener (h : Head "module") {ls : List Leaf} (hs : Leads Bare [] ls [])
    (opener : Mark Token.braceOpen) (rest : List Leaf) :
    st.read eof (h.leaves ++ (ls ++ opener.leaf :: rest)) =
      (st.enter (some (h.keyword.leaf, h.name.leaf.token)) opener.leaf.token.stop).read eof
        rest := by
  have hnext := Item.next_module eof h hs (isAny_of_is opener.reads (by simp)) rest
  simp only [Head.leaves, List.cons_append, List.append_assoc, List.nil_append]
  rw [read_cons, hnext, if_pos opener.reads, step_openedModule st rfl rfl,
    Item.stop_of_concat (h.leaves ++ ls) opener.leaf
      (by simp [Item.leaves, Head.leaves])]

theorem read_function (h : Head "function") (d : Definition) (rest : List Leaf) :
    st.read eof (h.leaves ++ (d.leaves ++ rest)) =
      (st.add [declare .function h.keyword.leaf h.name.leaf.token d.semicolon.leaf.token.stop []] []
        d.semicolon.leaf.token.stop).read eof rest := by
  simp only [Head.leaves, List.cons_append, List.append_assoc, List.nil_append]
  rw [read_cons, Item.next_function, step_declared st rfl rfl,
    Item.stop_of_concat (h.leaves ++ d.equals.leaf :: d.value.leaves) d.semicolon.leaf
      (by simp [Item.leaves, Head.leaves, Definition.leaves])]

theorem read_assignment (name : VariableName) (d : Definition) (rest : List Leaf) :
    st.read eof (name.leaf :: (d.leaves ++ rest)) =
      (st.add [declare .variable name.leaf name.leaf.token d.semicolon.leaf.token.stop []] []
        d.semicolon.leaf.token.stop).read eof rest := by
  rw [read_cons, Item.next_variable, step_declared st rfl rfl,
    Item.stop_of_concat (name.leaf :: d.equals.leaf :: d.value.leaves) d.semicolon.leaf
      (by simp [Item.leaves, Definition.leaves])]

theorem read_line (s : Statement) (semicolon : Mark ";") (rest : List Leaf) :
    st.read eof (s.leaves ++ semicolon.leaf :: rest) =
      (st.add [] [] semicolon.leaf.token.stop).read eof rest := by
  have hopen : semicolon.leaf.is Token.braceOpen = false := is_of_is semicolon.reads _
  obtain ⟨first, others, heq, hnext⟩ :=
    Item.next_statement eof s (isAny_of_is semicolon.reads List.mem_cons_self) semicolon.punct rest
  rw [← List.singleton_append, ← List.append_assoc, heq, List.cons_append, read_cons, hnext, hopen,
    if_neg Bool.false_ne_true, step_skipped st rfl rfl,
    Item.stop_of_concat s.leaves semicolon.leaf (by rw [heq]; rfl)]

theorem read_opener (s : Statement) (opener : Mark Token.braceOpen) (rest : List Leaf) :
    st.read eof (s.leaves ++ opener.leaf :: rest) =
      (st.enter none opener.leaf.token.stop).read eof rest := by
  obtain ⟨first, others, heq, hnext⟩ :=
    Item.next_statement eof s (isAny_of_is opener.reads (by simp)) opener.punct rest
  rw [← List.singleton_append, ← List.append_assoc, heq, List.cons_append, read_cons, hnext,
    if_pos opener.reads, step_openedBlock st rfl rfl,
    Item.stop_of_concat s.leaves opener.leaf (by rw [heq]; rfl)]

/-- What a block adds that holds some declarations and references. -/
theorem read_closer (owner : Option (Leaf × Token)) (s t : Nat) (ds : List (Declaration Nat))
    (rs : List Reference) (closer : Mark Token.braceClose) (rest : List Leaf) :
    ((st.enter owner s).add ds rs t).read eof (closer.leaf :: rest) =
      (st.add (Frame.close ⟨owner, []⟩ ds closer.leaf.token.stop) rs
        closer.leaf.token.stop).read eof rest := by
  rw [read_cons, Item.next.eq_def, if_pos closer.reads]
  cases owner with
  | none => simp [step, place, add, enter, reference?, Frame.close, Item.stop]
  | some o => simp [step, place, add, enter, reference?, Frame.close, Item.stop]

/-- A reference takes a semicolon with it, which changes nothing: alone it would be an empty
statement. -/
theorem read_reference (word : ReferenceWord) (path : Path) {rest : List Leaf}
    (hrest : ∀ l ∈ rest.head?, l.is ";" = true → l.token.kind = .punct) :
    st.read eof (word.leaf :: path.leaf :: rest) =
      (st.add [] [⟨String.ofList path.leaf.token.text.tail.dropLast, spanOf path.leaf.token⟩]
        path.leaf.token.stop).read eof rest := by
  rw [read_cons, Item.next_reference]
  cases rest with
  | nil => rw [Item.reference, step_included st rfl rfl]; rfl
  | cons l rest =>
    rw [Item.reference]
    split
    · rename_i hl
      have hempty := read_line eof
        (st.add [] [⟨String.ofList path.leaf.token.text.tail.dropLast, spanOf path.leaf.token⟩]
          path.leaf.token.stop) ⟨⟨[], .done []⟩, id⟩ ⟨l, hrest l rfl hl, hl⟩ rest
      rw [List.nil_append] at hempty
      rw [hempty, add_add, step_included st rfl rfl]
      rfl
    · rw [step_included st rfl rfl]
      rfl

end Read

/-- What reads like a semicolon after a program's beginning is one. -/
theorem punct_of_head {p : Program} {rest : List Leaf}
    (hrest : ∀ l ∈ rest.head?, l.is ";" = true → l.token.kind = .punct) :
    ∀ l ∈ (p.leaves ++ rest).head?, l.is ";" = true → l.token.kind = .punct := by
  have hsimple : ∀ (s : Simple) (m : Leaf) (ls : List Leaf), m.token.kind = .punct →
      ∀ l ∈ (s.leaves ++ m :: ls).head?, l.is ";" = true → l.token.kind = .punct := by
    intro s m ls hm l hl hs
    obtain ⟨leaves, hls⟩ := s
    cases hls with
    | done =>
      cases hl
      exact hm
    | next hf _ _ =>
      cases hl
      rw [hf.2 rfl] at hs
      cases hs
  intro l hl hs
  cases p with
  | nil => exact hrest l hl hs
  | moduleLine h _ _ _ =>
    cases hl
    rw [is_of_is h.keyword.reads] at hs
    cases hs
  | moduleBlock h _ _ _ _ _ =>
    cases hl
    rw [is_of_is h.keyword.reads] at hs
    cases hs
  | function h _ _ =>
    cases hl
    rw [is_of_is h.keyword.reads] at hs
    cases hs
  | assignment name _ _ =>
    cases hl
    rw [name.is_eq_false (by decide)] at hs
    cases hs
  | reference word _ semicolon _ =>
    have hl : word.leaf = l := by
      cases semicolon with
      | none => exact Option.some.inj hl
      | some _ => exact Option.some.inj hl
    subst hl
    rw [is_of_isAny word.reads (by decide)] at hs
    cases hs
  | line s semicolon _ =>
    rw [Program.leaves, List.append_assoc] at hl
    exact hsimple s.toSimple semicolon.leaf _ semicolon.punct l hl hs
  | block s opener _ _ _ =>
    rw [Program.leaves, List.append_assoc] at hl
    exact hsimple s.toSimple opener.leaf _ opener.punct l hl hs

/-- Reading a program adds its declarations and its references, and nothing else. -/
theorem read_program (eof : Nat) (p : Program) (st : State) {rest : List Leaf}
    (hrest : ∀ l ∈ rest.head?, l.is ";" = true → l.token.kind = .punct) :
    st.read eof (p.leaves ++ rest) =
      (st.add p.declarations p.references (p.stop st.stop)).read eof rest := by
  have hcloser : ∀ (closer : Mark Token.braceClose) (ls : List Leaf),
      ∀ l ∈ (closer.leaf :: ls).head?, l.is ";" = true → l.token.kind = .punct := by
    intro closer ls l hl _
    cases hl
    exact closer.punct
  induction p generalizing st rest with
  | nil => simp [Program.leaves, Program.declarations, Program.references, Program.stop, add]
  | moduleLine h s semicolon more ih =>
    simp only [Program.leaves, List.append_assoc, List.cons_append]
    rw [read_moduleLine, ih _ hrest, add_add]
    rfl
  | moduleBlock h s opener inner closer more ihi ih =>
    simp only [Program.leaves, List.append_assoc, List.cons_append]
    -- the block is read as a program of its own, in a frame that its brace closes
    rw [read_moduleOpener eof st h s.bare, ihi _ (hcloser closer _), read_closer, ih _ hrest,
      add_add]
    rfl
  | function h d more ih =>
    simp only [Program.leaves, List.append_assoc]
    rw [read_function, ih _ hrest, add_add]
    rfl
  | assignment name d more ih =>
    simp only [Program.leaves, List.append_assoc, List.cons_append]
    rw [read_assignment, ih _ hrest, add_add]
    rfl
  | reference word path semicolon more ih =>
    cases semicolon with
    | none =>
      simp only [Program.leaves, List.cons_append]
      rw [read_reference eof st word path (punct_of_head hrest), ih _ hrest, add_add]
      rfl
    | some semicolon =>
      have hempty := fun st => read_line eof st ⟨⟨[], .done []⟩, id⟩ semicolon (more.leaves ++ rest)
      have hpunct : ∀ l ∈ (semicolon.leaf :: (more.leaves ++ rest)).head?, l.is ";" = true →
          l.token.kind = .punct := by
        intro l hl _
        cases hl
        exact semicolon.punct
      simp only [List.nil_append] at hempty
      simp only [Program.leaves, List.cons_append]
      rw [read_reference eof st word path hpunct, hempty, ih _ hrest, add_add, add_add]
      rfl
  | line s semicolon more ih =>
    simp only [Program.leaves, List.append_assoc, List.cons_append]
    rw [read_line, ih _ hrest, add_add]
    rfl
  | block s opener inner closer more ihi ih =>
    simp only [Program.leaves, List.append_assoc, List.cons_append]
    rw [read_opener, ihi _ (hcloser closer _), read_closer, ih _ hrest, add_add]
    rfl

end Outline.State

/-! ## Brackets -/

namespace Program

theorem Mark.opens {s : String} {k : Kind} (m : Mark s) (h : Role.ofText s.toList = .opens k)
    (σ : List Kind) : m.leaf.nest σ = some (k :: σ) :=
  nest_of_opens ((role_of_is m.reads).trans h) m.punct

theorem Mark.closes {s : String} {k : Kind} (m : Mark s) (h : Role.ofText s.toList = .closes k)
    (σ : List Kind) : m.leaf.nest (k :: σ) = some σ :=
  (Nests.closes ((role_of_is m.reads).trans h) m.punct).nest_eq

theorem Mark.plain {s : String} (m : Mark s) (h : Role.ofText s.toList = .plain) (σ : List Kind) :
    m.leaf.nest σ = some σ :=
  nest_of_plain ((role_of_is m.reads).trans h)

theorem Head.leads {word : String} (h : Head word) (hw : Role.ofText word.toList = .plain)
    (σ : List Kind) : Leads (fun _ _ => True) σ h.leaves σ := by
  refine .next trivial (nest_of_plain ((role_of_is h.keyword.reads).trans hw)) ?_
  refine .next trivial (nest_of_plain h.name.role_eq_plain) ?_
  refine .next trivial (h.opener.opens rfl σ) ?_
  exact (h.parameters.nested.frame (.round :: σ)).append (.one trivial (h.closer.closes rfl σ))

theorem Definition.leads (d : Definition) (σ : List Kind) :
    Leads (fun _ _ => True) σ d.leaves σ := by
  refine .next trivial (d.equals.plain rfl σ) ?_
  exact (d.value.nested.frame σ).append (.one trivial (d.semicolon.plain rfl σ))

theorem Simple.leads (s : Simple) (σ : List Kind) : Leads (fun _ _ => True) σ s.leaves σ :=
  s.nested.frame σ

/-- A program closes the brackets it opens. -/
theorem leads (p : Program) (σ : List Kind) : Leads (fun _ _ => True) σ p.leaves σ := by
  induction p generalizing σ with
  | nil => exact .done σ
  | moduleLine h s semicolon rest ih =>
    exact (h.leads rfl σ).append ((s.leads σ).append (.next trivial (semicolon.plain rfl σ) (ih σ)))
  | moduleBlock h s opener inner closer rest ihi ih =>
    have hblock := (ihi (.curly :: σ)).append (.next trivial (closer.closes rfl σ) (ih σ))
    exact (h.leads rfl σ).append ((s.leads σ).append (.next trivial (opener.opens rfl σ) hblock))
  | function h d rest ih => exact (h.leads rfl σ).append ((d.leads σ).append (ih σ))
  | assignment name d rest ih =>
    exact .next trivial (nest_of_plain name.role_eq_plain) ((d.leads σ).append (ih σ))
  | reference word path semicolon rest ih =>
    have hword := nest_of_plain word.role_eq_plain (σ := σ)
    cases semicolon with
    | none => exact .next trivial hword (.next trivial (nest_of_plain path.role_eq_plain) (ih σ))
    | some semicolon =>
      exact .next trivial hword (.next trivial (nest_of_plain path.role_eq_plain)
        (.next trivial (semicolon.plain rfl σ) (ih σ)))
  | line s semicolon rest ih =>
    exact (s.leads σ).append (.next trivial (semicolon.plain rfl σ) (ih σ))
  | block s opener inner closer rest ihi ih =>
    have hblock := (ihi (.curly :: σ)).append (.next trivial (closer.closes rfl σ) (ih σ))
    exact (s.leads σ).append (.next trivial (opener.opens rfl σ) hblock)

end Program

/-- The outline of a well-formed program, with comments anywhere between its leaves, has the
declarations and the references of the program, and no fault. -/
theorem Outline.ofTokens_program (p : Program) {ts : List Token} (h : Leaf.ofTokens ts = p.leaves)
    (length : Nat) : ofTokens length ts = ⟨p.declarations, p.references, []⟩ := by
  have hread : State.init.read length (Leaf.ofTokens ts) =
      State.init.add p.declarations p.references (p.stop 0) := by
    have hend : ∀ l ∈ ([] : List Leaf).head?, l.is ";" = true → l.token.kind = .punct := by simp
    have := State.read_program length p State.init hend
    rwa [List.append_nil, State.read_nil, ← h] at this
  have hleads : Leads (fun _ _ => True) [] (Leaf.ofTokens ts) [] := by
    rw [h]
    exact p.leads []
  have hbrackets : Bracket.faults ts = [] :=
    (faultsFrom_eq_nil_iff rfl hleads.punct).2 hleads
  rw [ofTokens_eq_read, hread, hbrackets]
  simp [State.add, State.init, State.declarations]

namespace Program

/-- A leaf with nothing between it and the leaf before. -/
def leafAt (kind : Token.Kind) (start : Nat) (text : String) : Leaf :=
  ⟨[], kind, start, [], text.toList⟩

/-- The program `use<l>;module m(a)if(a){/**/v=[2];}`. -/
def sample : Program :=
  .reference ⟨leafAt .ident 0 "use", rfl, rfl⟩ ⟨leafAt .path 3 "<l>", rfl, rfl⟩
    (some ⟨leafAt .punct 6 ";", rfl, rfl⟩) <|
  .moduleBlock
    { keyword := ⟨leafAt .ident 7 "module", rfl, rfl⟩
      name := ⟨⟨[], .ident, 14, [' '], ['m']⟩, rfl, by decide⟩
      opener := ⟨leafAt .punct 15 "(", rfl, rfl⟩
      parameters := ⟨[leafAt .ident 16 "a"], .one trivial rfl⟩
      closer := ⟨leafAt .punct 17 ")", rfl, rfl⟩ }
    ⟨[leafAt .ident 18 "if", leafAt .punct 20 "(", leafAt .ident 21 "a", leafAt .punct 22 ")"],
      .next (by decide) rfl (.next (by decide) rfl (.next (by decide) rfl (.one (by decide) rfl)))⟩
    ⟨leafAt .punct 23 Token.braceOpen, rfl, rfl⟩
    (.assignment
      ⟨⟨⟨[⟨.blockComment, 24, [], "/**/".toList⟩], .ident, 28, [], ['v']⟩, rfl, by decide⟩, rfl⟩
      { equals := ⟨leafAt .punct 29 "=", rfl, rfl⟩
        value := ⟨[leafAt .punct 30 "[", leafAt .number 31 "2", leafAt .punct 32 "]"],
          .next (by decide) rfl (.next (by decide) rfl (.one (by decide) rfl))⟩
        semicolon := ⟨leafAt .punct 33 ";", rfl, rfl⟩ }
      .nil)
    ⟨leafAt .punct 34 Token.braceClose, rfl, rfl⟩
    .nil

end Program

/-- The sample refers to `l` and declares a module with a variable in it. -/
theorem Outline.ofTokens_sample :
    Leaf.ofTokens (sample.leaves.flatMap fun l => l.comments ++ [l.token]) = sample.leaves ∧
      Outline.ofTokens 35 (sample.leaves.flatMap fun l => l.comments ++ [l.token]) =
        { declarations :=
            [⟨"m", .module, ⟨7, 35⟩, ⟨14, 15⟩, none,
              [⟨"v", .variable, ⟨28, 34⟩, ⟨28, 29⟩, none, []⟩]⟩]
          references := [⟨"l", 3, 6⟩]
          faults := [] } :=
  ⟨rfl, ofTokens_program sample rfl 35⟩

end Scad
