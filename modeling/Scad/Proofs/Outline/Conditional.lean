import Scad.Proofs.Outline.Grammar
import Scad.Proofs.Token.Reads

/-!
# Scad.Proofs.Outline.Conditional

Modules whose body is a conditional statement with two blocks.

* `Program.Conditional`: `module m(P) if (C) { A } else { B }`, whose leaves are
  `Conditional.leaves`.
* `Outline.State.read_conditional`: the module ends with its first block. What follows is read as a
  statement of its own.
* `Outline.ofTokens_conditional`: so the module has the declarations of `A` alone, and those of `B`
  stand beside it.
-/

namespace Scad

open Scad.Bracket Leaf

namespace Program

/-- The brackets of a condition are in order, and none is a brace. -/
structure Condition where
  leaves : List Leaf
  nested : Leads (fun _ l => l.isAny [Token.braceOpen, Token.braceClose] = false) [] leaves []

/-- A condition between parentheses, after `if`. -/
structure Test where
  word : Word "if"
  opener : Mark "("
  condition : Condition
  closer : Mark ")"

/-- A program between braces. -/
structure Block where
  opener : Mark Token.braceOpen
  program : Program
  closer : Mark Token.braceClose

/-- A module whose body is a conditional statement with two blocks. -/
structure Conditional where
  head : Head "module"
  test : Test
  yes : Block
  otherwise : Word "else"
  no : Block

def Test.leaves (t : Test) : List Leaf :=
  t.word.leaf :: t.opener.leaf :: (t.condition.leaves ++ [t.closer.leaf])

def Block.leaves (b : Block) : List Leaf :=
  b.opener.leaf :: (b.program.leaves ++ [b.closer.leaf])

def Conditional.leaves (c : Conditional) : List Leaf :=
  c.head.leaves ++ (c.test.leaves ++ (c.yes.leaves ++ c.otherwise.leaf :: c.no.leaves))

theorem Word.isAny_eq_false {s : String} (w : Word s) {ss : List String} (h : s ∉ ss) :
    w.leaf.isAny ss = false := by
  refine isAny_of_isAny (isAny_of_is w.reads List.mem_cons_self : w.leaf.isAny [s] = true) ?_
  intro r hr hrs
  exact h (List.mem_singleton.1 hrs ▸ hr)

/-- A statement does not end before the block that follows its condition. -/
theorem Test.bare (t : Test) : Leads Bare [] t.leaves [] := by
  have hcondition : Leads Bare [.round] t.condition.leaves [.round] :=
    t.condition.nested.within [.round] fun σ l hl => ⟨hl, fun h => absurd h (by simp)⟩
  have hopener : Bare [] t.opener.leaf := by
    simp [Bare, is_of_is t.opener.reads, Token.braceOpen, Token.braceClose]
  have hcloser : Bare [.round] t.closer.leaf := by
    simp [Bare, is_of_is t.closer.reads, Token.braceOpen, Token.braceClose]
  have hword : Bare [] t.word.leaf :=
    ⟨t.word.isAny_eq_false (by decide), fun _ => is_of_is t.word.reads _⟩
  refine .next hword (nest_of_plain (role_of_is t.word.reads)) ?_
  refine .next hopener (t.opener.opens rfl []) ?_
  exact hcondition.append (.one hcloser (t.closer.closes rfl []))

/-- `else` and its block, as a statement. -/
def Conditional.alternative (c : Conditional) : Program :=
  have hplain : Plain [] c.otherwise.leaf :=
    ⟨c.otherwise.isAny_eq_false (by decide), fun _ => is_of_is c.otherwise.reads _⟩
  have hnest : c.otherwise.leaf.nest [] = some [] :=
    nest_of_plain (role_of_is c.otherwise.reads)
  .block ⟨⟨[c.otherwise.leaf], .one hplain hnest⟩, id⟩ c.no.opener c.no.program c.no.closer .nil

theorem Conditional.leaves_eq (c : Conditional) :
    c.leaves = c.head.leaves ++ (c.test.leaves ++ c.yes.opener.leaf ::
      (c.yes.program.leaves ++ c.yes.closer.leaf :: c.alternative.leaves)) := by
  simp [leaves, Block.leaves, alternative, Program.leaves]

theorem Conditional.leads (c : Conditional) : Leads (fun _ _ => True) [] c.leaves [] := by
  have htest : Leads (fun _ _ => True) [] c.test.leaves [] := c.test.bare.frame []
  have hyes := (c.yes.program.leads [.curly]).append
    (.next trivial (c.yes.closer.closes rfl []) (c.alternative.leads []))
  rw [c.leaves_eq]
  exact (c.head.leads rfl []).append
    (htest.append (.next trivial (c.yes.opener.opens rfl []) hyes))

end Program

open Program

namespace Outline

/-- The module ends with its first block, and the declarations of the second one follow it. -/
theorem State.read_conditional (eof : Nat) (st : State) (c : Conditional) {rest : List Leaf}
    (hrest : ∀ l ∈ rest.head?, l.is ";" = true → l.token.kind = .punct) :
    st.read eof (c.leaves ++ rest) =
      (st.add
        (declare .module c.head.keyword.leaf c.head.name.leaf.token c.yes.closer.leaf.token.stop
          c.yes.program.declarations :: c.no.program.declarations)
        (c.yes.program.references ++ c.no.program.references)
        c.no.closer.leaf.token.stop).read eof rest := by
  have hclose : ∀ l ∈ (c.yes.closer.leaf :: (c.alternative.leaves ++ rest)).head?,
      l.is ";" = true → l.token.kind = .punct := by
    intro l hl _
    cases hl
    exact c.yes.closer.punct
  have hdeclarations : c.alternative.declarations = c.no.program.declarations :=
    List.append_nil _
  have hreferences : c.alternative.references = c.no.program.references := List.append_nil _
  rw [c.leaves_eq]
  simp only [List.append_assoc, List.cons_append]
  rw [read_moduleOpener eof st c.head c.test.bare, read_program eof _ _ hclose, read_closer,
    read_program eof c.alternative _ hrest, add_add, hdeclarations, hreferences]
  rfl

/-- A module whose body is a conditional statement ends with the first of its blocks, for all
conditions and all programs in the blocks: the declarations of the second block are beside the
module and not in it. -/
theorem ofTokens_conditional (c : Conditional) {ts : List Token} (h : Leaf.ofTokens ts = c.leaves)
    (length : Nat) :
    ofTokens length ts =
      { declarations :=
          declare .module c.head.keyword.leaf c.head.name.leaf.token c.yes.closer.leaf.token.stop
            c.yes.program.declarations :: c.no.program.declarations
        references := c.yes.program.references ++ c.no.program.references
        faults := [] } := by
  have hend : ∀ l ∈ ([] : List Leaf).head?, l.is ";" = true → l.token.kind = .punct := by simp
  have hread := State.read_conditional length State.init c hend
  have hleads : Leads (fun _ _ => True) [] (Leaf.ofTokens ts) [] := by
    rw [h]
    exact c.leads
  have hbrackets : Bracket.faults ts = [] :=
    (faultsFrom_eq_nil_iff rfl hleads.punct).2 hleads
  rw [List.append_nil, State.read_nil, ← h] at hread
  rw [ofTokens_eq_read, hread, hbrackets]
  simp [State.add, State.init, State.declarations]

end Outline

namespace Program.Conditional

/-- The program `module m(p)if(c){a=1;}else{b=2;}`. -/
def twoBlocks : Conditional where
  head :=
    { keyword := ⟨leafAt .ident 0 "module", rfl, rfl⟩
      name := ⟨⟨[], .ident, 7, [' '], ['m']⟩, rfl, by decide⟩
      opener := ⟨leafAt .punct 8 "(", rfl, rfl⟩
      parameters := ⟨[leafAt .ident 9 "p"], .one trivial rfl⟩
      closer := ⟨leafAt .punct 10 ")", rfl, rfl⟩ }
  test :=
    { word := ⟨leafAt .ident 11 "if", rfl, rfl⟩
      opener := ⟨leafAt .punct 13 "(", rfl, rfl⟩
      condition := ⟨[leafAt .ident 14 "c"], .one rfl rfl⟩
      closer := ⟨leafAt .punct 15 ")", rfl, rfl⟩ }
  yes :=
    { opener := ⟨leafAt .punct 16 Token.braceOpen, rfl, rfl⟩
      program := .assignment ⟨⟨leafAt .ident 17 "a", rfl, by decide⟩, rfl⟩
        { equals := ⟨leafAt .punct 18 "=", rfl, rfl⟩
          value := ⟨[leafAt .number 19 "1"], .one (by decide) rfl⟩
          semicolon := ⟨leafAt .punct 20 ";", rfl, rfl⟩ }
        .nil
      closer := ⟨leafAt .punct 21 Token.braceClose, rfl, rfl⟩ }
  otherwise := ⟨leafAt .ident 22 "else", rfl, rfl⟩
  no :=
    { opener := ⟨leafAt .punct 26 Token.braceOpen, rfl, rfl⟩
      program := .assignment ⟨⟨leafAt .ident 27 "b", rfl, by decide⟩, rfl⟩
        { equals := ⟨leafAt .punct 28 "=", rfl, rfl⟩
          value := ⟨[leafAt .number 29 "2"], .one (by decide) rfl⟩
          semicolon := ⟨leafAt .punct 30 ";", rfl, rfl⟩ }
        .nil
      closer := ⟨leafAt .punct 31 Token.braceClose, rfl, rfl⟩ }

def tokens (c : Conditional) : List Token := c.leaves.map Leaf.token

end Program.Conditional

namespace Outline

open Conditional

/-- The module `m` ends with the block that declares `a`, and `b` is declared beside it. -/
theorem ofTokens_conditional_twoBlocks :
    Leaf.ofTokens twoBlocks.tokens = twoBlocks.leaves ∧
      ofTokens 32 twoBlocks.tokens =
        { declarations :=
            [⟨"m", .module, ⟨0, 22⟩, ⟨7, 8⟩, none,
              [⟨"a", .variable, ⟨17, 21⟩, ⟨17, 18⟩, none, []⟩]⟩,
              ⟨"b", .variable, ⟨27, 31⟩, ⟨27, 28⟩, none, []⟩]
          references := []
          faults := [] } :=
  ⟨rfl, ofTokens_conditional twoBlocks rfl 32⟩

/-- The module does not reach to the end of its body, and lacks a child. -/
theorem conditional_ends_early :
    tokenize (Token.spell twoBlocks.tokens) = .ok twoBlocks.tokens ∧
      Leaf.ofTokens twoBlocks.tokens = twoBlocks.leaves ∧
      (ofTokens (Token.spell twoBlocks.tokens).length twoBlocks.tokens).declarations ≠
        [declare .module twoBlocks.head.keyword.leaf twoBlocks.head.name.leaf.token
          twoBlocks.no.closer.leaf.token.stop
          (twoBlocks.yes.program.declarations ++ twoBlocks.no.program.declarations)] := by
  have htwo : (ofTokens (Token.spell twoBlocks.tokens).length
      twoBlocks.tokens).declarations.length = 2 := by with_unfolding_all rfl
  refine ⟨by decide +kernel, rfl, fun h => ?_⟩
  rw [h] at htwo
  cases htwo

end Outline
end Scad
