import Scad.Outline

/-!
# Scad.Proofs.Outline.Nesting

The brackets that are open while leaves are read.

* `Leaf.nest`: the open brackets after one more leaf.
* `Leaf.Leads fits σ ls τ`: reading `ls` leads from the open brackets `σ` to `τ`, and every leaf
  fits the brackets around it.
* `Leaf.Leads.exists_match`: a bracket that does not stay open has its closing bracket.
* `Bracket.faultsFrom_eq_nil_iff`: the brackets of a source are in order if and only if its leaves
  lead from no open bracket to none.
-/

namespace Scad
namespace Bracket

/-- The kinds of bracket. -/
inductive Kind where
  | round
  | square
  | curly
  deriving DecidableEq, Repr

def Kind.opener : Kind → Char
  | .round => '('
  | .square => '['
  | .curly => '{'

def Kind.closer : Kind → Char
  | .round => ')'
  | .square => ']'
  | .curly => '}'

theorem closerOf_opener {j k : Kind} : closerOf j.opener = k.closer ↔ j = k := by
  cases j <;> cases k <;> decide

/-- What a text is to the nesting of brackets. -/
inductive Role where
  | plain
  | opens (k : Kind)
  | closes (k : Kind)
  deriving DecidableEq, Repr

def Role.ofText : List Char → Role
  | ['('] => .opens .round
  | ['['] => .opens .square
  | ['{'] => .opens .curly
  | [')'] => .closes .round
  | [']'] => .closes .square
  | ['}'] => .closes .curly
  | _ => .plain

theorem Role.ofText_eq_opens {s : List Char} {k : Kind} : ofText s = .opens k ↔ s = [k.opener] := by
  constructor
  · intro h
    unfold ofText at h
    split at h <;> cases h <;> rfl
  · rintro rfl
    cases k <;> rfl

theorem Role.ofText_eq_closes {s : List Char} {k : Kind} :
    ofText s = .closes k ↔ s = [k.closer] := by
  constructor
  · intro h
    unfold ofText at h
    split at h <;> cases h <;> rfl
  · rintro rfl
    cases k <;> rfl

end Bracket

open Scad.Bracket

theorem Token.bracket?_of_plain {t : Token} (h : Role.ofText t.text = .plain) :
    t.bracket? = none := by
  unfold bracket?
  split
  · rename_i c _ htext
    rw [htext] at h
    rw [if_neg]
    intro hc
    simp only [List.contains_iff_mem, List.mem_cons, List.not_mem_nil, or_false] at hc
    rcases hc with rfl | rfl | rfl | rfl | rfl | rfl <;> cases h
  · rfl

theorem Token.bracket?_of_opens {t : Token} {k : Bracket.Kind} (h : Role.ofText t.text = .opens k)
    (hp : t.kind = .punct) : t.bracket? = some k.opener ∧ t.isOpener = true := by
  rw [Role.ofText_eq_opens] at h
  rw [isOpener, bracket?, hp, h]
  cases k <;> decide

theorem Token.bracket?_of_closes {t : Token} {k : Bracket.Kind} (h : Role.ofText t.text = .closes k)
    (hp : t.kind = .punct) : t.bracket? = some k.closer ∧ t.isOpener = false := by
  rw [Role.ofText_eq_closes] at h
  rw [isOpener, bracket?, hp, h]
  cases k <;> decide

namespace Leaf

def role (l : Leaf) : Role := Role.ofText l.token.text

/-- The open brackets, innermost first, after one more leaf. A closing bracket takes the innermost
open one, which must be of its kind. All brackets are punctuation. -/
def nest (σ : List Kind) (l : Leaf) : Option (List Kind) :=
  match l.role with
  | .plain => some σ
  | .opens k => if l.token.kind = .punct then some (k :: σ) else none
  | .closes k => if l.token.kind = .punct ∧ σ.head? = some k then some σ.tail else none

/-- Reading the leaves leads from one stack of open brackets to another, and every leaf fits the
brackets that are open before it. -/
inductive Leads (fits : List Kind → Leaf → Prop) : List Kind → List Leaf → List Kind → Prop where
  | done (σ : List Kind) : Leads fits σ [] σ
  | next {σ ρ τ : List Kind} {l : Leaf} {ls : List Leaf} :
      fits σ l → l.nest σ = some ρ → Leads fits ρ ls τ → Leads fits σ (l :: ls) τ

theorem leads_cons_iff {fits : List Kind → Leaf → Prop} {σ τ : List Kind} {l : Leaf}
    {ls : List Leaf} :
    Leads fits σ (l :: ls) τ ↔ fits σ l ∧ ∃ ρ, l.nest σ = some ρ ∧ Leads fits ρ ls τ := by
  constructor
  · intro h
    cases h with
    | next hf hl h => exact ⟨hf, _, hl, h⟩
  · rintro ⟨hf, _, hl, h⟩
    exact .next hf hl h

section Nest

variable {l : Leaf} {k : Kind} {σ τ : List Kind}

theorem nest_of_plain (h : l.role = .plain) : l.nest σ = some σ := by
  simp only [nest, h]

theorem nest_of_opens (h : l.role = .opens k) (hp : l.token.kind = .punct) :
    l.nest σ = some (k :: σ) := by
  simp only [nest, h, hp, if_true]

theorem nest_of_closes (h : l.role = .closes k) (hp : l.token.kind = .punct) :
    l.nest σ = if σ.head? = some k then some σ.tail else none := by
  simp only [nest, h, hp, true_and]

/-- What one leaf can do to the open brackets. -/
inductive Nests : List Kind → Leaf → List Kind → Prop where
  | plain {σ : List Kind} {l : Leaf} : l.role = .plain → Nests σ l σ
  | opens {σ : List Kind} {l : Leaf} {k : Kind} : l.role = .opens k → l.token.kind = .punct →
      Nests σ l (k :: σ)
  | closes {σ : List Kind} {l : Leaf} {k : Kind} : l.role = .closes k → l.token.kind = .punct →
      Nests (k :: σ) l σ

theorem nests_of_nest (h : l.nest σ = some τ) : Nests σ l τ := by
  unfold nest at h
  split at h
  · rename_i hr
    cases h
    exact .plain hr
  · rename_i k hr
    split at h
    · rename_i hp
      cases h
      exact .opens hr hp
    · cases h
  · rename_i k hr
    split at h
    · rename_i hp
      cases h
      obtain ⟨ρ, hρ⟩ := List.head?_eq_some_iff.1 hp.2
      rw [hρ]
      exact .closes hr hp.1
    · cases h

theorem Nests.nest_eq (h : Nests σ l τ) : l.nest σ = some τ := by
  cases h with
  | plain hr => exact nest_of_plain hr
  | opens hr hp => exact nest_of_opens hr hp
  | closes hr hp => simp [nest_of_closes hr hp]

theorem eq_of_opens (h : l.nest σ = some τ) (hr : l.role = .opens k) :
    τ = k :: σ ∧ l.token.kind = .punct := by
  cases nests_of_nest h with
  | plain hr' =>
    rw [hr] at hr'
    cases hr'
  | opens hr' hp =>
    rw [hr] at hr'
    cases hr'
    exact ⟨rfl, hp⟩
  | closes hr' _ =>
    rw [hr] at hr'
    cases hr'

theorem eq_of_closes (h : l.nest σ = some τ) (hr : l.role = .closes k) :
    σ = k :: τ ∧ l.token.kind = .punct := by
  cases nests_of_nest h with
  | plain hr' =>
    rw [hr] at hr'
    cases hr'
  | opens hr' _ =>
    rw [hr] at hr'
    cases hr'
  | closes hr' hp =>
    rw [hr] at hr'
    cases hr'
    exact ⟨rfl, hp⟩

theorem nest_append (h : l.nest σ = some τ) (ρ : List Kind) :
    l.nest (σ ++ ρ) = some (τ ++ ρ) := by
  cases nests_of_nest h with
  | plain hr => exact (Nests.plain hr).nest_eq
  | opens hr hp => exact (Nests.opens hr hp).nest_eq
  | closes hr hp => exact (Nests.closes hr hp).nest_eq

end Nest

/-- Only brackets matter to their nesting. -/
theorem leads_filter_iff {σ τ : List Kind} {ls : List Leaf} :
    Leads (fun _ _ => True) σ (ls.filter fun l => l.role ≠ .plain) τ ↔
      Leads (fun _ _ => True) σ ls τ := by
  induction ls generalizing σ with
  | nil => rfl
  | cons l ls ih =>
    by_cases hr : l.role = .plain
    · rw [List.filter_cons_of_neg (by simp [hr]), ih, leads_cons_iff, nest_of_plain hr]
      simp
    · rw [List.filter_cons_of_pos (by simp [hr]), leads_cons_iff, leads_cons_iff]
      simp only [ih]

/-! ## Tests of the reading -/

section Tests

variable {l : Leaf} {k : Kind} {s : String}

theorem is_of_is (h : l.is s = true) (r : String) : l.is r = (s.toList == r.toList) := by
  rw [Leaf.is, Token.is, beq_iff_eq] at h
  rw [Leaf.is, Token.is, h]

theorem is_of_opens (h : l.role = .opens k) (s : String) : l.is s = ([k.opener] == s.toList) := by
  rw [Leaf.is, Token.is, Role.ofText_eq_opens.1 h]

theorem is_of_closes (h : l.role = .closes k) (s : String) :
    l.is s = ([k.closer] == s.toList) := by
  rw [Leaf.is, Token.is, Role.ofText_eq_closes.1 h]

theorem is_of_plain (h : l.role = .plain) (hs : Role.ofText s.toList ≠ .plain) :
    l.is s = false := by
  rw [Leaf.is, Token.is, beq_eq_false_iff_ne]
  intro he
  rw [role, he] at h
  exact hs h

theorem role_of_is (h : l.is s = true) : l.role = Role.ofText s.toList := by
  rw [Leaf.is, Token.is, beq_iff_eq] at h
  rw [role, h]

@[simp] theorem isAny_nil : l.isAny [] = false := rfl

@[simp] theorem isAny_cons (ss : List String) : l.isAny (s :: ss) = (l.is s || l.isAny ss) := rfl

theorem exists_of_isAny {ss : List String} (h : l.isAny ss = true) : ∃ s ∈ ss, l.is s = true :=
  List.any_eq_true.1 h

theorem isAny_of_is {ss : List String} (h : l.is s = true) (hs : s ∈ ss) : l.isAny ss = true :=
  List.any_eq_true.2 ⟨s, hs, h⟩

/-- A leaf that is one of `ss` is nothing else. -/
theorem is_of_isAny {ss : List String} (h : l.isAny ss = true) (hs : s ∉ ss) : l.is s = false := by
  obtain ⟨r, hr, hl⟩ := exists_of_isAny h
  rw [is_of_is hl, beq_eq_false_iff_ne]
  intro he
  exact hs (String.toList_inj.1 he ▸ hr)

theorem isAny_of_isAny {ss rs : List String} (h : l.isAny ss = true) (hrs : ∀ r ∈ rs, r ∉ ss) :
    l.isAny rs = false := by
  rw [Bool.eq_false_iff]
  intro hl
  obtain ⟨r, hr, hl⟩ := exists_of_isAny hl
  rw [is_of_isAny h (hrs r hr)] at hl
  cases hl

theorem isAny_of_plain (h : l.role = .plain) {ss : List String}
    (hs : ∀ s ∈ ss, Role.ofText s.toList ≠ .plain) : l.isAny ss = false := by
  induction ss with
  | nil => rfl
  | cons s ss ih =>
    rw [isAny_cons, is_of_plain h (hs s List.mem_cons_self),
      ih fun r hr => hs r (List.mem_cons_of_mem s hr), Bool.or_false]

end Tests

/-! ## Reading on -/

namespace Leads

variable {fits fits' : List Kind → Leaf → Prop} {σ ρ τ : List Kind} {l : Leaf} {ls ms : List Leaf}

theorem one (hf : fits σ l) (h : l.nest σ = some τ) : Leads fits σ [l] τ := .next hf h (.done τ)

theorem append (h : Leads fits σ ls ρ) (h' : Leads fits ρ ms τ) : Leads fits σ (ls ++ ms) τ := by
  induction h with
  | done => exact h'
  | next hf hl _ ih => exact .next hf hl (ih h')

theorem split (h : Leads fits σ (ls ++ ms) τ) : ∃ ρ, Leads fits σ ls ρ ∧ Leads fits ρ ms τ := by
  induction ls generalizing σ with
  | nil => exact ⟨σ, .done σ, h⟩
  | cons l ls ih =>
    cases h with
    | next hf hl h =>
      obtain ⟨ρ, h1, h2⟩ := ih h
      exact ⟨ρ, .next hf hl h1, h2⟩

theorem mono (h : Leads fits σ ls τ) (hfits : ∀ σ, ∀ l ∈ ls, fits σ l → fits' σ l) :
    Leads fits' σ ls τ := by
  induction h with
  | done σ => exact .done σ
  | next hf hl _ ih =>
    exact .next (hfits _ _ List.mem_cons_self hf) hl
      (ih fun σ m hm => hfits σ m (List.mem_cons_of_mem _ hm))

theorem unique {ρ' : List Kind} (h : Leads fits σ ls ρ) (h' : Leads fits' σ ls ρ') : ρ = ρ' := by
  induction h with
  | done => cases h'; rfl
  | next _ hl _ ih =>
    cases h' with
    | next _ hl' h' =>
      rw [hl] at hl'
      cases hl'
      exact ih h'

/-- Leaves nest the same way inside more brackets. -/
theorem within (h : Leads fits σ ls τ) (ρ : List Kind)
    (hfits : ∀ σ l, fits σ l → fits' (σ ++ ρ) l) : Leads fits' (σ ++ ρ) ls (τ ++ ρ) := by
  induction h with
  | done σ => exact .done (σ ++ ρ)
  | next hf hl _ ih => exact .next (hfits _ _ hf) (nest_append hl ρ) ih

/-- Brackets around those at hand change nothing. -/
theorem frame (h : Leads fits σ ls τ) (ρ : List Kind) :
    Leads (fun _ _ => True) (σ ++ ρ) ls (τ ++ ρ) :=
  h.within ρ fun _ _ _ => trivial

theorem punct (h : Leads fits σ ls τ) : ∀ l ∈ ls, l.role ≠ .plain → l.token.kind = .punct := by
  induction h with
  | done =>
    intro l hl
    cases hl
  | next _ hl _ ih =>
    intro m hm hr
    rcases List.mem_cons.1 hm with rfl | hm
    · cases nests_of_nest hl with
      | plain hp => exact absurd hp hr
      | opens _ hp => exact hp
      | closes _ hp => exact hp
    · exact ih m hm hr

/-- A bracket that does not stay open has its closing bracket, with everything opened in between
closed in between. -/
theorem exists_match {k : Kind} (h : Leads fits (τ ++ k :: σ) ls []) :
    ∃ inner close rest, ls = inner ++ close :: rest ∧ Leads (fun _ _ => True) τ inner [] ∧
      close.role = .closes k ∧ close.token.kind = .punct ∧ Leads fits σ rest [] := by
  generalize hstack : τ ++ k :: σ = ρ at h
  generalize hend : [] = ε at h
  -- `τ` holds what has been opened inside since the bracket
  induction h generalizing τ with
  | done => simp [← hend] at hstack
  | @next _ ρ' ε l ls hf hl hrest ih =>
    subst hend
    cases nests_of_nest hl with
    | plain hr =>
      obtain ⟨inner, close, rest, rfl, hinner, hclose⟩ := ih hstack rfl
      exact ⟨l :: inner, close, rest, rfl, .next trivial (Nests.plain hr).nest_eq hinner, hclose⟩
    | @opens _ _ j hr hp =>
      obtain ⟨inner, close, rest, rfl, hinner, hclose⟩ :=
        ih (τ := j :: τ) (congrArg (j :: ·) hstack) rfl
      exact ⟨l :: inner, close, rest, rfl, .next trivial (Nests.opens hr hp).nest_eq hinner, hclose⟩
    | closes hr hp =>
      cases τ with
      | nil =>
        cases hstack
        exact ⟨[], l, ls, rfl, .done [], hr, hp, hrest⟩
      | cons j τ =>
        obtain ⟨rfl, htail⟩ := List.cons.inj hstack
        obtain ⟨inner, close, rest, rfl, hinner, hclose⟩ := ih htail rfl
        exact ⟨l :: inner, close, rest, rfl, .next trivial (Nests.closes hr hp).nest_eq hinner,
          hclose⟩

end Leads
end Leaf

/-! ## Stretches -/

namespace Item

open Leaf

/-- The stretch with more leaves in front. -/
def Stretch.prepend (ls : List Leaf) (s : Stretch) : Stretch := ⟨s.ended, ls ++ s.taken, s.rest⟩

theorem Stretch.cons_prepend (l : Leaf) (ls : List Leaf) (s : Stretch) :
    (s.prepend ls).cons l = s.prepend (l :: ls) :=
  rfl

section Role

variable {l : Leaf} {k : Kind}

theorem parameters_plain (h : l.role = .plain) (depth : Nat) (ls : List Leaf) :
    parameters depth (l :: ls) = (parameters depth ls).cons l := by
  simp [parameters, is_of_plain h (s := "(") (by decide), is_of_plain h (s := ")") (by decide)]

theorem parameters_opens (h : l.role = .opens k) (depth : Nat) (ls : List Leaf) :
    parameters depth (l :: ls) =
      if k = .round then (parameters (depth + 1) ls).cons l else (parameters depth ls).cons l := by
  simp only [parameters, is_of_opens h]
  cases k <;> simp [Kind.opener]

theorem parameters_closes (h : l.role = .closes k) (depth : Nat) (ls : List Leaf) :
    parameters depth (l :: ls) =
      if k = .round then
        if depth - 1 = 0 then ⟨true, [l], ls⟩ else (parameters (depth - 1) ls).cons l
      else (parameters depth ls).cons l := by
  simp only [parameters, is_of_closes h]
  cases k <;> simp [Kind.closer]

theorem expression_plain (h : l.role = .plain) (depth : Nat) (ls : List Leaf) :
    expression depth (l :: ls) =
      if depth = 0 ∧ l.is ";" = true then ⟨true, [l], ls⟩
      else if depth = 0 ∧ l.isAny ["module", "function"] = true then ⟨false, [], l :: ls⟩
      else (expression depth ls).cons l := by
  have hopen : l.isAny ["(", "[", Token.braceOpen] = false := isAny_of_plain h (by decide)
  have hclose : l.isAny [")", "]", Token.braceClose] = false := isAny_of_plain h (by decide)
  have hbrace : l.is Token.braceClose = false := is_of_plain h (by decide)
  rw [expression, isAny_cons _ (s := Token.braceClose), hbrace, Bool.false_or, hopen, hclose]
  rfl

theorem expression_opens (h : l.role = .opens k) (depth : Nat) (ls : List Leaf) :
    expression depth (l :: ls) = (expression (depth + 1) ls).cons l := by
  simp only [expression, is_of_opens h, isAny_cons, isAny_nil]
  cases k <;> simp [Kind.opener, Token.braceOpen, Token.braceClose]

theorem expression_closes (h : l.role = .closes k) (depth : Nat) (ls : List Leaf) :
    expression depth (l :: ls) =
      if depth = 0 ∧ k = .curly then ⟨false, [], l :: ls⟩
      else (expression (depth - 1) ls).cons l := by
  simp only [expression, is_of_closes h, isAny_cons, isAny_nil]
  cases k <;> simp [Kind.closer, Token.braceOpen, Token.braceClose]

theorem statementRest_plain (h : l.role = .plain) (depth : Nat) (ls : List Leaf) :
    statementRest depth (l :: ls) =
      if depth = 0 ∧ l.is ";" = true then ⟨false, [l], ls⟩
      else (statementRest depth ls).cons l := by
  have hopen : l.isAny ["(", "["] = false := isAny_of_plain h (by decide)
  have hclose : l.isAny [")", "]"] = false := isAny_of_plain h (by decide)
  simp [statementRest, is_of_plain h (s := Token.braceOpen) (by decide), hopen, hclose,
    is_of_plain h (s := Token.braceClose) (by decide)]

theorem statementRest_opens (h : l.role = .opens k) (depth : Nat) (ls : List Leaf) :
    statementRest depth (l :: ls) =
      if k = .curly then ⟨true, [l], ls⟩ else (statementRest (depth + 1) ls).cons l := by
  simp only [statementRest, is_of_opens h, isAny_cons, isAny_nil]
  cases k <;> simp [Kind.opener, Token.braceOpen, Token.braceClose]

theorem statementRest_closes (h : l.role = .closes k) (depth : Nat) (ls : List Leaf) :
    statementRest depth (l :: ls) =
      if k = .curly then
        if depth = 0 then ⟨false, [], l :: ls⟩ else (statementRest depth ls).cons l
      else (statementRest (depth - 1) ls).cons l := by
  simp only [statementRest, is_of_closes h, isAny_cons, isAny_nil]
  cases k <;> simp [Kind.closer, Token.braceOpen, Token.braceClose]

end Role

/-- A parameter list counts round brackets only, which is enough where brackets are nested. -/
theorem parameters_of_leads {fits : List Kind → Leaf → Prop} {σ τ : List Kind} {ls : List Leaf}
    (h : Leads fits σ ls τ) (rest : List Leaf) :
    parameters (σ.count .round + 1) (ls ++ rest) =
      (parameters (τ.count .round + 1) rest).prepend ls := by
  induction h with
  | done => rfl
  | @next σ ρ τ l ls _ hl _ ih =>
    rw [List.cons_append, ← Stretch.cons_prepend, ← ih]
    cases nests_of_nest hl with
    | plain hr => exact parameters_plain hr _ _
    | @opens _ _ k hr _ =>
      rw [parameters_opens hr]
      cases k <;> simp
    | @closes _ _ k hr _ =>
      rw [parameters_closes hr]
      cases k <;> simp

/-- A parameter list ends at the bracket that belongs to its first one. -/
theorem parameters_nested {opener closer : Leaf} {inner : List Leaf}
    (hopen : opener.is "(" = true) (hinner : Leads (fun _ _ => True) [] inner [])
    (hclose : closer.is ")" = true) (rest : List Leaf) :
    parameters 0 (opener :: (inner ++ closer :: rest)) =
      ⟨true, opener :: (inner ++ [closer]), rest⟩ := by
  have hps := parameters_of_leads hinner (closer :: rest)
  rw [List.count_nil, Nat.zero_add, parameters_closes (role_of_is hclose)] at hps
  rw [parameters_opens (role_of_is hopen), if_pos rfl, Nat.zero_add, hps]
  rfl

/-- Only a closing brace is read differently at the beginning of a statement. -/
theorem statement_eq_statementRest {l : Leaf} (h : l.is Token.braceClose = false) (ls : List Leaf) :
    statement (l :: ls) = statementRest 0 (l :: ls) := by
  simp only [statement, statementRest, h, Bool.false_eq_true, and_false, if_false, true_and,
    Nat.zero_sub, Nat.zero_add]
  cases hc : l.isAny [")", "]"] with
  | false => simp only [Bool.false_eq_true, if_false]
  | true =>
    have hsemi : l.is ";" = false := is_of_isAny hc (by decide)
    simp only [hsemi, Bool.false_eq_true, if_false, if_true]

/-- A module with a name. -/
theorem next_eq_moduleItem (eof : Nat) {keyword name : Leaf} (hk : keyword.token.kind = .ident)
    (hm : keyword.is "module" = true) (hn : name.token.kind = .ident) (ls : List Leaf) :
    next eof keyword (name :: ls) = moduleItem eof keyword name ls := by
  have hbrace : keyword.is Token.braceClose = false := is_of_is hm _
  rw [next, hbrace, if_neg Bool.false_ne_true, if_pos ⟨hk, hm⟩, keywordDeclaration, if_pos hn]
  exact Declaration.Kind.noConfusion

end Item

/-! ## Faults of brackets -/

theorem Token.bracket?_of_comment {t : Token} (h : t.isComment = true) : t.bracket? = none := by
  unfold bracket?
  split
  · rename_i hk _
    simp [isComment, hk] at h
  · rfl

namespace Bracket

theorem faultsFrom_eq_nil_iff {ts : List Token} {cs : List Token} {stack : List (Char × Nat)}
    {σ : List Kind} (hstack : stack.map Prod.fst = σ.map Kind.opener)
    (hpunct : ∀ l ∈ Leaf.ofTokensFrom cs ts, l.role ≠ .plain → l.token.kind = .punct) :
    faultsFrom stack ts = [] ↔ Leaf.Leads (fun _ _ => True) σ (Leaf.ofTokensFrom cs ts) [] := by
  induction ts generalizing cs stack σ with
  | nil =>
    rw [faultsFrom, Leaf.ofTokensFrom, List.map_eq_nil_iff, List.reverse_eq_nil_iff]
    constructor
    · rintro rfl
      rw [List.map_eq_nil_iff.1 hstack.symm]
      exact .done []
    · intro h
      cases h
      exact List.map_eq_nil_iff.1 hstack
  | cons t ts ih =>
    rw [faultsFrom]
    rw [Leaf.ofTokensFrom] at hpunct ⊢
    cases hc : t.isComment with
    | true =>
      rw [if_pos hc] at hpunct
      rw [Token.bracket?_of_comment hc]
      exact ih hstack hpunct
    | false =>
      simp only [hc, Bool.false_eq_true, if_false, List.forall_mem_cons] at hpunct ⊢
      obtain ⟨hl, hls⟩ := hpunct
      rw [Leaf.leads_cons_iff]
      cases hr : Leaf.role ⟨cs, t⟩ with
      | plain =>
        rw [Token.bracket?_of_plain hr, Leaf.nest_of_plain hr]
        simpa using ih hstack hls
      | opens k =>
        have hp := hl (by rw [hr]; exact Role.noConfusion)
        obtain ⟨hb, ho⟩ := Token.bracket?_of_opens hr hp
        rw [hb, Leaf.nest_of_opens hr hp]
        have hpush : ((k.opener, t.start) :: stack).map Prod.fst = (k :: σ).map Kind.opener := by
          simp [hstack]
        simpa [ho] using ih hpush hls
      | closes k =>
        have hp := hl (by rw [hr]; exact Role.noConfusion)
        obtain ⟨hb, ho⟩ := Token.bracket?_of_closes hr hp
        rw [hb, Leaf.nest_of_closes hr hp]
        cases σ with
        | nil =>
          rw [List.map_nil, List.map_eq_nil_iff] at hstack
          simp [ho, hstack]
        | cons j σ =>
          obtain ⟨⟨o, n⟩, stack, rfl⟩ := List.exists_cons_of_ne_nil (l := stack) (by
            rintro rfl
            simp at hstack)
          obtain ⟨rfl, htail⟩ := List.cons.inj hstack
          by_cases hj : j = k
          · simpa [ho, closerOf_opener, hj] using ih htail hls
          · simp [ho, closerOf_opener, hj]

end Bracket
end Scad
