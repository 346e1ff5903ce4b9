import Mathlib.Data.List.Nodup
import Scad.Proofs.Outline.Block

/-!
# Scad.Proofs.Outline.Hidden

Modules that get lost in a source without faults.

* `Leaf.Outside`: the leaves lead outside all parentheses and square brackets.
* `Item.Hides it l`: the item takes the leaf into a statement, into the body of a module, or into
  the braces of an expression.
* `Item.Swallows`, `Item.hides_of_swallows`: if an item without faults takes the keyword of another
  module, outside all parentheses and square brackets, then in one of these places.
* `Outline.module_declared_iff`: such a module is declared if and only if no item hides its keyword.
-/

namespace Scad

open Scad.Bracket Leaf

/-! ## Outside of brackets -/

namespace Leaf

/-- Reading the leaves inside the brackets `σ` leads outside all parentheses and square brackets. -/
def Outside (σ : List Kind) (ls : List Leaf) : Prop :=
  ∃ τ, Leads (fun _ _ => True) σ ls τ ∧ ∀ k ∈ τ, k = .curly

section Outside

variable {fits : List Kind → Leaf → Prop} {σ ρ τ : List Kind} {k : Kind} {ls ms : List Leaf}

theorem Outside.append (h : Outside σ (ls ++ ms)) (hl : Leads fits σ ls ρ) : Outside ρ ms := by
  obtain ⟨τ, hτ, hall⟩ := h
  obtain ⟨ρ', h1, h2⟩ := hτ.split
  cases hl.unique h1
  exact ⟨τ, h2, hall⟩

/-- A bracket that is still open is a brace. -/
theorem Outside.eq_curly (h : Outside (k :: σ) ls) (hl : Leads fits [] ls τ) : k = .curly := by
  obtain ⟨π, hπ, hall⟩ := h
  cases hπ.unique (hl.frame (k :: σ))
  exact hall k (by simp)

end Outside

/-- One of the leaves opens a bracket, and what it opens is still open at their end, with nothing
else open inside. -/
def Opening (ls : List Leaf) : Prop :=
  ∃ before opener inner k, ls = before ++ opener :: inner ∧ opener.role = .opens k ∧
    Leads (fun _ _ => True) [] inner []

theorem Opening.cons {ls : List Leaf} (h : Opening ls) (l : Leaf) : Opening (l :: ls) := by
  obtain ⟨before, opener, inner, k, rfl, hopener⟩ := h
  exact ⟨l :: before, opener, inner, k, rfl, hopener⟩

/-- Outside all parentheses and square brackets the leaves have opened a brace. -/
theorem Opening.brace {σ : List Kind} {ls : List Leaf} (h : Opening ls) (hout : Outside σ ls) :
    ∃ before brace inner, ls = before ++ brace :: inner ∧ brace.is Token.braceOpen = true ∧
      Leads (fun _ _ => True) [] inner [] := by
  obtain ⟨before, opener, inner, k, rfl, hopener, hinner⟩ := h
  obtain ⟨τ, hτ, hall⟩ := hout
  obtain ⟨ρ, -, hrest⟩ := hτ.split
  cases hrest with
  | next _ hnest hrest =>
    obtain ⟨rfl, -⟩ := eq_of_opens hnest hopener
    obtain rfl := Outside.eq_curly ⟨τ, hrest, hall⟩ hinner
    refine ⟨before, opener, inner, rfl, ?_, hinner⟩
    rw [is_of_opens hopener]
    rfl

theorem Apart.nodup {ls : List Leaf} (h : Apart ls) : ls.Nodup := by
  refine h.pairwise.imp_of_mem fun hl _ hlm => ?_
  rintro rfl
  have := h.nonempty _ hl
  omega

end Leaf

namespace Item

/-- The item takes the leaf where no declaration can begin. -/
inductive Hides (it : Item) (l : Leaf) : Prop where
  /-- Into a statement. -/
  | statement : it.shape = .skipped ∨ it.shape = .openedBlock → l ∈ it.others → Hides it l
  /-- Into the body of a module, which is a statement. -/
  | body {keyword name : Leaf} {parameters body : List Leaf} :
      it.leaves = keyword :: name :: (parameters ++ body) → keyword.is "module" = true →
      name.token.kind = .ident → ParameterList parameters → parameters ≠ [] → l ∈ body →
      Hides it l
  /-- Into the braces of an expression. -/
  | braces {equals brace : Leaf} {front before inner after : List Leaf} {kind : Declaration.Kind}
      {name : Token} :
      it.shape = .declared kind name → kind ≠ .module →
      it.leaves = front ++ equals :: (before ++ brace :: (inner ++ l :: after)) →
      equals.is "=" = true → brace.is Token.braceOpen = true →
      Leads (fun _ _ => True) [] inner [] → Hides it l

/-- The item takes the keyword of another module, outside all parentheses and square brackets. `σ`
are the open brackets before the item. -/
def Swallows (σ : List Kind) (it : Item) (m : Leaf) : Prop :=
  ∃ as bs, it.others = as ++ m :: bs ∧ m.token.kind = .ident ∧ m.is "module" = true ∧
    Outside σ (it.first :: as) ∧ ∀ n ∈ bs.head?, n.is "(" = false

section Swallows

variable {σ ρ τ : List Kind} {l m : Leaf} {ls as bs : List Leaf}

/-- An expression goes on at a keyword only inside a bracket: one that it has opened, or one of
those that it had opened before, here `σ`. -/
theorem expression_keyword (h : Leads (fun _ _ => True) (σ ++ ρ) ls τ) (hm : m.is "module" = true)
    (hcut : (expression σ.length ls).taken = as ++ m :: bs) :
    Opening as ∨ ∃ π k π', σ = π ++ k :: π' ∧ Leads (fun _ _ => True) π as [] := by
  have hplain : m.role = .plain := role_of_is hm
  induction ls generalizing σ ρ as with
  | nil => simp [expression] at hcut
  | cons l ls ih =>
    cases h with
    | @next _ α _ _ _ _ hl hrest =>
      have hon : ∀ σ' ρ' as', α = σ' ++ ρ' → (expression σ'.length ls).taken = as' ++ m :: bs →
          Opening (l :: as') ∨ ∃ π k π', σ' = π ++ k :: π' ∧
            Leads (fun _ _ => True) π as' [] := by
        intro σ' ρ' as' hα hcut'
        subst hα
        exact (ih hrest hcut').imp_left fun hopen => hopen.cons l
      cases as with
      | nil =>
        have happ := expression_append σ.length (l :: ls)
        rw [hcut] at happ
        obtain ⟨rfl, -⟩ := List.cons.inj happ
        cases σ with
        | nil =>
          -- outside all brackets the expression stops before the keyword
          have hsemi : m.is ";" = false := is_of_is hm _
          simp [expression_plain hplain, hsemi, hm] at hcut
        | cons k σ => exact .inr ⟨[], k, σ, rfl, .done []⟩
      | cons a as =>
        generalize hσρ : σ ++ ρ = β at hl
        cases nests_of_nest hl with
        | plain hr =>
          rw [expression_plain hr] at hcut
          split at hcut
          · simp at hcut
          split at hcut
          · simp at hcut
          obtain ⟨rfl, hcut'⟩ := List.cons.inj hcut
          rcases hon σ ρ as hσρ.symm hcut' with hopen | ⟨π, k, π', hσ, hπ⟩
          · exact .inl hopen
          · exact .inr ⟨π, k, π', hσ, .next trivial (nest_of_plain hr) hπ⟩
        | @opens _ _ k hr hp =>
          rw [expression_opens hr] at hcut
          obtain ⟨rfl, hcut'⟩ := List.cons.inj hcut
          rcases hon (k :: σ) ρ as (congrArg (k :: ·) hσρ.symm) hcut' with
            hopen | ⟨π, j, π', hσ, hπ⟩
          · exact .inl hopen
          · cases π with
            | nil => exact .inl ⟨[], l, as, k, rfl, hr, hπ⟩
            | cons _ π =>
              obtain ⟨rfl, rfl⟩ := List.cons.inj hσ
              exact .inr ⟨π, j, π', rfl, .next trivial (nest_of_opens hr hp) hπ⟩
        | @closes _ _ k hr hp =>
          rw [expression_closes hr] at hcut
          split at hcut
          · simp at hcut
          obtain ⟨rfl, hcut'⟩ := List.cons.inj hcut
          cases σ with
          | nil =>
            rcases hon [] α as rfl hcut' with hopen | ⟨π, j, π', hσ, -⟩
            · exact .inl hopen
            · simp at hσ
          | cons j σ =>
            obtain ⟨rfl, htail⟩ := List.cons.inj hσρ
            rcases hon σ ρ as htail.symm hcut' with hopen | ⟨π, i, π', rfl, hπ⟩
            · exact .inl hopen
            · exact .inr ⟨j :: π, i, π', rfl, .next trivial (Nests.closes hr hp).nest_eq hπ⟩

/-- In a definition only braces hide a keyword outside parentheses and square brackets. -/
theorem hides_definition {it : Item} {equals : Leaf} (front : List Leaf)
    {kind : Declaration.Kind} {name : Token} (h : Leads (fun _ _ => True) σ ls τ)
    (hshape : it.shape = .declared kind name) (hkind : kind ≠ .module)
    (hleaves : it.leaves = front ++ equals :: (expression 0 ls).taken)
    (he : equals.is "=" = true) (hcut : (expression 0 ls).taken = as ++ m :: bs)
    (hm : m.is "module" = true) (hout : Outside σ as) : it.Hides m := by
  rcases expression_keyword (σ := []) h hm hcut with hopen | ⟨π, k, π', hσ, -⟩
  · obtain ⟨before, brace, inner, rfl, hbrace, hinner⟩ := hopen.brace hout
    rw [hcut, List.append_assoc, List.cons_append] at hleaves
    exact .braces hshape hkind hleaves he hbrace hinner
  · simp at hσ

/-! ## Items that swallow a keyword -/

theorem parameterList_opener {eof : Nat} {kind : Declaration.Kind}
    (h : (parameterList eof kind ls).2 = []) :
    ∃ opener more, (parameterList eof kind ls).1.taken = opener :: more ∧
      opener.is "(" = true := by
  cases ls with
  | nil => cases h
  | cons l ls =>
    cases hl : l.is "(" with
    | true => exact ⟨l, _, by simp [parameterList, parameters, hl]; rfl, hl⟩
    | false => simp [parameterList, hl] at h

/-- No parameter list holds a keyword outside of parentheses. -/
theorem ParameterList.outside {ps tail : List Leaf} (h : ParameterList ps)
    (hm : m.is "module" = true) (hcut : ps ++ tail = as ++ m :: bs) (hout : Outside σ as) :
    ∃ cs, as = ps ++ cs ∧ tail = cs ++ m :: bs := by
  rcases Leaf.append_eq_append_cons hcut with hlater | ⟨c, hps, -⟩
  · exact hlater
  exfalso
  cases h with
  | missing => simp at hps
  | @given opener closer inner hopen hinner hclose =>
    cases as with
    | nil =>
      obtain ⟨rfl, -⟩ := List.cons.inj hps
      rw [is_of_is hm] at hopen
      cases hopen
    | cons a as =>
      obtain ⟨rfl, hps'⟩ := List.cons.inj hps
      rcases Leaf.append_eq_append_cons hps' with ⟨c, -, hlast⟩ | ⟨c, rfl, -⟩
      · cases c with
        | nil =>
          cases hlast
          rw [is_of_is hm] at hclose
          cases hclose
        | cons _ c => simp at hlast
      · obtain ⟨π, hπ, -⟩ := hinner.split
        obtain ⟨α, hα, hall⟩ := hout
        cases hα with
        | next _ hnest hrest =>
          obtain ⟨rfl, -⟩ := eq_of_opens hnest (role_of_is hopen)
          cases Outside.eq_curly ⟨α, hrest, hall⟩ hπ

/-- Neither the name of a declaration nor its parameters are a keyword outside of parentheses. -/
theorem head_outside {eof : Nat} {kind : Declaration.Kind} {keyword name : Leaf}
    (tail : List Leaf) (h : Leads (fun _ _ => True) σ (keyword :: name :: ls) [])
    (hword : Role.ofText keyword.token.text = .plain) (hname : name.token.kind = .ident)
    (hf : (parameterList eof kind ls).2 = []) (hm : m.is "module" = true)
    (hcut : name :: ((parameterList eof kind ls).1.taken ++ tail) = as ++ m :: bs)
    (hout : Outside σ (keyword :: as)) (hnext : ∀ n ∈ bs.head?, n.is "(" = false) :
    ParameterList (parameterList eof kind ls).1.taken ∧
      (parameterList eof kind ls).1.taken ≠ [] ∧
      ∃ cs, tail = cs ++ m :: bs ∧ Leads (fun _ _ => True) σ (parameterList eof kind ls).1.rest [] ∧
        Outside σ cs := by
  obtain ⟨opener, more, htaken, hopen⟩ := parameterList_opener hf
  cases h with
  | next _ hk h =>
  cases h with
  | next _ hn h =>
  cases nest_eq_self hn (by simp [hname])
  rw [nest_of_plain hword] at hk
  cases hk
  obtain ⟨hlist, hps⟩ := parameterList_guarded eof kind h
  rw [← parameterList_append eof kind ls] at h
  obtain ⟨ρ, hρ, hrest⟩ := h.split
  cases hρ.unique hps
  cases as with
  | nil =>
    obtain ⟨-, rfl⟩ := List.cons.inj hcut
    rw [hnext opener (by simp [htaken])] at hopen
    cases hopen
  | cons a as =>
    obtain ⟨rfl, hcut'⟩ := List.cons.inj hcut
    have hheader : Leads (fun _ _ => True) σ [keyword, name] σ :=
      .next trivial (nest_of_plain hword) (.one trivial hn)
    have hout' : Outside σ as := Outside.append (hout : Outside σ ([keyword, name] ++ as)) hheader
    obtain ⟨cs, rfl, htail⟩ := hlist.outside hm hcut' hout'
    exact ⟨hlist, by simp [htaken], cs, htail, hrest, hout'.append hps⟩

theorem hides_moduleItem {eof : Nat} {keyword name : Leaf}
    (h : Leads (fun _ _ => True) σ (keyword :: name :: ls) []) (hword : keyword.is "module" = true)
    (hname : name.token.kind = .ident) (hf : (moduleItem eof keyword name ls).1.faults = [])
    (hs : (moduleItem eof keyword name ls).1.Swallows σ m) :
    (moduleItem eof keyword name ls).1.Hides m := by
  obtain ⟨as, bs, hcut, -, hm, hout, hnext⟩ := hs
  obtain ⟨hlist, hne, cs, htail, -, -⟩ :=
    head_outside (statement (parameterList eof .module ls).1.rest).taken h (role_of_is hword) hname
      hf hm hcut hout hnext
  have hmem : m ∈ (statement (parameterList eof .module ls).1.rest).taken := by
    rw [htail]
    simp
  exact .body rfl hword hname hlist hne hmem

theorem hides_functionItem {eof : Nat} {keyword name : Leaf}
    (h : Leads (fun _ _ => True) σ (keyword :: name :: ls) [])
    (hword : keyword.is "function" = true) (hname : name.token.kind = .ident)
    (hf : (functionItem eof keyword name ls).1.faults = [])
    (hs : (functionItem eof keyword name ls).1.Swallows σ m) :
    (functionItem eof keyword name ls).1.Hides m := by
  obtain ⟨as, bs, hcut, -, hm, hout, hnext⟩ := hs
  unfold functionItem at hf hcut hout ⊢
  dsimp only at hf hcut hout ⊢
  cases hrest : (parameterList eof .function ls).1.rest with
  | nil => simp [hrest] at hf
  | cons l rest =>
    cases he : l.is "=" with
    | false => simp [hrest, he] at hf
    | true =>
      simp only [hrest, he, if_true, List.append_eq_nil_iff] at hf hcut hout ⊢
      obtain ⟨-, -, cs, htail, hleads, hout'⟩ :=
        head_outside (l :: (expression 0 rest).taken) h (role_of_is hword) hname hf.1
          hm hcut hout hnext
      rw [hrest] at hleads
      cases hleads with
      | next _ hl hleads =>
      cases cs with
      | nil =>
        obtain ⟨rfl, -⟩ := List.cons.inj htail
        rw [is_of_is hm] at he
        cases he
      | cons c cs =>
        obtain ⟨rfl, htail'⟩ := List.cons.inj htail
        have hequals : Leads (fun _ _ => True) σ [l] _ := .one trivial hl
        exact hides_definition (keyword :: name :: (parameterList eof .function ls).1.taken) hleads
          rfl Declaration.Kind.noConfusion rfl he htail' hm (hout'.append hequals)

theorem hides_variableItem {name equals : Leaf}
    (h : Leads (fun _ _ => True) σ (name :: equals :: ls) []) (he : equals.is "=" = true)
    (hs : (variableItem name equals ls).1.Swallows σ m) :
    (variableItem name equals ls).1.Hides m := by
  obtain ⟨as, bs, hcut, -, hm, hout, -⟩ := hs
  cases h with
  | next _ hn h =>
  cases h with
  | next _ hq h =>
  cases as with
  | nil =>
    obtain ⟨rfl, -⟩ := List.cons.inj hcut
    rw [is_of_is hm] at he
    cases he
  | cons a as =>
    obtain ⟨rfl, hcut'⟩ := List.cons.inj hcut
    have hheader : Leads (fun _ _ => True) σ [name, equals] _ := .next trivial hn (.one trivial hq)
    have hout' := Outside.append (hout : Outside σ ([name, equals] ++ as)) hheader
    exact hides_definition [name] h rfl Declaration.Kind.noConfusion rfl he hcut' hm hout'

theorem not_swallows_reference {word path : Leaf} (hpath : path.token.kind = .path) :
    ¬ (reference word path ls).1.Swallows σ m := by
  rintro ⟨as, bs, hcut, hident, hm, -⟩
  have hmem : m ∈ (reference word path ls).1.others := by simp [hcut]
  have hne : m ≠ path := by
    rintro rfl
    rw [hpath] at hident
    cases hident
  fun_cases reference word path ls with
  | case1 l rest hl =>
    have hsemi : m.is ";" = false := is_of_is hm _
    simp only [reference, hl, if_true, List.mem_cons, List.not_mem_nil, or_false, hne,
      false_or] at hmem
    rw [hmem, hl] at hsemi
    cases hsemi
  | case2 l rest hl => simp [reference, hl, hne] at hmem
  | case3 => simp [reference, hne] at hmem

theorem hides_other (hs : (other l ls).1.Swallows σ m) : (other l ls).1.Hides m := by
  obtain ⟨as, bs, hcut, -⟩ := hs
  refine .statement ?_ (by simp [hcut])
  simp only [other]
  split
  · exact .inr rfl
  · exact .inl rfl

theorem hides_keywordDeclaration {eof : Nat} {kind : Declaration.Kind}
    (h : Leads (fun _ _ => True) σ (l :: ls) [])
    (hword : kind = .module ∧ l.is "module" = true ∨ kind = .function ∧ l.is "function" = true)
    (hf : (keywordDeclaration eof kind l ls).1.faults = [])
    (hs : (keywordDeclaration eof kind l ls).1.Swallows σ m) :
    (keywordDeclaration eof kind l ls).1.Hides m := by
  cases ls with
  | nil => cases hf
  | cons name rest =>
    by_cases hname : name.token.kind = .ident
    · rcases hword with ⟨rfl, hword⟩ | ⟨rfl, hword⟩
      · simp only [keywordDeclaration, hname, if_true] at hf hs ⊢
        exact hides_moduleItem h hword hname hf hs
      · simp only [keywordDeclaration, hname, if_true] at hf hs ⊢
        exact hides_functionItem h hword hname hf hs
    · simp [keywordDeclaration, hname] at hf

/-- What an item without faults swallows it hides. -/
theorem hides_of_swallows {eof : Nat} (h : Leads (fun _ _ => True) σ (l :: ls) [])
    (hf : (next eof l ls).1.faults = []) (hs : (next eof l ls).1.Swallows σ m) :
    (next eof l ls).1.Hides m := by
  revert hf hs
  unfold next
  split
  · rintro - ⟨as, bs, hcut, -⟩
    simp at hcut
  split
  · rename_i hm
    exact hides_keywordDeclaration h (.inl ⟨rfl, hm.2⟩)
  split
  · rename_i hf
    exact hides_keywordDeclaration h (.inr ⟨rfl, hf.2⟩)
  split
  · split
    · rename_i hr
      exact fun _ hs => absurd hs (not_swallows_reference hr.2.2)
    split
    · rename_i hv
      exact fun _ hs => hides_variableItem h hv.2 hs
    · exact fun _ hs => hides_other hs
  · exact fun _ hs => hides_other hs

end Swallows

theorem Hides.mem_others {it : Item} {l : Leaf} (h : it.Hides l) : l ∈ it.others := by
  cases h with
  | statement _ hmem => exact hmem
  | body hleaves _ _ _ _ hmem =>
    obtain ⟨-, hothers⟩ := List.cons.inj hleaves
    simp [hothers, hmem]
  | @braces _ _ front _ _ _ _ _ _ _ hleaves =>
    cases front with
    | nil =>
      obtain ⟨-, hothers⟩ := List.cons.inj hleaves
      simp [hothers]
    | cons a front =>
      obtain ⟨-, hothers⟩ := List.cons.inj hleaves
      simp [hothers]

/-! ## Every leaf in one place -/

section Places

variable {eof : Nat} {ls : List Leaf} {it jt : Item} {l : Leaf}

theorem eq_of_mem_leaves (h : Apart ls) (hit : it ∈ ofLeaves eof ls) (hjt : jt ∈ ofLeaves eof ls)
    (hl : l ∈ it.leaves) (hl' : l ∈ jt.leaves) : it = jt := by
  have hnodup := h.nodup
  rw [← leaves_ofLeaves eof ls, List.nodup_flatMap] at hnodup
  rcases eq_or_of_pairwise hnodup.2 hit hjt with he | hdisjoint | hdisjoint
  · exact he
  · exact absurd hl' (hdisjoint hl)
  · exact absurd hl (hdisjoint hl')

theorem first_notMem_others (h : Apart ls) (hit : it ∈ ofLeaves eof ls) :
    it.first ∉ it.others := by
  have hnodup := h.nodup
  rw [← leaves_ofLeaves eof ls, List.nodup_flatMap] at hnodup
  exact (List.nodup_cons.1 (hnodup.1 it hit)).1

end Places
end Item

/-! ## Modules that are declared -/

theorem Leaf.leads_of_tokenize {text : List Char} {ts : List Token}
    (ht : tokenize text = .ok ts) (hb : Bracket.faults ts = []) :
    Leads (fun _ _ => True) [] (Leaf.ofTokens ts) [] := by
  refine (faultsFrom_eq_nil_iff rfl fun l hl => ?_).1 hb
  have hmem : l.token ∈ ts := (List.mem_filter.1 (Leaf.token_mem_significant hl)).1
  exact (tokenizeFrom_eq_ok_iff.1 ht).punct_of_role l.token hmem

namespace Outline

/-- A source without faults has its brackets in order and items without faults. -/
theorem faults_eq_nil {length : Nat} {ts : List Token} (h : (ofTokens length ts).faults = []) :
    Bracket.faults ts = [] ∧
      ∀ it ∈ Item.ofLeaves length (Leaf.ofTokens ts), it.faults = [] := by
  have hall : Bracket.faults ts ++
      (Item.ofLeaves length (Leaf.ofTokens ts)).flatMap Item.faults = [] := by
    rw [← List.length_eq_zero_iff, ← List.length_mergeSort]
    exact List.length_eq_zero_iff.2 h
  rw [List.append_eq_nil_iff, List.flatMap_eq_nil_iff] at hall
  exact hall

/-- The parts of a source around the beginning of a module, outside all parentheses and square
brackets: what is before it, its keyword, its name, the parenthesis of its parameters, and what
follows. -/
structure ModuleStart where
  before : List Leaf
  keyword : Leaf
  name : Leaf
  opener : Leaf
  after : List Leaf
  keyword_ident : keyword.token.kind = .ident
  keyword_module : keyword.is "module" = true
  name_ident : name.token.kind = .ident
  opener_round : opener.is "(" = true
  outside : Outside [] before

namespace ModuleStart

def leaves (m : ModuleStart) : List Leaf :=
  m.before ++ m.keyword :: m.name :: m.opener :: m.after

variable (m : ModuleStart) {eof : Nat} {it : Item}

theorem keyword_mem : m.keyword ∈ m.leaves := by simp [leaves]

/-- A module that begins an item is declared by it. -/
theorem shape_of_first (hapart : Apart m.leaves) (hit : it ∈ Item.ofLeaves eof m.leaves)
    (hfirst : it.first = m.keyword) :
    it.shape = .declared .module m.name.token ∨ it.shape = .openedModule m.name.token := by
  obtain ⟨its, jts, hits⟩ := List.append_of_mem hit
  obtain ⟨l, ls, hls, rfl, -⟩ := Item.ofLeaves_split_cons hits
  rw [Item.first_next] at hfirst
  subst hfirst
  obtain ⟨-, -, rfl⟩ := Apart.split_unique hapart hls rfl
  rw [Item.next_eq_moduleItem eof m.keyword_ident m.keyword_module m.name_ident]
  simp only [Item.moduleItem]
  split
  · exact .inr rfl
  · exact .inl rfl

/-- A module that does not begin an item is hidden by the item it stands in. -/
theorem hides_of_mem (hapart : Apart m.leaves) (hleads : Leads (fun _ _ => True) [] m.leaves [])
    (hit : it ∈ Item.ofLeaves eof m.leaves) (hf : it.faults = []) (hmem : m.keyword ∈ it.others) :
    it.Hides m.keyword := by
  obtain ⟨its, jts, hits⟩ := List.append_of_mem hit
  obtain ⟨l, ls, hls, rfl, -⟩ := Item.ofLeaves_split_cons hits
  obtain ⟨as, bs, hothers⟩ := List.append_of_mem hmem
  have happ := Item.next_append eof l ls
  rw [Item.leaves, Item.first_next, hothers] at happ
  have hsplit : m.leaves =
      (its.flatMap Item.leaves ++ l :: as) ++ m.keyword :: (bs ++ (Item.next eof l ls).2) := by
    rw [hls, ← happ]
    simp
  obtain ⟨hbefore, -, hafter⟩ := Apart.split_unique hapart hsplit rfl
  have hname : m.name.is "(" = false := by
    rw [Bool.eq_false_iff]
    intro hround
    have hpunct := hleads.punct m.name (by simp [leaves]) (by rw [role_of_is hround]; decide)
    rw [m.name_ident] at hpunct
    cases hpunct
  have hnext : ∀ n ∈ bs.head?, n.is "(" = false := by
    intro n hn
    obtain ⟨more, rfl⟩ := List.head?_eq_some_iff.1 hn
    obtain ⟨rfl, -⟩ := List.cons.inj hafter
    exact hname
  rw [hls] at hleads
  obtain ⟨σ, hσ, hleads⟩ := hleads.split
  have houtside : Outside σ (l :: as) := by
    have := m.outside
    rw [hbefore] at this
    exact this.append hσ
  refine Item.hides_of_swallows hleads hf ⟨as, bs, hothers, m.keyword_ident, m.keyword_module, ?_,
    hnext⟩
  rwa [Item.first_next]

end ModuleStart

/-- In a source without faults, a module that begins outside all parentheses and square brackets is
declared if and only if its keyword is not hidden: taken into a statement, into the body of another
module, or into the braces of an expression. -/
theorem module_declared_iff {text : List Char} {ts : List Token} (ht : tokenize text = .ok ts)
    (hf : (ofTokens text.length ts).faults = []) {m : ModuleStart}
    (hm : Leaf.ofTokens ts = m.leaves) :
    (∃ d, Occurs Declaration.children d (ofTokens text.length ts).declarations ∧
      d.kind = .module ∧ d.span.start = m.keyword.token.start ∧
      d.nameSpan = spanOf m.name.token) ↔
    ∀ it ∈ Item.ofLeaves text.length (Leaf.ofTokens ts), ¬ it.Hides m.keyword := by
  obtain ⟨hb, hitems⟩ := faults_eq_nil hf
  have hleads := leads_of_tokenize ht hb
  obtain ⟨tail, hspell, hw⟩ := Layout.written_of_tokenize ht
  have hapart := Leaf.apart_ofTokens hw
  rw [ofTokens_eq_read]
  rw [hm] at hitems hleads hapart ⊢
  constructor
  · rintro ⟨d, hd, -, hstart, -⟩ it hit hhides
    obtain ⟨jt, hjt, hfirst⟩ := State.occurs_foldl_start hd
    have hmem : jt.first ∈ m.leaves := Item.leaves_subset hjt List.mem_cons_self
    have hkeyword := hapart.eq_of_start hmem m.keyword_mem (hfirst.trans hstart)
    have hothers := hhides.mem_others
    have hleaf : m.keyword ∈ jt.leaves := by
      rw [← hkeyword]
      exact List.mem_cons_self
    obtain rfl := Item.eq_of_mem_leaves hapart hit hjt (List.mem_cons_of_mem _ hothers) hleaf
    rw [← hkeyword] at hothers
    exact Item.first_notMem_others hapart hit hothers
  · intro hnone
    have hmem := m.keyword_mem
    rw [← Item.leaves_ofLeaves text.length m.leaves] at hmem
    obtain ⟨it, hit, hmem⟩ := List.mem_flatMap.1 hmem
    rcases List.mem_cons.1 hmem with hfirst | hothers
    · obtain ⟨stop, inner, hd⟩ :=
        State.exists_of_module hit (m.shape_of_first hapart hit hfirst.symm) State.init
      exact ⟨_, hd, rfl, by rw [hfirst]; rfl, rfl⟩
    · exact absurd (m.hides_of_mem hapart hleads hit (hitems it hit) hothers) (hnone it hit)

namespace ModuleStart

/-- The module `m` of `a(){module m(){}}`. -/
def inBlock : ModuleStart where
  before :=
    [⟨[], .ident, 0, [], ['a']⟩, ⟨[], .punct, 1, [], ['(']⟩, ⟨[], .punct, 2, [], [')']⟩,
      ⟨[], .punct, 3, [], ['\x7b']⟩]
  keyword := ⟨[], .ident, 4, [], "module".toList⟩
  name := ⟨[], .ident, 11, [' '], ['m']⟩
  opener := ⟨[], .punct, 12, [], ['(']⟩
  after :=
    [⟨[], .punct, 13, [], [')']⟩, ⟨[], .punct, 14, [], ['\x7b']⟩, ⟨[], .punct, 15, [], ['\x7d']⟩,
      ⟨[], .punct, 16, [], ['\x7d']⟩]
  keyword_ident := rfl
  keyword_module := rfl
  name_ident := rfl
  opener_round := rfl
  outside :=
    ⟨[.curly], .next trivial rfl (.next trivial rfl (.next trivial rfl (.one trivial rfl))),
      by simp⟩

/-- The module `m` of `a()module m(){}`. -/
def afterCall : ModuleStart where
  before :=
    [⟨[], .ident, 0, [], ['a']⟩, ⟨[], .punct, 1, [], ['(']⟩, ⟨[], .punct, 2, [], [')']⟩]
  keyword := ⟨[], .ident, 3, [], "module".toList⟩
  name := ⟨[], .ident, 10, [' '], ['m']⟩
  opener := ⟨[], .punct, 11, [], ['(']⟩
  after :=
    [⟨[], .punct, 12, [], [')']⟩, ⟨[], .punct, 13, [], ['\x7b']⟩, ⟨[], .punct, 14, [], ['\x7d']⟩]
  keyword_ident := rfl
  keyword_module := rfl
  name_ident := rfl
  opener_round := rfl
  outside := ⟨[], .next trivial rfl (.next trivial rfl (.one trivial rfl)), by simp⟩

/-- The tokens of a source without comments. -/
def tokens (m : ModuleStart) : List Token := m.leaves.map Leaf.token

end ModuleStart

open ModuleStart

/-- In the block of a call the module is found. -/
theorem module_declared_inBlock :
    tokenize (Token.spell inBlock.tokens) = .ok inBlock.tokens ∧
      (ofTokens (Token.spell inBlock.tokens).length inBlock.tokens).faults = [] ∧
      Leaf.ofTokens inBlock.tokens = inBlock.leaves ∧
      ∃ d, Occurs Declaration.children d
          (ofTokens (Token.spell inBlock.tokens).length inBlock.tokens).declarations ∧
        d.kind = .module ∧ d.span.start = inBlock.keyword.token.start ∧
        d.nameSpan = spanOf inBlock.name.token := by
  have ht : tokenize (Token.spell inBlock.tokens) = .ok inBlock.tokens := by decide +kernel
  have hf : (ofTokens (Token.spell inBlock.tokens).length inBlock.tokens).faults = [] := by
    decide +kernel
  have hothers : ∀ it ∈ Item.ofLeaves (Token.spell inBlock.tokens).length
      (Leaf.ofTokens inBlock.tokens), inBlock.keyword ∉ it.others := by decide +kernel
  refine ⟨ht, hf, rfl, (module_declared_iff ht hf (m := inBlock) rfl).2 fun it hit hhides => ?_⟩
  exact hothers it hit hhides.mem_others

/-- After a call without a semicolon the module is lost, and nothing is reported. -/
theorem module_lost :
    tokenize (Token.spell afterCall.tokens) = .ok afterCall.tokens ∧
      Leaf.ofTokens afterCall.tokens = afterCall.leaves ∧
      (ofTokens (Token.spell afterCall.tokens).length afterCall.tokens).faults = [] ∧
      (ofTokens (Token.spell afterCall.tokens).length afterCall.tokens).declarations = [] := by
  exact ⟨by decide +kernel, rfl, by decide +kernel, by with_unfolding_all rfl⟩

end Outline
end Scad
