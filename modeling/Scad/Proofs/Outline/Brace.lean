import Scad.Proofs.Outline.Nesting
import Scad.Proofs.Outline.State

/-!
# Scad.Proofs.Outline.Brace

The braces an item takes, where brackets are nested.

* `Leaf.Guarded n`: at least `n` blocks are open.
* `Item.Bodiless`: a module whose body would begin with a closing brace.
* `Item.Takes σ it τ`: all that an item can do to the open brackets. Only a closing brace that is an
  item of its own and a module without a body close a block that was open before the item.
* `Item.takes_next`: every item does one of these.
-/

namespace Scad

open Scad.Bracket Leaf

namespace Bracket

/-- The number of open blocks. -/
def braces (σ : List Kind) : Nat := σ.count .curly

@[simp] theorem braces_nil : braces [] = 0 := rfl

@[simp] theorem braces_curly (σ : List Kind) : braces (.curly :: σ) = braces σ + 1 :=
  List.count_cons_self

@[simp] theorem braces_round (σ : List Kind) : braces (.round :: σ) = braces σ :=
  List.count_cons_of_ne (by decide)

@[simp] theorem braces_square (σ : List Kind) : braces (.square :: σ) = braces σ :=
  List.count_cons_of_ne (by decide)

@[simp] theorem braces_append (σ τ : List Kind) : braces (σ ++ τ) = braces σ + braces τ :=
  List.count_append

end Bracket

namespace Leaf

/-- At least `n` blocks are open. -/
def Guarded (n : Nat) (σ : List Kind) (_ : Leaf) : Prop := n ≤ braces σ

theorem Leads.guard {fits : List Kind → Leaf → Prop} {σ τ : List Kind} {ls : List Leaf}
    (h : Leads fits σ ls τ) (ρ : List Kind) :
    Leads (Guarded (braces ρ)) (σ ++ ρ) ls (τ ++ ρ) :=
  h.within ρ fun σ _ _ => by simp [Guarded]

end Leaf

theorem Leaf.nest_eq_self {l : Leaf} {σ τ : List Kind} (h : l.nest σ = some τ)
    (hk : l.token.kind ≠ .punct) : τ = σ := by
  cases nests_of_nest h with
  | plain _ => rfl
  | opens _ hp => exact absurd hp hk
  | closes _ hp => exact absurd hp hk

namespace Item

/-- The brackets that are open inside the innermost block. -/
def inner (σ : List Kind) : List Kind := σ.takeWhile (· ≠ .curly)

theorem statementRest_guarded {depth : Nat} {ls : List Leaf} {σ : List Kind}
    (h : Leads (fun _ _ => True) σ ls []) (hd : depth ≤ (inner σ).length) :
    ∃ τ, Leads (Guarded (braces σ)) σ (statementRest depth ls).taken τ ∧
      braces τ = braces σ + (statementRest depth ls).ended.toNat := by
  induction ls generalizing depth σ with
  | nil => exact ⟨σ, .done σ, rfl⟩
  | cons l ls ih =>
    cases h with
    | @next _ ρ _ _ _ _ hl hrest =>
      have hguard : Guarded (braces σ) σ l := Nat.le_refl _
      have hon : ∀ {depth'}, braces ρ = braces σ → depth' ≤ (inner ρ).length →
          ∃ τ, Leads (Guarded (braces σ)) σ ((statementRest depth' ls).cons l).taken τ ∧
            braces τ = braces σ + ((statementRest depth' ls).cons l).ended.toNat := by
        intro depth' hb hd'
        obtain ⟨τ, hτ, hcount⟩ := ih hrest hd'
        rw [hb] at hτ hcount
        exact ⟨τ, .next hguard hl hτ, hcount⟩
      cases nests_of_nest hl with
      | plain hr =>
        rw [statementRest_plain hr]
        split
        · exact ⟨σ, .one hguard hl, rfl⟩
        · exact hon rfl hd
      | @opens _ _ k hr hp =>
        rw [statementRest_opens hr]
        cases k with
        | round => exact hon (braces_round σ) (Nat.succ_le_succ hd)
        | square => exact hon (braces_square σ) (Nat.succ_le_succ hd)
        | curly => exact ⟨.curly :: σ, .one hguard hl, braces_curly σ⟩
      | @closes _ _ k hr hp =>
        rw [statementRest_closes hr]
        cases k with
        | round => exact hon (braces_round ρ).symm (Nat.sub_le_of_le_add hd)
        | square => exact hon (braces_square ρ).symm (Nat.sub_le_of_le_add hd)
        | curly =>
          -- no block can end inside the brackets of a statement
          have hzero : depth = 0 := Nat.le_zero.1 hd
          rw [if_pos rfl, if_pos hzero]
          exact ⟨.curly :: ρ, .done _, rfl⟩

theorem statement_guarded {ls : List Leaf} {σ : List Kind}
    (h : Leads (fun _ _ => True) σ ls []) (hm : ∀ m ∈ ls.head?, m.is Token.braceClose = false) :
    ∃ τ, Leads (Guarded (braces σ)) σ (statement ls).taken τ ∧
      braces τ = braces σ + (statement ls).ended.toNat := by
  cases ls with
  | nil => exact ⟨σ, .done σ, rfl⟩
  | cons m ls =>
    rw [statement_eq_statementRest (hm m rfl)]
    exact statementRest_guarded h (Nat.zero_le _)

/-- A closing brace that begins a statement is taken whatever it belongs to. -/
theorem statement_brace {m : Leaf} (hm : m.is Token.braceClose = true) (ls : List Leaf) :
    statement (m :: ls) = (statementRest 0 ls).cons m := by
  simp only [statement, isAny_cons, isAny_nil, is_of_is hm]
  rfl

/-- An expression closes no block around it. `σ` are the brackets it has opened. -/
theorem expression_guarded {ls : List Leaf} {σ ρ : List Kind}
    (h : Leads (fun _ _ => True) (σ ++ ρ) ls []) :
    ∃ τ, Leads (Guarded (braces ρ)) (σ ++ ρ) (expression σ.length ls).taken τ ∧
      braces τ = braces ρ := by
  induction ls generalizing σ ρ with
  | nil =>
    cases hσ : σ ++ ρ with
    | nil =>
      rw [(List.append_eq_nil_iff.1 hσ).2]
      exact ⟨[], .done [], rfl⟩
    | cons k τ =>
      rw [hσ] at h
      cases h
  | cons l ls ih =>
    cases h with
    | @next _ τ _ _ _ _ hl hrest =>
      have hguard : Guarded (braces ρ) (σ ++ ρ) l := by simp [Guarded]
      have hstop : σ.length = 0 → ∃ τ, Leads (Guarded (braces ρ)) (σ ++ ρ) [] τ ∧
          braces τ = braces ρ := by
        intro hσ
        rw [List.length_eq_zero_iff.1 hσ]
        exact ⟨ρ, .done ρ, rfl⟩
      have hon : ∀ σ' ρ' : List Kind, τ = σ' ++ ρ' → braces ρ' = braces ρ →
          ∃ π, Leads (Guarded (braces ρ)) (σ ++ ρ) ((expression σ'.length ls).cons l).taken π ∧
            braces π = braces ρ := by
        intro σ' ρ' hτ hb
        subst hτ
        obtain ⟨π, hπ, hcount⟩ := ih hrest
        rw [hb] at hπ hcount
        exact ⟨π, .next hguard hl hπ, hcount⟩
      generalize hσρ : σ ++ ρ = α at hl
      cases nests_of_nest hl with
      | plain hr =>
        subst hσρ
        rw [expression_plain hr]
        split
        · rename_i h
          rw [List.length_eq_zero_iff.1 h.1] at hl hguard ⊢
          exact ⟨ρ, .one hguard hl, rfl⟩
        split
        · rename_i h
          exact hstop h.1
        · exact hon σ ρ rfl rfl
      | @opens _ _ k hr _ =>
        subst hσρ
        rw [expression_opens hr]
        exact hon (k :: σ) ρ rfl rfl
      | @closes _ _ k hr _ =>
        rw [expression_closes hr]
        split
        · rename_i h
          rw [hσρ] at hstop
          exact hstop h.1
        · rename_i h
          rw [← hσρ]
          cases σ with
          | nil =>
            -- the expression closes a bracket around it, but no block
            refine hon [] τ rfl ?_
            rw [show ρ = k :: τ from hσρ]
            cases k with
            | round => exact (braces_round τ).symm
            | square => exact (braces_square τ).symm
            | curly => exact absurd ⟨rfl, rfl⟩ h
          | cons j σ =>
            exact hon σ ρ (List.cons.inj hσρ).2.symm rfl

/-! ## Items -/

/-- A parameter list, or nothing in its place. -/
inductive ParameterList : List Leaf → Prop where
  | missing : ParameterList []
  | given {opener closer : Leaf} {inner : List Leaf} : opener.is "(" = true →
      Leads (fun _ _ => True) [] inner [] → closer.is ")" = true →
      ParameterList (opener :: (inner ++ [closer]))

/-- A module whose name and parameter list are followed by a closing brace, which it takes for its
body. -/
def Bodiless (it : Item) : Prop :=
  ∃ keyword name parameters brace others,
    it.leaves = keyword :: name :: (parameters ++ brace :: others) ∧
      keyword.token.kind = .ident ∧ keyword.is "module" = true ∧ name.token.kind = .ident ∧
      ParameterList parameters ∧ brace.is Token.braceClose = true

theorem parameterList_guarded (eof : Nat) (kind : Declaration.Kind) {σ : List Kind}
    {ls : List Leaf} (h : Leads (fun _ _ => True) σ ls []) :
    ParameterList (parameterList eof kind ls).1.taken ∧
      Leads (Guarded (braces σ)) σ (parameterList eof kind ls).1.taken σ := by
  unfold parameterList
  split
  · rename_i hhead
    cases h with
    | done => cases hhead
    | @next _ ρ _ l ls _ hl hrest =>
      have hopen : l.is "(" = true := hhead
      obtain ⟨rfl, -⟩ := eq_of_opens hl (role_of_is hopen)
      obtain ⟨inner, close, rest, rfl, hinner, hclose, hpunct, -⟩ := hrest.exists_match (τ := [])
      have hcloses : close.is ")" = true := by
        rw [is_of_closes hclose]
        rfl
      rw [parameters_nested hopen hinner hcloses]
      refine ⟨.given hopen hinner hcloses, .next (Nat.le_refl _) hl ?_⟩
      have hin := hinner.guard (.round :: σ)
      rw [braces_round] at hin
      exact hin.append (.one (Nat.le_of_eq (braces_round σ).symm)
        (Nests.closes hclose hpunct).nest_eq)
  · exact ⟨.missing, .done σ⟩

/-- What follows a parameter list does not change it. -/
theorem parameterList_of_list (eof : Nat) (kind : Declaration.Kind) {ps : List Leaf}
    (h : ParameterList ps) {l : Leaf} (hl : l.is "(" = false) (rest : List Leaf) :
    (parameterList eof kind (ps ++ l :: rest)).1.taken = ps ∧
      (parameterList eof kind (ps ++ l :: rest)).1.rest = l :: rest := by
  cases h with
  | missing => simp [parameterList, hl]
  | given hopen hinner hclose =>
    simp [parameterList, hopen, parameters_nested hopen hinner hclose]

/-- What an item can do to the open brackets. -/
inductive Takes (σ : List Kind) (it : Item) (τ : List Kind) : Prop where
  | closed : it.shape = .closed → it.others = [] → ¬ it.Bodiless → σ = .curly :: τ →
      it.first.nest σ = some τ → Takes σ it τ
  | kept : it.shape ≠ .closed → ¬ it.Bodiless → Leads (Guarded (braces σ)) σ it.leaves τ →
      braces τ = braces σ + it.shape.opened → Takes σ it τ
  | bodiless {header tail : List Leaf} {brace : Leaf} {ρ : List Kind} : it.shape ≠ .closed →
      it.Bodiless → it.leaves = header ++ brace :: tail → σ = .curly :: ρ →
      Leads (Guarded (braces σ)) σ header σ → brace.nest σ = some ρ →
      Leads (Guarded (braces ρ)) ρ tail τ → braces τ = braces ρ + it.shape.opened → Takes σ it τ

theorem not_bodiless {it : Item}
    (h : ¬ (it.first.token.kind = .ident ∧ it.first.is "module" = true)) : ¬ it.Bodiless := by
  rintro ⟨keyword, _, _, _, _, hleaves, hkind, hword, -⟩
  rw [leaves, List.cons.injEq] at hleaves
  rw [hleaves.1] at h
  exact h ⟨hkind, hword⟩

theorem bodiless_moduleItem {eof : Nat} {keyword name : Leaf} {ls : List Leaf}
    (h : (moduleItem eof keyword name ls).1.Bodiless) :
    ∃ brace rest, (parameterList eof .module ls).1.rest = brace :: rest ∧
      brace.is Token.braceClose = true := by
  obtain ⟨_, _, ps, brace, others, hleaves, -, -, -, hps, hbrace⟩ := h
  have happ := moduleItem_append eof keyword name ls
  rw [hleaves] at happ
  simp only [List.cons_append, List.append_assoc, List.cons.injEq] at happ
  have hrest := (parameterList_of_list eof .module hps (is_of_is hbrace _)
    (others ++ (moduleItem eof keyword name ls).2)).2
  rw [happ.2.2] at hrest
  exact ⟨brace, _, hrest, hbrace⟩

theorem takes_moduleItem (eof : Nat) {keyword name : Leaf} {ls : List Leaf} {σ : List Kind}
    (hkind : keyword.token.kind = .ident) (hword : keyword.is "module" = true)
    (hname : name.token.kind = .ident) (h : Leads (fun _ _ => True) σ (keyword :: name :: ls) []) :
    ∃ τ, Takes σ (moduleItem eof keyword name ls).1 τ := by
  cases h with
  | next _ hk h =>
  cases h with
  | next _ hn h =>
  cases nest_eq_self hk (by simp [hkind])
  cases nest_eq_self hn (by simp [hname])
  obtain ⟨hlist, hps⟩ := parameterList_guarded eof .module h
  rw [← parameterList_append eof .module ls] at h
  obtain ⟨ρ, hρ, hrest⟩ := h.split
  cases hρ.unique hps
  have hheader := Leads.next (Nat.le_refl (braces σ)) hk (.next (Nat.le_refl (braces σ)) hn hps)
  have hshape : (moduleItem eof keyword name ls).1.shape ≠ .closed := by
    simp only [moduleItem]
    split <;> exact Shape.noConfusion
  have hopened : (moduleItem eof keyword name ls).1.shape.opened =
      (statement (parameterList eof .module ls).1.rest).ended.toNat := by
    simp only [moduleItem]
    cases (statement (parameterList eof .module ls).1.rest).ended <;> rfl
  have hleaves : (moduleItem eof keyword name ls).1.leaves =
      keyword :: name :: ((parameterList eof .module ls).1.taken ++
        (statement (parameterList eof .module ls).1.rest).taken) := rfl
  by_cases hb : (moduleItem eof keyword name ls).1.Bodiless
  · obtain ⟨brace, rest, hbrace, hclose⟩ := bodiless_moduleItem hb
    rw [hbrace] at hrest hopened hleaves
    cases hrest with
    | next _ hbnest hrest =>
      obtain ⟨rfl, -⟩ := eq_of_closes hbnest (role_of_is hclose)
      obtain ⟨τ, hτ, hcount⟩ := statementRest_guarded hrest (Nat.zero_le _)
      rw [statement_brace hclose] at hopened hleaves
      refine ⟨τ, .bodiless hshape hb hleaves rfl hheader hbnest hτ ?_⟩
      rw [hopened, hcount]
      rfl
  · have hhead : ∀ m ∈ (parameterList eof .module ls).1.rest.head?,
        m.is Token.braceClose = false := by
      intro m hm
      cases hclose : m.is Token.braceClose with
      | false => rfl
      | true =>
        obtain ⟨rest, hrest'⟩ := List.head?_eq_some_iff.1 hm
        rw [hrest', statement_brace hclose] at hleaves
        exact absurd ⟨_, _, _, _, _, hleaves, hkind, hword, hname, hlist, hclose⟩ hb
    obtain ⟨τ, hτ, hcount⟩ := statement_guarded hrest hhead
    refine ⟨τ, .kept hshape hb ?_ (by rw [hopened, hcount])⟩
    rw [hleaves]
    exact hheader.append hτ

theorem definition_guarded (stop : Nat) {ls : List Leaf} {σ : List Kind}
    (h : Leads (fun _ _ => True) σ ls []) :
    ∃ τ, Leads (Guarded (braces σ)) σ (definition stop ls).1.taken τ ∧ braces τ = braces σ :=
  expression_guarded (σ := []) h

theorem takes_functionItem (eof : Nat) {keyword name : Leaf} {ls : List Leaf} {σ : List Kind}
    (hkind : keyword.token.kind = .ident) (hword : keyword.is "function" = true)
    (hname : name.token.kind = .ident) (h : Leads (fun _ _ => True) σ (keyword :: name :: ls) []) :
    ∃ τ, Takes σ (functionItem eof keyword name ls).1 τ := by
  have hb : ∀ {shape others faults}, ¬ Bodiless ⟨shape, keyword, others, faults⟩ := by
    intro shape others faults
    refine not_bodiless fun hm => ?_
    rw [is_of_is hword] at hm
    cases hm.2
  cases h with
  | next _ hk h =>
  cases h with
  | next _ hn h =>
  cases nest_eq_self hk (by simp [hkind])
  cases nest_eq_self hn (by simp [hname])
  obtain ⟨-, hps⟩ := parameterList_guarded eof .function h
  rw [← parameterList_append eof .function ls] at h
  obtain ⟨ρ, hρ, hrest⟩ := h.split
  cases hρ.unique hps
  have hheader := Leads.next (Nat.le_refl (braces σ)) hk (.next (Nat.le_refl (braces σ)) hn hps)
  unfold functionItem
  dsimp only
  split
  · rename_i l rest hl
    split
    · rename_i heq
      rw [hl] at hrest
      cases hrest with
      | next _ hlnest hrest =>
        rw [nest_of_plain (role_of_is heq)] at hlnest
        cases hlnest
        obtain ⟨τ, hτ, hcount⟩ := definition_guarded l.token.stop hrest
        refine ⟨τ, .kept Shape.noConfusion hb ?_ hcount⟩
        exact hheader.append (.next (Nat.le_refl _) (nest_of_plain (role_of_is heq)) hτ)
    · exact ⟨σ, .kept Shape.noConfusion hb hheader rfl⟩
  · exact ⟨σ, .kept Shape.noConfusion hb hheader rfl⟩

theorem takes_keywordDeclaration (eof : Nat) {l : Leaf} {ls : List Leaf} {σ : List Kind}
    (h : Leads (fun _ _ => True) σ (l :: ls) []) (hkind : l.token.kind = .ident)
    {kind : Declaration.Kind}
    (hword : kind = .module ∧ l.is "module" = true ∨ kind = .function ∧ l.is "function" = true) :
    ∃ τ, Takes σ (keywordDeclaration eof kind l ls).1 τ := by
  have hone : ∀ faults, ∃ τ, Takes σ ⟨.skipped, l, [], faults⟩ τ := by
    intro faults
    cases h with
    | next _ hl _ =>
      cases nest_eq_self hl (by simp [hkind])
      refine ⟨σ, .kept Shape.noConfusion ?_ (.one (Nat.le_refl _) hl) rfl⟩
      rintro ⟨_, _, _, _, _, hleaves, -⟩
      cases hleaves
  unfold keywordDeclaration
  split
  · split
    · rename_i hname
      rcases hword with ⟨rfl, hword⟩ | ⟨rfl, hword⟩
      · exact takes_moduleItem eof hkind hword hname h
      · exact takes_functionItem eof hkind hword hname h
    · exact hone _
  · exact hone _

theorem takes_reference {word path : Leaf} {ls : List Leaf} {σ : List Kind}
    (h : Leads (fun _ _ => True) σ (word :: path :: ls) [])
    (hkind : word.token.kind = .ident) (hm : ¬ (word.token.kind = .ident ∧ word.is "module" = true))
    (hpath : path.token.kind = .path) : ∃ τ, Takes σ (reference word path ls).1 τ := by
  cases h with
  | next _ hw h =>
  cases h with
  | next _ hp h =>
  cases nest_eq_self hw (by simp [hkind])
  cases nest_eq_self hp (by simp [hpath])
  have hle := Nat.le_refl (braces σ)
  fun_cases reference word path ls with
  | case1 l rest hl =>
    have hnest : l.nest σ = some σ := nest_of_plain (role_of_is hl)
    exact ⟨σ, .kept Shape.noConfusion (not_bodiless hm)
      (.next hle hw (.next hle hp (.one hle hnest))) rfl⟩
  | case2 l rest hl =>
    exact ⟨σ, .kept Shape.noConfusion (not_bodiless hm) (.next hle hw (.one hle hp)) rfl⟩
  | case3 => exact ⟨σ, .kept Shape.noConfusion (not_bodiless hm) (.next hle hw (.one hle hp)) rfl⟩

theorem takes_variableItem {name equals : Leaf} {ls : List Leaf} {σ : List Kind}
    (h : Leads (fun _ _ => True) σ (name :: equals :: ls) [])
    (hkind : name.token.kind = .ident) (hm : ¬ (name.token.kind = .ident ∧ name.is "module" = true))
    (he : equals.is "=" = true) : ∃ τ, Takes σ (variableItem name equals ls).1 τ := by
  cases h with
  | next _ hn h =>
  cases h with
  | next _ hq h =>
  cases nest_eq_self hn (by simp [hkind])
  have hnest : equals.nest σ = some σ := nest_of_plain (role_of_is he)
  rw [hnest] at hq
  cases hq
  obtain ⟨τ, hτ, hcount⟩ := definition_guarded equals.token.stop h
  exact ⟨τ, .kept Shape.noConfusion (not_bodiless hm)
    (.next (Nat.le_refl _) hn (.next (Nat.le_refl _) hnest hτ)) hcount⟩

theorem takes_other {l : Leaf} {ls : List Leaf} {σ : List Kind}
    (h : Leads (fun _ _ => True) σ (l :: ls) []) (hbrace : l.is Token.braceClose = false)
    (hm : ¬ (l.token.kind = .ident ∧ l.is "module" = true)) : ∃ τ, Takes σ (other l ls).1 τ := by
  obtain ⟨τ, hτ, hcount⟩ := statement_guarded h (by simpa using hbrace)
  refine ⟨τ, .kept ?_ (not_bodiless hm) ?_ ?_⟩
  · simp only [other]
    split <;> exact Shape.noConfusion
  · rw [← statement_taken] at hτ
    exact hτ
  · rw [hcount]
    simp only [other]
    cases (statement (l :: ls)).ended <;> rfl

/-- Where brackets are nested, an item closes no block but by a closing brace of its own, unless it
is a module without a body. -/
theorem takes_next (eof : Nat) {l : Leaf} {ls : List Leaf} {σ : List Kind}
    (h : Leads (fun _ _ => True) σ (l :: ls) []) : ∃ τ, Takes σ (next eof l ls).1 τ := by
  unfold next
  split
  · rename_i hclose
    cases h with
    | next _ hl _ =>
      refine ⟨_, .closed rfl rfl (not_bodiless fun hm => ?_) (eq_of_closes hl (role_of_is hclose)).1
        hl⟩
      rw [is_of_is hclose] at hm
      cases hm.2
  split
  · rename_i hm
    exact takes_keywordDeclaration eof h hm.1 (.inl ⟨rfl, hm.2⟩)
  split
  · rename_i hf
    exact takes_keywordDeclaration eof h hf.1 (.inr ⟨rfl, hf.2⟩)
  rename_i hbrace hm _
  have hother := takes_other h (Bool.eq_false_iff.2 hbrace) hm
  split
  · split
    · rename_i hr
      exact takes_reference h hr.1 hm hr.2.2
    split
    · rename_i hv
      exact takes_variableItem h hv.1 hm hv.2
    · exact hother
  · exact hother

/-- An item leads from the brackets before it to those after it. -/
theorem Takes.leads {σ τ : List Kind} {it : Item} (h : Takes σ it τ) :
    Leads (fun _ _ => True) σ it.leaves τ := by
  cases h with
  | closed _ hothers _ _ hnest =>
    rw [leaves, hothers]
    exact .one trivial hnest
  | kept _ _ hleads _ => exact hleads.mono fun _ _ _ _ => trivial
  | bodiless _ _ hleaves _ hheader hbrace htail _ =>
    rw [hleaves]
    exact (hheader.mono fun _ _ _ _ => trivial).append
      (.next trivial hbrace (htail.mono fun _ _ _ _ => trivial))

end Item
end Scad
