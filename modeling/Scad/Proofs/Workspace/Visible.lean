import Scad.Proofs.Outline.Extent
import Scad.Proofs.Workspace.Scope

/-!
# Scad.Proofs.Workspace.Visible

Which declarations of a file are in scope at an offset. The scopes are found by going into the first
module that holds the offset, again and again; because declarations stand one after another, no
module that holds the offset is missed, unless another one begins just there.

* `Under children as chain a`: the tree `a` stands in the forest `as`, below the trees `chain`.
* `Declaration.Placed`: what is known of the declarations of every text, by offsets.
* `Declaration.Under.unique`: a declaration has one place in its file.
* `Declaration.Scopes.mem`: what stands below modules around the offset is in scope.
* `Analysis.visible_exact`: in scope are the declarations all of whose modules hold the offset,
  innermost first.
-/

namespace Scad

/-- The tree `a` stands in the forest, below the trees `chain`, the outermost of which comes first.
-/
inductive Under {α : Type} (children : α → List α) : List α → List α → α → Prop where
  | here {as : List α} {a : α} : a ∈ as → Under children as [] a
  | under {as chain : List α} {a b : α} : b ∈ as → Under children (children b) chain a →
      Under children as (b :: chain) a

namespace Under

variable {α : Type} {children : α → List α} {as chain : List α} {a : α}

theorem occurs (h : Under children as chain a) : Occurs children a as := by
  induction h with
  | here hm => exact .here hm
  | under hm _ ih => exact .under hm ih

theorem of_occurs (h : Occurs children a as) : ∃ chain, Under children as chain a := by
  induction h with
  | here hm => exact ⟨[], .here hm⟩
  | under hm _ ih =>
    obtain ⟨chain, hchain⟩ := ih
    exact ⟨_, .under hm hchain⟩

theorem ne_nil (h : Under children as chain a) : as ≠ [] := by
  cases h with
  | here hm => exact List.ne_nil_of_mem hm
  | under hm _ => exact List.ne_nil_of_mem hm

/-- All trees of a chain stand in the forest and have children. -/
theorem of_mem_chain (h : Under children as chain a) {b : α} (hb : b ∈ chain) :
    Occurs children b as ∧ Occurs children a (children b) := by
  induction h with
  | here => cases hb
  | under hm hrest ih =>
    rcases List.mem_cons.1 hb with rfl | hb
    · exact ⟨.here hm, hrest.occurs⟩
    · exact ⟨.under hm (ih hb).1, (ih hb).2⟩

end Under

theorem Occurs.cons {α : Type} {children : α → List α} {a b : α} {bs : List α}
    (h : Occurs children a (b :: bs)) :
    a = b ∨ Occurs children a (children b) ∨ Occurs children a bs := by
  have happ : Occurs children a ([b] ++ bs) := h
  rcases happ.append with h | h
  · exact h.singleton.imp_right .inl
  · exact .inr (.inr h)

theorem Span.contains_iff {s : Span Place} {offset : Nat} :
    s.contains offset = true ↔ s.start.offset ≤ offset ∧ offset ≤ s.stop.offset := by
  simp [Span.contains]

namespace Declaration

/-! ## Declarations by offset -/

/-- By their offsets, the declarations stand one after another, and each around its children. -/
structure Placed (ds : List (Declaration Place)) : Prop where
  inOrder : ds.Pairwise fun d e => d.span.stop.offset ≤ e.span.start.offset
  nested : ∀ d, Occurs children d ds → (d.map Place.offset).Nested

namespace Placed

variable {ds : List (Declaration Place)} {b c d : Declaration Place}

theorem start_lt_stop (h : Placed ds) (hd : Occurs children d ds) :
    d.span.start.offset < d.span.stop.offset := by
  have hn := h.nested d hd
  have h1 := hn.name_inside.1
  have h2 := hn.name_inside.2
  have h3 := hn.name_nonempty
  simp only [span_map, nameSpan_map, Span.map] at h1 h2 h3
  omega

theorem children (h : Placed ds) (hb : b ∈ ds) : Placed b.children := by
  refine ⟨?_, fun d hd => h.nested d (.under hb hd)⟩
  have hn := (h.nested b (.here hb)).children_inOrder
  rw [children_map] at hn
  refine (List.pairwise_map.1 hn).imp fun {d e} hde => ?_
  simpa [Span.map] using hde

theorem child_inside (h : Placed ds) (hb : Occurs Declaration.children b ds)
    (hc : c ∈ b.children) :
    b.span.start.offset < c.span.start.offset ∧ c.span.stop.offset ≤ b.span.stop.offset := by
  have hn := h.nested b hb
  have h1 := hn.name_inside.1
  have h2 := hn.name_nonempty
  obtain ⟨h3, h4⟩ := hn.child_inside (c.map Place.offset) (by
    rw [children_map]
    exact List.mem_map_of_mem hc)
  have h5 := h3.2
  simp only [span_map, nameSpan_map, Span.map] at h1 h2 h4 h5
  omega

/-- What stands below a declaration stands in it, after its beginning. -/
theorem inside (h : Placed ds) (hb : Occurs Declaration.children b ds)
    (hd : Occurs Declaration.children d b.children) :
    b.span.start.offset < d.span.start.offset ∧ d.span.stop.offset ≤ b.span.stop.offset := by
  generalize hes : b.children = es at hd
  induction hd generalizing b with
  | here hm => exact h.child_inside hb (hes ▸ hm)
  | @under c es hm _ ih =>
    subst hes
    have h1 := h.child_inside hb hm
    have h2 := ih (hb.child hm) rfl
    omega

theorem eq_of_holds (h : Placed ds) (hb : b ∈ ds) (hc : c ∈ ds) {n : Nat}
    (hbn : b.span.start.offset ≤ n ∧ n < b.span.stop.offset)
    (hcn : c.span.start.offset ≤ n ∧ n < c.span.stop.offset) : b = c := by
  rcases eq_or_of_pairwise h.inOrder hb hc with hbc | hbc | hbc
  · exact hbc
  · omega
  · omega

/-- Only modules have declarations below them. -/
theorem module_of_children (h : Placed ds) (hb : Occurs Declaration.children b ds)
    (hne : b.children ≠ []) : b.kind = .module := by
  refine Decidable.of_not_not fun hk => hne ?_
  have hnil := (h.nested b hb).childless (by rwa [kind_map])
  rwa [children_map, List.map_eq_nil_iff] at hnil

end Placed

/-- A declaration has one place in its file. -/
theorem Under.unique {ds chain chain' : List (Declaration Place)} {d : Declaration Place}
    (h : Placed ds) (hd : Under children ds chain d) (hd' : Under children ds chain' d) :
    chain = chain' := by
  induction hd generalizing chain' with
  | @here ds d hm =>
    have hlong := h.start_lt_stop (.here hm)
    cases hd' with
    | here => rfl
    | under hb hrest =>
      have hin := h.inside (.here hb) hrest.occurs
      obtain rfl := h.eq_of_holds hm hb (n := d.span.start.offset) (by omega) (by omega)
      omega
  | @under ds chain d b hb hrest ih =>
    have hin := h.inside (.here hb) hrest.occurs
    have hlong := h.start_lt_stop (.under hb hrest.occurs)
    cases hd' with
    | here hm =>
      obtain rfl := h.eq_of_holds hm hb (n := d.span.start.offset) (by omega) (by omega)
      omega
    | under hc hrest' =>
      have hin' := h.inside (.here hc) hrest'.occurs
      obtain rfl := h.eq_of_holds hb hc (n := d.span.start.offset) (by omega) (by omega)
      rw [ih (h.children hb) hrest']

/-! ## Scopes and chains of modules -/

namespace Scopes

variable {offset : Nat} {ds chain : List (Declaration Place)}
  {scopes : List (List (Declaration Place))} {d : Declaration Place}

/-- What is in scope stands below modules that hold the offset. -/
theorem chain_of_mem (h : Scopes offset ds scopes) (hd : d ∈ scopes.flatten) :
    ∃ chain, Under children ds chain d ∧ ∀ m ∈ chain, m.span.contains offset = true := by
  induction h with
  | outermost => exact ⟨[], .here (by simpa using hd), by simp⟩
  | @inside before after e scopes _ _ hholds _ ih =>
    have he : e ∈ before ++ e :: after := by simp
    rw [List.flatten_append, List.flatten_singleton] at hd
    rcases List.mem_append.1 hd with hd | hd
    · obtain ⟨chain, hunder, hchain⟩ := ih hd
      exact ⟨e :: chain, .under he hunder, List.forall_mem_cons.2 ⟨hholds, hchain⟩⟩
    · exact ⟨[], .here hd, by simp⟩

/-- What stands below modules that hold the offset and begin before it is in scope. -/
theorem mem (h : Scopes offset ds scopes) (hds : Placed ds) (hd : Under children ds chain d)
    (hchain : ∀ m ∈ chain, m.span.start.offset < offset ∧ offset ≤ m.span.stop.offset) :
    d ∈ scopes.flatten := by
  induction h generalizing chain with
  | @outermost ds hnone =>
    cases hd with
    | here hm => simpa using hm
    | @under _ _ _ b hb hrest =>
      obtain ⟨h1, h2⟩ := hchain b List.mem_cons_self
      have hkind := hds.module_of_children (.here hb) hrest.ne_nil
      have hcontains : b.span.contains offset = true :=
        Span.contains_iff.2 ⟨Nat.le_of_lt h1, h2⟩
      rw [hnone b hb hkind] at hcontains
      cases hcontains
  | @inside before after e scopes hbefore _ hholds _ ih =>
    rw [List.flatten_append, List.flatten_singleton]
    cases hd with
    | here hm => exact List.mem_append_right _ hm
    | @under _ _ _ b hb hrest =>
      obtain ⟨h1, h2⟩ := hchain b List.mem_cons_self
      have hkind := hds.module_of_children (.here hb) hrest.ne_nil
      have hcontains : b.span.contains offset = true :=
        Span.contains_iff.2 ⟨Nat.le_of_lt h1, h2⟩
      -- the first module that holds the offset is the one of the chain
      have hsame : b = e := by
        have hafter := (List.pairwise_append.1 hds.inOrder).2.1
        have hstop := (Span.contains_iff.1 hholds).2
        rcases List.mem_append.1 hb with hb | hb
        · rw [hbefore b hb hkind] at hcontains
          cases hcontains
        rcases List.mem_cons.1 hb with rfl | hb
        · rfl
        · have := (List.pairwise_cons.1 hafter).1 b hb
          omega
      subst hsame
      have hin : b ∈ before ++ b :: after := by simp
      exact List.mem_append_left _
        (ih (hds.children hin) hrest fun m hm => hchain m (List.mem_cons_of_mem b hm))

end Scopes

/-- A declaration is in scope in all of its extent. -/
theorem mem_visible {ds : List (Declaration Place)} (hds : Placed ds) {d : Declaration Place}
    (hd : Occurs children d ds) {offset : Nat} (hstart : d.span.start.offset ≤ offset)
    (hstop : offset ≤ d.span.stop.offset) : d ∈ visible ds offset := by
  obtain ⟨chain, hchain⟩ := Under.of_occurs hd
  obtain ⟨scopes, hscopes, hvisible⟩ := scopes_visible ds offset
  rw [hvisible]
  refine hscopes.mem hds hchain fun m hm => ?_
  obtain ⟨hoccurs, hbelow⟩ := hchain.of_mem_chain hm
  have hin := hds.inside hoccurs hbelow
  omega

/-- The declaration `d` of the file stands deeper than `e`, or before it in the same scope. -/
def Precedes (ds : List (Declaration Place)) (d e : Declaration Place) : Prop :=
  ∀ chain chain', Under children ds chain d → Under children ds chain' e →
    chain'.length < chain.length ∨
      chain = chain' ∧ d.span.stop.offset ≤ e.span.start.offset

theorem precedes_of_inOrder {ds : List (Declaration Place)} (h : Placed ds) :
    ds.Pairwise (Precedes ds) := by
  refine h.inOrder.imp_of_mem fun {d e} hd he hde chain chain' hchain hchain' => .inr ?_
  rw [← Under.unique h (.here hd) hchain, ← Under.unique h (.here he) hchain']
  exact ⟨rfl, hde⟩

/-- Deeper scopes come first, and a scope is in the order of the text. -/
theorem Scopes.pairwise {offset : Nat} {ds : List (Declaration Place)}
    {scopes : List (List (Declaration Place))} (h : Scopes offset ds scopes) (hds : Placed ds) :
    scopes.flatten.Pairwise (Precedes ds) := by
  induction h with
  | outermost => simpa using precedes_of_inOrder hds
  | @inside before after e scopes _ _ _ hscopes ih =>
    have he : e ∈ before ++ e :: after := by simp
    have hchain : ∀ {d chain}, d ∈ scopes.flatten →
        Under children (before ++ e :: after) chain d →
        ∃ inner, chain = e :: inner ∧ Under children e.children inner d := by
      intro d chain hd hu
      obtain ⟨inner, hinner, -⟩ := hscopes.chain_of_mem hd
      exact ⟨inner, Under.unique hds hu (.under he hinner), hinner⟩
    rw [List.flatten_append, List.flatten_singleton]
    refine List.pairwise_append.2 ⟨?_, precedes_of_inOrder hds, fun d hd f hf chain chain' hu hu' =>
      .inl ?_⟩
    · refine (ih (hds.children he)).imp_of_mem fun {d f} hd hf hdf chain chain' hu hu' => ?_
      obtain ⟨inner, rfl, hinner⟩ := hchain hd hu
      obtain ⟨inner', rfl, hinner'⟩ := hchain hf hu'
      rcases hdf inner inner' hinner hinner' with hlt | ⟨rfl, hle⟩
      · exact .inl (Nat.succ_lt_succ hlt)
      · exact .inr ⟨rfl, hle⟩
    · obtain ⟨inner, rfl, -⟩ := hchain hd hu
      rw [Under.unique hds hu' (.here hf)]
      exact Nat.succ_pos _

end Declaration

namespace Analysis

open Declaration

theorem placed_ofText (file : FilePath) (text : List Char) :
    Placed (ofText file text).declarations := by
  cases ht : tokenize text with
  | error e =>
    have hnone : (ofText file text).declarations = [] := by simp [ofText, ht]
    rw [hnone]
    exact ⟨.nil, fun d hd => absurd hd Occurs.nil⟩
  | ok ts =>
    obtain ⟨hnested, horder⟩ := nested_shown file ht Place.offset
      (fun x y hxy hy => by rwa [offset_at file text hy, offset_at file text (hxy.trans hy)])
      (fun x y hxy hy => by
        rwa [offset_at file text hy, offset_at file text ((Nat.le_of_lt hxy).trans hy)])
    refine ⟨(List.pairwise_map.1 horder).imp fun {d e} hde => ?_, hnested⟩
    simpa [Span.map] using hde

/-- Where no module begins at an offset, the declarations in scope there are those of the file all
of whose enclosing modules hold the offset, their ends included. Each is there once, those of deeper
scopes before those of shallower ones, and those of one scope in the order of the text. -/
theorem visible_exact (file : FilePath) (text : List Char) (offset : Nat)
    (hstart : ∀ m, Occurs children m (ofText file text).declarations → m.kind = .module →
      m.span.start.offset ≠ offset) :
    (∀ d ∈ visible (ofText file text).declarations offset,
        Occurs children d (ofText file text).declarations) ∧
      (∀ chain d, Under children (ofText file text).declarations chain d →
        (d ∈ visible (ofText file text).declarations offset ↔
          ∀ m ∈ chain, m.span.contains offset = true)) ∧
      (visible (ofText file text).declarations offset).Nodup ∧
      (visible (ofText file text).declarations offset).Pairwise fun d e =>
        ∀ chain chain', Under children (ofText file text).declarations chain d →
          Under children (ofText file text).declarations chain' e →
          chain'.length < chain.length ∨
            chain = chain' ∧ d.span.stop.offset ≤ e.span.start.offset := by
  have hds := placed_ofText file text
  obtain ⟨scopes, hscopes, hvisible⟩ := scopes_visible (ofText file text).declarations offset
  have hpairwise := hscopes.pairwise hds
  refine ⟨fun d hd => occurs_visible hd, fun chain d hd => ?_, ?_, ?_⟩
  · rw [hvisible]
    constructor
    · intro hmem
      obtain ⟨chain', hchain', hholds⟩ := hscopes.chain_of_mem hmem
      rwa [Under.unique hds hd hchain']
    · intro hholds
      refine hscopes.mem hds hd fun m hm => ?_
      obtain ⟨hoccurs, hchild⟩ := hd.of_mem_chain hm
      obtain ⟨inner, hinner⟩ := Under.of_occurs hchild
      have hne := hstart m hoccurs (hds.module_of_children hoccurs hinner.ne_nil)
      have hcontains := Span.contains_iff.1 (hholds m hm)
      omega
  · rw [hvisible]
    refine hpairwise.imp_of_mem fun {d e} hd _ hde => ?_
    rintro rfl
    obtain ⟨chain, hchain, -⟩ := hscopes.chain_of_mem hd
    have hlong := hds.start_lt_stop hchain.occurs
    rcases hde chain chain hchain hchain with hlt | ⟨-, hle⟩
    · omega
    · omega
  · rw [hvisible]
    exact hpairwise

/-- A variable in a module that another one holds, and one behind the inner module: just at the end
of the inner module both are in scope. -/
theorem visible_exact_nested :
    let file := FilePath.ofString "/a"
    let text := "module m(){module n(){c=3;}b=2;}".toList
    let c : Declaration Nat := ⟨"c", .variable, ⟨22, 26⟩, ⟨22, 23⟩, none, []⟩
    let b : Declaration Nat := ⟨"b", .variable, ⟨27, 31⟩, ⟨27, 28⟩, none, []⟩
    c.map (Place.at file text) ∈ visible (ofText file text).declarations 27 ∧
      b.map (Place.at file text) ∈ visible (ofText file text).declarations 27 ∧
      c.map (Place.at file text) ∉ visible (ofText file text).declarations 28 := by
  intro file text c b
  let n : Declaration Nat := ⟨"n", .module, ⟨11, 27⟩, ⟨18, 19⟩, none, [c]⟩
  let m : Declaration Nat := ⟨"m", .module, ⟨0, 32⟩, ⟨7, 8⟩, none, [n, b]⟩
  let ts : List Token :=
    [⟨.ident, 0, [], "module".toList⟩, ⟨.ident, 7, [' '], ['m']⟩, ⟨.punct, 8, [], ['(']⟩,
      ⟨.punct, 9, [], [')']⟩, ⟨.punct, 10, [], ['{']⟩, ⟨.ident, 11, [], "module".toList⟩,
      ⟨.ident, 18, [' '], ['n']⟩, ⟨.punct, 19, [], ['(']⟩, ⟨.punct, 20, [], [')']⟩,
      ⟨.punct, 21, [], ['{']⟩, ⟨.ident, 22, [], ['c']⟩, ⟨.punct, 23, [], ['=']⟩,
      ⟨.number, 24, [], ['3']⟩, ⟨.punct, 25, [], [';']⟩, ⟨.punct, 26, [], ['}']⟩,
      ⟨.ident, 27, [], ['b']⟩, ⟨.punct, 28, [], ['=']⟩, ⟨.number, 29, [], ['2']⟩,
      ⟨.punct, 30, [], [';']⟩, ⟨.punct, 31, [], ['}']⟩]
  have ht : tokenize text = .ok ts := by decide +kernel
  have hlist : (Outline.ofTokens text.length ts).declarations = [m] := by with_unfolding_all rfl
  have hforest : (ofText file text).declarations = [m].map (map (Place.at file text)) := by
    rw [declarations_ofText file ht, hlist]
  have hstart : ∀ d, Occurs children d (ofText file text).declarations → d.kind = .module →
      d.span.start.offset = 0 ∨ d.span.start.offset = 11 := by
    intro d hd hkind
    rw [hforest] at hd
    obtain ⟨e, he, rfl⟩ := hd.map (children_map _)
    rcases he.singleton with rfl | he
    · exact .inl rfl
    rcases he.cons with rfl | he | he
    · exact .inr rfl
    · rcases he.singleton with rfl | he
      · cases hkind
      · exact absurd he Occurs.nil
    · rcases he.singleton with rfl | he
      · cases hkind
      · exact absurd he Occurs.nil
  have hc : Under children (ofText file text).declarations
      [m.map (Place.at file text), n.map (Place.at file text)] (c.map (Place.at file text)) := by
    rw [hforest]
    exact .under List.mem_cons_self (.under List.mem_cons_self (.here List.mem_cons_self))
  have hb : Under children (ofText file text).declarations [m.map (Place.at file text)]
      (b.map (Place.at file text)) := by
    rw [hforest]
    exact .under List.mem_cons_self (.here (List.mem_cons_of_mem _ List.mem_cons_self))
  have hends := (visible_exact file text 27 fun e he hkind => by
    have := hstart e he hkind
    omega).2.1
  have hafter := (visible_exact file text 28 fun e he hkind => by
    have := hstart e he hkind
    omega).2.1
  refine ⟨(hends _ _ hc).2 ?_, (hends _ _ hb).2 ?_, fun hmem => ?_⟩
  · decide +kernel
  · decide +kernel
  · exact absurd ((hafter _ _ hc).1 hmem) (by decide +kernel)

end Analysis
end Scad
