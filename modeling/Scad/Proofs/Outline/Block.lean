import Scad.Proofs.Outline.Brace
import Scad.Proofs.Outline.Extent

/-!
# Scad.Proofs.Outline.Block

Where the block of a module ends, if the brackets of the source are in order.

* `Declaration.eq_of_start`: no two declarations of a forest begin at the same place.
* `Outline.State.exists_of_block`: while the block of a module is read, the blocks opened in it are
  counted by the braces opened in it, but for modules without a body, each of which takes a closing
  brace and leaves a block open.
* `Outline.module_stop_iff`: a module ends at the brace that belongs to its block, unless the block
  holds such a module.
-/

namespace Scad

open Scad.Bracket Leaf

/-! ## Leaves in order -/

/-- Leaves cut in two around a leaf: the leaf is in the second part or in the first. -/
theorem Leaf.append_eq_append_cons {as bs cs ds : List Leaf} {l : Leaf}
    (h : as ++ bs = cs ++ l :: ds) :
    (∃ c, cs = as ++ c ∧ bs = c ++ l :: ds) ∨ ∃ c, as = cs ++ l :: c ∧ ds = c ++ bs := by
  rcases List.append_eq_append_iff.1 h with ⟨c, hc, hb⟩ | ⟨c, hc, hd⟩
  · exact .inl ⟨c, hc, hb⟩
  cases c with
  | nil => exact .inl ⟨[], by simpa using hc.symm, hd.symm⟩
  | cons m c =>
    obtain ⟨rfl, rfl⟩ := List.cons.inj hd
    exact .inr ⟨c, hc, rfl⟩

/-- The leaves stand one after another, and none is empty. -/
structure Leaf.Apart (ls : List Leaf) : Prop where
  pairwise : ls.Pairwise fun l m => l.token.stop ≤ m.token.start
  nonempty : ∀ l ∈ ls, l.token.start < l.token.stop

namespace Leaf.Apart

variable {ls ms : List Leaf} {l m : Leaf}

theorem of_ordered {eof : Nat} (h : Item.Ordered eof ls)
    (hne : ∀ l ∈ ls, l.token.start < l.token.stop) : Apart ls := by
  refine ⟨?_, hne⟩
  clear hne
  induction ls with
  | nil => exact .nil
  | cons l ls ih =>
    refine .cons (fun m hm => ?_) (ih h.2)
    exact Nat.le_trans h.1 (Item.start_of_ordered h.2 m hm)

theorem right (h : Apart (ls ++ ms)) : Apart ms :=
  ⟨(List.pairwise_append.1 h.pairwise).2.1, fun l hl => h.nonempty l (List.mem_append_right ls hl)⟩

theorem before (h : Apart (ls ++ ms)) (hl : l ∈ ls) (hm : m ∈ ms) : l.token.stop ≤ m.token.start :=
  (List.pairwise_append.1 h.pairwise).2.2 l hl m hm

theorem eq_of_start (h : Apart ls) (hl : l ∈ ls) (hm : m ∈ ls)
    (he : l.token.start = m.token.start) : l = m := by
  have h1 := h.nonempty l hl
  have h2 := h.nonempty m hm
  rcases eq_or_of_pairwise h.pairwise hl hm with rfl | hlm | hml
  · rfl
  · omega
  · omega

/-- A leaf has one place among leaves that stand one after another. -/
theorem split_unique {as bs : List Leaf} (h : Apart (ls ++ l :: ms))
    (he : ls ++ l :: ms = as ++ m :: bs) (hs : l.token.start = m.token.start) :
    ls = as ∧ l = m ∧ ms = bs := by
  have hl : l ∈ ls ++ l :: ms := by simp
  have hm : m ∈ ls ++ l :: ms := by simp [he]
  obtain rfl := h.eq_of_start hl hm hs
  have hlong := h.nonempty l hl
  refine (List.append_cons_inj_of_notMem (fun hmem => ?_) fun hmem => ?_).1 he
  · have := h.before hmem List.mem_cons_self
    omega
  · have := (List.pairwise_cons.1 h.right.pairwise).1 l hmem
    omega

end Leaf.Apart

theorem Leaf.apart_ofTokens {tail : List Char} {ts : List Token} (hw : Written 0 tail ts) :
    Apart (Leaf.ofTokens ts) := by
  have hlength : 0 + (Token.spell ts).length ≤ (Token.spell ts ++ tail).length := by simp
  refine .of_ordered (Leaf.ordered_ofTokensFrom hw hlength []).2 fun l hl => ?_
  exact (Token.sound_of_written hw
    (List.mem_filter.1 (Leaf.token_mem_significant hl)).1).start_lt_stop

/-! ## Declarations in order -/

namespace Declaration

section Forest

variable {ds : List (Declaration Nat)}

theorem Nested.start_lt_stop {d : Declaration Nat} (h : d.Nested) :
    d.span.start < d.span.stop := by
  have h1 := h.name_inside.1
  have h2 := h.name_inside.2
  have h3 := h.name_nonempty
  omega

/-- What stands below a declaration stands in it, and begins after it. -/
theorem inside_of_occurs (h : ∀ d, Occurs children d ds → d.Nested) {b d : Declaration Nat}
    (hb : Occurs children b ds) (hd : Occurs children d b.children) :
    b.span.start < d.span.start ∧ d.span.stop ≤ b.span.stop := by
  generalize hes : b.children = es at hd
  induction hd generalizing b with
  | here hm =>
    subst hes
    have h1 := (h b hb).name_inside.1
    have h2 := (h b hb).name_nonempty
    obtain ⟨hin, hafter⟩ := (h b hb).child_inside _ hm
    have h3 := hin.2
    omega
  | @under c es hm _ ih =>
    subst hes
    have h1 := (h b hb).name_inside.1
    have h2 := (h b hb).name_nonempty
    obtain ⟨hin, hafter⟩ := (h b hb).child_inside c hm
    have h3 := hin.2
    obtain ⟨h4, h5⟩ := ih (hb.child hm) rfl
    omega

theorem eq_of_inOrder (hord : InOrder ds) {b c : Declaration Nat} (hb : b ∈ ds) (hc : c ∈ ds)
    {n : Nat} (hbn : b.span.start ≤ n ∧ n < b.span.stop)
    (hcn : c.span.start ≤ n ∧ n < c.span.stop) : b = c := by
  rcases eq_or_of_pairwise hord hb hc with h | h | h
  · exact h
  · omega
  · omega

/-- No two declarations of a forest begin at the same place. -/
theorem eq_of_start (h : ∀ d, Occurs children d ds → d.Nested) (hord : InOrder ds)
    {d e : Declaration Nat} (hd : Occurs children d ds) (he : Occurs children e ds)
    (hs : d.span.start = e.span.start) : d = e := by
  induction hd generalizing e with
  | @here ds hm =>
    have hdlong := (h d (.here hm)).start_lt_stop
    have helong := (h e he).start_lt_stop
    cases he with
    | here hm' => exact eq_of_inOrder hord hm hm' ⟨Nat.le_refl _, hdlong⟩ (by omega)
    | @under c _ hc hec =>
      have hin := inside_of_occurs h (.here hc) hec
      obtain rfl := eq_of_inOrder hord hm hc ⟨Nat.le_refl _, hdlong⟩ (by omega)
      omega
  | @under b ds hb hdb ih =>
    have hdlong := (h d (.under hb hdb)).start_lt_stop
    have helong := (h e he).start_lt_stop
    have hin := inside_of_occurs h (.here hb) hdb
    cases he with
    | here hm' =>
      obtain rfl := eq_of_inOrder hord hb hm' (n := d.span.start) (by omega) (by omega)
      omega
    | @under c _ hc hec =>
      have hin' := inside_of_occurs h (.here hc) hec
      obtain rfl := eq_of_inOrder hord hb hc (n := d.span.start) (by omega) (by omega)
      exact ih (fun d hd => h d (.under hb hd)) (h b (.here hb)).children_inOrder hec hs

end Forest
end Declaration

/-! ## Reading a block -/

namespace Item

theorem first_next (eof : Nat) (l : Leaf) (ls : List Leaf) : (next eof l ls).1.first = l :=
  (List.cons.inj (next_append eof l ls)).1

theorem leaves_subset {eof : Nat} {ls : List Leaf} {it : Item} (h : it ∈ ofLeaves eof ls) :
    it.leaves ⊆ ls := by
  intro l hl
  rw [← leaves_ofLeaves eof ls]
  exact List.mem_flatMap.2 ⟨it, h, hl⟩

theorem stop_mem (it : Item) : ∃ l ∈ it.leaves, it.stop = l.token.stop := by
  cases h : it.others.getLast? with
  | none => exact ⟨it.first, List.mem_cons_self, by rw [stop, h]; rfl⟩
  | some l => exact ⟨l, List.mem_cons_of_mem _ (List.mem_of_getLast? h), by rw [stop, h]; rfl⟩

/-- What is read after some items is read as it would be alone. -/
theorem ofLeaves_split {eof : Nat} {ls : List Leaf} {its jts : List Item}
    (h : ofLeaves eof ls = its ++ jts) :
    ∃ rest, ls = its.flatMap leaves ++ rest ∧ jts = ofLeaves eof rest := by
  induction its generalizing ls with
  | nil => exact ⟨ls, rfl, h.symm⟩
  | cons it its ih =>
    cases ls with
    | nil =>
      rw [ofLeaves] at h
      cases h
    | cons l ls =>
      rw [ofLeaves, List.cons_append, List.cons.injEq] at h
      obtain ⟨rest, hrest, hjts⟩ := ih h.2
      refine ⟨rest, ?_, hjts⟩
      rw [List.flatMap_cons, List.append_assoc, ← hrest, ← h.1, next_append]

/-- An item is read from the leaves that begin with its first one. -/
theorem ofLeaves_split_cons {eof : Nat} {ls : List Leaf} {it : Item} {its jts : List Item}
    (h : ofLeaves eof ls = its ++ it :: jts) :
    ∃ l rest, ls = its.flatMap leaves ++ l :: rest ∧ it = (next eof l rest).1 ∧
      jts = ofLeaves eof (next eof l rest).2 := by
  obtain ⟨rest, hrest, hjts⟩ := ofLeaves_split h
  cases rest with
  | nil =>
    rw [ofLeaves] at hjts
    cases hjts
  | cons l rest =>
    rw [ofLeaves, List.cons.injEq] at hjts
    exact ⟨l, rest, hrest, hjts.1, hjts.2⟩

theorem Takes.guard {σ τ : List Kind} {it : Item} {as bs : List Leaf} (h : Takes σ it τ)
    (hs : it.shape ≠ .closed) (hb : ¬ it.Bodiless) (hleaves : it.leaves = as ++ bs) :
    ∃ ρ, Leads (fun _ _ => True) σ as ρ ∧ braces σ ≤ braces ρ := by
  cases h with
  | closed hs' => exact absurd hs' hs
  | bodiless _ hb' => exact absurd hb' hb
  | kept _ _ hleads hcount =>
    rw [hleaves] at hleads
    obtain ⟨ρ, hρ, hrest⟩ := hleads.split
    refine ⟨ρ, hρ.mono fun _ _ _ _ => trivial, ?_⟩
    cases hrest with
    | done => omega
    | next hguard _ _ => exact hguard

/-- Only a closing brace of its own and a module without a body can take the brace that closes a
block. -/
theorem Takes.closing {σ τ π : List Kind} {it : Item} {block tail : List Leaf} {closer : Leaf}
    (h : Takes (τ ++ .curly :: σ) it π) (hleaves : it.leaves = block ++ closer :: tail)
    (hblock : Leads (fun _ _ => True) τ block []) (hclose : closer.is Token.braceClose = true) :
    it.shape = .closed ∧ it.leaves = [closer] ∧ τ = [] ∨
      it.shape ≠ .closed ∧ it.Bodiless ∧ block ≠ [] := by
  by_cases hs : it.shape = .closed
  · left
    cases h with
    | kept hs' => exact absurd hs hs'
    | bodiless hs' => exact absurd hs hs'
    | closed _ hothers _ _ _ =>
      rw [leaves, hothers] at hleaves ⊢
      cases block with
      | nil =>
        cases hblock
        cases hleaves
        exact ⟨hs, rfl, rfl⟩
      | cons m block => simp at hleaves
  · right
    by_cases hb : it.Bodiless
    · refine ⟨hs, hb, ?_⟩
      rintro rfl
      obtain ⟨keyword, _, _, _, _, hleaves', -, hword, -⟩ := hb
      rw [hleaves', List.nil_append] at hleaves
      cases hleaves
      rw [is_of_is hword] at hclose
      cases hclose
    · have hcut : it.leaves = (block ++ [closer]) ++ tail := by rw [hleaves]; simp
      obtain ⟨ρ, hρ, hle⟩ := h.guard hs hb hcut
      obtain ⟨ρ', hρ', hlast⟩ := hρ.split
      cases hρ'.unique (hblock.frame (.curly :: σ))
      cases hlast with
      | next _ hnest hdone =>
        cases hdone
        obtain ⟨hσ, -⟩ := eq_of_closes hnest (role_of_is hclose)
        cases hσ
        simp at hle
        omega

end Item

namespace Outline.State

variable (eof : Nat) {first : Leaf} {name : Token} {before : List (Declaration Nat)}
  {outside : List Frame}

/-- One item inside the block of an open module. `τ` are the brackets opened in the block before the
item, and `excess` counts the blocks that are open though their brace is closed. -/
theorem step_inside {st : State} {it : Item} {σ τ τ' π : List Kind} {inside : List Frame}
    {excess : Nat} (htakes : it.Takes (τ ++ .curly :: σ) π)
    (hτ : Leads (fun _ _ => True) τ it.leaves τ')
    (hframes : st.frames = inside ++ ⟨some (first, name), before⟩ :: outside)
    (hcount : inside.length = braces τ + excess) :
    ∃ inside' excess', (st.step it).frames = inside' ++ ⟨some (first, name), before⟩ :: outside ∧
      inside'.length = braces τ' + excess' ∧ (excess' = 0 ↔ excess = 0 ∧ ¬ it.Bodiless) := by
  have hπ := htakes.leads.unique (hτ.frame (.curly :: σ))
  subst hπ
  cases htakes with
  | closed hs _ hb hstack _ =>
    have hpop : τ = .curly :: τ' :=
      List.append_cancel_right (hstack : _ = (.curly :: τ') ++ .curly :: σ)
    rw [hpop, braces_curly] at hcount
    cases inside with
    | nil =>
      rw [List.length_nil] at hcount
      omega
    | cons f inside =>
      rw [List.length_cons] at hcount
      exact ⟨inside, excess, (step_closed hs hframes).1, by omega, by simp [hb]⟩
  | kept hs hb _ hbraces =>
    obtain ⟨new, hnew, hlength⟩ := frames_step hs st
    rw [hframes, ← List.append_assoc] at hnew
    rw [braces_append, braces_append] at hbraces
    refine ⟨new ++ inside, excess, hnew, ?_, by simp [hb]⟩
    rw [List.length_append]
    omega
  | bodiless hs hb _ hstack _ _ _ hbraces =>
    obtain ⟨new, hnew, hlength⟩ := frames_step hs st
    rw [hframes, ← List.append_assoc] at hnew
    have hone := congrArg braces hstack
    rw [braces_append, braces_curly, braces_curly] at hone
    rw [braces_append, braces_curly] at hbraces
    refine ⟨new ++ inside, excess + 1, hnew, ?_, by simp [hb]⟩
    rw [List.length_append]
    omega

/-- A module that is open behind the brace that belongs to its block ends there only if nothing
follows. -/
theorem exists_of_late {st : State} {inside : List Frame} {closer : Leaf} {taken rest : List Leaf}
    (hframes : st.frames = inside ++ ⟨some (first, name), before⟩ :: outside)
    (hapart : Apart (closer :: (taken ++ rest)))
    (hstop : st.stop = (taken.getLast?.getD closer).token.stop) :
    ∃ e, Occurs Declaration.children e (st.read eof rest).declarations ∧
      e.span.start = first.token.start ∧
      (e.span.stop = closer.token.stop ↔ taken ++ rest = []) := by
  have hlater : ∀ l ∈ taken ++ rest, closer.token.stop < l.token.stop := by
    intro l hl
    have h1 := (List.pairwise_cons.1 hapart.pairwise).1 l hl
    have h2 := hapart.nonempty l (List.mem_cons_of_mem closer hl)
    omega
  obtain ⟨stop, inner, he, hend⟩ := exists_of_open hframes (Item.ofLeaves eof rest)
  refine ⟨_, he, rfl, ?_⟩
  show stop = closer.token.stop ↔ taken ++ rest = []
  rcases hend with ⟨hnil, hend⟩ | ⟨it, hit, hend⟩
  · have hrest : rest = [] := by
      rw [← Item.leaves_ofLeaves eof rest, hnil]
      rfl
    subst hrest
    rw [List.append_nil] at hlater ⊢
    rw [hend, hstop]
    cases hlast : taken.getLast? with
    | none => simp [List.getLast?_eq_none_iff.1 hlast]
    | some l =>
      have hmem := List.mem_of_getLast? hlast
      have hlt := hlater l hmem
      exact iff_of_false (by rw [Option.getD_some]; omega) (List.ne_nil_of_mem hmem)
  · obtain ⟨l, hl, hstopl⟩ := it.stop_mem
    have hmem : l ∈ taken ++ rest := List.mem_append_right _ (Item.leaves_subset hit hl)
    have hlt := hlater l hmem
    exact iff_of_false (by omega) (List.ne_nil_of_mem hmem)

/-- The item that takes the brace belonging to the block of an open module. -/
theorem exists_of_closing {st : State} {it : Item} {closer : Leaf} {block tail rest : List Leaf}
    {σ τ π : List Kind} {inside : List Frame} {excess : Nat}
    (htakes : it.Takes (τ ++ .curly :: σ) π) (hleaves : it.leaves = block ++ closer :: tail)
    (hapart : Apart (it.leaves ++ rest)) (hblock : Leads (fun _ _ => True) τ block [])
    (hclose : closer.is Token.braceClose = true)
    (hframes : st.frames = inside ++ ⟨some (first, name), before⟩ :: outside)
    (hcount : inside.length = braces τ + excess) :
    ∃ e, Occurs Declaration.children e ((st.step it).read eof rest).declarations ∧
      e.span.start = first.token.start ∧
      (e.span.stop = closer.token.stop ↔ tail ++ rest = [] ∨ excess = 0 ∧
        ∀ jt ∈ it :: Item.ofLeaves eof rest, jt.first.token.start < closer.token.start →
          ¬ jt.Bodiless) := by
  rw [hleaves, List.append_assoc] at hapart
  have hlate : Apart (closer :: (tail ++ rest)) := hapart.right
  have hstop : (st.step it).stop = (tail.getLast?.getD closer).token.stop :=
    Item.stop_of_leaves hleaves
  rcases htakes.closing hleaves hblock hclose with ⟨hs, hone, rfl⟩ | ⟨hs, hb, hne⟩
  · -- the brace alone: the block it ends is the module's, if none is open in it
    have hfirst : it.first = closer := (List.cons.inj hone).1
    have hnone : ∀ jt ∈ it :: Item.ofLeaves eof rest,
        jt.first.token.start < closer.token.start → ¬ jt.Bodiless := by
      intro jt hjt hlt
      rcases List.mem_cons.1 hjt with rfl | hjt
      · rw [hfirst] at hlt
        omega
      · have hmem := Item.leaves_subset hjt (List.mem_cons_self : jt.first ∈ jt.leaves)
        have h1 := (List.pairwise_cons.1 hlate.pairwise).1 _ (List.mem_append_right tail hmem)
        have h2 := hlate.nonempty closer List.mem_cons_self
        omega
    cases inside with
    | nil =>
      obtain ⟨-, hfound⟩ := step_closed hs hframes
      have hholds : (st.step it).Holds (declare .module first name it.stop st.found) := by
        refine .inl (.here ?_)
        rw [hfound]
        exact List.mem_append_right _ List.mem_cons_self
      have hexcess : excess = 0 := by
        rw [List.length_nil] at hcount
        omega
      have hcloser : it.leaves = [] ++ closer :: [] := hone
      exact ⟨_, hholds.occurs_foldl _, rfl,
        iff_of_true (Item.stop_of_leaves hcloser) (.inr ⟨hexcess, hnone⟩)⟩
    | cons f inside =>
      have hexcess : excess ≠ 0 := by
        rw [braces_nil, List.length_cons] at hcount
        omega
      obtain ⟨e, he, hstart, hiff⟩ :=
        exists_of_late eof (step_closed hs hframes).1 hlate hstop
      exact ⟨e, he, hstart, hiff.trans (or_iff_left fun h => hexcess h.1).symm⟩
  · -- the module without a body takes the brace, and the block stays open
    obtain ⟨new, hnew, -⟩ := frames_step hs st
    rw [hframes, ← List.append_assoc] at hnew
    obtain ⟨e, he, hstart, hiff⟩ := exists_of_late eof hnew hlate hstop
    refine ⟨e, he, hstart, hiff.trans (or_iff_left ?_).symm⟩
    rintro ⟨-, hno⟩
    refine hno it List.mem_cons_self ?_ hb
    obtain ⟨b, block, rfl⟩ := List.exists_cons_of_ne_nil hne
    have hfirst : it.first = b := (List.cons.inj hleaves).1
    have h1 := hapart.before (l := b) List.mem_cons_self (m := closer) (by simp)
    have h2 := hapart.nonempty b (by simp)
    rw [hfirst]
    omega

/-- A module whose block is being read. The module ends at the brace that belongs to its block if
and only if all blocks opened in it have ended by then, or nothing follows. -/
theorem exists_of_block {closer : Leaf} {after ls block : List Leaf} {σ τ : List Kind} {st : State}
    {inside : List Frame} {excess : Nat} (hls : ls = block ++ closer :: after) (hapart : Apart ls)
    (hleads : Leads (fun _ _ => True) (τ ++ .curly :: σ) ls [])
    (hblock : Leads (fun _ _ => True) τ block []) (hclose : closer.is Token.braceClose = true)
    (hframes : st.frames = inside ++ ⟨some (first, name), before⟩ :: outside)
    (hcount : inside.length = braces τ + excess) :
    ∃ e, Occurs Declaration.children e (st.read eof ls).declarations ∧
      e.span.start = first.token.start ∧
      (e.span.stop = closer.token.stop ↔ after = [] ∨ excess = 0 ∧
        ∀ it ∈ Item.ofLeaves eof ls, it.first.token.start < closer.token.start →
          ¬ it.Bodiless) := by
  induction hn : ls.length using Nat.strong_induction_on
    generalizing ls block τ st inside excess with
  | _ n ih =>
  subst hn
  cases ls with
  | nil => simp at hls
  | cons l ls =>
  have happ := Item.next_append eof l ls
  have hshorter := Item.next_length eof l ls
  obtain ⟨π, htakes⟩ := Item.takes_next eof hleads
  rw [read_cons, Item.ofLeaves]
  generalize Item.next eof l ls = p at *
  obtain ⟨it, rest⟩ := p
  simp only at happ hshorter htakes ⊢
  rw [← happ] at hleads hapart hls
  -- either the item takes the closing brace, or it stands in the block
  rcases Leaf.append_eq_append_cons hls with ⟨c, hc, hc'⟩ | ⟨c, hc, rfl⟩
  · obtain ⟨π', hπ', hrest⟩ := hleads.split
    cases hπ'.unique htakes.leads
    rw [hc] at hblock
    obtain ⟨τ', hτ, hblock'⟩ := hblock.split
    obtain ⟨inside', excess', hframes', hcount', hexcess⟩ := step_inside htakes hτ hframes hcount
    rw [htakes.leads.unique (hτ.frame (.curly :: σ))] at hrest
    obtain ⟨e, he, hstart, hiff⟩ :=
      ih rest.length hshorter hc' hapart.right hrest hblock' hframes' hcount' rfl
    have hbefore : it.first.token.start < closer.token.start := by
      have h1 := hapart.before (l := it.first) List.mem_cons_self (m := closer) (by simp [hc'])
      have h2 := hapart.nonempty it.first (List.mem_append_left rest List.mem_cons_self)
      omega
    refine ⟨e, he, hstart, hiff.trans ?_⟩
    rw [hexcess, List.forall_mem_cons]
    simp only [hbefore, forall_const, and_assoc]
  · exact exists_of_closing eof htakes hc hapart hblock hclose hframes hcount

end Outline.State

/-! ## Modules with a block -/

/-- A lexeme that reads like a bracket is one. -/
theorem Lexeme.Form.punct_of_role {a : Bool} {c : Char} {cs : List Char} {l : Lexeme.Cut}
    (h : Form a c cs l) (hr : Role.ofText l.text ≠ .plain) : l.kind = .punct := by
  obtain ⟨t, htext, -⟩ := h.text_eq
  have hc : c ∈ ['(', '[', '{', ')', ']', '}'] := by
    rw [htext] at hr
    cases hrole : Role.ofText (c :: t) with
    | plain => exact absurd hrole hr
    | opens k =>
      cases Role.ofText_eq_opens.1 hrole
      cases k <;> decide
    | closes k =>
      cases Role.ofText_eq_closes.1 hrole
      cases k <;> decide
  simp only [List.mem_cons, List.not_mem_nil, or_false] at hc
  rcases hc with rfl | rfl | rfl | rfl | rfl | rfl <;>
    exact h.punct_of_head (by decide) (by decide) (by decide)

theorem Reads.punct_of_role {a : Bool} {offset : Nat} {s : List Char} {ts : List Token}
    (h : Reads a offset s ts) : ∀ t ∈ ts, Role.ofText t.text ≠ .plain → t.kind = .punct := by
  induction h with
  | done =>
    intro t ht
    cases ht
  | token _ _ hl ht _ ih =>
    intro u hu hr
    rcases List.mem_cons.1 hu with rfl | hu
    · subst ht
      exact hl.punct_of_role hr
    · exact ih u hu hr

namespace Outline

/-- The parts of a source around a module with a block: what is before the module, its keyword, name
and parameters, the braces that belong together and what they enclose, and what follows. -/
structure ModuleBlock where
  before : List Leaf
  keyword : Leaf
  name : Leaf
  parameters : List Leaf
  opener : Leaf
  block : List Leaf
  closer : Leaf
  after : List Leaf
  keyword_ident : keyword.token.kind = .ident
  keyword_module : keyword.is "module" = true
  name_ident : name.token.kind = .ident
  parameters_list : Item.ParameterList parameters
  opener_brace : opener.is Token.braceOpen = true
  block_nested : Leads (fun _ _ => True) [] block []
  closer_brace : closer.is Token.braceClose = true

namespace ModuleBlock

/-- The leaves after the opening brace. -/
def inner (m : ModuleBlock) : List Leaf := m.block ++ m.closer :: m.after

def leaves (m : ModuleBlock) : List Leaf :=
  m.before ++ m.keyword :: m.name :: (m.parameters ++ m.opener :: m.inner)

variable (m : ModuleBlock)

/-- The head of the module and its opening brace are one item. -/
theorem next_eq (eof : Nat) :
    ∃ faults, Item.next eof m.keyword (m.name :: (m.parameters ++ m.opener :: m.inner)) =
      (⟨.openedModule m.name.token, m.keyword, m.name :: (m.parameters ++ [m.opener]), faults⟩,
        m.inner) := by
  have hround : m.opener.is "(" = false := is_of_is m.opener_brace _
  obtain ⟨htaken, hrest⟩ := Item.parameterList_of_list eof .module m.parameters_list hround m.inner
  refine ⟨(Item.parameterList eof .module (m.parameters ++ m.opener :: m.inner)).2, ?_⟩
  rw [Item.next_eq_moduleItem eof m.keyword_ident m.keyword_module m.name_ident]
  simp [Item.moduleItem, htaken, hrest, Item.statement, m.opener_brace]

/-- The block is read with the opening brace of the module as the innermost open bracket. -/
theorem leads_inner (h : Leads (fun _ _ => True) [] m.leaves []) :
    ∃ σ, Leads (fun _ _ => True) (.curly :: σ) m.inner [] := by
  have hcut : m.leaves =
      (m.before ++ m.keyword :: m.name :: m.parameters) ++ m.opener :: m.inner := by
    simp [leaves]
  rw [hcut] at h
  obtain ⟨σ, -, hrest⟩ := h.split
  cases hrest with
  | next _ hopen hinner =>
    obtain ⟨rfl, -⟩ := eq_of_opens hopen (role_of_is m.opener_brace)
    exact ⟨σ, hinner⟩

/-- The items of the source: those before the module, its head, and those from its block on. -/
theorem ofLeaves_eq {eof : Nat} (hapart : Apart m.leaves) {it : Item}
    (hit : it ∈ Item.ofLeaves eof m.leaves)
    (hfirst : it.first.token.start = m.keyword.token.start) :
    ∃ its, its.flatMap Item.leaves = m.before ∧ it.first = m.keyword ∧
      it.shape = .openedModule m.name.token ∧
      Item.ofLeaves eof m.leaves = its ++ it :: Item.ofLeaves eof m.inner := by
  obtain ⟨its, jts, hits⟩ := List.append_of_mem hit
  obtain ⟨l, ls, hrest, hnext, hjts⟩ := Item.ofLeaves_split_cons hits
  have hl : it.first = l := by rw [hnext, Item.first_next]
  rw [hl] at hfirst
  obtain ⟨hbefore, rfl, rfl⟩ := Apart.split_unique hapart hrest hfirst.symm
  obtain ⟨faults, hmodule⟩ := m.next_eq eof
  rw [hmodule] at hnext hjts
  refine ⟨its, hbefore.symm, hl, ?_, ?_⟩
  · rw [hnext]
  · rw [hits, hjts]

theorem apart_inner (h : Apart m.leaves) : Apart m.inner := by
  have hcut : m.leaves =
      (m.before ++ m.keyword :: m.name :: (m.parameters ++ [m.opener])) ++ m.inner := by
    simp [leaves]
  rw [hcut] at h
  exact h.right

/-- The block holds what begins before the closing brace. -/
theorem mem_block_iff (h : Apart m.inner) {l : Leaf} (hl : l ∈ m.inner) :
    l ∈ m.block ↔ l.token.start < m.closer.token.start := by
  constructor
  · intro hblock
    have h1 := h.before hblock (m := m.closer) List.mem_cons_self
    have h2 := h.nonempty l hl
    omega
  · intro hlt
    rcases List.mem_append.1 hl with hblock | hrest
    · exact hblock
    · rcases List.mem_cons.1 hrest with rfl | hafter
      · omega
      · have h1 := (List.pairwise_cons.1 h.right.pairwise).1 l hafter
        have h2 := h.nonempty m.closer (List.mem_append_right _ List.mem_cons_self)
        omega

/-- No leaf of the block stands before it. -/
theorem not_mem_block (h : Apart m.leaves) {l : Leaf} (hl : l ∈ m.before ++ [m.keyword]) :
    l ∉ m.block := by
  intro hblock
  have hcut : m.leaves =
      (m.before ++ [m.keyword]) ++ m.name :: (m.parameters ++ m.opener :: m.inner) := by
    simp [leaves]
  rw [hcut] at h
  have h1 := h.before hl (m := l) (by simp [inner, hblock])
  have h2 := h.nonempty l (List.mem_append_left _ hl)
  omega

theorem exists_declaration {eof : Nat} (hleads : Leads (fun _ _ => True) [] m.leaves [])
    (hapart : Apart m.leaves) {it : Item} (hit : it ∈ Item.ofLeaves eof m.leaves)
    (hfirst : it.first.token.start = m.keyword.token.start) :
    ∃ e, Occurs Declaration.children e (State.init.read eof m.leaves).declarations ∧
      e.span.start = m.keyword.token.start ∧
      (e.span.stop = m.closer.token.stop ↔ m.after = [] ∨
        ∀ it ∈ Item.ofLeaves eof m.leaves, it.first ∈ m.block → ¬ it.Bodiless) := by
  obtain ⟨its, hbefore, hkeyword, hshape, hitems⟩ := m.ofLeaves_eq hapart hit hfirst
  obtain ⟨σ, hinner⟩ := m.leads_inner hleads
  have hframes : ((its.foldl State.step State.init).step it).frames =
      [] ++ ⟨some (m.keyword, m.name.token), (its.foldl State.step State.init).found⟩ ::
        (its.foldl State.step State.init).frames := by
    simp [State.step, State.place, hshape, hkeyword]
  have hread : State.init.read eof m.leaves =
      ((its.foldl State.step State.init).step it).read eof m.inner := by
    rw [State.read, hitems, List.foldl_append, List.foldl_cons, State.read]
  have hcount : ([] : List Frame).length = braces [] + 0 := rfl
  obtain ⟨e, he, hstart, hiff⟩ := State.exists_of_block eof (τ := []) rfl (m.apart_inner hapart)
    hinner m.block_nested m.closer_brace hframes hcount
  refine ⟨e, hread ▸ he, hstart, hiff.trans (or_congr_right ?_)⟩
  rw [hitems, List.forall_mem_append, List.forall_mem_cons]
  constructor
  · rintro ⟨-, hno⟩
    refine ⟨fun jt hjt hblock => ?_, fun hblock => ?_, fun jt hjt hblock => ?_⟩
    · have hmem : jt.first ∈ m.before := by
        rw [← hbefore]
        exact List.mem_flatMap.2 ⟨jt, hjt, List.mem_cons_self⟩
      exact absurd hblock (m.not_mem_block hapart (List.mem_append_left _ hmem))
    · rw [hkeyword] at hblock
      exact absurd hblock (m.not_mem_block hapart (by simp))
    · have hmem : jt.first ∈ m.inner := Item.leaves_subset hjt List.mem_cons_self
      exact hno jt hjt ((m.mem_block_iff (m.apart_inner hapart) hmem).1 hblock)
  · rintro ⟨-, -, hno⟩
    refine ⟨rfl, fun jt hjt hlt => hno jt hjt ?_⟩
    have hmem : jt.first ∈ m.inner := Item.leaves_subset hjt List.mem_cons_self
    exact (m.mem_block_iff (m.apart_inner hapart) hmem).2 hlt

end ModuleBlock

/-- A module ends at the brace that belongs to its block if and only if no module without a body
begins in the block, or nothing follows. What it declares stands before its end. -/
theorem module_stop_iff {text : List Char} {ts : List Token} (ht : tokenize text = .ok ts)
    (hb : Bracket.faults ts = []) {m : ModuleBlock} (hm : Leaf.ofTokens ts = m.leaves)
    {d : Declaration Nat}
    (hd : Occurs Declaration.children d (ofTokens text.length ts).declarations)
    (hstart : d.span.start = m.keyword.token.start) :
    (d.span.stop = m.closer.token.stop ↔ m.after = [] ∨
      ∀ it ∈ Item.ofLeaves text.length (Leaf.ofTokens ts), it.first ∈ m.block → ¬ it.Bodiless) ∧
    ∀ e, Occurs Declaration.children e d.children → e.span.stop ≤ d.span.stop := by
  have hpunct := (tokenizeFrom_eq_ok_iff.1 ht).punct_of_role
  obtain ⟨tail, rfl, hw⟩ := Layout.written_of_tokenize ht
  obtain ⟨hi, hfilled⟩ := filled_ofTokens hw
  have hsignificant : ∀ l ∈ Leaf.ofTokens ts, l.token ∈ ts :=
    fun l hl => (List.mem_filter.1 (Leaf.token_mem_significant hl)).1
  have hleads : Leads (fun _ _ => True) [] (Leaf.ofTokens ts) [] :=
    (faultsFrom_eq_nil_iff rfl fun l hl => hpunct l.token (hsignificant l hl)).1 hb
  have hlength : 0 + (Token.spell ts).length ≤ (Token.spell ts ++ tail).length := by simp
  have hordered := (Leaf.ordered_ofTokensFrom hw hlength []).2
  have hapart : Apart (Leaf.ofTokens ts) :=
    .of_ordered hordered fun l hl => (Token.sound_of_written hw (hsignificant l hl)).start_lt_stop
  have hnested := fun d hd => (hfilled.all d hd).1
  have horder := hfilled.inOrder
  refine ⟨?_, fun e he => (Declaration.inside_of_occurs hnested hd he).2⟩
  rw [ofTokens_eq_read] at hd hnested horder
  obtain ⟨it, hit, hfirst⟩ := State.occurs_foldl_start hd
  rw [hm] at hleads hapart hd hnested horder hit ⊢
  obtain ⟨e, he, hstart', hiff⟩ := m.exists_declaration hleads hapart hit (hfirst.trans hstart)
  rwa [Declaration.eq_of_start hnested horder hd he (hstart.trans hstart'.symm)]

namespace ModuleBlock

/-- The module `a` of `module a(){module b();}c=1;`. -/
def bodied : ModuleBlock where
  before := []
  keyword := ⟨[], .ident, 0, [], "module".toList⟩
  name := ⟨[], .ident, 7, [' '], ['a']⟩
  parameters := [⟨[], .punct, 8, [], ['(']⟩, ⟨[], .punct, 9, [], [')']⟩]
  opener := ⟨[], .punct, 10, [], ['{']⟩
  block :=
    [⟨[], .ident, 11, [], "module".toList⟩, ⟨[], .ident, 18, [' '], ['b']⟩,
      ⟨[], .punct, 19, [], ['(']⟩, ⟨[], .punct, 20, [], [')']⟩, ⟨[], .punct, 21, [], [';']⟩]
  closer := ⟨[], .punct, 22, [], ['}']⟩
  after :=
    [⟨[], .ident, 23, [], ['c']⟩, ⟨[], .punct, 24, [], ['=']⟩, ⟨[], .number, 25, [], ['1']⟩,
      ⟨[], .punct, 26, [], [';']⟩]
  keyword_ident := rfl
  keyword_module := rfl
  name_ident := rfl
  parameters_list := @Item.ParameterList.given _ _ [] rfl (.done []) rfl
  opener_brace := rfl
  block_nested := .next trivial rfl (.next trivial rfl (.next trivial rfl (.next trivial rfl
    (.one trivial rfl))))
  closer_brace := rfl

/-- The module `a` of `module a(){module b()}c=1;`. -/
def bodiless : ModuleBlock :=
  { bodied with
    block :=
      [⟨[], .ident, 11, [], "module".toList⟩, ⟨[], .ident, 18, [' '], ['b']⟩,
        ⟨[], .punct, 19, [], ['(']⟩, ⟨[], .punct, 20, [], [')']⟩]
    closer := ⟨[], .punct, 21, [], ['}']⟩
    after :=
      [⟨[], .ident, 22, [], ['c']⟩, ⟨[], .punct, 23, [], ['=']⟩, ⟨[], .number, 24, [], ['1']⟩,
        ⟨[], .punct, 25, [], [';']⟩]
    block_nested := .next trivial rfl (.next trivial rfl (.next trivial rfl (.one trivial rfl)))
    closer_brace := rfl }

/-- The tokens of a source without comments. -/
def tokens (m : ModuleBlock) : List Token := m.leaves.map Leaf.token

end ModuleBlock

open ModuleBlock

/-- With a body for `b`, the module `a` ends at the brace of its block. -/
theorem module_stop_bodied :
    tokenize (Token.spell bodied.tokens) = .ok bodied.tokens ∧ Bracket.faults bodied.tokens = [] ∧
      ∃ d, Occurs Declaration.children d
          (ofTokens (Token.spell bodied.tokens).length bodied.tokens).declarations ∧
        d.span.start = bodied.keyword.token.start ∧ d.span.stop = bodied.closer.token.stop ∧
        ((d.span.stop = bodied.closer.token.stop ↔ bodied.after = [] ∨
          ∀ it ∈ Item.ofLeaves (Token.spell bodied.tokens).length (Leaf.ofTokens bodied.tokens),
            it.first ∈ bodied.block → ¬ it.Bodiless) ∧
        ∀ e, Occurs Declaration.children e d.children → e.span.stop ≤ d.span.stop) := by
  have ht : tokenize (Token.spell bodied.tokens) = .ok bodied.tokens := by decide +kernel
  have hd : (ofTokens (Token.spell bodied.tokens).length bodied.tokens).declarations =
      [⟨"a", .module, ⟨0, 23⟩, ⟨7, 8⟩, none, [⟨"b", .module, ⟨11, 22⟩, ⟨18, 19⟩, none, []⟩]⟩,
        ⟨"c", .variable, ⟨23, 27⟩, ⟨23, 24⟩, none, []⟩] := by with_unfolding_all rfl
  have ha : Occurs Declaration.children
      ⟨"a", .module, ⟨0, 23⟩, ⟨7, 8⟩, none, [⟨"b", .module, ⟨11, 22⟩, ⟨18, 19⟩, none, []⟩]⟩
      (ofTokens (Token.spell bodied.tokens).length bodied.tokens).declarations := by
    rw [hd]
    exact .here List.mem_cons_self
  exact ⟨ht, rfl, _, ha, rfl, rfl, module_stop_iff ht rfl (m := bodied) rfl ha rfl⟩

/-- Without a body for `b`, the module `a` runs past the brace of its block, and `c` is lost. -/
theorem bodiless_runs_on :
    tokenize (Token.spell bodiless.tokens) = .ok bodiless.tokens ∧
      Bracket.faults bodiless.tokens = [] ∧ Leaf.ofTokens bodiless.tokens = bodiless.leaves ∧
      (ofTokens (Token.spell bodiless.tokens).length bodiless.tokens).declarations =
        [⟨"a", .module, ⟨bodiless.keyword.token.start, 26⟩, ⟨7, 8⟩, none,
          [⟨"b", .module, ⟨11, 26⟩, ⟨18, 19⟩, none, []⟩]⟩] ∧
      26 ≠ bodiless.closer.token.stop := by
  exact ⟨by decide +kernel, rfl, rfl, by with_unfolding_all rfl, by decide⟩

end Outline
end Scad
