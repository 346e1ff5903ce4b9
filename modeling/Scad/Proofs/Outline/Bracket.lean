import Mathlib.Data.List.Perm.Subperm
import Scad.Proofs.Outline.Extent
import Scad.Proofs.Outline.Nesting
import Scad.Proofs.Token.Partition

/-!
# Scad.Proofs.Outline.Bracket

The faults of brackets are exact.

* `Bracket.Dyck`: the well-nested words over the three kinds of bracket.
* `Bracket.Closes σ w`: the word `w` closes the open brackets `σ`, and all that it opens itself.
* `Bracket.faultsFrom_eq_nil_iff_closes`: a source has no faults of brackets if and only if its
  brackets close what is open.
* `Bracket.subperm_faultsFrom`: every fault stands at a bracket of its own.
* `Item.faults_le`: no fault stands past the end of the source.
* `Outline.faults_exact`: all of this for the faults of an outline.
-/

namespace Scad
namespace Bracket

/-! ## Words of brackets -/

/-- Well-nested words over the three kinds of bracket. -/
inductive Dyck : List Char → Prop where
  | nil : Dyck []
  | nest (k : Kind) {u v : List Char} : Dyck u → Dyck v → Dyck (k.opener :: (u ++ k.closer :: v))

/-- The word closes the brackets `σ`, innermost first, with well-nested words between. -/
def Closes : List Kind → List Char → Prop
  | [], w => Dyck w
  | k :: σ, w => ∃ u v, w = u ++ k.closer :: v ∧ Dyck u ∧ Closes σ v

theorem Kind.opener_inj {j k : Kind} : j.opener = k.opener ↔ j = k := by
  cases j <;> cases k <;> decide

theorem Kind.closer_inj {j k : Kind} : j.closer = k.closer ↔ j = k := by
  cases j <;> cases k <;> decide

theorem Kind.opener_ne_closer (j k : Kind) : j.opener ≠ k.closer := by
  cases j <;> cases k <;> decide

/-- A well-nested word begins with an opening bracket, which its closing bracket ends. -/
theorem dyck_cons_iff {c : Char} {w : List Char} :
    Dyck (c :: w) ↔ ∃ k u v, c = Kind.opener k ∧ w = u ++ k.closer :: v ∧ Dyck u ∧ Dyck v := by
  constructor
  · intro h
    generalize hcw : c :: w = x at h
    cases h with
    | nil => cases hcw
    | nest k hu hv =>
      cases hcw
      exact ⟨k, _, _, rfl, rfl, hu, hv⟩
  · rintro ⟨k, u, v, rfl, rfl, hu, hv⟩
    exact .nest k hu hv

section Closes

variable {k : Kind} {σ : List Kind} {w : List Char}

theorem closes_nil : Closes σ [] ↔ σ = [] := by
  cases σ with
  | nil => exact iff_of_true .nil rfl
  | cons k σ => simp [Closes]

theorem closes_opener : Closes σ (k.opener :: w) ↔ Closes (k :: σ) w := by
  cases σ with
  | nil =>
    rw [Closes, dyck_cons_iff]
    constructor
    · rintro ⟨j, u, v, hj, rfl, hu, hv⟩
      rw [Kind.opener_inj.1 hj]
      exact ⟨u, v, rfl, hu, hv⟩
    · rintro ⟨u, v, rfl, hu, hv⟩
      exact ⟨k, u, v, rfl, rfl, hu, hv⟩
  | cons j σ =>
    constructor
    · rintro ⟨u, v, hw, hu, hv⟩
      cases u with
      | nil => exact absurd (List.cons.inj hw).1 (Kind.opener_ne_closer k j)
      | cons c u =>
        -- the new bracket and its end stand in the word before the end of the outer one
        obtain ⟨hc, rfl⟩ := List.cons.inj hw
        obtain ⟨i, a, b, hi, rfl, ha, hb⟩ := dyck_cons_iff.1 hu
        rw [Kind.opener_inj.1 (hc.trans hi)]
        exact ⟨a, b ++ j.closer :: v, by simp, ha, b, v, rfl, hb, hv⟩
    · rintro ⟨a, x, rfl, ha, b, v, rfl, hb, hv⟩
      exact ⟨k.opener :: (a ++ k.closer :: b), v, by simp, .nest k ha hb, hv⟩

theorem closes_closer {j : Kind} : Closes (j :: σ) (k.closer :: w) ↔ j = k ∧ Closes σ w := by
  constructor
  · rintro ⟨u, v, hw, hu, hv⟩
    cases u with
    | nil =>
      obtain ⟨hk, rfl⟩ := List.cons.inj hw
      exact ⟨(Kind.closer_inj.1 hk).symm, hv⟩
    | cons c u =>
      obtain ⟨i, -, -, hi, -⟩ := dyck_cons_iff.1 hu
      exact absurd (hi.symm.trans (List.cons.inj hw).1.symm) (Kind.opener_ne_closer i k)
  · rintro ⟨rfl, hw⟩
    exact ⟨[], w, rfl, .nil, hw⟩

theorem not_closes_closer : ¬ Closes [] (k.closer :: w) := by
  intro h
  obtain ⟨j, -, -, hj, -⟩ := dyck_cons_iff.1 h
  exact Kind.opener_ne_closer j k hj.symm

end Closes

end Bracket

/-! ## Faults of brackets -/

open Scad.Bracket

/-- A bracket opens or closes. -/
theorem Token.kind_of_bracket? {t : Token} {c : Char} (h : t.bracket? = some c) :
    ∃ k : Bracket.Kind,
      c = k.opener ∧ t.isOpener = true ∨ c = k.closer ∧ t.isOpener = false := by
  have hc : c ∈ ['(', ')', '[', ']', '{', '}'] := by
    unfold bracket? at h
    split at h
    · split at h
      · rename_i hc
        rw [← Option.some.inj h]
        exact List.contains_iff_mem.1 hc
      · cases h
    · cases h
  rw [isOpener, h]
  simp only [List.mem_cons, List.not_mem_nil, or_false] at hc
  rcases hc with rfl | rfl | rfl | rfl | rfl | rfl
  · exact ⟨.round, .inl (by decide)⟩
  · exact ⟨.round, .inr (by decide)⟩
  · exact ⟨.square, .inl (by decide)⟩
  · exact ⟨.square, .inr (by decide)⟩
  · exact ⟨.curly, .inl (by decide)⟩
  · exact ⟨.curly, .inr (by decide)⟩

namespace Bracket

/-- Brackets have no faults if and only if they close what is open. -/
theorem faultsFrom_eq_nil_iff_closes {stack : List (Char × Nat)} {σ : List Kind}
    (hstack : stack.map Prod.fst = σ.map Kind.opener) (ts : List Token) :
    faultsFrom stack ts = [] ↔ Closes σ (ts.filterMap Token.bracket?) := by
  induction ts generalizing stack σ with
  | nil =>
    rw [faultsFrom, List.map_eq_nil_iff, List.reverse_eq_nil_iff, List.filterMap_nil, closes_nil]
    rw [← List.map_eq_nil_iff (f := Prod.fst), hstack, List.map_eq_nil_iff]
  | cons t ts ih =>
    rw [faultsFrom]
    cases hb : t.bracket? with
    | none => rw [List.filterMap_cons_none hb]; exact ih hstack
    | some c =>
      rw [List.filterMap_cons_some hb]
      obtain ⟨k, ⟨rfl, ho⟩ | ⟨rfl, ho⟩⟩ := Token.kind_of_bracket? hb
      · have hpush : ((k.opener, t.start) :: stack).map Prod.fst = (k :: σ).map Kind.opener := by
          simp [hstack]
        simp only [ho, if_true]
        rw [ih hpush, closes_opener]
      · simp only [ho, Bool.false_eq_true, if_false]
        cases σ with
        | nil =>
          rw [List.map_nil, List.map_eq_nil_iff] at hstack
          rw [hstack]
          exact iff_of_false (List.cons_ne_nil _ _) not_closes_closer
        | cons j σ =>
          obtain ⟨⟨o, n⟩, stack, rfl⟩ := List.exists_cons_of_ne_nil (l := stack) (by
            rintro rfl
            simp at hstack)
          obtain ⟨rfl, htail⟩ := List.cons.inj hstack
          rw [closes_closer]
          by_cases hj : j = k
          · simp [closerOf_opener, hj, ih htail]
          · simp [closerOf_opener, hj]

/-- Every fault stands at a bracket of its own: one that was open, or one of the tokens. -/
theorem subperm_faultsFrom (stack : List (Char × Nat)) (ts : List Token) :
    ((faultsFrom stack ts).map Fault.offset).Subperm
      (stack.map Prod.snd ++ (ts.filter fun t => t.bracket?.isSome).map Token.start) := by
  induction ts generalizing stack with
  | nil =>
    rw [faultsFrom, List.map_map, List.map_reverse, List.filter_nil, List.map_nil, List.append_nil]
    exact (List.reverse_perm _).subperm
  | cons t ts ih =>
    rw [faultsFrom]
    cases hb : t.bracket? with
    | none => simpa [hb] using ih stack
    | some c =>
      simp only [hb, Option.isSome_some, List.filter_cons_of_pos, List.map_cons]
      -- the bracket itself may be reported later, or now
      have hmove := fun starts : List Nat => List.Perm.subperm (List.Perm.symm
        (@List.perm_middle Nat t.start starts
          ((ts.filter fun t => t.bracket?.isSome).map Token.start)))
      cases ho : t.isOpener with
      | true => exact (ih _).trans (hmove (stack.map Prod.snd))
      | false =>
        cases stack with
        | nil => exact (List.subperm_cons t.start).2 (ih [])
        | cons b rest =>
          obtain ⟨o, n⟩ := b
          by_cases hm : closerOf o = c
          · simp only [hm, Bool.false_eq_true, if_false, if_true]
            exact (((ih rest).cons_right t.start).trans (hmove _)).cons_right n
          · simp only [hm, Bool.false_eq_true, if_false]
            exact (((List.subperm_cons t.start).2 (ih rest)).trans (hmove _)).cons_right n

end Bracket

/-! ## Faults of items -/

namespace Item

variable {eof : Nat} {ls : List Leaf}

theorem here_le (h : Ordered eof ls) : here eof ls ≤ eof := by
  rw [← List.append_nil ls] at h
  have hle := (ordered_append h).1
  rwa [List.append_nil] at hle

/-- No fault of an item stands past the end of the source. -/
theorem faults_le (h : Ordered eof ls) :
    ∀ f ∈ (ofLeaves eof ls).flatMap faults, f.offset ≤ eof := by
  fun_induction ofLeaves eof ls with
  | case1 =>
    intro f hf
    cases hf
  | case2 l ls ih =>
    have hw := next_within h
    rw [← next_append eof l ls] at h
    have hrest := (ordered_append h).2
    intro f hf
    rw [List.flatMap_cons] at hf
    rcases List.mem_append.1 hf with hf | hf
    · exact (hw.upper f hf).trans (here_le hrest)
    · exact ih hrest f hf

end Item

/-! ## Every source -/

namespace Outline

/-- The faults of brackets are exact. There are none if and only if the brackets of the source form
a well-nested word; each stands at a bracket, and no two at the same one. All faults of the outline
stand in the source or at its end, in the order of their offsets. -/
theorem faults_exact {text : List Char} {ts : List Token} (h : tokenize text = .ok ts) :
    (Bracket.faults ts = [] ↔ Dyck (ts.filterMap Token.bracket?)) ∧
      (∀ f ∈ Bracket.faults ts, ∃ t ∈ ts, t.bracket? ≠ none ∧ f.offset = t.start) ∧
      ((Bracket.faults ts).map Fault.offset).Nodup ∧
      (∀ f ∈ (ofTokens text.length ts).faults, f.offset ≤ text.length) ∧
      (ofTokens text.length ts).faults.Pairwise fun f g => f.offset ≤ g.offset := by
  obtain ⟨tail, rfl, hw⟩ := Layout.written_of_tokenize h
  have hreported := subperm_faultsFrom [] ts
  rw [List.map_nil, List.nil_append] at hreported
  have hat : ∀ f ∈ Bracket.faults ts, ∃ t ∈ ts, t.bracket? ≠ none ∧ f.offset = t.start := by
    intro f hf
    obtain ⟨t, ht, hstart⟩ := List.mem_map.1 (hreported.subset (List.mem_map_of_mem hf))
    obtain ⟨hmem, hb⟩ := List.mem_filter.1 ht
    exact ⟨t, hmem, Option.isSome_iff_ne_none.1 hb, hstart.symm⟩
  have hlength : 0 + (Token.spell ts).length ≤ (Token.spell ts ++ tail).length := by simp
  have hordered := (Leaf.ordered_ofTokensFrom hw hlength []).2
  have hnone : ([] : List (Char × Nat)).map Prod.fst = ([] : List Kind).map Kind.opener := rfl
  have hdyck : Bracket.faults ts = [] ↔ Dyck (ts.filterMap Token.bracket?) :=
    faultsFrom_eq_nil_iff_closes hnone ts
  refine ⟨hdyck, hat, ?_, fun f hf => ?_, ?_⟩
  · obtain ⟨starts, hperm, hsub⟩ := hreported
    have hstarts := Token.nodup_start_of_written hw
    exact hperm.nodup_iff.1 (hstarts.sublist (hsub.trans (List.filter_sublist.map _)))
  · rcases List.mem_append.1 (List.mem_mergeSort.1 hf) with hf | hf
    · obtain ⟨t, ht, -, hstart⟩ := hat f hf
      have h1 := Token.stop_of_written hw ht
      have h2 := (Token.sound_of_written hw ht).start_lt_stop
      rw [hstart, List.length_append]
      omega
    · exact Item.faults_le hordered f hf
  · have hsorted := @List.pairwise_mergeSort Fault (fun a b => decide (a.offset ≤ b.offset))
      (fun a b c hab hbc => by
        simp only [decide_eq_true_eq] at hab hbc ⊢
        omega)
      (fun a b => by simpa using Nat.le_total a.offset b.offset)
      (Bracket.faults ts ++ (Item.ofLeaves (Token.spell ts ++ tail).length
        (Leaf.ofTokens ts)).flatMap Item.faults)
    exact hsorted.imp fun hle => of_decide_eq_true hle

/-- The tokens of `[(/*{*/])"(";}x=`. -/
def crossedTokens : List Token :=
  [⟨.punct, 0, [], ['[']⟩, ⟨.punct, 1, [], ['(']⟩, ⟨.blockComment, 2, [], "/*\x7b*/".toList⟩,
    ⟨.punct, 7, [], [']']⟩, ⟨.punct, 8, [], [')']⟩, ⟨.str, 9, [], "\"(\"".toList⟩,
    ⟨.punct, 12, [], [';']⟩, ⟨.punct, 13, [], ['\x7d']⟩, ⟨.ident, 14, [], ['x']⟩,
    ⟨.punct, 15, [], ['=']⟩]

/-- Two brackets that cross, one too many, and a variable without an end. -/
theorem faults_exact_crossed :
    tokenize (Token.spell crossedTokens) = .ok crossedTokens ∧
      ¬ Dyck (crossedTokens.filterMap Token.bracket?) ∧
      ((Bracket.faults crossedTokens).map Fault.offset = [7, 8, 13]) ∧
      (∀ f ∈ (ofTokens (Token.spell crossedTokens).length crossedTokens).faults,
        f.offset ≤ (Token.spell crossedTokens).length) ∧
      (ofTokens (Token.spell crossedTokens).length crossedTokens).faults.Pairwise fun f g =>
        f.offset ≤ g.offset := by
  have ht : tokenize (Token.spell crossedTokens) = .ok crossedTokens := by decide +kernel
  obtain ⟨hdyck, -, -, hle, hsorted⟩ := faults_exact ht
  exact ⟨ht, fun h => absurd (hdyck.2 h) (by decide), by decide, hle, hsorted⟩

end Outline
end Scad
