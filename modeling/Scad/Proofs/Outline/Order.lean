import Mathlib.Data.List.Pairwise
import Scad.Proofs.Outline.Item

/-!
# Scad.Proofs.Outline.Order

Where faults stand. The faults of a source are sorted by offset, so two layouts of a source show
them in the same order only if their offsets compare alike.

* `Token.Level ts us`: the offsets that compare alike with the starts of aligned tokens. Starts,
  stops and the ends of the sources do.
* `Item.sorted_faults`: faults of items are found in the order of their offsets.
* `mergeSort_congr`: sorting compares an element only with elements after it.
-/

namespace Scad

open Layout

/-! ## Offsets of aligned tokens -/

namespace Token

/-- The pair `q` stands after the pair `p`, in both layouts with or without a gap. -/
structure Before (p q : Token × Token) : Prop where
  left : p.1.stop ≤ q.1.start
  right : p.2.stop ≤ q.2.start
  touch : p.1.stop = q.1.start ↔ p.2.stop = q.2.start

/-- The offsets `x` and `y` stand alike among the tokens of two layouts. -/
def Level (ts us : List Token) (x y : Nat) : Prop :=
  ∀ p ∈ ts.zip us, p.1.start ≤ x ↔ p.2.start ≤ y

/-- Close tokens that follow two offsets touch them alike. -/
theorem touch_of_close {ts us : List Token} (h : List.Forall₂ Close ts us) {a b : Nat}
    {tail tail' : List Char} (hw : Written a tail ts) (hw' : Written b tail' us) :
    ∀ q ∈ ts.zip us, a ≤ q.1.start ∧ b ≤ q.2.start ∧ (a = q.1.start ↔ b = q.2.start) := by
  intro q hq
  have hm := List.of_mem_zip hq
  refine ⟨start_of_written hw hm.1, start_of_written hw' hm.2, ?_⟩
  cases h with
  | nil => cases hq
  | @cons t u ts us htu hs =>
    obtain ⟨ht, hstart, -, hws⟩ := hw
    obtain ⟨hu, hstart', -, hws'⟩ := hw'
    rcases List.mem_cons.1 hq with rfl | hq
    · have h1 : a = t.start ↔ t.gap = [] := by
        rw [← List.length_eq_zero_iff]
        omega
      have h2 : b = u.start ↔ u.gap = [] := by
        rw [← List.length_eq_zero_iff]
        omega
      rw [h1, h2, htu.gap_nil]
    · have hm := List.of_mem_zip hq
      have h1 := start_of_written hws hm.1
      have h2 := start_of_written hws' hm.2
      have h3 := ht.start_lt_stop
      have h4 := hu.start_lt_stop
      omega

theorem before_of_close {ts us : List Token} (h : List.Forall₂ Close ts us) {a b : Nat}
    {tail tail' : List Char} (hw : Written a tail ts) (hw' : Written b tail' us) :
    (ts.zip us).Pairwise Before := by
  induction h generalizing a b with
  | nil => exact .nil
  | @cons t u ts us htu hs ih =>
    obtain ⟨-, -, -, hws⟩ := hw
    obtain ⟨-, -, -, hws'⟩ := hw'
    refine .cons (fun q hq => ?_) (ih hws hws')
    obtain ⟨h1, h2, h3⟩ := touch_of_close hs hws hws' q hq
    exact ⟨h1, h2, h3⟩

theorem before_of_aligned {ts us : List Token} (h : Aligned ts us) {tail tail' : List Char}
    (hw : Written 0 tail ts) (hw' : Written 0 tail' us) : (ts.zip us).Pairwise Before := by
  cases h with
  | nil => exact .nil
  | cons _ hs =>
    obtain ⟨-, -, -, hws⟩ := hw
    obtain ⟨-, -, -, hws'⟩ := hw'
    refine .cons (fun q hq => ?_) (before_of_close hs hws hws')
    obtain ⟨h1, h2, h3⟩ := touch_of_close hs hws hws' q hq
    exact ⟨h1, h2, h3⟩

section Level

variable {ts us : List Token}

theorem level_start (h : (ts.zip us).Pairwise Before) (hs : ∀ p ∈ ts.zip us, p.1.Sound ∧ p.2.Sound)
    {q : Token × Token} (hq : q ∈ ts.zip us) : Level ts us q.1.start q.2.start := by
  intro p hp
  have h1 := (hs p hp).1.start_lt_stop
  have h2 := (hs p hp).2.start_lt_stop
  have h3 := (hs q hq).1.start_lt_stop
  have h4 := (hs q hq).2.start_lt_stop
  rcases eq_or_of_pairwise h hp hq with rfl | hb | hb
  · simp
  · have hl := hb.left
    have hr := hb.right
    omega
  · have hl := hb.left
    have hr := hb.right
    omega

theorem level_stop (h : (ts.zip us).Pairwise Before) (hs : ∀ p ∈ ts.zip us, p.1.Sound ∧ p.2.Sound)
    {q : Token × Token} (hq : q ∈ ts.zip us) : Level ts us q.1.stop q.2.stop := by
  intro p hp
  have h1 := (hs p hp).1.start_lt_stop
  have h2 := (hs p hp).2.start_lt_stop
  have h3 := (hs q hq).1.start_lt_stop
  have h4 := (hs q hq).2.start_lt_stop
  rcases eq_or_of_pairwise h hp hq with rfl | hb | hb
  · omega
  · have hl := hb.left
    have hr := hb.right
    omega
  · have hl := hb.left
    have hr := hb.right
    have ht := hb.touch
    omega

end Level

end Token

/-! ## Faults of items -/

namespace Item

/-- The leaves stand one after another before `eof`. -/
def Ordered (eof : Nat) : List Leaf → Prop
  | [] => True
  | l :: ls => l.token.stop ≤ here eof ls ∧ Ordered eof ls

/-- The faults are in the order of their offsets, all between `lo` and `hi`. -/
structure Within (lo hi : Nat) (fs : List Fault) : Prop where
  lower : ∀ f ∈ fs, lo ≤ f.offset
  upper : ∀ f ∈ fs, f.offset ≤ hi
  sorted : fs.Pairwise fun f g => f.offset ≤ g.offset

theorem Within.nil (lo hi : Nat) : Within lo hi [] := ⟨by simp, by simp, .nil⟩

theorem Within.single {lo hi offset : Nat} {cause : Fault.Cause} (h1 : lo ≤ offset)
    (h2 : offset ≤ hi) : Within lo hi [⟨offset, cause⟩] :=
  ⟨by simpa using h1, by simpa using h2, List.pairwise_singleton _ _⟩

theorem Within.append {lo mid hi : Nat} {fs gs : List Fault} (hf : Within lo mid fs)
    (hg : Within mid hi gs) (h1 : lo ≤ mid) (h2 : mid ≤ hi) : Within lo hi (fs ++ gs) := by
  refine ⟨fun f h => ?_, fun f h => ?_, List.pairwise_append.2 ⟨hf.sorted, hg.sorted, ?_⟩⟩
  · rcases List.mem_append.1 h with h | h
    · exact hf.lower f h
    · exact h1.trans (hg.lower f h)
  · rcases List.mem_append.1 h with h | h
    · exact (hf.upper f h).trans h2
    · exact hg.upper f h
  · intro f hf' g hg'
    exact (hf.upper f hf').trans (hg.lower g hg')

theorem Within.mono {lo lo' hi hi' : Nat} {fs : List Fault} (h : Within lo hi fs) (h1 : lo' ≤ lo)
    (h2 : hi ≤ hi') : Within lo' hi' fs :=
  ⟨fun f hf => h1.trans (h.lower f hf), fun f hf => (h.upper f hf).trans h2, h.sorted⟩

variable {eof : Nat} {l : Leaf} {ls : List Leaf}

theorem start_le_here (h : Ordered eof (l :: ls)) : l.token.start ≤ here eof ls := by
  have h1 := h.1
  have h2 : l.token.stop = l.token.start + l.token.text.length := rfl
  omega

theorem ordered_append {taken rest : List Leaf} (h : Ordered eof (taken ++ rest)) :
    here eof (taken ++ rest) ≤ here eof rest ∧ Ordered eof rest := by
  induction taken with
  | nil => exact ⟨Nat.le_refl _, h⟩
  | cons l ls ih =>
    obtain ⟨h1, h2⟩ := ih h.2
    exact ⟨(start_le_here h).trans h1, h2⟩

/-- The end of the last of some leaves, or of what is before them. -/
theorem lastStop_bounds {taken rest : List Leaf} {stop : Nat} (h : Ordered eof (taken ++ rest))
    (hs : stop ≤ here eof (taken ++ rest)) :
    stop ≤ (taken.getLast?.map fun l => l.token.stop).getD stop ∧
      (taken.getLast?.map fun l => l.token.stop).getD stop ≤ here eof rest := by
  induction taken generalizing stop with
  | nil => exact ⟨Nat.le_refl _, hs⟩
  | cons l ls ih =>
    obtain ⟨h1, h2⟩ := ih h.2 h.1
    have hl : here eof (l :: ls ++ rest) = l.token.start := rfl
    have hle : l.token.stop = l.token.start + l.token.text.length := rfl
    have hlast : ((l :: ls).getLast?.map fun l => l.token.stop).getD stop =
        (ls.getLast?.map fun l => l.token.stop).getD l.token.stop := by
      simp [List.getLast?_cons, Option.getD_map]
    rw [hlast]
    omega

theorem parameterList_within (h : Ordered eof ls) (kind : Declaration.Kind) :
    Within (here eof ls) (here eof (parameterList eof kind ls).1.rest)
        (parameterList eof kind ls).2 ∧
      here eof ls ≤ here eof (parameterList eof kind ls).1.rest ∧
      Ordered eof (parameterList eof kind ls).1.rest := by
  have happ := parameterList_append eof kind ls
  rw [← happ] at h
  obtain ⟨h1, h2⟩ := ordered_append h
  rw [happ] at h1
  refine ⟨?_, h1, h2⟩
  unfold parameterList
  split
  · exact .nil _ _
  · exact .single (Nat.le_refl _) (Nat.le_refl _)

theorem definition_within {stop : Nat} (h : Ordered eof ls) (hs : stop ≤ here eof ls) :
    Within stop (here eof (definition stop ls).1.rest) (definition stop ls).2 := by
  have happ := expression_append 0 ls
  rw [← happ] at h hs
  obtain ⟨h1, h2⟩ := lastStop_bounds h hs
  simp only [definition]
  split
  · exact .nil _ _
  · exact .single h1 h2

theorem moduleItem_within {keyword name : Leaf} (h : Ordered eof (keyword :: name :: ls)) :
    Within keyword.token.start (here eof (moduleItem eof keyword name ls).2)
      (moduleItem eof keyword name ls).1.faults := by
  obtain ⟨hp, h1, h2⟩ := parameterList_within h.2.2 .module
  have hstart := (start_le_here h).trans (start_le_here h.2)
  have happ := statement_append (parameterList eof .module ls).1.rest
  rw [← happ] at h2
  have hle := (ordered_append h2).1
  rw [happ] at hle
  exact hp.mono hstart hle

theorem functionItem_within {keyword name : Leaf} (h : Ordered eof (keyword :: name :: ls)) :
    Within keyword.token.start (here eof (functionItem eof keyword name ls).2)
      (functionItem eof keyword name ls).1.faults := by
  obtain ⟨hp, h1, h2⟩ := parameterList_within h.2.2 .function
  have hstart := (start_le_here h).trans (start_le_here h.2)
  unfold functionItem
  dsimp only
  split
  · rename_i l rest hr
    rw [hr] at hp h1 h2
    split
    · have hd := definition_within h2.2 h2.1
      have hl : here eof (l :: rest) ≤ l.token.stop := Nat.le_add_right _ _
      have happ := expression_append 0 rest
      have hle : l.token.stop ≤ here eof (definition l.token.stop rest).1.rest := by
        have h3 := h2.2
        rw [← happ] at h3
        have := (ordered_append h3).1
        rw [happ] at this
        exact h2.1.trans this
      exact hp.append (hd.mono hl (Nat.le_refl _)) h1 (hl.trans hle) |>.mono hstart (Nat.le_refl _)
    · exact hp.append (.single (Nat.le_refl _) (Nat.le_refl _)) h1 (Nat.le_refl _) |>.mono hstart
        (Nat.le_refl _)
  · rename_i hr
    rw [hr] at hp h1
    exact hp.append (.single (Nat.le_refl _) (Nat.le_refl _)) h1 (Nat.le_refl _) |>.mono hstart
      (Nat.le_refl _)

theorem keywordDeclaration_within (h : Ordered eof (l :: ls)) (kind : Declaration.Kind) :
    Within l.token.start (here eof (keywordDeclaration eof kind l ls).2)
      (keywordDeclaration eof kind l ls).1.faults := by
  cases ls with
  | nil => exact .single (start_le_here h) (Nat.le_refl _)
  | cons name rest =>
    simp only [keywordDeclaration]
    split
    · split
      · exact functionItem_within h
      · exact moduleItem_within h
    · exact .single (start_le_here h) (Nat.le_refl _)

/-- The faults of an item are found in order, between its beginning and the next item. -/
theorem next_within (h : Ordered eof (l :: ls)) :
    Within l.token.start (here eof (next eof l ls).2) (next eof l ls).1.faults := by
  unfold next
  split
  · exact .nil _ _
  split
  · exact keywordDeclaration_within h _
  split
  · exact keywordDeclaration_within h _
  split
  · rename_i m rest
    split
    · rw [show (reference l m rest).1.faults = [] by fun_cases reference l m rest <;> rfl]
      exact .nil _ _
    split
    · have hl : l.token.start ≤ m.token.stop :=
        (start_le_here h).trans (Nat.le_add_right _ _)
      exact (definition_within h.2.2 h.2.1).mono hl (Nat.le_refl _)
    · exact .nil _ _
  · exact .nil _ _

/-- The faults of items are found in the order of their offsets. -/
theorem sorted_faults (h : Ordered eof ls) :
    (∀ f ∈ (ofLeaves eof ls).flatMap faults, here eof ls ≤ f.offset) ∧
      ((ofLeaves eof ls).flatMap faults).Pairwise fun f g => f.offset ≤ g.offset := by
  fun_induction ofLeaves eof ls with
  | case1 => simp
  | case2 l ls ih =>
    have happ := next_append eof l ls
    have hw := next_within h
    rw [← happ] at h
    obtain ⟨hle, hrest⟩ := ordered_append h
    rw [happ] at hle
    obtain ⟨h1, h2⟩ := ih hrest
    rw [List.flatMap_cons]
    refine ⟨fun f hf => ?_, List.pairwise_append.2 ⟨hw.sorted, h2, fun f hf g hg => ?_⟩⟩
    · rcases List.mem_append.1 hf with hf | hf
      · exact hw.lower f hf
      · exact hle.trans (h1 f hf)
    · exact (hw.upper f hf).trans (h1 g hg)

end Item

/-! ## Sorting -/

section Sorting

variable {α : Type} {le le' : α → α → Bool}

theorem merge_congr {xs ys : List α} (h : ∀ x ∈ xs, ∀ y ∈ ys, le x y = le' x y) :
    List.merge xs ys le = List.merge xs ys le' := by
  fun_induction List.merge xs ys le with
  | case1 ys => simp
  | case2 xs => simp
  | case3 x xs y ys hle ih =>
    have hxy := h x (by simp) y (by simp)
    rw [List.cons_merge_cons, if_pos (hxy ▸ hle), ih fun a ha b hb => h a (by simp [ha]) b hb]
  | case4 x xs y ys hle ih =>
    have hxy := h x (by simp) y (by simp)
    rw [List.cons_merge_cons, if_neg (hxy ▸ hle), ih fun a ha b hb => h a ha b (by simp [hb])]

/-- Sorting compares an element only with elements after it. -/
theorem mergeSort_congr {l : List α} (h : l.Pairwise fun a b => le a b = le' a b) :
    l.mergeSort le = l.mergeSort le' := by
  induction hn : l.length using Nat.strong_induction_on generalizing l with
  | _ n ih =>
    match l with
    | [] => simp
    | [a] => simp
    | a :: b :: xs =>
      have hsplit := List.MergeSort.Internal.splitInTwo_fst_append_splitInTwo_snd
        (⟨a :: b :: xs, rfl⟩ : { l : List α // l.length = (a :: b :: xs).length })
      rw [List.mergeSort, List.mergeSort]
      generalize List.MergeSort.Internal.splitInTwo _ = lr at hsplit ⊢
      obtain ⟨⟨xs₁, h₁⟩, ⟨xs₂, h₂⟩⟩ := lr
      simp only at hsplit ⊢
      simp only [List.length_cons] at hn h₁ h₂
      rw [← hsplit, List.pairwise_append] at h
      obtain ⟨hl, hr, hlr⟩ := h
      rw [ih xs₁.length (by omega) hl rfl, ih xs₂.length (by omega) hr rfl]
      exact merge_congr fun x hx y hy => hlr x (List.mem_mergeSort.1 hx) y (List.mem_mergeSort.1 hy)

end Sorting

end Scad
