import Scad.Proofs.Outline.Order

/-!
# Scad.Proofs.Outline.Alike

The outline of a source does not depend on its layout.

* `Outline.Alike o p`: the outlines differ in offsets only.
* `Outline.Layouts`: what two layouts of a source have in common, and `Outline.Layouts.alike`: their
  outlines are alike.
-/

namespace Scad

open Layout

/-! ## Brackets -/

theorem Bracket.faultsFrom_alike {S : Nat → Nat → Prop} {ts us : List Token}
    (h : List.Forall₂ (fun t u => u.bracket? = t.bracket? ∧ S t.start u.start) ts us)
    {stack stack' : List (Char × Nat)}
    (hs : List.Forall₂ (fun a b => b.1 = a.1 ∧ S a.2 b.2) stack stack') :
    List.Forall₂ (Fault.Alike S) (faultsFrom stack ts) (faultsFrom stack' us) := by
  induction h generalizing stack stack' with
  | nil =>
    simp only [faultsFrom]
    refine List.rel_map (fun a b hab => ⟨?_, hab.2⟩) (List.rel_reverse hs)
    simp only [hab.1]
  | @cons t u ts us htu _ ih =>
    obtain ⟨hb, hstart⟩ := htu
    have ho : u.isOpener = t.isOpener := by simp only [Token.isOpener, hb]
    simp only [faultsFrom, hb, ho]
    split
    · exact ih hs
    · split
      · exact ih (.cons ⟨rfl, hstart⟩ hs)
      · cases hs with
        | nil => exact .cons ⟨rfl, hstart⟩ (ih .nil)
        | cons hab hs =>
          simp only [hab.1]
          split
          · exact ih hs
          · exact .cons ⟨rfl, hstart⟩ (ih hs)

/-! ## Leaves in order -/

theorem Leaf.ordered_ofTokensFrom {offset eof : Nat} {tail : List Char} {ts : List Token}
    (h : Written offset tail ts) (he : offset + (Token.spell ts).length ≤ eof) (cs : List Token) :
    offset ≤ Item.here eof (ofTokensFrom cs ts) ∧ Item.Ordered eof (ofTokensFrom cs ts) := by
  induction ts generalizing offset cs with
  | nil =>
    simp only [Token.spell_nil, List.length_nil, Nat.add_zero] at he
    exact ⟨he, trivial⟩
  | cons t ts ih =>
    obtain ⟨-, hstart, -, hws⟩ := h
    have hstop : t.stop = t.start + t.text.length := rfl
    simp only [Token.spell_cons, List.length_append] at he
    simp only [ofTokensFrom]
    split
    · obtain ⟨h1, h2⟩ := ih hws (by omega) (t :: cs)
      exact ⟨by omega, h2⟩
    · obtain ⟨h1, h2⟩ := ih hws (by omega) []
      refine ⟨?_, h1, h2⟩
      show offset ≤ t.start
      omega

/-! ## Outlines -/

namespace Outline

/-- The outlines differ in offsets only. -/
structure Alike (o p : Outline) : Prop where
  declarations : Declaration.bare p.declarations = Declaration.bare o.declarations
  references : p.references.map Reference.path = o.references.map Reference.path
  faults : p.faults.map Fault.cause = o.faults.map Fault.cause

/-- Alike faults are sorted alike, if their offsets compare alike. -/
theorem sort_alike {S : Nat → Nat → Prop} {fs gs : List Fault}
    (h : List.Forall₂ (Fault.Alike S) fs gs)
    (hle : (fs.zip gs).Pairwise fun p q =>
      (p.1.offset ≤ q.1.offset ↔ p.2.offset ≤ q.2.offset)) :
    ((gs.mergeSort fun a b => decide (a.offset ≤ b.offset)).map Fault.cause) =
      (fs.mergeSort fun a b => decide (a.offset ≤ b.offset)).map Fault.cause := by
  have hlen := h.length_eq
  have hfst : (fs.zip gs).map Prod.fst = fs := List.map_fst_zip (by omega)
  have hsnd : (fs.zip gs).map Prod.snd = gs := List.map_snd_zip (by omega)
  have hcause : ∀ p ∈ fs.zip gs, p.2.cause = p.1.cause := fun p hp =>
    (List.forall₂_iff_zip.1 h).2 hp |>.cause
  have hsort : ((fs.zip gs).mergeSort fun p q => decide (p.2.offset ≤ q.2.offset)) =
      (fs.zip gs).mergeSort fun p q => decide (p.1.offset ≤ q.1.offset) :=
    mergeSort_congr (hle.imp fun hpq => by simp only [hpq])
  have hl : ((fs.zip gs).mergeSort fun p q => decide (p.1.offset ≤ q.1.offset)).map Prod.fst =
      fs.mergeSort fun a b => decide (a.offset ≤ b.offset) := by
    rw [List.map_mergeSort (s := fun a b => decide (a.offset ≤ b.offset)) (by simp), hfst]
  have hr : ((fs.zip gs).mergeSort fun p q => decide (p.2.offset ≤ q.2.offset)).map Prod.snd =
      gs.mergeSort fun a b => decide (a.offset ≤ b.offset) := by
    rw [List.map_mergeSort (s := fun a b => decide (a.offset ≤ b.offset)) (by simp), hsnd]
  rw [← hl, ← hr, hsort, List.map_map, List.map_map]
  refine List.map_congr_left fun p hp => ?_
  exact hcause p (List.mem_mergeSort.1 hp)

/-- Offsets of two layouts where the same token starts. -/
def Starts (ts us : List Token) (x y : Nat) : Prop :=
  ∃ p ∈ ts.zip us, x = p.1.start ∧ y = p.2.start

theorem starts_le_level {ts us : List Token} {x x' y y' : Nat} (h : Starts ts us x x')
    (hl : Token.Level ts us y y') : x ≤ y ↔ x' ≤ y' := by
  obtain ⟨p, hp, rfl, rfl⟩ := h
  exact hl p hp

theorem bracketFaults_alike {ts us : List Token} (h : Token.Aligned ts us) :
    List.Forall₂ (Fault.Alike (Starts ts us)) (Bracket.faults ts) (Bracket.faults us) := by
  obtain ⟨hlen, halike⟩ := List.forall₂_iff_zip.1 h.alike
  refine Bracket.faultsFrom_alike (List.forall₂_iff_zip.2 ⟨hlen, fun {t u} hp => ?_⟩) .nil
  have htu := halike hp
  exact ⟨htu.respaced.bracket? htu.sound, (t, u), hp, rfl, rfl⟩

/-- Two layouts of a source, with the ends of the sources. -/
structure Layouts (ts us : List Token) (eof eof' : Nat) : Prop where
  aligned : Token.Aligned ts us
  level : List.Forall₂ (fun t u => Token.Level ts us t.start u.start ∧
    Token.Level ts us t.stop u.stop) ts us
  level_eof : Token.Level ts us eof eof'
  ordered : Item.Ordered eof (Leaf.ofTokens ts)
  ordered' : Item.Ordered eof' (Leaf.ofTokens us)

theorem layouts_of_written {ts us : List Token} (h : Token.Aligned ts us) {tail tail' : List Char}
    (hw : Written 0 tail ts) (hw' : Written 0 tail' us) :
    Layouts ts us (Token.spell ts ++ tail).length (Token.spell us ++ tail').length := by
  have hbefore := Token.before_of_aligned h hw hw'
  have hsound : ∀ p ∈ ts.zip us, p.1.Sound ∧ p.2.Sound := by
    intro p hp
    have hm := List.of_mem_zip hp
    exact ⟨Token.sound_of_written hw hm.1, Token.sound_of_written hw' hm.2⟩
  refine ⟨h, List.forall₂_iff_zip.2 ⟨h.alike.length_eq, fun hp => ?_⟩, fun p hp => ?_, ?_, ?_⟩
  · exact ⟨Token.level_start hbefore hsound hp, Token.level_stop hbefore hsound hp⟩
  · have hm := List.of_mem_zip hp
    have h1 := Token.stop_of_written hw hm.1
    have h2 := Token.stop_of_written hw' hm.2
    have h3 := (hsound p hp).1.start_lt_stop
    have h4 := (hsound p hp).2.start_lt_stop
    simp only [List.length_append]
    omega
  · exact (Leaf.ordered_ofTokensFrom hw (by simp) []).2
  · exact (Leaf.ordered_ofTokensFrom hw' (by simp) []).2

theorem Layouts.level_of_starts {ts us : List Token} {eof eof' : Nat}
    (h : Layouts ts us eof eof') {x y : Nat} (hx : Starts ts us x y) : Token.Level ts us x y := by
  obtain ⟨p, hp, rfl, rfl⟩ := hx
  exact ((List.forall₂_iff_zip.1 h.level).2 hp).1

/-- Faults of brackets compare alike with all faults, and faults of items are in order. -/
theorem faults_pairwise {ts us : List Token} {eof eof' : Nat} (h : Layouts ts us eof eof')
    {bs bs' fs fs' : List Fault} (hb : List.Forall₂ (Fault.Alike (Starts ts us)) bs bs')
    (hf : List.Forall₂ (Fault.Alike (Token.Level ts us)) fs fs')
    (hs : fs.Pairwise fun f g => f.offset ≤ g.offset)
    (hs' : fs'.Pairwise fun f g => f.offset ≤ g.offset) :
    ((bs ++ fs).zip (bs' ++ fs')).Pairwise fun p q =>
      (p.1.offset ≤ q.1.offset ↔ p.2.offset ≤ q.2.offset) := by
  obtain ⟨hblen, hbz⟩ := List.forall₂_iff_zip.1 hb
  obtain ⟨hflen, hfz⟩ := List.forall₂_iff_zip.1 hf
  rw [List.zip_append hblen, List.pairwise_append]
  refine ⟨?_, ?_, fun p hp q hq => starts_le_level (hbz hp).offset (hfz hq).offset⟩
  · exact List.pairwise_of_forall_mem_list fun p hp q hq =>
      starts_le_level (hbz hp).offset (h.level_of_starts (hbz hq).offset)
  · rw [List.pairwise_iff_getElem] at hs hs' ⊢
    intro i j hi hj hij
    rw [List.length_zip] at hi hj
    simp only [List.getElem_zip]
    exact iff_of_true (hs i j (by omega) (by omega) hij) (hs' i j (by omega) (by omega) hij)

/-- Outlines of two layouts of a source differ in offsets only. -/
theorem Layouts.alike {ts us : List Token} {eof eof' : Nat} (h : Layouts ts us eof eof') :
    Alike (ofTokens eof ts) (ofTokens eof' us) := by
  have hitems := Item.alike_ofLeaves h.level_eof (Leaf.alike_ofTokens h.aligned h.level)
  have hb := bracketFaults_alike h.aligned
  have hf := faults_alike hitems
  have hb' : List.Forall₂ (Fault.Alike (Token.Level ts us)) (Bracket.faults ts)
      (Bracket.faults us) := hb.imp fun _ _ hfg => ⟨hfg.cause, h.level_of_starts hfg.offset⟩
  have hpairs := faults_pairwise h hb hf (Item.sorted_faults h.ordered).2
    (Item.sorted_faults h.ordered').2
  exact ⟨nest_alike hitems, references_alike hitems, sort_alike (List.rel_append hb' hf) hpairs⟩

theorem Alike.messages {o p : Outline} (h : Alike o p) :
    p.faults.map Fault.message = o.faults.map Fault.message := by
  have hmap : ∀ fs : List Fault, fs.map Fault.message =
      (fs.map Fault.cause).map Fault.Cause.message := by
    intro fs
    rw [List.map_map]
    rfl
  rw [hmap, hmap, h.faults]

end Outline
end Scad
