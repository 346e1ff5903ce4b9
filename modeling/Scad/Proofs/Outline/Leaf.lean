import Mathlib.Data.List.Forall2
import Scad.Outline.Leaf
import Scad.Proofs.Doc
import Scad.Proofs.Layout.Relaid

/-!
# Scad.Proofs.Outline.Leaf

Two token lists that differ in layout only have the same leaves up to offsets.

* `Token.Alike`, `Token.Close`: a token and the same token in another layout; close tokens also
  agree in what the gap before them separates.
* `Leaf.Alike S`: leaves that read the same and are documented the same, at offsets related by `S`.
* `Leaf.alike_ofTokens`: aligned tokens have alike leaves.
-/

namespace Scad

open Text Layout

namespace Token

/-- The token `u` is `t` in another layout. -/
structure Alike (t u : Token) : Prop where
  respaced : Respaced t u
  sound : t.Sound
  startsLine : u.startsLine = t.startsLine

/-- The token `u` is `t` in another layout, and the gaps before them separate the same. -/
structure Close (t u : Token) : Prop extends Alike t u where
  gap_nil : u.gap = [] ↔ t.gap = []
  apart : 1 < u.newlinesBefore ↔ 1 < t.newlinesBefore

/-- The token lists differ in layout only. The gap before the first token means nothing. -/
inductive Aligned : List Token → List Token → Prop where
  | nil : Aligned [] []
  | cons {t u : Token} {ts us : List Token} : Alike t u → List.Forall₂ Close ts us →
      Aligned (t :: ts) (u :: us)

theorem Aligned.alike {ts us : List Token} (h : Aligned ts us) : List.Forall₂ Alike ts us := by
  cases h with
  | nil => exact .nil
  | cons ht hts => exact .cons ht (hts.imp fun _ _ h => h.toAlike)

section Alike

variable {t u : Token}

theorem Alike.kind (h : Alike t u) : u.kind = t.kind := h.respaced.kind

theorem Alike.isComment (h : Alike t u) : u.isComment = t.isComment := h.respaced.isComment

theorem Alike.text (h : Alike t u) (hc : t.isComment = false) (hs : t.kind ≠ .str) :
    u.text = t.text :=
  h.respaced.text_eq h.sound hc hs

/-- A string has no fixed text but its quote. -/
theorem Alike.is (h : Alike t u) (hc : t.isComment = false) {s : String}
    (hs : s.toList.head? ≠ some '"') : u.is s = t.is s := by
  by_cases hk : t.kind = .str
  · have hmark : t.text.head? = some '"' := by
      have := h.sound.marked
      rw [hk] at this
      exact this
    have hquote : ∀ x : List Char, x.head? = some '"' → (x == s.toList) = false := by
      intro x hx
      rw [beq_eq_false_iff_ne]
      rintro rfl
      exact hs hx
    have hmark' : u.text.head? = some '"' := by
      rcases h.respaced.text with he | he
      · rw [he, hmark]
      · obtain ⟨r, hr⟩ := List.head?_eq_some_iff.1 hmark
        rw [he, hr, trimLine_cons_of_not_blank (by decide)]
        rfl
    rw [Token.is, Token.is, hquote _ hmark, hquote _ hmark']
  · rw [Token.is, Token.is, h.text hc hk]

/-- A comment in another layout has the same content. -/
theorem Alike.contentLines (h : Alike t u) (hc : t.isComment = true) :
    Doc.contentLines u.text = Doc.contentLines t.text := by
  rcases h.respaced.text with he | he
  · rw [he]
  · rw [he]
    have hmark := h.sound.marked
    simp only [Token.isComment, Bool.or_eq_true, beq_iff_eq] at hc
    rcases hc with hk | hk
    · have hline : '\n' ∉ t.text := by
        intro hn
        have := h.sound.newline hn
        simp [isMultiline, hk] at this
      rw [hk] at hmark
      obtain ⟨s, hs⟩ := hmark
      rw [hs] at hline ⊢
      exact Doc.contentLines_trimLine_line (by simpa using hline)
    · rw [hk] at hmark
      obtain ⟨s, hs⟩ := hmark
      rw [hs]
      exact Doc.contentLines_trimLine_block s

end Alike

/-- Tokens after the first are close to themselves in standard layout. -/
theorem close_relaidFrom {offset : Nat} {tail : List Char} {ts : List Token}
    (hw : Written offset tail ts) (ho : 0 < offset) (k : Cursor) {offset' : Nat}
    (ho' : 0 < offset') : List.Forall₂ Close ts (relaidFrom k offset' ts) := by
  induction ts generalizing offset k offset' with
  | nil => exact .nil
  | cons t ts ih =>
    obtain ⟨ht, hstart, -, hws⟩ := hw
    have hgap : (relay k offset' t ts).gap = newGap k t ts := rfl
    have hstart' : (relay k offset' t ts).start = offset' + (newGap k t ts).length := rfl
    have hnewline : '\n' ∈ (relay k offset' t ts).gap ↔ '\n' ∈ t.gap := newline_mem_newGap
    have hline : (relay k offset' t ts).startsLine = t.startsLine := by
      have h1 : (t.start == t.gap.length) = false := by
        rw [beq_eq_false_iff_ne]
        omega
      have h2 : ((relay k offset' t ts).start == (relay k offset' t ts).gap.length) = false := by
        rw [beq_eq_false_iff_ne, hgap]
        omega
      rw [startsLine, startsLine, h1, h2, Bool.or_false, Bool.or_false, Bool.eq_iff_iff,
        List.contains_iff_mem, List.contains_iff_mem, hnewline]
    have hnil : (relay k offset' t ts).gap = [] ↔ t.gap = [] := by
      rw [hgap]
      by_cases hm : '\n' ∈ t.gap
      · have h1 : newGap k t ts ≠ [] := List.ne_nil_of_mem (newline_mem_newGap.2 hm)
        have h2 : t.gap ≠ [] := List.ne_nil_of_mem hm
        simp [h1, h2]
      · rw [newGap, if_neg hm]
    have hapart : 1 < (relay k offset' t ts).newlinesBefore ↔ 1 < t.newlinesBefore := by
      rw [newlinesBefore, hgap]
      by_cases hm : '\n' ∈ t.gap
      · rw [count_newGap hm]
        split <;> omega
      · rw [newGap, if_neg hm]
        rfl
    have hpos : 0 < (relay k offset' t ts).stop := by
      rw [stop]
      omega
    have hpos' : 0 < t.stop := by
      rw [stop]
      omega
    exact .cons ⟨⟨respaced_relay k offset' t ts, ht, hline⟩, hnil, hapart⟩ (ih hws hpos' _ hpos)

/-- The tokens of a source are aligned with themselves in standard layout. -/
theorem aligned_relaid {tail : List Char} {ts : List Token} (hw : Written 0 tail ts) :
    Aligned ts (relaid ts) := by
  cases ts with
  | nil => exact .nil
  | cons t ts =>
    obtain ⟨ht, hstart, -, hws⟩ := hw
    have hpos : 0 < t.text.length := List.length_pos_iff.2 ht.text_ne_nil
    have hres := respaced_relay .start 0 ⟨t.kind, t.start, [], t.text⟩ ts
    have hpos' : 0 < (relay .start 0 ⟨t.kind, t.start, [], t.text⟩ ts).stop := by
      have hne : trimLine t.text ≠ [] := by
        obtain ⟨c, s, hs⟩ := List.exists_cons_of_ne_nil ht.text_ne_nil
        rw [hs, trimLine_cons_of_not_blank (ht.head_not_blank c (by simp [hs]))]
        exact List.cons_ne_nil c _
      have := List.length_pos_iff.2 hne
      simpa [relay, stop, newGap, newText, Cursor.reach, Cursor.start] using this
    refine .cons ⟨⟨hres.kind, hres.text⟩, ht, ?_⟩ (close_relaidFrom hws ?_ _ hpos')
    · have h1 : (t.start == t.gap.length) = true := by
        rw [beq_iff_eq]
        omega
      rw [startsLine, startsLine, h1, Bool.or_true]
      simp [relay, newGap]
    · rw [stop]
      omega

end Token

namespace Leaf

open Token

/-- The leaves read the same and are documented the same. -/
structure Alike (S : Nat → Nat → Prop) (l m : Leaf) : Prop where
  kind : m.token.kind = l.token.kind
  text : l.token.kind ≠ .str → m.token.text = l.token.text
  is : ∀ {s : String}, s.toList.head? ≠ some '"' → m.is s = l.is s
  doc : m.doc = l.doc
  start : S l.token.start m.token.start
  stop : S l.token.stop m.token.stop

/-- Comments before a leaf, nearest first, in two layouts. The farthest may be the first token. -/
inductive Comments : List Token → List Token → Prop where
  | nil : Comments [] []
  | first {c d : Token} : Token.Alike c d → Comments [c] [d]
  | cons {c d : Token} {cs ds : List Token} : Close c d → Comments cs ds →
      Comments (c :: cs) (d :: ds)

theorem alike_docRun {cs ds : List Token} (h : Comments cs ds) {n m : Nat}
    (hn : 1 < m ↔ 1 < n) : List.Forall₂ Token.Alike (docRun n cs) (docRun m ds) := by
  induction h generalizing n m with
  | nil => exact .nil
  | first hc =>
    simp only [docRun, hn, hc.startsLine, hc.kind]
    split
    · exact .nil
    · split
      · exact .cons hc .nil
      · exact .cons hc .nil
  | cons hc _ ih =>
    simp only [docRun, hn, hc.startsLine, hc.kind]
    split
    · exact .nil
    · split
      · exact .cons hc.toAlike .nil
      · exact .cons hc.toAlike (ih hc.apart)

theorem isComment_of_mem_docRun {n : Nat} {cs : List Token} {c : Token}
    (h : ∀ c ∈ cs, c.isComment = true) (hc : c ∈ docRun n cs) : c.isComment = true := by
  induction cs generalizing n with
  | nil => cases hc
  | cons d ds ih =>
    rw [docRun] at hc
    split at hc
    · cases hc
    · split at hc
      · exact h c (by simp_all)
      · rcases List.mem_cons.1 hc with rfl | hc
        · exact h c (by simp)
        · exact ih (fun c hc => h c (by simp [hc])) hc

theorem contentLines_alike {cs ds : List Token} (h : List.Forall₂ Token.Alike cs ds)
    (hc : ∀ c ∈ cs, c.isComment = true) :
    (ds.map fun d => Doc.contentLines d.text) = cs.map fun c => Doc.contentLines c.text := by
  induction h with
  | nil => rfl
  | cons h _ ih =>
    rw [List.map_cons, List.map_cons, h.contentLines (hc _ (by simp)),
      ih fun c hm => hc c (by simp [hm])]

/-- Comments in another layout document the same. -/
theorem doc_alike {cs ds : List Token} {t u : Token} (h : Comments cs ds)
    (hc : ∀ c ∈ cs, c.isComment = true) (hn : 1 < u.newlinesBefore ↔ 1 < t.newlinesBefore) :
    Leaf.doc ⟨ds, u⟩ = Leaf.doc ⟨cs, t⟩ := by
  have hrun := contentLines_alike (alike_docRun h hn) fun c hm => isComment_of_mem_docRun hc hm
  simp only [Leaf.doc, List.flatMap_def, List.map_reverse, hrun]

theorem alike_leaf {S : Nat → Nat → Prop} {cs ds : List Token} {t u : Token}
    (h : Token.Alike t u) (hc : t.isComment = false) (hdoc : Leaf.doc ⟨ds, u⟩ = Leaf.doc ⟨cs, t⟩)
    (hstart : S t.start u.start) (hstop : S t.stop u.stop) : Alike S ⟨cs, t⟩ ⟨ds, u⟩ :=
  ⟨h.kind, h.text hc, h.is hc, hdoc, hstart, hstop⟩

theorem alike_ofTokensFrom {S : Nat → Nat → Prop} {ts us : List Token}
    (h : List.Forall₂ Close ts us)
    (hS : List.Forall₂ (fun t u => S t.start u.start ∧ S t.stop u.stop) ts us) {cs ds : List Token}
    (hcs : Comments cs ds) (hc : ∀ c ∈ cs, c.isComment = true) :
    List.Forall₂ (Alike S) (ofTokensFrom cs ts) (ofTokensFrom ds us) := by
  induction h generalizing cs ds with
  | nil => exact .nil
  | @cons t u ts us htu _ ih =>
    obtain ⟨⟨hstart, hstop⟩, hS⟩ := List.forall₂_cons.1 hS
    simp only [ofTokensFrom, htu.isComment]
    split
    · rename_i ht
      refine ih hS (.cons htu hcs) fun c hm => ?_
      rcases List.mem_cons.1 hm with rfl | hm
      · exact ht
      · exact hc c hm
    · rename_i ht
      have ht : t.isComment = false := by simpa using ht
      exact .cons (alike_leaf htu.toAlike ht (doc_alike hcs hc htu.apart) hstart hstop)
        (ih hS .nil (by simp))

/-- Aligned tokens have alike leaves. -/
theorem alike_ofTokens {S : Nat → Nat → Prop} {ts us : List Token} (h : Aligned ts us)
    (hS : List.Forall₂ (fun t u => S t.start u.start ∧ S t.stop u.stop) ts us) :
    List.Forall₂ (Alike S) (ofTokens ts) (ofTokens us) := by
  cases h with
  | nil => exact .nil
  | @cons t u ts us ht hts =>
    obtain ⟨htu, hS⟩ := List.forall₂_cons.1 hS
    simp only [ofTokens, ofTokensFrom, ht.isComment]
    split
    · rename_i hc
      exact alike_ofTokensFrom hts hS (.first ht) (by simpa using hc)
    · rename_i hc
      have hc : t.isComment = false := by simpa using hc
      exact .cons (alike_leaf ht hc rfl htu.1 htu.2) (alike_ofTokensFrom hts hS .nil (by simp))

end Leaf

end Scad
