import Mathlib.Data.List.Chain
import Scad.Proofs.Token.Spacing
import Scad.Signature

/-!
# Scad.Proofs.Signature

A signature is text that is read again. No two tokens that `needsSpace` leaves without a blank
between them join, but for `!` before a token that begins with `=`.

* `Signature.endsBefore_of_glued`: a token printed without a blank after another adds nothing to it.
* `Signature.tokenize_join`: printed tokens are read again.
* `Signature.render_of_faces`: printing the tokens of a signature gives the signature again.
-/

namespace Scad

open Text Lexeme

/-! ## Tokens without comments -/

theorem Token.significant_cons (t : Token) (ts : List Token) :
    significant (t :: ts) = if t.isComment then significant ts else t :: significant ts := by
  rw [significant, List.filter_cons]
  cases t.isComment <;> rfl

theorem Token.isComment_of_faces {ts us : List Token} (h : us.map face = ts.map face)
    (hc : ∀ t ∈ ts, t.isComment = false) : ∀ u ∈ us, u.isComment = false := by
  intro u hu
  have hface : u.face ∈ ts.map face := h ▸ List.mem_map_of_mem hu
  obtain ⟨t, ht, heq⟩ := List.mem_map.1 hface
  have hkind : t.kind = u.kind := congrArg Prod.fst heq
  have hcomment := hc t ht
  rwa [isComment, hkind, ← isComment] at hcomment

theorem Token.significant_of_faces {ts us : List Token} (h : us.map face = ts.map face)
    (hc : ∀ t ∈ ts, t.isComment = false) : significant us = us :=
  List.filter_eq_self.2 fun u hu => by rw [isComment_of_faces h hc u hu]; rfl

namespace Alone

variable {a : Bool} {ts us : List Token}

theorem left (h : Alone a (ts ++ us)) : Alone a ts := by
  induction ts generalizing a with
  | nil => trivial
  | cons t ts ih => exact ⟨h.1, ih h.2⟩

theorem right (h : Alone a (ts ++ us)) : ∃ b, Alone b us := by
  induction ts generalizing a with
  | nil => exact ⟨a, h⟩
  | cons t ts ih => exact ih h.2

/-- Comments do not change how the tokens after them are read. -/
theorem significant (h : Alone a ts) : Alone a (Token.significant ts) := by
  induction ts generalizing a with
  | nil => trivial
  | cons t ts ih =>
    rw [Token.significant_cons]
    cases hc : t.isComment with
    | true =>
      have hrest := h.2
      rw [Token.opensPath, hc, if_pos rfl] at hrest
      exact ih hrest
    | false => exact ⟨h.1, ih h.2⟩

/-- Tokens that begin with a name are read the same way at the beginning of a text. -/
theorem of_ident {t : Token} (h : Alone a (t :: ts)) (hk : t.kind = .ident) :
    Alone false (t :: ts) := by
  obtain ⟨⟨c, cs, htext, hc, hform⟩, hrest⟩ := h
  have hpath : t.opensPath a = t.opensPath false := by simp [Token.opensPath, Token.isComment, hk]
  refine ⟨⟨c, cs, htext, hc, ?_⟩, hpath ▸ hrest⟩
  generalize hl : Cut.mk t.kind t.text [] = l at hform ⊢
  cases hform with
  | ident hp hn => exact .ident ⟨hp.line, hp.block, hp.str, fun h => Bool.noConfusion h.2⟩ hn
  | lineComment | blockComment | str | path | number | operator | punct =>
    rw [Cut.mk.injEq, hk] at hl
    cases hl.1

end Alone

namespace Signature

/-! ## Tokens that need no blank -/

/-- Punctuation that begins no longer lexeme, but for `!`. -/
def lone : List Char := ['(', '[', '!', '#', '-', ':']

/-- A lone mark ends before everything but what makes `!` an operator. -/
theorem endsBefore_of_lone {a : Bool} {t : Token} (h : t.Whole a) {p : Char} (ht : t.text = [p])
    (hp : p ∈ lone) {rest : List Char} (hr : p = '!' → rest.head? ≠ some '=') :
    EndsBefore t.kind t.text rest := by
  obtain ⟨c, cs, htext, -, hform⟩ := h
  obtain ⟨rfl, rfl⟩ := List.cons.inj (ht.symm.trans htext)
  have hkind : t.kind = .punct := by
    simp only [lone, List.mem_cons, List.not_mem_nil, or_false] at hp
    rcases hp with rfl | rfl | rfl | rfl | rfl | rfl <;>
      exact hform.punct_of_head (by decide) (by decide) (by decide)
  rw [hkind]
  intro q hq d hd
  obtain rfl : p = q := by
    rw [ht] at hq
    exact (List.cons.inj hq).1
  simp only [lone, List.mem_cons, List.not_mem_nil, or_false] at hp
  rcases hp with rfl | rfl | rfl | rfl | rfl | rfl
  · simp [joins, operators]
  · simp [joins, operators]
  · have : d ≠ '=' := by
      rintro rfl
      exact hr rfl hd
    simp [joins, operators, this]
  · simp [joins, operators]
  · simp [joins, operators]
  · simp [joins, operators]

/-- A token printed right after another adds nothing to it. -/
theorem endsBefore_of_glued {a : Bool} {t u : Token} (h : t.Whole a) (hc : t.isComment = false)
    (hbang : t.is "!" = true → u.text.head? ≠ some '=') (hu : u.text ≠ [])
    {before : Option (List Char)} (hn : needsSpace before t.text u = false) (rest : List Char) :
    EndsBefore t.kind t.text (u.text ++ rest) := by
  have hkind : t.kind ≠ .lineComment := by
    intro hk
    simp [Token.isComment, hk] at hc
  have hhead : (u.text ++ rest).head? = u.text.head? := by
    cases hut : u.text with
    | nil => exact absurd hut hu
    | cons d ds => rfl
  have hlone : ∀ p, t.text = [p] → p ∈ lone → EndsBefore t.kind t.text (u.text ++ rest) := by
    intro p hp hmem
    refine endsBefore_of_lone h hp hmem ?_
    rintro rfl
    rw [hhead]
    exact hbang (by simp [Token.is, hp])
  have hstop : ∀ d, u.text = [d] → isStop d = true → EndsBefore t.kind t.text (u.text ++ rest) := by
    intro d hd hs
    refine endsBefore_of_isStop hkind _ fun e he => ?_
    rw [hhead, hd] at he
    cases he
    exact hs
  -- wherever no blank is printed, one of the two tokens is a mark that joins with nothing
  unfold needsSpace at hn
  split at hn
  · rename_i hprev
    simp only [List.contains_iff_mem, List.mem_cons, List.not_mem_nil, or_false] at hprev
    rcases hprev with hp | hp | hp | hp
    · exact hlone _ hp (by decide)
    · exact hlone _ hp (by decide)
    · exact hlone _ hp (by decide)
    · exact hlone _ hp (by decide)
  split at hn
  · rename_i hcur
    simp only [Token.isAny, Token.is, List.any_cons, List.any_nil, Bool.or_false, Bool.or_eq_true,
      beq_iff_eq] at hcur
    rcases hcur with hd | hd | hd | hd | hd
    · exact hstop _ hd (by decide)
    · exact hstop _ hd (by decide)
    · exact hstop _ hd (by decide)
    · exact hstop _ hd (by decide)
    · exact hstop _ hd (by decide)
  split at hn
  · rename_i hcur
    simp only [Token.isAny, Token.is, List.any_cons, List.any_nil, Bool.or_false, Bool.or_eq_true,
      Bool.and_eq_true, beq_iff_eq] at hcur
    rcases hcur.1.1 with hd | hd
    · exact hstop _ hd (by decide)
    · exact hstop _ hd (by decide)
  split at hn
  · rename_i hprev
    rw [Bool.and_eq_true, beq_iff_eq] at hprev
    exact hlone _ hprev.1 (by decide)
  · simp only [Bool.not_eq_false', Bool.and_eq_true, beq_iff_eq] at hn
    exact hlone _ hn.1 (by decide)

/-- What is printed after a token adds nothing to it. -/
theorem endsBefore_joinFrom {a : Bool} {t u : Token} (h : t.Whole a) (hc : t.isComment = false)
    (hbang : t.is "!" = true → u.text.head? ≠ some '=') (hu : u.text ≠ [])
    (before : Option (List Char)) (ts : List Token) :
    EndsBefore t.kind t.text (joinFrom before t.text (u :: ts)) := by
  simp only [joinFrom, List.append_assoc]
  cases hn : needsSpace before t.text u with
  | false => exact endsBefore_of_glued h hc hbang hu hn _
  | true =>
    refine endsBefore_of_isStop ?_ _ fun d hd => ?_
    · intro hk
      simp [Token.isComment, hk] at hc
    · cases hd
      decide

/-! ## Printed tokens are read again -/

/-- No `!` stands before a token that begins with `=`. -/
def Unjoined (ts : List Token) : Prop :=
  ts.IsChain fun t u => t.is "!" = true → u.text.head? ≠ some '='

instance (ts : List Token) : Decidable (Unjoined ts) :=
  inferInstanceAs (Decidable (ts.IsChain _))

theorem reads_joinFrom {t : Token} {ts : List Token} {a : Bool} (h : Alone a (t :: ts))
    (hc : ∀ u ∈ t :: ts, u.isComment = false) (hb : Unjoined (t :: ts))
    (before : Option (List Char)) {gap : List Char} (hg : ∀ c ∈ gap, isBlank c = true)
    (offset : Nat) :
    ∃ us, Reads a offset (gap ++ (t.text ++ joinFrom before t.text ts)) us ∧
      us.map Token.face = (t :: ts).map Token.face := by
  induction ts generalizing a t before gap offset with
  | nil =>
    have hend : EndsBefore t.kind t.text [] := by
      cases t.kind <;> simp [EndsBefore]
    exact ⟨_, h.1.reads hg hend (.done (by simp)), rfl⟩
  | cons u ts ih =>
    obtain ⟨hbang, hb⟩ := List.isChain_cons_cons.1 hb
    rw [List.forall_mem_cons] at hc
    have hu : u.text ≠ [] := by
      obtain ⟨c, cs, htext, -⟩ := h.2.1
      simp [htext]
    have hspace : ∀ c ∈ if needsSpace before t.text u then [' '] else [], isBlank c = true := by
      split
      · exact List.forall_mem_singleton.2 (by decide)
      · simp
    obtain ⟨us, hus, hfaces⟩ :=
      ih h.2 hc.2 hb (some t.text) hspace (offset + gap.length + t.text.length)
    have hend := endsBefore_joinFrom h.1 hc.1 hbang hu before ts
    simp only [joinFrom, List.append_assoc] at hend ⊢
    exact ⟨_, h.1.reads hg hend hus, by simp [hfaces, Token.face]⟩

/-- Printed tokens are read again, if the first of them is a name. -/
theorem tokenize_join {t : Token} {ts : List Token} {a : Bool} (h : Alone a (t :: ts))
    (hk : t.kind = .ident) (hc : ∀ u ∈ t :: ts, u.isComment = false) (hb : Unjoined (t :: ts)) :
    ∃ us, tokenize (join (t :: ts)) = .ok us ∧ us.map Token.face = (t :: ts).map Token.face := by
  have hgap : ∀ c ∈ ([] : List Char), isBlank c = true := by simp
  obtain ⟨us, hus, hfaces⟩ := reads_joinFrom (h.of_ident hk) hc hb none hgap 0
  exact ⟨us, tokenizeFrom_eq_ok_iff.2 hus, hfaces⟩

/-! ## Printing depends on kinds and texts only -/

theorem needsSpace_of_face {t u : Token} (h : u.face = t.face) (before : Option (List Char))
    (prev : List Char) : needsSpace before prev u = needsSpace before prev t := by
  obtain ⟨hkind, htext⟩ := Prod.mk.inj h
  have his : u.is = t.is := by
    funext s
    rw [Token.is, Token.is, htext]
  unfold needsSpace Token.isAny
  rw [his, hkind]

theorem joinFrom_of_faces {ts us : List Token} (h : us.map Token.face = ts.map Token.face)
    (before : Option (List Char)) (prev : List Char) :
    joinFrom before prev us = joinFrom before prev ts := by
  induction ts generalizing us before prev with
  | nil => rw [List.map_eq_nil_iff.1 h]
  | cons t ts ih =>
    cases us with
    | nil => cases h
    | cons u us =>
      obtain ⟨hface, hrest⟩ := List.cons.inj h
      obtain ⟨-, htext⟩ := Prod.mk.inj hface
      simp only [joinFrom, needsSpace_of_face hface, htext, ih hrest]

theorem join_of_faces {ts us : List Token} (h : us.map Token.face = ts.map Token.face) :
    join us = join ts := by
  cases ts with
  | nil => rw [List.map_eq_nil_iff.1 h]
  | cons t ts =>
    cases us with
    | nil => cases h
    | cons u us =>
      obtain ⟨hface, hrest⟩ := List.cons.inj h
      obtain ⟨-, htext⟩ := Prod.mk.inj hface
      rw [join, join, htext, joinFrom_of_faces hrest]

theorem header_of_faces {ts us : List Token} (h : us.map Token.face = ts.map Token.face)
    (depth : Nat) : (header depth us).map Token.face = (header depth ts).map Token.face := by
  induction ts generalizing us depth with
  | nil => rw [List.map_eq_nil_iff.1 h]
  | cons t ts ih =>
    cases us with
    | nil => cases h
    | cons u us =>
      obtain ⟨hface, hrest⟩ := List.cons.inj h
      have his : ∀ s, u.is s = t.is s := by
        intro s
        rw [Token.is, Token.is, (Prod.mk.inj hface).2]
      simp only [header, his]
      split
      · simp [hface, ih hrest]
      split
      · split
        · simp [hface]
        · simp [hface, ih hrest]
      split
      · rfl
      · simp [hface, ih hrest]

/-- The header of a header is all of it. -/
theorem header_header (depth : Nat) (ts : List Token) :
    header depth (header depth ts) = header depth ts := by
  fun_induction header depth ts <;> simp_all [header]

theorem header_front (depth : Nat) (ts : List Token) : header depth ts <+: ts := by
  fun_induction header depth ts with
  | case1 => exact List.prefix_rfl
  | case2 depth t ts _ ih => exact List.cons_prefix_cons.2 ⟨rfl, ih⟩
  | case3 depth t ts => exact List.cons_prefix_cons.2 ⟨rfl, List.nil_prefix⟩
  | case4 depth t ts _ _ _ ih => exact List.cons_prefix_cons.2 ⟨rfl, ih⟩
  | case5 => exact List.nil_prefix
  | case6 depth t ts _ _ _ ih => exact List.cons_prefix_cons.2 ⟨rfl, ih⟩

/-- The tokens that are printed for a declaration of a kind. -/
def shown (kind : Declaration.Kind) (ts : List Token) : List Token :=
  match kind with
  | .module => header 0 ts
  | .function | .variable => ts

theorem render_eq (kind : Declaration.Kind) (ts : List Token) :
    render kind ts = join (shown kind (Token.significant ts)) := by
  cases kind <;> rfl

theorem shown_front (kind : Declaration.Kind) (ts : List Token) : shown kind ts <+: ts := by
  cases kind with
  | module => exact header_front 0 ts
  | _ => exact List.prefix_rfl

/-- Printing what was printed, read again, gives the same text. -/
theorem render_of_faces {kind : Declaration.Kind} {ts us : List Token}
    (h : us.map Token.face = (shown kind ts).map Token.face)
    (hc : ∀ t ∈ ts, t.isComment = false) : render kind us = join (shown kind ts) := by
  have hshown : ∀ t ∈ shown kind ts, t.isComment = false :=
    fun t ht => hc t ((shown_front kind ts).subset ht)
  rw [render_eq, Token.significant_of_faces h hshown]
  cases kind with
  | module =>
    have hheader := header_of_faces h 0
    simp only [shown] at hheader ⊢
    rw [header_header] at hheader
    exact join_of_faces hheader
  | _ => exact join_of_faces h

end Signature
end Scad
