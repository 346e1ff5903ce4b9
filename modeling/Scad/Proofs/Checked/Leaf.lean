import Scad.Proofs.Checked.Access
import Scad.Proofs.Token.Gap
import Scad.Proofs.Workspace.Signature

/-!
# Scad.Proofs.Checked.Leaf

Leaves looked up by their numbers. A reader knows the extents of all tokens and the indices of those
that are no comments; a leaf is a number into these indices, and its documentation is found by
walking back over the tokens before it.

* `Reader.peekAt`: the leaf with a given number.
* `Reader.docBefore`: the documentation of what begins with a leaf. It looks at the source between a
  comment and what follows it, and at all of the source before a comment.
* `Reader.Shows r tail ts n ls`: the leaves from number `n` on are `ls`. Then the look-ups do not
  fail, and find the first leaf and its documentation (`Shows.peek`, `Shows.docBefore`).
-/

namespace Scad

open Checked Text

/-- The source, the extents of its tokens, and the indices of the tokens that are no comments. -/
structure Reader where
  source : List Char
  marks : List Mark
  significant : List Nat

namespace Reader

/-- Those of some indices at which there is no comment. -/
def significantOf (marks : List Mark) : List Nat → Checked (List Nat)
  | [] => return []
  | i :: is => do
    let m ← index marks i
    let others ← significantOf marks is
    return if m.isComment then others else i :: others

def ofMarks (source : List Char) (marks : List Mark) : Checked Reader := do
  return ⟨source, marks, ← significantOf marks (List.range marks.length)⟩

/-- The leaf `ahead` leaves behind the one with number `n`, if there is one. -/
def peekAt (r : Reader) (n ahead : Nat) : Checked (Option Mark) :=
  match r.significant[n + ahead]? with
  | none => return none
  | some i => do
    return some (← index r.marks i)

def peekIs (r : Reader) (n ahead : Nat) (s : String) : Checked Bool := do
  match ← r.peekAt n ahead with
  | none => return false
  | some m => m.is r.source s

/-- Where the leaf with number `n` starts, or the end of the source. -/
def here (r : Reader) (n : Nat) : Checked Nat := do
  match ← r.peekAt n 0 with
  | none => return r.source.length
  | some m => return m.start

/-! ## Documentation -/

def newlinesBetween (source : List Char) (start stop : Nat) : Checked Nat := do
  return (← slice source start stop).count '\n'

/-- Whether there are only blanks before an offset on its line. -/
def startsLine (source : List Char) (offset : Nat) : Checked Bool := do
  return ((← slice source 0 offset).reverse.takeWhile (· != '\n')).all isBlank

/-- The comments that document what begins at `boundary`, among the tokens before it, nearest first.
-/
def docMarks (source : List Char) (boundary : Nat) : List Mark → Checked (List Mark)
  | [] => return []
  | m :: ms =>
    if m.isComment = false then return []
    else do
      if 1 < (← newlinesBetween source m.stop boundary) then
        return []
      else if (← startsLine source m.start) = false then
        return []
      else if m.kind = .blockComment then
        return [m]
      else
        return m :: (← docMarks source m.start ms)

/-- The documentation of what begins with the leaf `n`. -/
def docBefore (r : Reader) (n : Nat) : Checked (Option Doc) :=
  match r.significant[n]? with
  | none => return none
  | some i => do
    let first ← index r.marks i
    let before ← slice r.marks 0 i
    let comments ← docMarks r.source first.start before.reverse
    let texts ← comments.reverse.mapM (Mark.text r.source)
    return Doc.ofLines? (texts.flatMap Doc.contentLines)

end Reader

/-! ## Tokens in their source -/

/-- A path has at least its two angle brackets. -/
theorem Reads.path_length {a : Bool} {offset : Nat} {s : List Char} {ts : List Token}
    (h : Reads a offset s ts) : ∀ t ∈ ts, t.kind = .path → 2 ≤ t.text.length := by
  induction h with
  | done => simp
  | token hg hc hl ht _ ih =>
    refine List.forall_mem_cons.2 ⟨fun hkind => ?_, ih⟩
    subst ht
    cases hl with
    | @path body rest hangle ha hbody =>
      have hlast := Lexeme.pathRest_getLast hbody
      cases body with
      | nil => cases hlast
      | cons d ds =>
        show 2 ≤ ds.length + 1 + 1
        omega
    | lineComment | blockComment | str | ident | number | operator | punct => cases hkind

namespace Token

variable {tail : List Char} {before after : List Token} {t u : Token}

/-- What stands before a token can be looked up. -/
theorem slice_before (hw : Written 0 tail (before ++ t :: after)) :
    slice (spell (before ++ t :: after) ++ tail) 0 t.start = .ok (spell before ++ t.gap) := by
  rw [source_eq, List.append_assoc]
  exact slice_append [] (spell before ++ t.gap) _ rfl (by rw [start_eq hw, Nat.zero_add])

/-- What stands between two neighbouring tokens can be looked up. -/
theorem slice_between (hw : Written 0 tail (before ++ t :: u :: after)) :
    slice (spell (before ++ t :: u :: after) ++ tail) t.stop u.start = .ok u.gap := by
  obtain ⟨x, y, hsource, hstop, hstart⟩ := source_between hw
  rw [hsource]
  exact slice_append x u.gap y hstop hstart

theorem startsLine_eq (hw : Written 0 tail (before ++ t :: after)) :
    Reader.startsLine (spell (before ++ t :: after) ++ tail) t.start = .ok t.startsLine := by
  rw [Reader.startsLine, slice_before hw, ok_bind, pure_eq_ok, all_lineBefore hw]

end Token

namespace Reader

open Token

/-! ## Documentation is found -/

theorem docRun_subset (newlines : Nat) (comments : List Token) :
    Leaf.docRun newlines comments ⊆ comments := by
  induction comments generalizing newlines with
  | nil => exact List.Subset.refl _
  | cons c comments ih =>
    rw [Leaf.docRun]
    split
    · exact List.nil_subset _
    split
    · exact List.cons_subset_cons c (List.nil_subset _)
    · exact List.cons_subset_cons c (ih c.newlinesBefore)

theorem mapM_text {source : List Char} {ts : List Token} (h : ∀ t ∈ ts, t.Stands source) :
    (ts.map mark).mapM (Mark.text source) = .ok (ts.map Token.text) := by
  rw [List.mapM_map]
  exact mapM_of_forall fun t ht => text_mark (h t ht)

/-- The comments before the token `t` that document it are found, where `comments` are all of those
before it, and another token stands before them or none. -/
theorem docMarks_eq {tail : List Char} {before after comments earlier : List Token} {t : Token}
    (hw : Written 0 tail (before ++ t :: after)) (hbefore : before.reverse = comments ++ earlier)
    (hcomments : ∀ c ∈ comments, c.isComment = true)
    (hearlier : ∀ u ∈ earlier.head?, u.isComment = false) :
    docMarks (spell (before ++ t :: after) ++ tail) t.start (before.reverse.map mark) =
      .ok ((Leaf.docRun t.newlinesBefore comments).map mark) := by
  induction comments generalizing before t after with
  | nil =>
    rw [hbefore, List.nil_append]
    cases earlier with
    | nil => rfl
    | cons u earlier =>
      rw [List.map_cons, docMarks, isComment_mark, if_pos (hearlier u rfl)]
      rfl
  | cons c comments ih =>
    obtain ⟨hc, hcomments⟩ := List.forall_mem_cons.1 hcomments
    obtain ⟨front, rfl⟩ : ∃ front, before = front ++ [c] := by
      refine ⟨(comments ++ earlier).reverse, ?_⟩
      rw [← List.reverse_reverse before, hbefore]
      simp
    have hsplit : front ++ [c] ++ t :: after = front ++ c :: t :: after := by simp
    have hfront : front.reverse = comments ++ earlier := by simpa using hbefore
    rw [hsplit] at hw ⊢
    rw [List.reverse_append, List.reverse_singleton, List.singleton_append, List.map_cons, docMarks,
      isComment_mark, if_neg (by simp [hc])]
    have hnewlines :
        newlinesBetween (spell (front ++ c :: t :: after) ++ tail) c.mark.stop t.start =
          .ok t.newlinesBefore := by
      rw [newlinesBetween, stop_mark, slice_between hw]
      rfl
    have hline : startsLine (spell (front ++ c :: t :: after) ++ tail) c.mark.start =
        .ok c.startsLine := startsLine_eq hw
    have hrest := ih hw hfront hcomments
    rw [hnewlines, ok_bind, hline, ok_bind, Leaf.docRun]
    by_cases hmany : 1 < t.newlinesBefore
    · rw [if_pos hmany, if_pos (.inl hmany)]
      rfl
    rw [if_neg hmany]
    by_cases hstarts : c.startsLine = false
    · rw [if_pos hstarts, if_pos (.inr hstarts)]
      rfl
    rw [if_neg hstarts, if_neg (not_or.2 ⟨hmany, hstarts⟩)]
    by_cases hblock : c.kind = .blockComment
    · rw [if_pos hblock, if_pos (show c.mark.kind = .blockComment from hblock)]
      rfl
    · rw [if_neg hblock, if_neg (show ¬ c.mark.kind = .blockComment from hblock),
        start_mark, hrest]
      rfl

/-! ## Leaves are found -/

/-- The leaf stands at index `i` of the tokens, with its comments before it. -/
structure Situated (ts : List Token) (i : Nat) (l : Leaf) : Prop where
  token : ts[i]? = some l.token
  before : ∃ earlier, (ts.take i).reverse = l.comments ++ earlier ∧
    (∀ c ∈ l.comments, c.isComment = true) ∧ ∀ u ∈ earlier.head?, u.isComment = false

/-- The reader reads the tokens, and the leaves from number `n` on are `ls`. -/
structure Shows (r : Reader) (tail : List Char) (ts : List Token) (n : Nat) (ls : List Leaf) :
    Prop where
  written : Written 0 tail ts
  paths : ∀ t ∈ ts, t.kind = .path → 2 ≤ t.text.length
  source : r.source = spell ts ++ tail
  marks : r.marks = ts.map mark
  leaves : List.Forall₂ (Situated ts) (r.significant.drop n) ls

theorem significantOf_eq (ts : List Token) {before comments earlier : List Token}
    (hbefore : before.reverse = comments ++ earlier)
    (hcomments : ∀ c ∈ comments, c.isComment = true)
    (hearlier : ∀ u ∈ earlier.head?, u.isComment = false) :
    ∃ is, significantOf ((before ++ ts).map mark) (List.range' before.length ts.length) = .ok is ∧
      List.Forall₂ (Situated (before ++ ts)) is (Leaf.ofTokensFrom comments ts) := by
  induction ts generalizing before comments earlier with
  | nil => exact ⟨[], rfl, .nil⟩
  | cons t ts ih =>
    have hsplit : before ++ t :: ts = before ++ [t] ++ ts := by simp
    have hget : (before ++ t :: ts)[before.length]? = some t := by simp
    have hmark : index ((before ++ t :: ts).map mark) before.length = .ok t.mark :=
      index_of_getElem? (by rw [List.getElem?_map, hget]; rfl)
    have hlength : before.length + 1 = (before ++ [t]).length := by simp
    rw [List.length_cons, List.range'_succ, significantOf, hmark, ok_bind, Leaf.ofTokensFrom,
      hlength, isComment_mark]
    cases ht : t.isComment with
    | true =>
      have hnext : (before ++ [t]).reverse = t :: comments ++ earlier := by simp [hbefore]
      obtain ⟨is, his, hleaves⟩ :=
        ih hnext (List.forall_mem_cons.2 ⟨ht, hcomments⟩) hearlier
      rw [← hsplit] at his hleaves
      refine ⟨is, ?_, hleaves⟩
      rw [his]
      rfl
    | false =>
      have hnext : (before ++ [t]).reverse = [] ++ t :: before.reverse := by simp
      obtain ⟨is, his, hleaves⟩ := ih hnext (by simp) (by simpa using ht)
      rw [← hsplit] at his hleaves
      refine ⟨before.length :: is, ?_, .cons ⟨hget, earlier, ?_, hcomments, hearlier⟩ hleaves⟩
      · rw [his]
        rfl
      · rw [List.take_left, hbefore]

/-- The reader of a source shows all leaves of the source. -/
theorem shows_ofMarks {tail : List Char} {ts : List Token} (hw : Written 0 tail ts)
    (hpaths : ∀ t ∈ ts, t.kind = .path → 2 ≤ t.text.length) :
    ∃ r, ofMarks (spell ts ++ tail) (ts.map mark) = .ok r ∧
      r.Shows tail ts 0 (Leaf.ofTokens ts) := by
  have hnone : ([] : List Token).reverse = [] ++ [] := rfl
  obtain ⟨is, his, hleaves⟩ := significantOf_eq ts hnone (by simp) (by simp)
  rw [List.nil_append] at his hleaves
  refine ⟨⟨spell ts ++ tail, ts.map mark, is⟩, ?_, hw, hpaths, rfl, rfl, hleaves⟩
  rw [ofMarks, List.length_map, List.range_eq_range']
  rw [show [].length = 0 from rfl] at his
  rw [his]
  rfl

section Shows

variable {r : Reader} {tail : List Char} {ts : List Token} {n : Nat} {l : Leaf} {ls : List Leaf}

/-- The first leaf has an index, and the others come behind it. -/
theorem Shows.first (h : r.Shows tail ts n (l :: ls)) :
    ∃ i, r.significant[n]? = some i ∧ Situated ts i l ∧
      List.Forall₂ (Situated ts) (r.significant.drop (n + 1)) ls := by
  obtain ⟨i, is, hfirst, hothers, hdrop⟩ := List.forall₂_cons_right_iff.1 h.leaves
  refine ⟨i, ?_, hfirst, ?_⟩
  · rw [← List.head?_drop, hdrop, List.head?_cons]
  · rw [← List.drop_drop, hdrop]
    exact hothers

theorem Shows.next (h : r.Shows tail ts n (l :: ls)) : r.Shows tail ts (n + 1) ls := by
  obtain ⟨i, -, -, hothers⟩ := h.first
  exact ⟨h.written, h.paths, h.source, h.marks, hothers⟩

theorem Shows.stands (h : r.Shows tail ts n (l :: ls)) : l.token.Stands r.source := by
  obtain ⟨i, -, hsituated, -⟩ := h.first
  rw [h.source]
  exact stands_of_written h.written (List.mem_of_getElem? hsituated.token)

theorem Shows.sound (h : r.Shows tail ts n (l :: ls)) : l.token.Sound := by
  obtain ⟨i, -, hsituated, -⟩ := h.first
  exact sound_of_written h.written (List.mem_of_getElem? hsituated.token)

/-- The text between the brackets of a path can be looked up. -/
theorem Shows.slice_path (h : r.Shows tail ts n (l :: ls)) (hkind : l.token.kind = .path) :
    slice r.source (l.token.start + 1) (l.token.stop - 1) = .ok l.token.text.tail.dropLast := by
  obtain ⟨i, -, hsituated, -⟩ := h.first
  have hlength := h.paths l.token (List.mem_of_getElem? hsituated.token) hkind
  obtain ⟨c, cs, hcs⟩ : ∃ c cs, l.token.text = c :: cs := by
    cases htext : l.token.text with
    | nil => simp [htext] at hlength
    | cons c cs => exact ⟨c, cs, rfl⟩
  have hne : cs ≠ [] := by
    rintro rfl
    simp [hcs] at hlength
  have hsplit : l.token.text = [c] ++ cs.dropLast ++ [cs.getLast hne] := by
    rw [hcs, List.append_assoc, List.dropLast_append_getLast]
    rfl
  have hstop : l.token.stop = l.token.start + (cs.length + 1) := by rw [Token.stop, hcs]; rfl
  rw [hcs, List.tail_cons]
  refine h.stands.slice hsplit rfl ?_
  have hpos := List.length_pos_iff.2 hne
  rw [List.length_dropLast]
  omega

theorem Shows.index (h : r.Shows tail ts n (l :: ls)) {i : Nat} (hl : Situated ts i l) :
    index r.marks i = .ok l.token.mark := by
  refine index_of_getElem? ?_
  rw [h.marks, List.getElem?_map, hl.token]
  rfl

theorem Shows.peek (h : r.Shows tail ts n ls) :
    r.peekAt n 0 = .ok (ls.head?.map fun l => l.token.mark) := by
  cases ls with
  | nil =>
    have hnone : r.significant[n]? = none := by
      rw [← List.head?_drop, List.forall₂_nil_right_iff.1 h.leaves, List.head?_nil]
    rw [peekAt, Nat.add_zero, hnone]
    rfl
  | cons l ls =>
    obtain ⟨i, hi, hsituated, -⟩ := h.first
    rw [peekAt, Nat.add_zero, hi]
    simp only [h.index hsituated, ok_bind, pure_eq_ok, List.head?_cons, Option.map_some]

theorem Shows.peek_second (h : r.Shows tail ts n (l :: ls)) :
    r.peekAt n 1 = .ok (ls.head?.map fun l => l.token.mark) := h.next.peek

theorem Shows.peekIs (h : r.Shows tail ts n ls) (s : String) :
    r.peekIs n 0 s = .ok (ls.head?.any fun l => l.is s) := by
  rw [Reader.peekIs, h.peek, ok_bind]
  cases ls with
  | nil => rfl
  | cons l ls => exact is_mark h.stands s

theorem Shows.here (h : r.Shows tail ts n ls) : r.here n = .ok (Item.here r.source.length ls) := by
  rw [Reader.here, h.peek, ok_bind]
  cases ls with
  | nil => rfl
  | cons l ls => rfl

theorem Shows.docBefore (h : r.Shows tail ts n (l :: ls)) : r.docBefore n = .ok l.doc := by
  obtain ⟨i, hi, hsituated, -⟩ := h.first
  obtain ⟨earlier, hbefore, hcomments, hearlier⟩ := hsituated.before
  obtain ⟨hlt, hget⟩ := List.getElem?_eq_some_iff.1 hsituated.token
  have hsplit : ts = ts.take i ++ l.token :: ts.drop (i + 1) := by
    rw [← hget, ← List.drop_eq_getElem_cons hlt, List.take_append_drop]
  have hslice : slice r.marks 0 i = .ok ((ts.take i).map mark) := by
    rw [h.marks, slice, if_pos ⟨Nat.zero_le i, by rw [List.length_map]; omega⟩, ← List.map_take]
    rfl
  have hw := h.written
  rw [hsplit] at hw
  have hdoc := docMarks_eq hw hbefore hcomments hearlier
  rw [← hsplit, ← h.source] at hdoc
  rw [Reader.docBefore, hi]
  simp only [h.index hsituated, hslice, ok_bind]
  rw [← List.map_reverse, start_mark, hdoc, ok_bind,
    ← List.map_reverse, mapM_text]
  · rw [ok_bind, List.flatMap_map]
    rfl
  · intro c hc
    have hmem : c ∈ (ts.take i).reverse := by
      rw [hbefore]
      exact List.mem_append_left earlier (docRun_subset _ _ (List.mem_reverse.1 hc))
    rw [h.source]
    exact stands_of_written h.written (List.mem_of_mem_take (List.mem_reverse.1 hmem))

end Shows
end Reader
end Scad
