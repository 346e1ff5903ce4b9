import Mathlib.Data.List.Nodup
import Scad.Proofs.Token.Gap
import Scad.Proofs.Token.Partition
import Scad.Proofs.Workspace.Signature

/-!
# Scad.Proofs.Outline.Comment

The comments that document a declaration, found in the source.

* `Token.Above source run first`: the comments `run` stand right above the token `first`, each on a
  line of its own and with no blank line below it; a block comment can only be the topmost.
* `Token.Attached source comments run first`: of the comments before a token, the most that stand
  right above it. `Leaf.attached_docRun`: those are the ones that document a leaf.
* `Token.Preceded`: all comments between a token and the one before it that is no comment.
* `Outline.doc_of_comments`: the documentation of a declaration is read from the comments that
  stand right above it, and no comment documents two declarations.
-/

namespace Scad

open Text

/-- The part of its line that stands before an offset of a source. -/
def Text.lineBefore (source : List Char) (offset : Nat) : List Char :=
  ((source.take offset).reverse.takeWhile (· != '\n')).reverse

namespace Token

/-- Only blanks stand before the token on its line. -/
def OwnLine (source : List Char) (t : Token) : Prop :=
  ∀ c ∈ lineBefore source t.start, isBlank c = true

/-- The newlines of the source between the end of `t` and the start of `u`. -/
def newlinesTo (source : List Char) (t u : Token) : Nat :=
  ((source.take u.start).drop t.stop).count '\n'

/-- The comments, in the order of the source, stand right above the token. -/
structure Above (source : List Char) (run : List Token) (first : Token) : Prop where
  own_line : ∀ c ∈ run, c.OwnLine source
  near : (run ++ [first]).IsChain fun t u => newlinesTo source t u ≤ 1
  block_topmost : ∀ c ∈ run.tail, c.kind ≠ .blockComment

/-- The longest end of the comments that stands right above the token. -/
structure Attached (source : List Char) (comments run : List Token) (first : Token) : Prop where
  suffix : run <:+ comments
  above : Above source run first
  longest : ∀ run', run' <:+ comments → Above source run' first → run' <:+ run

/-- The comments between the token `first` and the token before it that is no comment, or the
beginning of the source. -/
def Preceded (ts comments : List Token) (first : Token) : Prop :=
  ∃ before after, ts = before ++ (comments ++ first :: after) ∧
    (∀ t ∈ before.getLast?, t.isComment = false) ∧ (∀ c ∈ comments, c.isComment = true) ∧
      first.isComment = false

/-! ## Comments above a token -/

section Source

variable {source tail : List Char} {ts before after : List Token} {t u : Token}

theorem ownLine_iff (hs : source = spell ts ++ tail) (hw : Written 0 tail ts)
    (hts : ts = before ++ t :: after) : t.OwnLine source ↔ t.startsLine = true := by
  subst hs hts
  have htake : (spell (before ++ t :: after) ++ tail).take t.start = spell before ++ t.gap := by
    rw [source_eq, List.append_assoc, start_eq hw, List.take_left]
  rw [← all_lineBefore hw, List.all_eq_true, OwnLine, lineBefore, htake]
  simp only [List.mem_reverse]

theorem newlinesTo_eq (hs : source = spell ts ++ tail) (hw : Written 0 tail ts)
    (hts : ts = before ++ t :: u :: after) : newlinesTo source t u = u.newlinesBefore := by
  subst hs hts
  obtain ⟨x, y, hsource, hstop, hstart⟩ := source_between hw
  have hlength : u.start = (x ++ u.gap).length := by
    rw [hstart, hstop, List.length_append]
  rw [newlinesTo, hsource, hlength, List.take_left, hstop, List.drop_left, newlinesBefore]

end Source

theorem above_nil (source : List Char) (first : Token) : Above source [] first :=
  ⟨by simp, by simp, by simp⟩

theorem above_concat {source : List Char} {run : List Token} {c first : Token} :
    Above source (run ++ [c]) first ↔
      c.OwnLine source ∧ newlinesTo source c first ≤ 1 ∧ (run = [] ∨ c.kind ≠ .blockComment) ∧
        Above source run c := by
  have hchain : (run ++ [c] ++ [first]).IsChain (fun t u => newlinesTo source t u ≤ 1) ↔
      (run ++ [c]).IsChain (fun t u => newlinesTo source t u ≤ 1) ∧
        newlinesTo source c first ≤ 1 := by
    rw [List.isChain_append]
    simp
  constructor
  · rintro ⟨hown, hnear, hblock⟩
    rw [List.forall_mem_append] at hown
    obtain ⟨hnear, hlast⟩ := hchain.1 hnear
    refine ⟨hown.2 c List.mem_cons_self, hlast, ?_, hown.1, hnear, fun d hd => hblock d ?_⟩
    · cases run with
      | nil => exact .inl rfl
      | cons d run => exact .inr (hblock c (by simp))
    · cases run with
      | nil => cases hd
      | cons e run => exact List.mem_append_left [c] hd
  · rintro ⟨hown, hlast, hblock, habove⟩
    refine ⟨List.forall_mem_append.2 ⟨habove.own_line, by simpa using hown⟩,
      hchain.2 ⟨habove.near, hlast⟩, fun d hd => ?_⟩
    cases run with
    | nil => cases hd
    | cons e run =>
      rcases List.mem_append.1 hd with hd | hd
      · exact habove.block_topmost d hd
      · rw [List.mem_singleton.1 hd]
        exact hblock.resolve_left (List.cons_ne_nil e run)

theorem Attached.unique {source : List Char} {comments run run' : List Token} {first : Token}
    (h : Attached source comments run first) (h' : Attached source comments run' first) :
    run = run' := by
  have hle := h'.longest run h.suffix h.above
  exact hle.eq_of_length (hle.length_le.antisymm (h.longest run' h'.suffix h'.above).length_le)

/-! ## The comments before a token -/

/-- A token has one place among tokens that are all different. -/
theorem cut_unique {as bs cs ds : List Token} {t : Token} (h : (as ++ t :: bs).Nodup)
    (he : as ++ t :: bs = cs ++ t :: ds) : as = cs ∧ bs = ds := by
  have hmem := (List.nodup_cons.1 (List.nodup_middle.1 h)).1
  rw [List.mem_append, not_or] at hmem
  obtain ⟨hleft, -, hright⟩ := (List.append_cons_inj_of_notMem hmem.1 hmem.2).1 he
  exact ⟨hleft, hright⟩

/-- The comments at the end of some tokens. -/
theorem takeWhile_comments {before comments : List Token}
    (hbefore : ∀ t ∈ before.getLast?, t.isComment = false)
    (hcomments : ∀ c ∈ comments, c.isComment = true) :
    (before ++ comments).reverse.takeWhile isComment = comments.reverse := by
  rw [List.reverse_append, List.takeWhile_append_of_pos fun c hc =>
    hcomments c (List.mem_reverse.1 hc)]
  have hstop : before.reverse.takeWhile isComment = [] := by
    cases hr : before.reverse with
    | nil => rfl
    | cons t ts =>
      have ht : t.isComment = false := hbefore t (by rw [← List.head?_reverse, hr]; rfl)
      exact List.takeWhile_cons_of_neg (by simp [ht])
  rw [hstop, List.append_nil]

section Preceded

variable {ts cs ds : List Token} {t u : Token}

theorem Preceded.mem (h : Preceded ts cs t) : t ∈ ts := by
  obtain ⟨before, after, rfl, -⟩ := h
  simp

theorem Preceded.unique (hne : ts.Nodup) (h : Preceded ts cs t) (h' : Preceded ts ds t) :
    cs = ds := by
  obtain ⟨before, after, hts, hbefore, hcs, -⟩ := h
  obtain ⟨before', after', hts', hbefore', hds, -⟩ := h'
  rw [← List.append_assoc] at hts hts'
  have hcut := (cut_unique (hts ▸ hne) (hts.symm.trans hts')).1
  rw [← List.reverse_inj, ← takeWhile_comments hbefore hcs, hcut,
    takeWhile_comments hbefore' hds]

/-- A comment stands before one token only. -/
theorem Preceded.eq_of_mem (hne : ts.Nodup) (h : Preceded ts cs t) (h' : Preceded ts ds u)
    {c : Token} (hc : c ∈ cs) (hd : c ∈ ds) : t = u := by
  obtain ⟨before, after, hts, -, hcs, ht⟩ := h
  obtain ⟨before', after', hts', -, hds, hu⟩ := h'
  obtain ⟨cs, cs', rfl⟩ := List.append_of_mem hc
  obtain ⟨ds, ds', rfl⟩ := List.append_of_mem hd
  rw [List.append_assoc, List.cons_append, ← List.append_assoc] at hts hts'
  have hcut := (cut_unique (hts ▸ hne) (hts.symm.trans hts')).2
  -- the first token after the comment that is no comment itself
  have hnext : ∀ (es : List Token) (v : Token) (rest : List Token),
      (∀ e ∈ es, e.isComment = true) → v.isComment = false →
      ((es ++ v :: rest).dropWhile isComment).head? = some v := by
    intro es v rest hes hv
    rw [List.dropWhile_append_of_pos hes, List.dropWhile_cons_of_neg (by simp [hv])]
    rfl
  have ht' := hnext cs' t after (fun e he => hcs e (by simp [he])) ht
  rw [hcut, hnext ds' u after' (fun e he => hds e (by simp [he])) hu] at ht'
  exact (Option.some.inj ht').symm

end Preceded
end Token

namespace Leaf

open Token

/-- The comments that document a leaf are the most that stand right above it. -/
theorem attached_docRun {source tail : List Char} {ts before after cs : List Token} {first : Token}
    (hs : source = Token.spell ts ++ tail) (hw : Written 0 tail ts)
    (hts : ts = before ++ (cs.reverse ++ first :: after)) :
    Attached source cs.reverse (docRun first.newlinesBefore cs).reverse first := by
  induction cs generalizing first after with
  | nil => exact ⟨List.suffix_refl _, above_nil source first, fun run' hrun _ => hrun⟩
  | cons c cs ih =>
    rw [List.reverse_cons, List.append_assoc] at hts
    have hown := ownLine_iff hs hw ((List.append_assoc before _ _).symm ▸ hts)
    have hnear := newlinesTo_eq hs hw ((List.append_assoc before _ _).symm ▸ hts)
    have hrest := ih hts
    rw [List.reverse_cons, docRun]
    split
    · rename_i hfar
      refine ⟨List.nil_suffix, above_nil source first, fun run' hrun habove => ?_⟩
      rcases List.suffix_concat_iff.1 hrun with rfl | ⟨run, rfl, -⟩
      · exact List.suffix_refl _
      · obtain ⟨h1, h2, -⟩ := above_concat.1 habove
        rw [hnear] at h2
        rcases hfar with hfar | hfar
        · omega
        · rw [hown.1 h1] at hfar
          cases hfar
    · rename_i hclose
      rw [not_or, Nat.not_lt, Bool.not_eq_false, ← hown, ← hnear] at hclose
      split
      · rename_i hblock
        refine ⟨List.suffix_append _ _, ?_, fun run' hrun habove => ?_⟩
        · rw [← List.nil_append [c]]
          exact above_concat.2 ⟨hclose.2, hclose.1, .inl rfl, above_nil source c⟩
        · rcases List.suffix_concat_iff.1 hrun with rfl | ⟨run, rfl, -⟩
          · exact List.nil_suffix
          · obtain ⟨-, -, h3, -⟩ := above_concat.1 habove
            rw [h3.resolve_right fun hk => hk hblock]
            exact List.suffix_refl _
      · rename_i hblock
        rw [List.reverse_cons]
        refine ⟨List.suffix_concat_iff.2 (.inr ⟨_, rfl, hrest.suffix⟩), ?_,
          fun run' hrun habove => ?_⟩
        · exact above_concat.2 ⟨hclose.2, hclose.1, .inr hblock, hrest.above⟩
        · rcases List.suffix_concat_iff.1 hrun with rfl | ⟨run, rfl, hsuffix⟩
          · exact List.nil_suffix
          · obtain ⟨-, -, -, h4⟩ := above_concat.1 habove
            exact List.suffix_concat_iff.2 (.inr ⟨run, rfl, hrest.longest run hsuffix h4⟩)

/-- The comments of a leaf are those between it and the leaf before. -/
theorem preceded_of_mem {cs front ts : List Token} {l : Leaf}
    (hfront : ∀ t ∈ front.getLast?, t.isComment = false) (hcs : ∀ c ∈ cs, c.isComment = true)
    (h : l ∈ ofTokensFrom cs ts) :
    Preceded (front ++ (cs.reverse ++ ts)) l.comments.reverse l.token := by
  induction ts generalizing cs front with
  | nil => cases h
  | cons t ts ih =>
    rw [ofTokensFrom] at h
    split at h
    · rename_i ht
      have hcs' : ∀ c ∈ t :: cs, c.isComment = true := List.forall_mem_cons.2 ⟨ht, hcs⟩
      simpa using ih hfront hcs' h
    · rename_i ht
      rw [Bool.not_eq_true] at ht
      rcases List.mem_cons.1 h with rfl | h
      · exact ⟨front, ts, rfl, hfront, fun c hc => hcs c (List.mem_reverse.1 hc), ht⟩
      · have hfront' : ∀ u ∈ (front ++ (cs.reverse ++ [t])).getLast?, u.isComment = false := by
          intro u hu
          rw [← List.append_assoc, List.getLast?_concat, Option.mem_some_iff] at hu
          rw [← hu, ht]
        simpa using ih hfront' (by simp) h

end Leaf

/-! ## Declarations -/

theorem Outline.State.Declares.doc {it : Item} {later : List Item} {e : Declaration Nat}
    (h : Declares it later e) : e.doc = it.first.doc := by
  cases h with
  | whole => rw [declare]
  | block => rw [declare]

/-- The comments, in the order of the source, stand right above the declaration, and no more do. -/
def Declaration.Commented (source : List Char) (ts : List Token) (d : Declaration Nat)
    (run : List Token) : Prop :=
  ∃ comments first, Token.Preceded ts comments first ∧ first.start = d.span.start ∧
    Token.Attached source comments run first

namespace Outline

/-- The documentation of a declaration is read from the comments that stand right above it, and from
all of them. They document no other declaration. -/
theorem doc_of_comments {source : List Char} {ts : List Token} (h : tokenize source = .ok ts)
    {d : Declaration Nat}
    (hd : Occurs Declaration.children d (ofTokens source.length ts).declarations) :
    (∃! run, d.Commented source ts run) ∧ ∀ run, d.Commented source ts run →
      d.doc = Doc.ofLines? (run.flatMap fun c => Doc.contentLines c.text) ∧
      ∀ e, Occurs Declaration.children e (ofTokens source.length ts).declarations →
        ∀ run', e.Commented source ts run' → ∀ c ∈ run, c ∈ run' → e = d := by
  obtain ⟨tail, hs, hw⟩ := Layout.written_of_tokenize h
  have hstarts := Token.nodup_start_of_written hw
  have hne : ts.Nodup := hstarts.of_map
  -- the first leaf of the declaration has the comments before it
  obtain ⟨-, before, first, rest, hls, -, hdeclares⟩ := State.item_of_occurs hd
  have hstart : first.token.start = d.span.start := by
    rw [hdeclares.start, Item.first_next]
  have hdoc : d.doc = first.doc := by
    rw [hdeclares.doc, Item.first_next]
  have hfirst : Token.Preceded ts first.comments.reverse first.token := by
    have hmem : first ∈ Leaf.ofTokensFrom [] ts := by
      show first ∈ Leaf.ofTokens ts
      simp [hls]
    have hnone : ∀ t ∈ ([] : List Token).getLast?, t.isComment = false := by simp
    simpa using Leaf.preceded_of_mem hnone (by simp) hmem
  have hrun : Token.Attached source first.comments.reverse
      (Leaf.docRun first.token.newlinesBefore first.comments).reverse first.token := by
    obtain ⟨front, after, hts, -⟩ := hfirst
    exact Leaf.attached_docRun hs hw hts
  have hunique : ∀ run, d.Commented source ts run →
      run = (Leaf.docRun first.token.newlinesBefore first.comments).reverse := by
    rintro run ⟨comments, t, hpreceded, ht, hattached⟩
    obtain rfl := List.inj_on_of_nodup_map hstarts hpreceded.mem hfirst.mem (ht.trans hstart.symm)
    obtain rfl := hpreceded.unique hne hfirst
    exact hattached.unique hrun
  refine ⟨⟨_, ⟨_, _, hfirst, hstart, hrun⟩, hunique⟩, fun run hcommented => ⟨?_, ?_⟩⟩
  · rw [hunique run hcommented, hdoc, Leaf.doc]
  · intro e he run' hcommented' c hc hc'
    obtain ⟨comments, t, hpreceded, ht, hattached⟩ := hcommented
    obtain ⟨comments', u, hpreceded', hu, hattached'⟩ := hcommented'
    have htu := hpreceded'.eq_of_mem hne hpreceded (hattached'.suffix.subset hc')
      (hattached.suffix.subset hc)
    subst hs
    obtain ⟨hi, hfilled⟩ := filled_ofTokens hw
    refine Declaration.eq_of_start (fun d hd => (hfilled.all d hd).1) hfilled.inOrder he hd ?_
    rw [← hu, ← ht, htu]

/-- The tokens of `x=1;//t`, `//a`, an empty line, `/*b*/`, `//c` and `y=2;`, each on a line. -/
def notedTokens : List Token :=
  [⟨.ident, 0, [], ['x']⟩, ⟨.punct, 1, [], ['=']⟩, ⟨.number, 2, [], ['1']⟩,
    ⟨.punct, 3, [], [';']⟩, ⟨.lineComment, 4, [], "//t".toList⟩,
    ⟨.lineComment, 8, ['\n'], "//a".toList⟩, ⟨.blockComment, 13, "\n\n".toList, "/*b*/".toList⟩,
    ⟨.lineComment, 19, ['\n'], "//c".toList⟩, ⟨.ident, 23, ['\n'], ['y']⟩,
    ⟨.punct, 24, [], ['=']⟩, ⟨.number, 25, [], ['2']⟩, ⟨.punct, 26, [], [';']⟩]

/-- The variable `y` is documented by the comments `b` and `c`. -/
theorem doc_of_comments_noted :
    tokenize (Token.spell notedTokens) = .ok notedTokens ∧
      ∃ d, Occurs Declaration.children d
          (ofTokens (Token.spell notedTokens).length notedTokens).declarations ∧
        d.name = "y" ∧ d.doc = some ⟨"b\nc", []⟩ ∧
        (∃! run, d.Commented (Token.spell notedTokens) notedTokens run) ∧
        ∀ run, d.Commented (Token.spell notedTokens) notedTokens run →
          d.doc = Doc.ofLines? (run.flatMap fun c => Doc.contentLines c.text) := by
  have ht : tokenize (Token.spell notedTokens) = .ok notedTokens := by decide +kernel
  have hd : (ofTokens (Token.spell notedTokens).length notedTokens).declarations =
      [⟨"x", .variable, ⟨0, 4⟩, ⟨0, 1⟩, none, []⟩,
        ⟨"y", .variable, ⟨23, 27⟩, ⟨23, 24⟩, some ⟨"b\nc", []⟩, []⟩] := by with_unfolding_all rfl
  have hy : Occurs Declaration.children
      ⟨"y", .variable, ⟨23, 27⟩, ⟨23, 24⟩, some ⟨"b\nc", []⟩, []⟩
      (ofTokens (Token.spell notedTokens).length notedTokens).declarations := by
    rw [hd]
    exact .here (by simp)
  obtain ⟨hunique, hdoc⟩ := doc_of_comments ht hy
  exact ⟨ht, _, hy, rfl, rfl, hunique, fun run hrun => (hdoc run hrun).1⟩

end Outline
end Scad
