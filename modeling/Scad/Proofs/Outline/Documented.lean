import Scad.Proofs.Doc.Written
import Scad.Proofs.Outline.Comment
import Scad.Proofs.Outline.Core
import Scad.Proofs.Token.Insert

/-!
# Scad.Proofs.Outline.Documented

Documentation written above a declaration becomes the documentation of that declaration.

* `Doc.comments`: documentation as lines of comments.
* `Declaration.document`: a forest in which the declaration at an offset has other documentation.
* `Outline.document_nest`: items of which one has other documentation have the forest in which its
  declaration has it.
* `Leaf.doc_comments`: the documentation of a leaf below documentation in comments.
* `Outline.documented_of_written`: with documentation written above one of its declarations, a
  source has the same declarations, and that one has this documentation.
-/

namespace Scad

open Text

/-- Documentation as lines of comments, each behind the blanks `pad`. -/
def Doc.comments (pad : List Char) (d : Doc) : List Char :=
  d.written.flatMap fun line => pad ++ "// ".toList ++ line ++ ['\n']

/-! ## One declaration with other documentation -/

namespace Declaration

mutual

/-- The declaration, where what begins at `offset` has the documentation `doc`. -/
def document (offset : Nat) (doc : Option Doc) : Declaration Nat → Declaration Nat
  | ⟨name, kind, span, nameSpan, old, children⟩ =>
    ⟨name, kind, span, nameSpan, if span.start = offset then doc else old,
      documentAll offset doc children⟩

/-- The forest, where what begins at `offset` has the documentation `doc`. -/
def documentAll (offset : Nat) (doc : Option Doc) : List (Declaration Nat) → List (Declaration Nat)
  | [] => []
  | d :: ds => d.document offset doc :: documentAll offset doc ds

end

variable {offset : Nat} {doc : Option Doc}

theorem documentAll_append (ds es : List (Declaration Nat)) :
    documentAll offset doc (ds ++ es) = documentAll offset doc ds ++ documentAll offset doc es := by
  induction ds with
  | nil => rfl
  | cons d ds ih => rw [List.cons_append, documentAll, ih, documentAll, List.cons_append]

end Declaration

/-- The same leaf but for comments and blanks, with the documentation `doc` if it is at `offset`. -/
structure Leaf.Documented (offset : Nat) (doc : Option Doc) (l m : Leaf) : Prop where
  core : m.core = l.core
  doc_eq : m.doc = if l.token.start = offset then doc else l.doc

/-- The same item, with the documentation `doc` if it begins at `offset`. -/
structure Item.Documented (offset : Nat) (doc : Option Doc) (it jt : Item) : Prop where
  core : jt.core = it.core
  first : it.first.Documented offset doc jt.first

/-- The shapes are the same but for the blanks before the tokens they hold. -/
inductive Item.Shape.Cored : Shape → Shape → Prop where
  | skipped : Cored .skipped .skipped
  | included (p q : Token) : Cored (.included p) (.included q)
  | declared {kind : Declaration.Kind} {n m : Token} : m.core = n.core →
      Cored (.declared kind n) (.declared kind m)
  | openedModule {n m : Token} : m.core = n.core → Cored (.openedModule n) (.openedModule m)
  | openedBlock : Cored .openedBlock .openedBlock
  | closed : Cored .closed .closed

theorem Item.Shape.cored_of_core {s r : Shape} (h : r.core = s.core) : s.Cored r := by
  cases s with
  | skipped => cases r <;> simp only [core, reduceCtorEq] at h; exact .skipped
  | included p => cases r <;> simp only [core, reduceCtorEq] at h; exact .included p _
  | declared kind n =>
    cases r <;> simp only [core, reduceCtorEq, declared.injEq] at h
    obtain ⟨rfl, h⟩ := h
    exact .declared h
  | openedModule n =>
    cases r <;> simp only [core, reduceCtorEq, openedModule.injEq] at h
    exact .openedModule h
  | openedBlock => cases r <;> simp only [core, reduceCtorEq] at h; exact .openedBlock
  | closed => cases r <;> simp only [core, reduceCtorEq] at h; exact .closed

namespace Outline

open Declaration

variable {offset : Nat} {doc : Option Doc}

theorem document_declare (kind : Declaration.Kind) {first first' : Leaf} {name name' : Token}
    (h : first.Documented offset doc first') (hname : name'.core = name.core) (stop : Nat)
    (inner : List (Declaration Nat)) :
    declare kind first' name' stop (documentAll offset doc inner) =
      (declare kind first name stop inner).document offset doc := by
  have hstart : first'.token.start = first.token.start := congrArg (·.token.start) h.core
  have htext : name'.core.text = name.core.text := by rw [hname]
  have hspan : spanOf name'.core = spanOf name.core := by rw [hname]
  change name'.text = name.text at htext
  change spanOf name' = spanOf name at hspan
  rw [declare, declare, document, hstart, htext, hspan, h.doc_eq]

/-- The same open block in a forest with other documentation. -/
structure Frame.Documented (offset : Nat) (doc : Option Doc) (f g : Frame) : Prop where
  owner : Option.Rel (fun p q : Leaf × Token => p.1.Documented offset doc q.1 ∧ q.2.core = p.2.core)
    f.owner g.owner
  before : g.before = documentAll offset doc f.before

theorem document_close {f g : Frame} (h : f.Documented offset doc g)
    (inner : List (Declaration Nat)) (stop : Nat) :
    g.close (documentAll offset doc inner) stop = documentAll offset doc (f.close inner stop) := by
  obtain ⟨owner, before⟩ := f
  obtain ⟨owner', before'⟩ := g
  obtain ⟨howner, rfl⟩ := h
  cases howner with
  | none => exact (documentAll_append before inner).symm
  | some ho =>
    simp only [Frame.close, document_declare .module ho.1 ho.2, documentAll_append]
    rfl

theorem document_foldl {fs gs : List Frame} (h : List.Forall₂ (Frame.Documented offset doc) fs gs)
    (found : List (Declaration Nat)) (stop : Nat) :
    gs.foldl (fun inner f => f.close inner stop) (documentAll offset doc found) =
      documentAll offset doc (fs.foldl (fun inner f => f.close inner stop) found) := by
  induction h generalizing found with
  | nil => rfl
  | cons hf _ ih => rw [List.foldl_cons, List.foldl_cons, document_close hf, ih]

theorem document_nestFrom {its jts : List Item}
    (h : List.Forall₂ (Item.Documented offset doc) its jts) {fs gs : List Frame}
    (hf : List.Forall₂ (Frame.Documented offset doc) fs gs) (found : List (Declaration Nat))
    (stop : Nat) :
    nestFrom gs (documentAll offset doc found) stop jts =
      documentAll offset doc (nestFrom fs found stop its) := by
  induction h generalizing fs gs found stop with
  | nil => exact document_foldl hf found stop
  | @cons it jt its jts hit _ ih =>
    have hshape : it.shape.Cored jt.shape :=
      Item.Shape.cored_of_core (congrArg Item.shape hit.core)
    have hstop : jt.stop = it.stop := by rw [← Item.stop_core, hit.core, Item.stop_core]
    simp only [nestFrom, hstop]
    generalize it.shape = s at hshape ⊢
    generalize jt.shape = r at hshape ⊢
    cases hshape with
    | skipped => exact ih hf found it.stop
    | included p q => exact ih hf found it.stop
    | @declared kind name _ hname =>
      have hfound := ih hf (found ++ [declare kind it.first name it.stop []]) it.stop
      rwa [documentAll_append, documentAll, documentAll, ← document_declare kind hit.first hname]
        at hfound
    | openedModule hname => exact ih (.cons ⟨.some ⟨hit.first, hname⟩, rfl⟩ hf) [] it.stop
    | openedBlock => exact ih (.cons ⟨.none, rfl⟩ hf) [] it.stop
    | closed =>
      cases hf with
      | nil => exact ih .nil found it.stop
      | cons hg hgs =>
        simp only [document_close hg]
        exact ih hgs _ it.stop

/-- Items with other documentation for what begins at an offset have the forest with it. -/
theorem document_nest {its jts : List Item}
    (h : List.Forall₂ (Item.Documented offset doc) its jts) :
    nest jts = documentAll offset doc (nest its) :=
  document_nestFrom h .nil [] 0

end Outline

/-- Leaves of which one has other documentation are read as items of which one has it. -/
theorem Item.documented_ofLeaves {offset : Nat} {doc : Option Doc} (eof : Nat) {ls ms : List Leaf}
    (h : List.Forall₂ (Leaf.Documented offset doc) ls ms) :
    List.Forall₂ (Item.Documented offset doc) (ofLeaves eof ls) (ofLeaves eof ms) := by
  fun_induction ofLeaves eof ls generalizing ms with
  | case1 =>
    rw [List.forall₂_nil_left_iff.1 h, ofLeaves]
    exact .nil
  | case2 l ls ih =>
    obtain ⟨m, ms, hm, hms, rfl⟩ := List.forall₂_cons_left_iff.1 h
    have hcores : ms.map Leaf.core = ls.map Leaf.core := by
      clear h ih
      induction hms with
      | nil => rfl
      | cons hl _ ih => rw [List.map_cons, List.map_cons, hl.core, ih]
    have hnext : coreRest (next eof m ms) = coreRest (next eof l ls) := by
      rw [← next_core, ← next_core, hm.core, hcores]
    -- both items take the same number of leaves
    have hlength : (next eof m ms).1.leaves.length = (next eof l ls).1.leaves.length := by
      have hcore : (next eof m ms).1.core = (next eof l ls).1.core := congrArg Prod.fst hnext
      simpa [leaves, core] using congrArg (fun it => it.leaves.length) hcore
    have hrest : List.Forall₂ (Leaf.Documented offset doc) (next eof l ls).2 (next eof m ms).2 := by
      have hdrop := List.forall₂_drop (next eof l ls).1.leaves.length h
      rw [← next_append eof l ls, ← next_append eof m ms, List.drop_left, ← hlength,
        List.drop_left] at hdrop
      exact hdrop
    rw [ofLeaves]
    refine .cons ⟨congrArg Prod.fst hnext, ?_⟩ (ih hrest)
    rw [first_next, first_next]
    exact hm

/-! ## Leaves below lines of comments -/

namespace Leaf

/-- The comments at the end of some tokens, nearest to the end first, after comments already
read. -/
def trailing (comments ts : List Token) : List Token :=
  ts.foldl (fun cs t => if t.isComment then t :: cs else []) comments

theorem ofTokensFrom_append (cs ts us : List Token) :
    ofTokensFrom cs (ts ++ us) = ofTokensFrom cs ts ++ ofTokensFrom (trailing cs ts) us := by
  induction ts generalizing cs with
  | nil => rfl
  | cons t ts ih =>
    have htrailing : trailing cs (t :: ts) =
        trailing (if t.isComment then t :: cs else []) ts := rfl
    rw [List.cons_append, ofTokensFrom, ofTokensFrom, htrailing]
    split
    · exact ih _
    · rw [ih, List.cons_append]

theorem ofTokensFrom_comments {cs ds : List Token} (h : ∀ c ∈ ds, c.isComment = true)
    (us : List Token) : ofTokensFrom cs (ds ++ us) = ofTokensFrom (ds.reverse ++ cs) us := by
  induction ds generalizing cs with
  | nil => rfl
  | cons c ds ih =>
    rw [List.forall_mem_cons] at h
    rw [List.cons_append, ofTokensFrom, if_pos h.1, ih h.2]
    simp

end Leaf

namespace Token

theorem isComment_lineComments {pad : List Char} {offset : Nat} {gap : List Char}
    {lines : List (List Char)} :
    ∀ c ∈ lineComments pad offset gap lines, c.isComment = true := by
  induction lines generalizing offset gap with
  | nil => simp [lineComments]
  | cons line lines ih =>
    rw [lineComments, List.forall_mem_cons]
    exact ⟨rfl, ih⟩

/-- Lines of comments all belong to what stands below them, with what stands right above them. -/
theorem docRun_lineComments {pad : List Char} (hpad : '\n' ∉ pad) {offset : Nat} {gap : List Char}
    (hgap : '\n' ∈ gap ∨ offset = 0) (lines : List (List Char)) (cs : List Token) :
    Leaf.docRun ((gapBelow gap lines).count '\n')
        ((lineComments pad offset gap lines).reverse ++ cs) =
      (lineComments pad offset gap lines).reverse ++ Leaf.docRun (gap.count '\n') cs := by
  induction lines generalizing offset gap cs with
  | nil => rfl
  | cons line lines ih =>
    have hnewline : '\n' ∈ ['\n'] := List.mem_singleton_self _
    rw [gapBelow_cons, lineComments, List.reverse_cons, List.append_assoc, List.singleton_append,
      ih (.inl hnewline), List.append_assoc, List.singleton_append]
    -- the topmost of the lines is followed by what stands above it
    generalize ht : (⟨.lineComment, offset + (gap ++ pad).length, gap ++ pad, '/' :: '/' :: line⟩ :
      Token) = t
    have hstarts : t.startsLine = true := by
      rw [← ht, startsLine]
      rcases hgap with hgap | rfl
      · simp [hgap]
      · simp
    have habove : t.newlinesBefore = gap.count '\n' := by
      rw [← ht, newlinesBefore, List.count_append, List.count_eq_zero.2 hpad, Nat.add_zero]
    have hkind : t.kind ≠ .blockComment := by
      rw [← ht]
      exact Kind.noConfusion
    rw [Leaf.docRun, if_neg (by simp [hstarts]), if_neg hkind, habove]

end Token

/-- The lines of documentation are the content of its comments. -/
theorem Doc.contentLines_comments {lines : List (List Char)} (h : ∀ line ∈ lines, Inline line)
    {pad : List Char} {offset : Nat} {gap : List Char} :
    (Token.lineComments pad offset gap (lines.map (' ' :: ·))).flatMap
      (fun c => contentLines c.text) = lines := by
  induction lines generalizing offset gap with
  | nil => rfl
  | cons line lines ih =>
    rw [List.forall_mem_cons] at h
    have hline : contentLines ('/' :: '/' :: ' ' :: line) = [line] := by
      simp [contentLines, contentLine, dropLead, dropLead?, trimEnd_of_trim h.1.trim_eq]
    rw [List.map_cons, Token.lineComments, List.flatMap_cons, hline, ih h.2]
    rfl

/-- Documentation in comments right above a leaf without any is the documentation of the leaf. -/
theorem Leaf.doc_comments {d : Doc} (hd : d.WellFormed) {pad : List Char} (hpad : '\n' ∉ pad)
    {offset : Nat} {gap : List Char} (hgap : '\n' ∈ gap ∨ offset = 0) {cs : List Token}
    {t u : Token} (ht : t.newlinesBefore = gap.count '\n')
    (hnone : Leaf.doc ⟨cs, t⟩ = none)
    (hu : u.newlinesBefore = (Token.gapBelow gap (d.written.map (' ' :: ·))).count '\n') :
    Leaf.doc ⟨(Token.lineComments pad offset gap (d.written.map (' ' :: ·))).reverse ++ cs, u⟩ =
      some d := by
  rw [Leaf.doc] at hnone ⊢
  simp only [ht] at hnone
  have hblank := Doc.ofLines?_eq_none_iff.1 hnone
  simp only [hu, Token.docRun_lineComments hpad hgap, List.reverse_append, List.reverse_reverse,
    List.flatMap_append, Doc.contentLines_comments (Doc.written_inline hd)]
  exact Doc.ofLines?_written hd hblank

namespace Leaf

/-- A leaf with other documentation among leaves that stand one after another. -/
theorem documented_middle {before after : List Leaf} {l m : Leaf} {doc : Option Doc}
    (h : Apart (before ++ l :: after)) (hcore : m.core = l.core) (hdoc : m.doc = doc) :
    List.Forall₂ (Documented l.token.start doc) (before ++ l :: after) (before ++ m :: after) := by
  have hsame : ∀ k : Leaf, k.token.start ≠ l.token.start → Documented l.token.start doc k k :=
    fun k hk => ⟨rfl, (if_neg hk).symm⟩
  have hbefore : ∀ k ∈ before, k.token.start ≠ l.token.start := by
    intro k hk
    have hstop := h.before hk (m := l) List.mem_cons_self
    have hlong := h.nonempty k (List.mem_append_left _ hk)
    omega
  have hafter : ∀ k ∈ after, k.token.start ≠ l.token.start := by
    intro k hk
    have hstop := (List.pairwise_cons.1 h.right.pairwise).1 k hk
    have hlong := h.nonempty l (by simp)
    omega
  have hl : Documented l.token.start doc l m := ⟨hcore, by rw [if_pos rfl, hdoc]⟩
  exact List.rel_append (List.forall₂_same.2 fun k hk => hsame k (hbefore k hk))
    (.cons hl (List.forall₂_same.2 fun k hk => hsame k (hafter k hk)))

end Leaf

/-! ## Declarations below documentation -/

/-- The text consists of blanks on one line. -/
def Text.Indentation (s : List Char) : Prop := ∀ c ∈ s, isBlank c = true ∧ c ≠ '\n'

/-- Between the lines `above` and the declaration there are only the blanks `indent`. -/
structure Declaration.BeginsLine (above indent : List Char) (d : Declaration Nat) : Prop where
  above_ends : ∀ c ∈ above.getLast?, c = '\n'
  indentation : Indentation indent
  start_eq : d.span.start = (above ++ indent).length

/-- The gap of a token that begins its line reaches up to the lines above. -/
theorem Token.gap_of_line {above indent rest tail : List Char} {before after : List Token}
    {t : Token} (hs : above ++ indent ++ rest = spell (before ++ t :: after) ++ tail)
    (hw : Written 0 tail (before ++ t :: after)) (habove : ∀ c ∈ above.getLast?, c = '\n')
    (hindent : Indentation indent) (hstart : t.start = (above ++ indent).length) :
    ∃ gap, above = spell before ++ gap ∧ t.gap = gap ++ indent ∧ ('\n' ∈ gap ∨ before = []) := by
  have hnewline : '\n' ∉ indent := fun h => (hindent _ h).2 rfl
  have hbefore : above ++ indent = spell before ++ t.gap := by
    rw [source_eq, List.append_assoc _ t.text] at hs
    exact List.append_inj_left hs (hstart.symm.trans (start_eq hw))
  have hown : t.OwnLine (above ++ indent ++ rest) := by
    intro c hc
    rw [lineBefore, hstart, List.take_left, List.mem_reverse, List.reverse_append,
      List.takeWhile_append_of_pos (bne_newline (by simpa using hnewline))] at hc
    have hnone : above.reverse.takeWhile (· != '\n') = [] := by
      cases hr : above.reverse with
      | nil => rfl
      | cons d ds =>
        have hd : d = '\n' := habove d (by rw [← List.head?_reverse, hr]; rfl)
        simp [hd]
    rw [hnone, List.append_nil, List.mem_reverse] at hc
    exact (hindent c hc).1
  have hfirst : '\n' ∈ t.gap ∨ before = [] := by
    have hline := (ownLine_iff hs hw rfl).1 hown
    rw [startsLine, Bool.or_eq_true, List.contains_iff_mem, beq_iff_eq, start_eq hw,
      List.length_append] at hline
    refine hline.imp id fun hlength => ?_
    cases before with
    | nil => rfl
    | cons u us =>
      have hfilled := List.length_pos_iff.2 (sound_of_written hw (t := u) (by simp)).text_ne_nil
      rw [spell_cons, List.length_append, List.length_append] at hlength
      omega
  rcases List.append_eq_append_iff.1 hbefore with ⟨x, hspell, hi⟩ | ⟨gap, ha, hgap⟩
  · rcases hfirst with hmem | rfl
    · exact absurd (hi ▸ List.mem_append_right x hmem) hnewline
    · obtain ⟨rfl, rfl⟩ := List.append_eq_nil_iff.1 hspell.symm
      exact ⟨[], rfl, hi.symm, .inr rfl⟩
  · refine ⟨gap, ha, hgap, hfirst.imp (fun hmem => ?_) id⟩
    rw [hgap, List.mem_append] at hmem
    exact hmem.resolve_right hnewline

/-- Tokens after the first are close to themselves at later offsets. -/
theorem Token.close_shift {offset : Nat} {tail : List Char} {ts : List Token}
    (hw : Written offset tail ts) (ho : 0 < offset) (n : Nat) :
    List.Forall₂ Close ts (ts.map (shift n)) := by
  induction ts generalizing offset with
  | nil => exact .nil
  | cons t ts ih =>
    obtain ⟨hsound, hstart, -, hws⟩ := hw
    have hline : (t.shift n).startsLine = t.startsLine := by
      have h1 : (t.start == t.gap.length) = false := by
        rw [beq_eq_false_iff_ne]
        omega
      have h2 : (t.start + n == t.gap.length) = false := by
        rw [beq_eq_false_iff_ne]
        omega
      simp only [startsLine, shift, h1, h2]
    have hpos : 0 < t.stop := by
      rw [stop]
      omega
    exact .cons ⟨⟨⟨rfl, .inl rfl⟩, hsound, hline⟩, Iff.rfl, Iff.rfl⟩ (ih hws hpos)

open Token in
/-- Lines of comments above a token that begins its line are read as comments, and all other tokens
are read as before. -/
theorem tokenize_comments {above indent rest pad : List Char} {before after : List Token}
    {t : Token} (h : tokenize (above ++ indent ++ rest) = .ok (before ++ t :: after))
    (habove : ∀ c ∈ above.getLast?, c = '\n') (hindent : Indentation indent)
    (hstart : t.start = (above ++ indent).length) (hpad : Indentation pad)
    {lines : List (List Char)} (hlines : ∀ line ∈ lines, '\n' ∉ line) :
    ∃ gap, t.gap = gap ++ indent ∧ ('\n' ∈ gap ∨ (spell before).length = 0) ∧
      tokenize (above ++ commentLines pad lines ++ indent ++ rest) =
        .ok (before ++ (lineComments pad (spell before).length gap lines ++
          t.regap (commentLines pad lines).length (gapBelow gap lines ++ indent) ::
            after.map (shift (commentLines pad lines).length))) := by
  obtain ⟨tail, hs, hw⟩ := Layout.written_of_tokenize h
  obtain ⟨gap, rfl, hgap, hfirst⟩ := gap_of_line hs hw habove hindent hstart
  obtain ⟨later, hlater, hread, hother⟩ := (tokenizeFrom_eq_ok_iff.1 h).cut
  obtain ⟨body, rfl, hregap⟩ := hread.regap
  obtain rfl : rest = body := by
    rw [hgap, List.append_assoc, List.append_assoc] at hlater
    simpa using hlater
  have hgapblank : ∀ c ∈ gap ++ indent, isBlank c = true := hgap ▸ hw.append_right.1.gap_blank
  rw [List.forall_mem_append] at hgapblank
  have hbelow : ∀ c ∈ gapBelow gap lines ++ indent, isBlank c = true := by
    rw [gapBelow]
    split
    · exact List.forall_mem_append.2 hgapblank
    · exact List.forall_mem_append.2 ⟨List.forall_mem_singleton.2 rfl, hgapblank.2⟩
  have hlength := congrArg List.length (spell_lineComments pad (spell before).length gap lines)
  simp only [List.length_append] at hlength hstart
  rw [Nat.zero_add] at hother
  have hbody : Reads (before.foldl opensPath false)
      ((spell before).length + (spell (lineComments pad (spell before).length gap lines)).length)
      (gapBelow gap lines ++ (indent ++ rest))
      (t.regap (commentLines pad lines).length (gapBelow gap lines ++ indent) ::
        after.map (shift (commentLines pad lines).length)) := by
    rw [← List.append_assoc]
    refine hregap hbelow ?_
    rw [List.length_append]
    omega
  have hcomments := Reads.lineComments (fun c hc => (hpad c hc).1) hlines hgapblank.1 hbody
  have hsame : before = [] ∨
      SameBlank (t.gap ++ rest) (gap ++ commentLines pad lines ++ (indent ++ rest)) := by
    rcases hfirst with hmem | hnil
    · obtain ⟨c, cs, rfl⟩ := List.exists_cons_of_ne_nil (List.ne_nil_of_mem hmem)
      refine .inr ⟨c, cs ++ indent ++ rest, cs ++ commentLines pad lines ++ (indent ++ rest),
        hgapblank.1 c List.mem_cons_self, ?_, rfl⟩
      rw [hgap]
      rfl
    · exact .inl hnil
  refine ⟨gap, hgap, hfirst.imp id fun hnil => by rw [hnil]; rfl, ?_⟩
  have hsource : spell before ++ gap ++ commentLines pad lines ++ indent ++ rest =
      spell before ++ (gap ++ commentLines pad lines ++ (indent ++ rest)) := by simp
  rw [hsource, tokenize, tokenizeFrom_eq_ok_iff]
  exact hother hcomments hsame

/-- Comments before a token go to its leaf, with the comments at the end of what stands before
them. -/
theorem Leaf.ofTokens_below {before header after : List Token} {t : Token}
    (hheader : ∀ c ∈ header, c.isComment = true) (ht : t.isComment = false) :
    ofTokens (before ++ (header ++ t :: after)) =
      ofTokens before ++ ⟨header.reverse ++ trailing [] before, t⟩ :: ofTokens after := by
  rw [ofTokens, ofTokensFrom_append, ofTokensFrom_comments hheader, ofTokensFrom,
    if_neg (by simp [ht])]
  rfl

theorem Leaf.ofTokens_divided {before after : List Token} {t : Token} (ht : t.isComment = false) :
    ofTokens (before ++ t :: after) =
      ofTokens before ++ ⟨trailing [] before, t⟩ :: ofTokens after := by
  have hnil : ∀ c ∈ ([] : List Token), c.isComment = true := by simp
  exact ofTokens_below hnil ht

theorem Leaf.comments_eq {before after : List Token} {tail : List Char} {l : Leaf}
    (hw : Written 0 tail (before ++ l.token :: after)) (ht : l.token.isComment = false)
    (h : l ∈ ofTokens (before ++ l.token :: after)) : l.comments = trailing [] before := by
  have hapart := apart_ofTokens hw
  rw [ofTokens_divided ht] at hapart h
  exact congrArg comments
    (hapart.eq_of_start (m := ⟨trailing [] before, l.token⟩) h (by simp) rfl)

/-- Leaves are alike wherever the leaf `l` and what follows it begin. -/
theorem Leaf.alike_regap {after : List Token} {offset : Nat} {tail : List Char}
    (hw : Written offset tail after) (ho : 0 < offset) (before : List Leaf)
    (comments : List Token) (t : Token) (gap : List Char) (n : Nat) :
    List.Forall₂ (Alike fun _ _ => True)
      (before ++ ⟨comments, t.regap 0 gap⟩ :: ofTokens after)
      (before ++ ⟨comments, t.regap n gap⟩ :: ofTokens (after.map (Token.shift n))) := by
  have hrefl : ∀ l : Leaf, l.Alike (fun _ _ => True) l := fun l =>
    ⟨rfl, fun _ => rfl, fun _ => rfl, rfl, trivial, trivial⟩
  have hclose := Token.close_shift hw ho n
  have hafter : List.Forall₂ (Alike fun _ _ => True) (ofTokens after)
      (ofTokens (after.map (Token.shift n))) :=
    alike_ofTokensFrom hclose (hclose.imp fun _ _ _ => ⟨trivial, trivial⟩) .nil (by simp)
  refine List.rel_append (List.forall₂_same.2 fun l _ => hrefl l) (.cons ?_ hafter)
  exact ⟨rfl, fun _ => rfl, fun _ => rfl, rfl, trivial, trivial⟩

namespace Outline

open Declaration

/-- No two declarations of a source begin at one offset. -/
theorem eq_of_start {source : List Char} {ts : List Token} (h : tokenize source = .ok ts)
    {d e : Declaration Nat} (hd : Occurs children d (ofTokens source.length ts).declarations)
    (he : Occurs children e (ofTokens source.length ts).declarations)
    (hstart : d.span.start = e.span.start) : d = e := by
  obtain ⟨tail, rfl, hw⟩ := Layout.written_of_tokenize h
  obtain ⟨hi, hfilled⟩ := filled_ofTokens hw
  exact Declaration.eq_of_start (fun d hd => (hfilled.all d hd).1) hfilled.inOrder hd he hstart

/-- Comments put before a token give its documentation to what begins with it, and change nothing
else but offsets. -/
theorem bare_below {before header after : List Token} {t : Token} {tail : List Char}
    (hw : Written 0 tail (before ++ t :: after)) (ht : t.isComment = false)
    (hheader : ∀ c ∈ header, c.isComment = true) (gap : List Char) (n eof eof' : Nat) :
    bare (ofTokens eof'
        (before ++ (header ++ t.regap n gap :: after.map (Token.shift n)))).declarations =
      bare (documentAll t.start
        (Leaf.doc ⟨header.reverse ++ Leaf.trailing [] before, t.regap 0 gap⟩)
        (ofTokens eof (before ++ t :: after)).declarations) := by
  have hapart := Leaf.apart_ofTokens hw
  rw [Leaf.ofTokens_divided ht] at hapart
  have hold := Leaf.documented_middle hapart
    (m := ⟨header.reverse ++ Leaf.trailing [] before, t.regap 0 gap⟩) rfl rfl
  obtain ⟨hsound, -, -, hafter⟩ := hw.append_right
  have hlater : 0 < t.stop := Nat.lt_of_le_of_lt (Nat.zero_le _) hsound.start_lt_stop
  have hnew := Leaf.alike_regap hafter hlater (Leaf.ofTokens before)
    (header.reverse ++ Leaf.trailing [] before) t gap n
  rw [← Leaf.ofTokens_below hheader (t := t.regap n gap) ht] at hnew
  calc
    bare (ofTokens eof' (before ++ (header ++ t.regap n gap :: after.map _))).declarations =
        bare (nest (Item.ofLeaves eof (Leaf.ofTokens before ++
          ⟨header.reverse ++ Leaf.trailing [] before, t.regap 0 gap⟩ :: Leaf.ofTokens after))) :=
      nest_alike (Item.alike_ofLeaves trivial hnew)
    _ = _ := by
      rw [document_nest (Item.documented_ofLeaves eof hold), ← Leaf.ofTokens_divided ht]
      rfl

/-- With documentation written above one of its declarations that has none, a source has the same
declarations but for offsets, and that one has this documentation. -/
theorem documented_of_written {above indent rest pad : List Char} {ts : List Token}
    {d : Declaration Nat} {doc : Doc} (h : tokenize (above ++ indent ++ rest) = .ok ts)
    (hd : Occurs children d (ofTokens (above ++ indent ++ rest).length ts).declarations)
    (hline : d.BeginsLine above indent) (hnone : d.doc = none) (hdoc : doc.WellFormed)
    (hpad : Indentation pad) :
    (∀ e, Occurs children e (ofTokens (above ++ indent ++ rest).length ts).declarations →
      e.span.start = d.span.start → e = d) ∧
    ∃ us, tokenize (above ++ doc.comments pad ++ indent ++ rest) = .ok us ∧
      bare (ofTokens (above ++ doc.comments pad ++ indent ++ rest).length us).declarations =
        bare (documentAll d.span.start (some doc)
          (ofTokens (above ++ indent ++ rest).length ts).declarations) := by
  obtain ⟨tail, hs, hw⟩ := Layout.written_of_tokenize h
  -- the token that the declaration begins with, and what stands before it
  obtain ⟨-, leaves, first, later, hls, -, hdeclares⟩ := State.item_of_occurs hd
  have hstart : first.token.start = d.span.start := by
    rw [hdeclares.start, Item.first_next]
  have hfirst : first ∈ Leaf.ofTokens ts := by simp [hls]
  have hsig := List.mem_filter.1 (Leaf.token_mem_significant hfirst)
  have ht : first.token.isComment = false := by simpa using hsig.2
  obtain ⟨before, after, rfl⟩ := List.append_of_mem hsig.1
  -- the tokens of the source with the documentation
  have hlines : ∀ line ∈ doc.written.map (' ' :: ·), '\n' ∉ line := by
    intro line hmem
    obtain ⟨written, hwritten, rfl⟩ := List.mem_map.1 hmem
    simpa using (Doc.written_inline hdoc written hwritten).no_newline
  obtain ⟨gap, hgap, habove, hus⟩ := tokenize_comments h hline.above_ends hline.indentation
    (hstart.trans hline.start_eq) hpad hlines
  have hcomments : Token.commentLines pad (doc.written.map (' ' :: ·)) = doc.comments pad := by
    simp [Token.commentLines, Doc.comments, List.flatMap_map]
  rw [hcomments] at hus
  refine ⟨fun e he hsame => eq_of_start h he hd hsame, _, hus, ?_⟩
  have hundocumented : Leaf.doc ⟨Leaf.trailing [] before, first.token⟩ = none := by
    rw [← Leaf.comments_eq hw ht hfirst, ← hnone, hdeclares.doc, Item.first_next]
  have hnewline : ∀ {s : List Char}, Indentation s → s.count '\n' = 0 :=
    fun hs => List.count_eq_zero.2 fun hmem => (hs _ hmem).2 rfl
  have hbefore : first.token.newlinesBefore = gap.count '\n' := by
    rw [Token.newlinesBefore, hgap, List.count_append, hnewline hline.indentation, Nat.add_zero]
  have hbelow := Leaf.doc_comments hdoc (List.count_eq_zero.1 (hnewline hpad)) habove hbefore
    hundocumented
    (u := first.token.regap 0 (Token.gapBelow gap (doc.written.map (' ' :: ·)) ++ indent))
    (by rw [Token.newlinesBefore, Token.regap, List.count_append, hnewline hline.indentation,
      Nat.add_zero])
  rw [bare_below hw ht Token.isComment_lineComments _ _ (above ++ indent ++ rest).length, hbelow,
    hstart]

/-- The tokens of a module `m` with the variable `x` on a line of its own. -/
def moduleTokens : List Token :=
  [⟨.ident, 0, [], "module".toList⟩, ⟨.ident, 7, [' '], ['m']⟩, ⟨.punct, 8, [], ['(']⟩,
    ⟨.punct, 9, [], [')']⟩, ⟨.punct, 10, [], ['{']⟩, ⟨.ident, 14, "\n  ".toList, ['x']⟩,
    ⟨.punct, 15, [], ['=']⟩, ⟨.number, 16, [], ['1']⟩, ⟨.punct, 17, [], [';']⟩,
    ⟨.punct, 18, [], ['}']⟩]

/-- Documentation with a blank line in its body and an annotation of each sort. -/
def fullDoc : Doc :=
  ⟨"A\n\nB", [.param ⟨"h", some .named, ["number", "list"], "Height"⟩, .see "n"]⟩

theorem wellFormed_fullDoc : fullDoc.WellFormed where
  ne_empty := .inl (by decide)
  trim_line := by decide +kernel
  no_tag := by decide +kernel
  first := by decide +kernel
  last := by decide +kernel
  annotation := by
    intro a ha
    simp only [fullDoc, List.mem_cons, List.not_mem_nil, or_false] at ha
    rcases ha with rfl | rfl
    · have hgroup : ∀ c ∈ "Height".toList.head?, c ≠ '(' ∧ c ≠ '{' := by
        rintro c ⟨⟩
        decide
      refine ⟨by decide, fun t ht => ?_, ⟨by decide +kernel, by decide⟩, hgroup⟩
      simp only [List.mem_cons, List.not_mem_nil, or_false] at ht
      rcases ht with rfl | rfl
      · exact ⟨by decide, ⟨by decide +kernel, by decide⟩, by decide, by decide⟩
      · exact ⟨by decide, ⟨by decide +kernel, by decide⟩, by decide, by decide⟩
    · exact Doc.isWord_iff.2 (by decide)

/-- The variable in the module, documented by lines at the beginning of their lines. -/
theorem documented_of_written_module :
    ∃ us, tokenize ("module m()\x7b\n".toList ++ fullDoc.comments [] ++ "  ".toList ++
        "x=1;\x7d".toList) = .ok us ∧
      bare (ofTokens ("module m()\x7b\n".toList ++ fullDoc.comments [] ++ "  ".toList ++
          "x=1;\x7d".toList).length us).declarations =
        bare [⟨"m", .module, ⟨0, 19⟩, ⟨7, 8⟩, none,
          [⟨"x", .variable, ⟨14, 18⟩, ⟨14, 15⟩, some fullDoc, []⟩]⟩] := by
  have ht : tokenize ("module m()\x7b\n".toList ++ "  ".toList ++ "x=1;\x7d".toList) =
      .ok moduleTokens := by decide +kernel
  have hds : (ofTokens ("module m()\x7b\n".toList ++ "  ".toList ++ "x=1;\x7d".toList).length
      moduleTokens).declarations = [⟨"m", .module, ⟨0, 19⟩, ⟨7, 8⟩, none,
        [⟨"x", .variable, ⟨14, 18⟩, ⟨14, 15⟩, none, []⟩]⟩] := by with_unfolding_all rfl
  have hx : Occurs children ⟨"x", .variable, ⟨14, 18⟩, ⟨14, 15⟩, none, []⟩
      (ofTokens ("module m()\x7b\n".toList ++ "  ".toList ++ "x=1;\x7d".toList).length
        moduleTokens).declarations := by
    rw [hds]
    exact .under List.mem_cons_self (.here List.mem_cons_self)
  have hindent : Indentation "  ".toList := by
    intro c hc
    obtain rfl : c = ' ' := List.eq_of_mem_replicate (n := 2) hc
    decide
  have hpad : Indentation [] := List.forall_mem_nil _
  have hlast : "module m()\x7b\n".toList.getLast? = some '\n' := by decide
  have habove : ∀ c ∈ "module m()\x7b\n".toList.getLast?, c = '\n' := by
    rw [hlast]
    rintro c ⟨⟩
    rfl
  obtain ⟨-, us, hus, hbare⟩ :=
    documented_of_written ht hx ⟨habove, hindent, rfl⟩ rfl wellFormed_fullDoc hpad
  refine ⟨us, hus, ?_⟩
  rw [hbare, hds]
  rfl

end Outline
end Scad
