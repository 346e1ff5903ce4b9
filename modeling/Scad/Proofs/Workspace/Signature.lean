import Scad.Proofs.Outline.Block
import Scad.Proofs.Signature
import Scad.Workspace

/-!
# Scad.Proofs.Workspace.Signature

The signature of a declaration and the tokens it is printed from.

* `Item.module_of_kind?`, `Item.ident_of_kind?`: what an item that declares something begins with.
* `Analysis.tokens_of_occurs`: the tokens of a declaration are those of its item and, if it has a
  block, some of those that follow.
* `Signature.header_parameters`: the header of a module ends where its parameter list does.
* `Workspace.signature_faithful`: a signature has the tokens of its declaration.
-/

namespace Scad

open Leaf Scad.Bracket

/-! ## Items that declare something -/

namespace Item

/-- The kind of the declaration that a shape gives the outline. -/
def Shape.kind? : Shape → Option Declaration.Kind
  | .declared kind _ => some kind
  | .openedModule _ => some .module
  | .skipped | .included _ | .openedBlock | .closed => none

theorem kind?_other (l : Leaf) (ls : List Leaf) : (other l ls).1.shape.kind? = none := by
  simp only [other]
  split <;> rfl

theorem kind?_reference (word path : Leaf) (ls : List Leaf) :
    (reference word path ls).1.shape.kind? = none := by
  fun_cases reference word path ls <;> rfl

theorem kind?_functionItem (eof : Nat) (keyword name : Leaf) (ls : List Leaf) :
    (functionItem eof keyword name ls).1.shape.kind? = some .function := by
  unfold functionItem
  dsimp only
  split
  · split <;> rfl
  · rfl

/-- A declaration begins with a name or a keyword. -/
theorem ident_of_kind? {eof : Nat} {l : Leaf} {ls : List Leaf}
    (h : (next eof l ls).1.shape.kind? ≠ none) : l.token.kind = .ident := by
  unfold next at h
  split at h
  · exact absurd rfl h
  split at h
  · rename_i hc
    exact hc.1
  split at h
  · rename_i hc
    exact hc.1
  split at h
  · split at h
    · exact absurd (kind?_reference _ _ _) h
    split at h
    · rename_i hc
      exact hc.1
    · exact absurd (kind?_other _ _) h
  · exact absurd (kind?_other _ _) h

theorem module_of_keyword {eof : Nat} {l : Leaf} {ls : List Leaf}
    (h : (keywordDeclaration eof .module l ls).1.shape.kind? ≠ none) :
    ∃ name rest, ls = name :: rest ∧ name.token.kind = .ident ∧
      keywordDeclaration eof .module l ls = moduleItem eof l name rest := by
  cases ls with
  | nil => exact absurd rfl h
  | cons name rest =>
    by_cases hname : name.token.kind = .ident
    · exact ⟨name, rest, rfl, hname, if_pos hname⟩
    · exact absurd (by simp [keywordDeclaration, hname, Shape.kind?]) h

theorem kind?_keyword_function (eof : Nat) (l : Leaf) (ls : List Leaf) :
    (keywordDeclaration eof .function l ls).1.shape.kind? ≠ some .module := by
  unfold keywordDeclaration
  split
  · split
    · simp [kind?_functionItem]
    · simp [Shape.kind?]
  · simp [Shape.kind?]

/-- A module is read with its keyword, its name and what may follow these. -/
theorem module_of_kind? {eof : Nat} {l : Leaf} {ls : List Leaf}
    (h : (next eof l ls).1.shape.kind? = some .module) :
    l.is "module" = true ∧ ∃ name rest, ls = name :: rest ∧ name.token.kind = .ident ∧
      next eof l ls = moduleItem eof l name rest := by
  unfold next at h ⊢
  split at h
  · cases h
  rename_i hbrace
  rw [if_neg hbrace]
  split at h
  · rename_i hword
    rw [if_pos hword]
    exact ⟨hword.2, module_of_keyword (by simp [h])⟩
  split at h
  · exact absurd h (kind?_keyword_function eof l ls)
  split at h
  · split at h
    · rw [kind?_reference] at h
      cases h
    split at h
    · cases h
    · rw [kind?_other] at h
      cases h
  · rw [kind?_other] at h
    cases h

/-- A parameter list that is not closed takes all leaves. -/
theorem parameters_rest {depth : Nat} {ls : List Leaf} (h : (parameters depth ls).ended = false) :
    (parameters depth ls).rest = [] := by
  fun_induction parameters depth ls with
  | case1 => rfl
  | case2 _ _ _ _ ih => exact ih h
  | case3 => cases h
  | case4 _ _ _ _ _ _ ih => exact ih h
  | case5 _ _ _ _ _ ih => exact ih h

/-- The leaves of a module with a parameter list. -/
theorem leaves_moduleItem (eof : Nat) (keyword name : Leaf) {ls : List Leaf}
    (h : ls.head?.any (Leaf.is · "(") = true) :
    ∃ body, (moduleItem eof keyword name ls).1.leaves =
        keyword :: name :: ((parameters 0 ls).taken ++ body) ∧
      ((parameters 0 ls).ended = false → body = [] ∧ (moduleItem eof keyword name ls).2 = []) := by
  refine ⟨(statement (parameters 0 ls).rest).taken, ?_, fun hended => ?_⟩
  · simp [moduleItem, parameterList, h, leaves]
  · simp [moduleItem, parameterList, h, parameters_rest hended, statement]

end Item

/-! ## The tokens of a declaration -/

namespace Leaf

/-- The leaf stands in an extent. -/
def within (lo hi : Nat) (l : Leaf) : Bool :=
  decide (lo ≤ l.token.start) && decide (l.token.stop ≤ hi)

/-- The leaves in an extent that begins with one of them follow that one up to the end of the
extent. -/
theorem Apart.filter_within {before rest : List Leaf} {first : Leaf}
    (h : Apart (before ++ first :: rest)) (hi : Nat) :
    (before ++ first :: rest).filter (within first.token.start hi) =
      (first :: rest).takeWhile fun l => decide (l.token.stop ≤ hi) := by
  have hbefore : before.filter (within first.token.start hi) = [] := by
    refine List.filter_eq_nil_iff.2 fun l hl => ?_
    have h1 := h.before hl (m := first) List.mem_cons_self
    have h2 := h.nonempty l (List.mem_append_left _ hl)
    simp only [within, Bool.and_eq_true, decide_eq_true_eq]
    omega
  have hafter : ∀ l ∈ first :: rest,
      within first.token.start hi l = decide (l.token.stop ≤ hi) := by
    intro l hl
    have hle : first.token.start ≤ l.token.start := by
      rcases List.mem_cons.1 hl with rfl | hl
      · exact Nat.le_refl _
      · have h1 := (List.pairwise_cons.1 h.right.pairwise).1 l hl
        have h2 := h.right.nonempty first List.mem_cons_self
        omega
    simp [within, hle]
  rw [List.filter_append, hbefore, List.nil_append, List.filter_congr hafter]
  refine filter_eq_takeWhile (h.right.pairwise.imp_of_mem fun {l m} hl hm hlm => ?_)
  have h1 := h.right.nonempty m hm
  simp only [decide_eq_true_eq]
  omega

end Leaf

namespace Analysis

/-- The tokens of an extent other than comments are the leaves in it. -/
theorem significant_tokensIn (file : FilePath) {source : List Char} {ts : List Token}
    (ht : tokenize source = .ok ts) (span : Span Place) :
    Token.significant ((ofText file source).tokensIn span) =
      ((Leaf.ofTokens ts).filter (within span.start.offset span.stop.offset)).map Leaf.token := by
  have htokens : (ofText file source).tokens.getD [] = ts := by simp [ofText, ht]
  rw [tokensIn, htokens, Token.significant, List.filter_comm, ← Token.significant,
    ← Leaf.map_token_ofTokensFrom [], List.filter_map]
  rfl

end Analysis

namespace Outline.State

open Declaration

/-- Every declaration comes from an item, which stands somewhere among the leaves. -/
theorem item_of_occurs {eof : Nat} {ts : List Token} {e : Declaration Nat}
    (h : Occurs children e (ofTokens eof ts).declarations) :
    ∃ its before first rest, Leaf.ofTokens ts = before ++ first :: rest ∧
      Item.ofLeaves eof (Leaf.ofTokens ts) =
        its ++ (Item.next eof first rest).1 :: Item.ofLeaves eof (Item.next eof first rest).2 ∧
      Declares (Item.next eof first rest).1 (Item.ofLeaves eof (Item.next eof first rest).2) e := by
  rw [ofTokens_eq_read] at h
  obtain ⟨its, it, later, hits, hd⟩ := occurs_foldl_source h
  obtain ⟨first, rest, hls, rfl, rfl⟩ := Item.ofLeaves_split_cons hits
  exact ⟨its, _, first, rest, hls, hits, hd⟩

theorem Declares.kind {it : Item} {later : List Item} {e : Declaration Nat}
    (h : Declares it later e) : it.shape.kind? = some e.kind := by
  cases h with
  | whole hs => rw [hs]; rfl
  | block hs _ => rw [hs]; rfl

theorem Declares.start {it : Item} {later : List Item} {e : Declaration Nat}
    (h : Declares it later e) : e.span.start = it.first.token.start := by
  cases h with
  | whole => rfl
  | block => rfl

/-- A declaration ends no sooner than its item. -/
theorem Declares.stop_le {eof : Nat} {it : Item} {after : List Leaf} {e : Declaration Nat}
    (h : Declares it (Item.ofLeaves eof after) e)
    (hord : Item.Ordered eof (it.leaves ++ after)) : it.stop ≤ e.span.stop := by
  cases h with
  | whole => exact Nat.le_refl _
  | @block name jt inner hs hm =>
    show it.stop ≤ jt.stop
    rcases List.mem_cons.1 hm with rfl | hm
    · exact Nat.le_refl _
    · obtain ⟨l, hl, hstop⟩ := jt.stop_mem
      have hmem := Item.leaves_subset hm hl
      have h1 := (Item.extent_of_ordered hord).2.1
      have h2 := Item.start_of_ordered (Item.ordered_append hord).2 l hmem
      have h3 : l.token.stop = l.token.start + l.token.text.length := rfl
      omega

/-- The leaves of a declaration are those of its item and, if it has a block, some of those that
follow. -/
theorem leaves_of_declares {eof : Nat} {before rest : List Leaf} {first : Leaf}
    (hord : Item.Ordered eof (before ++ first :: rest)) (hapart : Apart (before ++ first :: rest))
    {e : Declaration Nat}
    (hd : Declares (Item.next eof first rest).1
      (Item.ofLeaves eof (Item.next eof first rest).2) e) :
    ∃ more, (before ++ first :: rest).filter (within e.span.start e.span.stop) =
        (Item.next eof first rest).1.leaves ++ more ∧
      more <+: (Item.next eof first rest).2 ∧ (e.kind ≠ .module → more = []) := by
  have happ := Item.next_append eof first rest
  have hfirst := Item.first_next eof first rest
  have hord' := (Item.ordered_append hord).2
  have hright := hapart.right
  have hstart := hd.start
  rw [hfirst] at hstart
  rw [hstart, hapart.filter_within, ← happ]
  rw [← happ] at hord' hright
  have hstop := hd.stop_le hord'
  generalize Item.next eof first rest = p at hd happ hfirst hord' hright hstop ⊢
  obtain ⟨it, after⟩ := p
  simp only at hd happ hfirst hord' hright hstop ⊢
  have hext := Item.extent_of_ordered hord'
  -- a block reaches into the leaves after the item; without one the next leaf ends too late
  refine ⟨after.takeWhile fun l => decide (l.token.stop ≤ e.span.stop), ?_,
    List.takeWhile_prefix _, fun hk => ?_⟩
  · refine List.takeWhile_append_of_pos fun l hl => ?_
    have := (hext.1 l hl).2
    exact decide_eq_true (by omega)
  · cases hd with
    | block => exact absurd rfl hk
    | whole =>
      cases after with
      | nil => rfl
      | cons l after =>
        have h1 : it.stop ≤ l.token.start := hext.2.1
        have h2 := hright.nonempty l (by simp)
        refine List.takeWhile_cons_of_neg ?_
        show ¬ decide (l.token.stop ≤ it.stop) = true
        rw [decide_eq_true_eq]
        omega

end Outline.State

theorem Leaf.isComment_of_mem {ts : List Token} {l : Leaf} (h : l ∈ ofTokens ts) :
    l.token.isComment = false := by
  simpa using (List.mem_filter.1 (token_mem_significant h)).2

/-- Names are no brackets. -/
theorem Leaf.plain_of_ident {a : Bool} {offset : Nat} {s : List Char} {ts : List Token}
    (h : Reads a offset s ts) {l : Leaf} (hl : l ∈ ofTokens ts) (hk : l.token.kind = .ident) :
    l.role = .plain := by
  by_contra hrole
  rw [h.punct_of_role l.token (List.mem_filter.1 (token_mem_significant hl)).1 hrole] at hk
  cases hk

/-- The leaves from one on are read on their own, as those of the source were. -/
theorem Leaf.alone_of_reads {a : Bool} {offset : Nat} {s : List Char} {ts : List Token}
    (h : Reads a offset s ts) {before rest : List Leaf} (hls : ofTokens ts = before ++ rest) :
    ∃ b, Alone b (rest.map Leaf.token) := by
  have hsig := h.alone.significant
  rw [← map_token_ofTokensFrom [] ts, show ofTokensFrom [] ts = _ from hls, List.map_append] at hsig
  exact hsig.right

/-- The item that gives a declaration of a text, and the tokens of the declaration. -/
theorem Analysis.tokens_of_occurs {file : FilePath} {source : List Char} {ts : List Token}
    (ht : tokenize source = .ok ts) {d : Declaration Place}
    (hd : Occurs Declaration.children d (ofText file source).declarations) :
    ∃ its before first rest more e, Leaf.ofTokens ts = before ++ first :: rest ∧
      Item.ofLeaves source.length (Leaf.ofTokens ts) =
        its ++ (Item.next source.length first rest).1 ::
          Item.ofLeaves source.length (Item.next source.length first rest).2 ∧
      Outline.State.Declares (Item.next source.length first rest).1
        (Item.ofLeaves source.length (Item.next source.length first rest).2) e ∧
      e.map (Place.at file source) = d ∧
      Token.significant ((ofText file source).tokensIn d.span) =
        ((Item.next source.length first rest).1.leaves ++ more).map Leaf.token ∧
      more <+: (Item.next source.length first rest).2 ∧ (d.kind ≠ .module → more = []) := by
  rw [declarations_ofText file ht] at hd
  obtain ⟨e, he, rfl⟩ := hd.map (Declaration.children_map _)
  rw [significant_tokensIn file ht, Declaration.span_map, Declaration.kind_map]
  obtain ⟨tail, rfl, hw⟩ := Layout.written_of_tokenize ht
  obtain ⟨hi, hfilled⟩ := Outline.filled_ofTokens hw
  obtain ⟨hnested, hdrawn⟩ := hfilled.all e he
  have hstop := (hdrawn.grounded hw).stop_le
  have hlength : 0 + (Token.spell ts).length ≤ (Token.spell ts ++ tail).length := by simp
  have hordered : Item.Ordered (Token.spell ts ++ tail).length (Leaf.ofTokens ts) :=
    (Leaf.ordered_ofTokensFrom hw hlength []).2
  have hapart := Leaf.apart_ofTokens hw
  obtain ⟨its, before, first, rest, hls, hits, hdeclares⟩ := Outline.State.item_of_occurs he
  simp only [Span.map, offset_at file _ hstop, offset_at file _ (hnested.start_le_stop.trans hstop)]
  refine ⟨its, before, first, rest, ?_⟩
  rw [hls] at hordered hapart ⊢
  obtain ⟨more, hleaves, hfront, hmore⟩ :=
    Outline.State.leaves_of_declares hordered hapart hdeclares
  exact ⟨more, e, rfl, hls ▸ hits, hdeclares, rfl, congrArg (List.map Leaf.token) hleaves, hfront,
    hmore⟩

/-! ## The header of a module -/

namespace Signature

theorem header_cons_of_plain {l : Leaf} (h : l.role = .plain) (ts : List Token) :
    header 0 (l.token :: ts) = l.token :: header 0 ts := by
  have hopen : l.token.is "(" = false := is_of_plain h (by decide)
  have hclose : l.token.is ")" = false := is_of_plain h (by decide)
  have hbrace : l.token.is Token.braceOpen = false := is_of_plain h (by decide)
  simp [header, hopen, hclose, hbrace]

/-- The header of a module ends where its parameter list does. -/
theorem header_parameters {depth : Nat} {ls : List Leaf} (more : List Token)
    (hd : depth ≠ 0 ∨ ls.head?.any (Leaf.is · "(") = true)
    (hm : (Item.parameters depth ls).ended = false → more = []) :
    header depth ((Item.parameters depth ls).taken.map Leaf.token ++ more) =
      (Item.parameters depth ls).taken.map Leaf.token := by
  -- at depth 0 the first leaf has to open the list, or `header` would go on after it
  fun_induction Item.parameters depth ls with
  | case1 => simp [hm rfl, header]
  | case2 depth l ls hopen ih =>
    have hopen' : l.token.is "(" = true := hopen
    simp [header, hopen', ih (.inl (by simp)) hm]
  | case3 depth l ls hopen hclose hdepth =>
    have hopen' : l.token.is "(" = false := by simpa [Leaf.is] using hopen
    have hclose' : l.token.is ")" = true := hclose
    simp [header, hopen', hclose', hdepth]
  | case4 depth l ls hopen hclose hdepth ih =>
    have hopen' : l.token.is "(" = false := by simpa [Leaf.is] using hopen
    have hclose' : l.token.is ")" = true := hclose
    simp [header, hopen', hclose', hdepth, ih (.inl hdepth) hm]
  | case5 depth l ls hopen hclose ih =>
    have hopen' : l.token.is "(" = false := by simpa [Leaf.is] using hopen
    have hclose' : l.token.is ")" = false := by simpa [Leaf.is] using hclose
    have hdepth : depth ≠ 0 := by
      rcases hd with hd | hd
      · exact hd
      · exact absurd hd (by simpa using hopen)
    simp [header, hopen', hclose', hdepth, ih (.inl hdepth) hm]

/-- What is printed of a declaration begins with its first leaf. -/
theorem shown_cons {l : Leaf} (h : l.role = .plain) (kind : Declaration.Kind) (ts : List Token) :
    ∃ us, shown kind (l.token :: ts) = l.token :: us := by
  cases kind with
  | module => exact ⟨_, header_cons_of_plain h ts⟩
  | _ => exact ⟨ts, rfl⟩

/-- The tokens that are printed of a declaration are read again. -/
theorem tokenize_shown {a : Bool} {l : Leaf} {ts all : List Token} (hident : l.token.kind = .ident)
    (hplain : l.role = .plain) (halone : Alone a all) (hfront : l.token :: ts <+: all)
    (hc : ∀ t ∈ l.token :: ts, t.isComment = false) (hbang : Unjoined (l.token :: ts))
    (kind : Declaration.Kind) :
    ∃ us, tokenize (join (shown kind (l.token :: ts))) = .ok us ∧
      us.map Token.face = (shown kind (l.token :: ts)).map Token.face := by
  have hshown := shown_front kind (l.token :: ts)
  obtain ⟨rest, hrest⟩ := hshown.trans hfront
  rw [← hrest] at halone
  have hprinted := halone.left
  have hbang' := hbang.prefix hshown
  have hc' := fun t ht => hc t (hshown.subset ht)
  obtain ⟨us, hus⟩ := shown_cons hplain kind ts
  rw [hus] at hprinted hbang' hc' ⊢
  exact tokenize_join hprinted hident hc' hbang'

theorem shown_module {first name : Leaf} (hfirst : first.role = .plain) (hname : name.role = .plain)
    {after more : List Leaf} (hparen : after.head?.any (Leaf.is · "(") = true)
    (hmore : (Item.parameters 0 after).ended = false → more = []) :
    shown .module ((first :: name :: ((Item.parameters 0 after).taken ++ more)).map Leaf.token) =
      (first :: name :: (Item.parameters 0 after).taken).map Leaf.token := by
  have hnil : (Item.parameters 0 after).ended = false → more.map Leaf.token = [] := by
    intro hended
    rw [hmore hended, List.map_nil]
  simp only [shown, List.map_cons, List.map_append]
  rw [header_cons_of_plain hfirst, header_cons_of_plain hname,
    header_parameters _ (.inr hparen) hnil]

/-- The tokens `us` are the signature of a declaration that the item gives: those of the item or,
for a module with a parameter list, keyword, name and parameters. `ls` are the leaves of the source
and `ts` the tokens of the declaration. -/
structure Shows (ls : List Leaf) (ts : List Token) (kind : Declaration.Kind) (it : Item)
    (us : List Token) : Prop where
  uncommented : ∀ u ∈ us, u.isComment = false
  whole : kind ≠ .module → us.map Token.face = it.leaves.map fun l => l.token.face
  parameters : kind = .module → ∃ before name after, ls = before ++ it.first :: name :: after ∧
    it.first.is "module" = true ∧ name.token.kind = .ident ∧
    (after.head?.any (Leaf.is · "(") = true →
      us.map Token.face =
          (it.first :: name :: (Item.parameters 0 after).taken).map (fun l => l.token.face) ∧
        ((Item.parameters 0 after).ended = false → us.map Token.face = ts.map Token.face))

/-- The tokens that are printed of a declaration are its signature. -/
theorem shows_shown {eof : Nat} {before rest more : List Leaf} {first : Leaf}
    {kind : Declaration.Kind} {us : List Token}
    (hkind : (Item.next eof first rest).1.shape.kind? = some kind)
    (hplain : ∀ l ∈ before ++ first :: rest, l.token.kind = .ident → l.role = .plain)
    (hcomment : ∀ l ∈ before ++ first :: rest, l.token.isComment = false)
    (hfront : more <+: (Item.next eof first rest).2) (hmore : kind ≠ .module → more = [])
    (hfaces : us.map Token.face =
      (shown kind (((Item.next eof first rest).1.leaves ++ more).map Leaf.token)).map Token.face) :
    Shows (before ++ first :: rest) (((Item.next eof first rest).1.leaves ++ more).map Leaf.token)
      kind (Item.next eof first rest).1 us := by
  have happ := Item.next_append eof first rest
  have hfirst := Item.first_next eof first rest
  have hsub : (Item.next eof first rest).1.leaves ++ more ⊆ before ++ first :: rest := by
    intro l hl
    refine List.mem_append_right before ?_
    rw [← happ]
    rcases List.mem_append.1 hl with hl | hl
    · exact List.mem_append_left _ hl
    · exact List.mem_append_right _ (hfront.subset hl)
  refine ⟨?_, fun hk => ?_, fun hk => ?_⟩
  · refine Token.isComment_of_faces hfaces fun t ht => ?_
    obtain ⟨l, hl, rfl⟩ := List.mem_map.1 ((shown_front kind _).subset ht)
    exact hcomment l (hsub hl)
  · have hshown : ∀ ts, shown kind ts = ts := by
      intro ts
      cases kind with
      | module => exact absurd rfl hk
      | _ => rfl
    rw [hfaces, hshown, hmore hk, List.append_nil, List.map_map]
    rfl
  · subst hk
    have hfirstPlain := hplain first (by simp) (Item.ident_of_kind? (by rw [hkind]; simp))
    obtain ⟨hword, name, after, rfl, hname, hitem⟩ := Item.module_of_kind? hkind
    have hnamePlain := hplain name (by simp) hname
    rw [hfirst]
    refine ⟨before, name, after, rfl, hword, hname, fun hparen => ?_⟩
    obtain ⟨body, hleaves, hopen⟩ := Item.leaves_moduleItem eof first name hparen
    rw [← hitem] at hleaves hopen
    have hnil : (Item.parameters 0 after).ended = false → body ++ more = [] := by
      intro hended
      obtain ⟨hbody, hafter⟩ := hopen hended
      rw [hafter] at hfront
      rw [hbody, List.prefix_nil.1 hfront, List.append_nil]
    simp only [hleaves, List.cons_append, List.append_assoc] at hfaces ⊢
    rw [shown_module hfirstPlain hnamePlain hparen hnil] at hfaces
    refine ⟨?_, fun hended => ?_⟩
    · rw [hfaces, List.map_map]
      rfl
    · rw [hfaces, hnil hended, List.append_nil]

end Signature

theorem Workspace.signature_eq {w : Workspace} {a : Analysis} {d : Declaration Place}
    (h : (w.analysis? d.file).or (w.libraryAnalysis? d.file) = some a) :
    w.signature d = String.ofList
      (Signature.join (Signature.shown d.kind (Token.significant (a.tokensIn d.span)))) := by
  rw [signature, h, ← Signature.render_eq]

/-- A signature is text whose tokens are those of the declaration: all of a function or variable,
and of a module with a parameter list those up to the end of the list. Printing these tokens gives
the signature again. -/
theorem Workspace.signature_faithful {w : Workspace} {file : FilePath} {source : List Char}
    (hfile : (w.analysis? file).or (w.libraryAnalysis? file) = some (.ofText file source))
    {ts : List Token} (ht : tokenize source = .ok ts) {d : Declaration Place}
    (hd : Occurs Declaration.children d (Analysis.ofText file source).declarations)
    (hbang : Signature.Unjoined
      (Token.significant ((Analysis.ofText file source).tokensIn d.span))) :
    ∃ its it later e us,
      Item.ofLeaves source.length (Leaf.ofTokens ts) = its ++ it :: later ∧
      Outline.State.Declares it later e ∧ e.map (Place.at file source) = d ∧
      tokenize (w.signature d).toList = .ok us ∧
      Signature.Shows (Leaf.ofTokens ts)
        (Token.significant ((Analysis.ofText file source).tokensIn d.span)) d.kind it us ∧
      String.ofList (Signature.render d.kind us) = w.signature d := by
  have hreads := tokenizeFrom_eq_ok_iff.1 ht
  obtain ⟨its, before, first, rest, more, e, hls, hits, hdeclares, hed, htokens, hfront, hmore⟩ :=
    Analysis.tokens_of_occurs ht hd
  have hknown : (w.analysis? d.file).or (w.libraryAnalysis? d.file) =
      some (.ofText file source) := by
    rw [file_of_occurs hd, hfile]
  have hkind : (Item.next source.length first rest).1.shape.kind? = some d.kind := by
    rw [hdeclares.kind, ← hed, Declaration.kind_map]
  have hident : first.token.kind = .ident := Item.ident_of_kind? (by rw [hkind]; simp)
  have hcomment : ∀ l ∈ before ++ first :: rest, l.token.isComment = false := by
    rw [← hls]
    exact fun l hl => Leaf.isComment_of_mem hl
  have hplain : ∀ l ∈ before ++ first :: rest, l.token.kind = .ident → l.role = .plain := by
    rw [← hls]
    exact fun l hl => Leaf.plain_of_ident hreads hl
  have hall : (Item.next source.length first rest).1.leaves ++ more <+: first :: rest := by
    rw [← Item.next_append source.length first rest]
    exact (List.prefix_append_right_inj _).2 hfront
  have hcomment' : ∀ t ∈ ((Item.next source.length first rest).1.leaves ++ more).map Leaf.token,
      t.isComment = false := by
    intro t ht
    obtain ⟨l, hl, rfl⟩ := List.mem_map.1 ht
    exact hcomment l (List.mem_append_right before (hall.subset hl))
  obtain ⟨b, halone⟩ := Leaf.alone_of_reads hreads hls
  have hbegin : ((Item.next source.length first rest).1.leaves ++ more).map Leaf.token =
      first.token :: ((Item.next source.length first rest).1.others ++ more).map Leaf.token := by
    rw [Item.leaves, Item.first_next, List.cons_append, List.map_cons]
  rw [signature_eq hknown, htokens]
  rw [htokens, hbegin] at hbang
  obtain ⟨us, hus, hfaces⟩ := Signature.tokenize_shown hident (hplain first (by simp) hident) halone
    (hbegin ▸ hall.map Leaf.token) (hbegin ▸ hcomment') hbang d.kind
  rw [← hbegin] at hus hfaces
  rw [String.toList_ofList, hls]
  refine ⟨its, _, _, e, us, hls ▸ hits, hdeclares, hed, hus, ?_, ?_⟩
  · exact Signature.shows_shown hkind hplain hcomment hfront hmore hfaces
  · rw [Signature.render_of_faces hfaces hcomment']

/-- A module with a comment and a sign in its parameter list. -/
theorem Workspace.signature_faithful_module :
    ∃ us, tokenize "module a(x = -1)".toList = .ok us ∧
      String.ofList (Signature.render .module us) = "module a(x = -1)" := by
  let file := FilePath.ofString "/a"
  let source := "module a(/**/x=-1){}".toList
  let ts : List Token :=
    [⟨.ident, 0, [], "module".toList⟩, ⟨.ident, 7, [' '], ['a']⟩, ⟨.punct, 8, [], ['(']⟩,
      ⟨.blockComment, 9, [], "/**/".toList⟩, ⟨.ident, 13, [], ['x']⟩, ⟨.punct, 14, [], ['=']⟩,
      ⟨.punct, 15, [], ['-']⟩, ⟨.number, 16, [], ['1']⟩, ⟨.punct, 17, [], [')']⟩,
      ⟨.punct, 18, [], ['{']⟩, ⟨.punct, 19, [], ['}']⟩]
  let e : Declaration Nat := ⟨"a", .module, ⟨0, 20⟩, ⟨7, 8⟩, none, []⟩
  let w := Workspace.empty.register file source
  have ht : tokenize source = .ok ts := by decide +kernel
  have hfile : (w.analysis? file).or (w.libraryAnalysis? file) = some (.ofText file source) := by
    simp [w, register, analysis?]
  have hd : Occurs Declaration.children (e.map (Place.at file source))
      (Analysis.ofText file source).declarations := by
    have hlist : (Outline.ofTokens source.length ts).declarations = [e] := by with_unfolding_all rfl
    rw [Analysis.declarations_ofText file ht, hlist]
    exact .here List.mem_cons_self
  have htokens :
      (Analysis.ofText file source).tokensIn (e.map (Place.at file source)).span = ts := by
    rw [Analysis.tokensIn, Analysis.ofText, ht]
    rfl
  have hsignature : w.signature (e.map (Place.at file source)) = "module a(x = -1)" := by
    rw [signature_eq (d := e.map (Place.at file source)) hfile, htokens]
    decide +kernel
  obtain ⟨-, -, -, -, us, -, -, -, hus, -, hprint⟩ :=
    signature_faithful hfile ht hd (by rw [htokens]; decide +kernel)
  rw [hsignature] at hus hprint
  exact ⟨us, hus, hprint⟩

end Scad
