import Scad.Outline
import Scad.Proofs.Outline.Leaf

/-!
# Scad.Proofs.Outline.Item

Alike leaves are read as alike items: every test of the reading is a test of texts and kinds, so the
same stretches are taken and the same faults are found, at related offsets.

* `Item.alike_next`: one item.
* `Item.alike_ofLeaves`: all items.
* `Outline.nest_alike`, `Outline.reference_alike`: alike items have the same forest of declarations
  but for offsets, and refer to the same files.
-/

namespace Scad

/-- The faults have the same cause and related offsets. -/
structure Fault.Alike (S : Nat → Nat → Prop) (f g : Fault) : Prop where
  cause : g.cause = f.cause
  offset : S f.offset g.offset

namespace Item

/-- The shapes are the same but for offsets. -/
inductive Shape.Alike : Shape → Shape → Prop where
  | skipped : Alike .skipped .skipped
  | included {p q : Token} : q.text = p.text → Alike (.included p) (.included q)
  | declared {k : Declaration.Kind} {n m : Token} : m.text = n.text →
      Alike (.declared k n) (.declared k m)
  | openedModule {n m : Token} : m.text = n.text → Alike (.openedModule n) (.openedModule m)
  | openedBlock : Alike .openedBlock .openedBlock
  | closed : Alike .closed .closed

/-- The items are the same but for offsets. -/
structure Alike (S : Nat → Nat → Prop) (it jt : Item) : Prop where
  shape : it.shape.Alike jt.shape
  doc : jt.first.doc = it.first.doc
  faults : List.Forall₂ (Fault.Alike S) it.faults jt.faults

/-- The stretches are the same but for offsets. -/
structure Stretch.Alike (S : Nat → Nat → Prop) (s r : Stretch) : Prop where
  ended : r.ended = s.ended
  taken : List.Forall₂ (Leaf.Alike S) s.taken r.taken
  rest : List.Forall₂ (Leaf.Alike S) s.rest r.rest

section Alike

variable {S : Nat → Nat → Prop} {l m : Leaf} {ls ms : List Leaf}

theorem isAny_alike (h : l.Alike S m) (ss : List String)
    (hs : ∀ s ∈ ss, s.toList.head? ≠ some '"') : m.isAny ss = l.isAny ss := by
  have hany : ∀ ss : List String, (∀ s ∈ ss, s.toList.head? ≠ some '"') →
      ss.any m.is = ss.any l.is := by
    intro ss hs
    induction ss with
    | nil => rfl
    | cons s ss ih =>
      rw [List.any_cons, List.any_cons, h.is (hs s (by simp)), ih fun r hr => hs r (by simp [hr])]
  exact hany ss hs

theorem Stretch.Alike.cons {s r : Stretch} (h : s.Alike S r) (hl : l.Alike S m) :
    (s.cons l).Alike S (r.cons m) :=
  ⟨h.ended, .cons hl h.taken, h.rest⟩

theorem parameters_alike (h : List.Forall₂ (Leaf.Alike S) ls ms) (depth : Nat) :
    (parameters depth ls).Alike S (parameters depth ms) := by
  induction h generalizing depth with
  | nil => exact ⟨rfl, .nil, .nil⟩
  | cons hl hs ih =>
    have h1 := hl.is (s := "(") (by decide)
    have h2 := hl.is (s := ")") (by decide)
    simp only [parameters, h1, h2]
    split
    · exact (ih _).cons hl
    split
    · split
      · exact ⟨rfl, .cons hl .nil, hs⟩
      · exact (ih _).cons hl
    · exact (ih _).cons hl

theorem expression_alike (h : List.Forall₂ (Leaf.Alike S) ls ms) (depth : Nat) :
    (expression depth ls).Alike S (expression depth ms) := by
  induction h generalizing depth with
  | nil => exact ⟨rfl, .nil, .nil⟩
  | cons hl hs ih =>
    have h1 := hl.is (s := ";") (by decide)
    have h2 := isAny_alike hl [Token.braceClose, "module", "function"] (by decide)
    have h3 := isAny_alike hl ["(", "[", Token.braceOpen] (by decide)
    have h4 := isAny_alike hl [")", "]", Token.braceClose] (by decide)
    simp only [expression, h1, h2, h3, h4]
    split
    · exact ⟨rfl, .cons hl .nil, hs⟩
    split
    · exact ⟨rfl, .nil, .cons hl hs⟩
    split
    · exact (ih _).cons hl
    split
    · exact (ih _).cons hl
    · exact (ih _).cons hl

theorem statementRest_alike (h : List.Forall₂ (Leaf.Alike S) ls ms) (depth : Nat) :
    (statementRest depth ls).Alike S (statementRest depth ms) := by
  induction h generalizing depth with
  | nil => exact ⟨rfl, .nil, .nil⟩
  | cons hl hs ih =>
    have h1 := hl.is (s := Token.braceOpen) (by decide)
    have h2 := hl.is (s := Token.braceClose) (by decide)
    have h3 := isAny_alike hl ["(", "["] (by decide)
    have h4 := isAny_alike hl [")", "]"] (by decide)
    have h5 := hl.is (s := ";") (by decide)
    simp only [statementRest, h1, h2, h3, h4, h5]
    split
    · exact ⟨rfl, .cons hl .nil, hs⟩
    split
    · exact ⟨rfl, .nil, .cons hl hs⟩
    split
    · exact (ih _).cons hl
    split
    · exact (ih _).cons hl
    split
    · exact ⟨rfl, .cons hl .nil, hs⟩
    · exact (ih _).cons hl

theorem statement_alike (h : List.Forall₂ (Leaf.Alike S) ls ms) :
    (statement ls).Alike S (statement ms) := by
  cases h with
  | nil => exact ⟨rfl, .nil, .nil⟩
  | cons hl hs =>
    have h1 := hl.is (s := Token.braceOpen) (by decide)
    have h2 := isAny_alike hl ["(", "["] (by decide)
    have h3 := hl.is (s := ";") (by decide)
    simp only [statement, h1, h2, h3]
    split
    · exact ⟨rfl, .cons hl .nil, hs⟩
    split
    · exact (statementRest_alike hs 1).cons hl
    split
    · exact ⟨rfl, .cons hl .nil, hs⟩
    · exact (statementRest_alike hs 0).cons hl

theorem here_alike {eof eof' : Nat} (he : S eof eof') (h : List.Forall₂ (Leaf.Alike S) ls ms) :
    S (here eof ls) (here eof' ms) := by
  cases h with
  | nil => exact he
  | cons hl _ => exact hl.start

theorem parameterList_alike {eof eof' : Nat} (he : S eof eof')
    (h : List.Forall₂ (Leaf.Alike S) ls ms) (kind : Declaration.Kind) :
    (parameterList eof kind ls).1.Alike S (parameterList eof' kind ms).1 ∧
      List.Forall₂ (Fault.Alike S) (parameterList eof kind ls).2
        (parameterList eof' kind ms).2 := by
  have hhead : ms.head?.any (Leaf.is · "(") = ls.head?.any (Leaf.is · "(") := by
    cases h with
    | nil => rfl
    | cons hl _ => exact hl.is (by decide)
  simp only [parameterList, hhead]
  split
  · exact ⟨parameters_alike h 0, .nil⟩
  · exact ⟨⟨rfl, .nil, h⟩, .cons ⟨rfl, here_alike he h⟩ .nil⟩

theorem getLast_alike (h : List.Forall₂ (Leaf.Alike S) ls ms) {stop stop' : Nat}
    (hs : S stop stop') :
    S ((ls.getLast?.map fun l => l.token.stop).getD stop)
      ((ms.getLast?.map fun l => l.token.stop).getD stop') := by
  induction h generalizing stop stop' with
  | nil => exact hs
  | cons hl _ ih =>
    have := ih hl.stop
    simpa [List.getLast?_cons, Option.getD_map] using this

theorem definition_alike {stop stop' : Nat} (hs : S stop stop')
    (h : List.Forall₂ (Leaf.Alike S) ls ms) :
    (definition stop ls).1.Alike S (definition stop' ms).1 ∧
      List.Forall₂ (Fault.Alike S) (definition stop ls).2 (definition stop' ms).2 := by
  have hexp := expression_alike h 0
  refine ⟨hexp, ?_⟩
  simp only [definition, hexp.ended]
  split
  · exact .nil
  · exact .cons ⟨rfl, getLast_alike hexp.taken hs⟩ .nil

/-- The items and the leaves after them are the same but for offsets. -/
def AlikeRest (S : Nat → Nat → Prop) (p q : Item × List Leaf) : Prop :=
  p.1.Alike S q.1 ∧ List.Forall₂ (Leaf.Alike S) p.2 q.2

theorem moduleItem_alike {eof eof' : Nat} (he : S eof eof') {keyword keyword' name name' : Leaf}
    (hk : keyword.Alike S keyword') (hn : name'.token.text = name.token.text)
    (h : List.Forall₂ (Leaf.Alike S) ls ms) :
    AlikeRest S (moduleItem eof keyword name ls) (moduleItem eof' keyword' name' ms) := by
  obtain ⟨hps, hf⟩ := parameterList_alike he h .module
  have hbody := statement_alike hps.rest
  refine ⟨⟨?_, hk.doc, hf⟩, hbody.rest⟩
  simp only [moduleItem, hbody.ended]
  split
  · exact .openedModule hn
  · exact .declared hn

theorem functionItem_alike {eof eof' : Nat} (he : S eof eof') {keyword keyword' name name' : Leaf}
    (hk : keyword.Alike S keyword') (hn : name'.token.text = name.token.text)
    (h : List.Forall₂ (Leaf.Alike S) ls ms) :
    AlikeRest S (functionItem eof keyword name ls) (functionItem eof' keyword' name' ms) := by
  obtain ⟨hps, hf⟩ := parameterList_alike he h .function
  have hrest := hps.rest
  simp only [functionItem]
  cases hr : (parameterList eof .function ls).1.rest with
  | nil =>
    rw [hr] at hrest
    rw [List.forall₂_nil_left_iff.1 hrest]
    exact ⟨⟨.declared hn, hk.doc, List.rel_append hf (.cons ⟨rfl, he⟩ .nil)⟩, .nil⟩
  | cons l rest =>
    rw [hr] at hrest
    obtain ⟨l', rest', hl, hls, hr'⟩ := List.forall₂_cons_left_iff.1 hrest
    rw [hr']
    simp only [hl.is (s := "=") (by decide)]
    split
    · obtain ⟨hd, hmissing⟩ := definition_alike hl.stop hls
      exact ⟨⟨.declared hn, hk.doc, List.rel_append hf hmissing⟩, hd.rest⟩
    · exact ⟨⟨.declared hn, hk.doc, List.rel_append hf (.cons ⟨rfl, hl.start⟩ .nil)⟩,
        .cons hl hls⟩

theorem keywordDeclaration_alike {eof eof' : Nat} (he : S eof eof') (kind : Declaration.Kind)
    (hl : l.Alike S m) (h : List.Forall₂ (Leaf.Alike S) ls ms) :
    AlikeRest S (keywordDeclaration eof kind l ls) (keywordDeclaration eof' kind m ms) := by
  cases h with
  | nil => exact ⟨⟨.skipped, hl.doc, .cons ⟨rfl, he⟩ .nil⟩, .nil⟩
  | cons hn hs =>
    simp only [keywordDeclaration, hn.kind]
    split
    · rename_i hk
      have htext := hn.text (by simp [hk])
      split
      · exact functionItem_alike he hl htext hs
      · exact moduleItem_alike he hl htext hs
    · exact ⟨⟨.skipped, hl.doc, .cons ⟨rfl, hn.start⟩ .nil⟩, .cons hn hs⟩

theorem variableItem_alike {equals equals' : Leaf} (hl : l.Alike S m)
    (hk : l.token.kind = .ident) (he : equals.Alike S equals')
    (h : List.Forall₂ (Leaf.Alike S) ls ms) :
    AlikeRest S (variableItem l equals ls) (variableItem m equals' ms) := by
  obtain ⟨hd, hmissing⟩ := definition_alike he.stop h
  exact ⟨⟨.declared (hl.text (by simp [hk])), hl.doc, hmissing⟩, hd.rest⟩

theorem reference_alike {path path' : Leaf} (hl : l.Alike S m) (hp : path.Alike S path')
    (hk : path.token.kind = .path) (h : List.Forall₂ (Leaf.Alike S) ls ms) :
    AlikeRest S (reference l path ls) (reference m path' ms) := by
  have htext := hp.text (by simp [hk])
  cases h with
  | nil => exact ⟨⟨.included htext, hl.doc, .nil⟩, .nil⟩
  | cons hn hs =>
    simp only [reference, hn.is (s := ";") (by decide)]
    split
    · exact ⟨⟨.included htext, hl.doc, .nil⟩, hs⟩
    · exact ⟨⟨.included htext, hl.doc, .nil⟩, .cons hn hs⟩

theorem other_alike (hl : l.Alike S m) (h : List.Forall₂ (Leaf.Alike S) ls ms) :
    AlikeRest S (other l ls) (other m ms) := by
  have hstat := statement_alike (.cons hl h)
  refine ⟨⟨?_, hl.doc, .nil⟩, hstat.rest⟩
  simp only [other, hstat.ended]
  split
  · exact .openedBlock
  · exact .skipped

/-- Alike leaves begin with alike items. -/
theorem alike_next {eof eof' : Nat} (he : S eof eof') (hl : l.Alike S m)
    (h : List.Forall₂ (Leaf.Alike S) ls ms) :
    AlikeRest S (next eof l ls) (next eof' m ms) := by
  have h1 := hl.is (s := Token.braceClose) (by decide)
  have h2 := hl.is (s := "module") (by decide)
  have h3 := hl.is (s := "function") (by decide)
  have h4 := isAny_alike hl ["include", "use"] (by decide)
  simp only [next, h1, h2, h3, h4, hl.kind]
  split
  · exact ⟨⟨.closed, hl.doc, .nil⟩, h⟩
  split
  · exact keywordDeclaration_alike he _ hl h
  split
  · exact keywordDeclaration_alike he _ hl h
  cases h with
  | nil => exact other_alike hl .nil
  | cons hn hs =>
    simp only [hn.kind, hn.is (s := "=") (by decide)]
    split
    · rename_i hk
      exact reference_alike hl hn hk.2.2 hs
    split
    · rename_i hk
      exact variableItem_alike hl hk.1 hn hs
    · exact other_alike hl (.cons hn hs)

/-- Alike leaves are read as alike items. -/
theorem alike_ofLeaves {eof eof' : Nat} (he : S eof eof')
    (h : List.Forall₂ (Leaf.Alike S) ls ms) :
    List.Forall₂ (Alike S) (ofLeaves eof ls) (ofLeaves eof' ms) := by
  fun_induction ofLeaves eof ls generalizing ms with
  | case1 =>
    rw [List.forall₂_nil_left_iff.1 h, ofLeaves]
    exact .nil
  | case2 l ls ih =>
    obtain ⟨m, ms', hl, hs, rfl⟩ := List.forall₂_cons_left_iff.1 h
    obtain ⟨hit, hrest⟩ := alike_next he hl hs
    rw [ofLeaves]
    exact .cons hit (ih hrest)

end Alike

end Item
/-- The forest of declarations without offsets. -/
def Declaration.bare {P : Type} (ds : List (Declaration P)) : List (Declaration Unit) :=
  Declaration.mapAll (fun _ => ()) ds

namespace Declaration

@[simp] theorem bare_nil {P : Type} : bare ([] : List (Declaration P)) = [] := rfl

@[simp] theorem bare_cons {P : Type} (d : Declaration P) (ds : List (Declaration P)) :
    bare (d :: ds) = d.map (fun _ => ()) :: bare ds := rfl

theorem bare_append {P : Type} (ds es : List (Declaration P)) :
    bare (ds ++ es) = bare ds ++ bare es := by
  induction ds with
  | nil => rfl
  | cons d ds ih => rw [List.cons_append, bare_cons, bare_cons, ih, List.cons_append]

end Declaration

namespace Outline

open Declaration

theorem map_declare {kind : Declaration.Kind} {first first' : Leaf} {name name' : Token}
    {stop stop' : Nat} {inner inner' : List (Declaration Nat)} (hn : name'.text = name.text)
    (hd : first'.doc = first.doc) (hi : bare inner' = bare inner) :
    (declare kind first' name' stop' inner').map (fun _ => ()) =
      (declare kind first name stop inner).map (fun _ => ()) := by
  simp only [declare, Declaration.map, hn, hd, Span.map]
  exact congrArg _ hi

/-- The open blocks are the same but for offsets. -/
structure Frame.Alike (f g : Frame) : Prop where
  owner : Option.Rel (fun p q : Leaf × Token => q.1.doc = p.1.doc ∧ q.2.text = p.2.text)
    f.owner g.owner
  before : bare g.before = bare f.before

theorem close_alike {f g : Frame} (h : f.Alike g) {inner inner' : List (Declaration Nat)}
    (hi : bare inner' = bare inner) (stop stop' : Nat) :
    bare (g.close inner' stop') = bare (f.close inner stop) := by
  obtain ⟨ho, hb⟩ := h
  simp only [Frame.close]
  generalize f.owner = p at ho
  generalize g.owner = q at ho
  cases ho with
  | none => simp only [bare_append, hb, hi]
  | some hp =>
    simp only [bare_append, bare_cons, hb]
    rw [map_declare hp.2 hp.1 hi]

theorem foldl_close_alike {fs gs : List Frame} (h : List.Forall₂ Frame.Alike fs gs)
    {inner inner' : List (Declaration Nat)} (hi : bare inner' = bare inner) (stop stop' : Nat) :
    bare (gs.foldl (fun inner f => f.close inner stop') inner') =
      bare (fs.foldl (fun inner f => f.close inner stop) inner) := by
  induction h generalizing inner inner' with
  | nil => exact hi
  | cons hf _ ih => exact ih (close_alike hf hi stop stop')

theorem nestFrom_alike {S : Nat → Nat → Prop} {its jts : List Item}
    (h : List.Forall₂ (Item.Alike S) its jts) {fs gs : List Frame}
    (hf : List.Forall₂ Frame.Alike fs gs) {found found' : List (Declaration Nat)}
    (hd : bare found' = bare found) (stop stop' : Nat) :
    bare (nestFrom gs found' stop' jts) = bare (nestFrom fs found stop its) := by
  induction h generalizing fs gs found found' stop stop' with
  | nil => exact foldl_close_alike hf hd stop stop'
  | @cons it jt its jts hit _ ih =>
    have hshape := hit.shape
    simp only [nestFrom]
    generalize it.shape = s at hshape
    generalize jt.shape = r at hshape
    cases hshape with
    | skipped => exact ih hf hd _ _
    | included _ => exact ih hf hd _ _
    | declared hn =>
      refine ih hf ?_ _ _
      simp only [bare_append, bare_cons, bare_nil, hd]
      rw [map_declare hn hit.doc rfl]
    | openedModule hn => exact ih (.cons ⟨.some ⟨hit.doc, hn⟩, hd⟩ hf) rfl _ _
    | openedBlock => exact ih (.cons ⟨.none, hd⟩ hf) rfl _ _
    | closed =>
      cases hf with
      | nil => exact ih .nil hd _ _
      | cons hfr hfs => exact ih hfs (close_alike hfr hd _ _) _ _

/-- Alike items have the same forest but for offsets. -/
theorem nest_alike {S : Nat → Nat → Prop} {its jts : List Item}
    (h : List.Forall₂ (Item.Alike S) its jts) : bare (nest jts) = bare (nest its) :=
  nestFrom_alike h .nil rfl 0 0

/-- Alike items refer to the same files. -/
theorem references_alike {S : Nat → Nat → Prop} {its jts : List Item}
    (h : List.Forall₂ (Item.Alike S) its jts) :
    (jts.filterMap reference?).map Reference.path =
      (its.filterMap reference?).map Reference.path := by
  induction h with
  | nil => rfl
  | @cons it jt its jts hit _ ih =>
    have hshape := hit.shape
    simp only [List.filterMap_cons, reference?] at ih ⊢
    generalize it.shape = s at hshape
    generalize jt.shape = r at hshape
    cases hshape with
    | included hp => simp only [List.map_cons, ih, hp]
    | skipped | declared | openedModule | openedBlock | closed => exact ih

/-- Alike items have the same faults but for offsets. -/
theorem faults_alike {S : Nat → Nat → Prop} {its jts : List Item}
    (h : List.Forall₂ (Item.Alike S) its jts) :
    List.Forall₂ (Fault.Alike S) (its.flatMap Item.faults) (jts.flatMap Item.faults) := by
  induction h with
  | nil => exact .nil
  | cons hit _ ih => exact List.rel_append hit.faults ih

end Outline
end Scad
