import Scad.Proofs.Token.Partition
import Scad.Proofs.Workspace.Signature
import Scad.Proofs.Workspace.Visible

/-!
# Scad.Proofs.Workspace.Definition

The definition at the name of a declaration is the declaration.

* `Outline.name_of_occurs`: the name of a declaration is a word of the source.
* `Analysis.tokenAt?_of_covers`: a token is the one at each of its characters.
* `Workspace.resolve?_of_unique`: a name that one declaration has means that one, whatever kinds are
  preferred.
* `Workspace.definition_own_name`: the definition at the name of a declaration.
-/

namespace Scad

open Declaration

/-! ## The names of declarations -/

namespace Item

theorem Shape.kind?_of_name? {s : Shape} {name : Token} (h : s.name? = some name) :
    s.kind? ≠ none := by
  cases s with
  | declared | openedModule => simp [kind?]
  | skipped | included | openedBlock | closed => cases h

theorem name?_moduleItem (eof : Nat) (keyword name : Leaf) (ls : List Leaf) :
    (moduleItem eof keyword name ls).1.shape.name? = some name.token := by
  simp only [moduleItem]
  split <;> rfl

theorem name?_functionItem (eof : Nat) (keyword name : Leaf) (ls : List Leaf) :
    (functionItem eof keyword name ls).1.shape.name? = some name.token := by
  unfold functionItem
  dsimp only
  split
  · split <;> rfl
  · rfl

theorem ident_of_keyword {eof : Nat} {kind : Declaration.Kind} {l : Leaf} {ls : List Leaf}
    {name : Token} (h : (keywordDeclaration eof kind l ls).1.shape.name? = some name) :
    name.kind = .ident := by
  unfold keywordDeclaration at h
  split at h
  · split at h
    · rename_i hident
      split at h
      · rw [name?_functionItem, Option.some.injEq] at h
        rwa [← h]
      · rw [name?_moduleItem, Option.some.injEq] at h
        rwa [← h]
    · cases h
  · cases h

/-- The name that an item gives a declaration is a word. -/
theorem ident_of_name? {eof : Nat} {l : Leaf} {ls : List Leaf} {name : Token}
    (h : (next eof l ls).1.shape.name? = some name) : name.kind = .ident := by
  unfold next at h
  split at h
  · cases h
  split at h
  · exact ident_of_keyword h
  split at h
  · exact ident_of_keyword h
  split at h
  · split at h
    · exact absurd (kind?_reference _ _ _) (Shape.kind?_of_name? h)
    split at h
    · rename_i hword
      rw [← Option.some.inj h]
      exact hword.1
    · exact absurd (kind?_other _ _) (Shape.kind?_of_name? h)
  · exact absurd (kind?_other _ _) (Shape.kind?_of_name? h)

end Item

namespace Outline

theorem State.Declares.name {it : Item} {later : List Item} {e : Declaration Nat}
    (h : Declares it later e) :
    ∃ t, it.shape.name? = some t ∧ e.nameSpan = spanOf t ∧ e.name = String.ofList t.text := by
  cases h with
  | @whole kind t hs => exact ⟨t, by rw [hs]; rfl, rfl, rfl⟩
  | @block t _ _ hs _ => exact ⟨t, by rw [hs]; rfl, rfl, rfl⟩

/-- The name of a declaration is a word of the source. -/
theorem name_of_occurs {eof : Nat} {ts : List Token} {e : Declaration Nat}
    (h : Occurs children e (ofTokens eof ts).declarations) :
    ∃ t ∈ Token.significant ts, t.kind = .ident ∧ e.nameSpan = spanOf t ∧
      e.name = String.ofList t.text := by
  obtain ⟨-, before, first, rest, hls, -, hdeclares⟩ := State.item_of_occurs h
  obtain ⟨t, ht, hspan, hname⟩ := hdeclares.name
  obtain ⟨l, hl, rfl⟩ := Item.named_next eof first rest t ht
  refine ⟨l.token, Leaf.token_mem_significant ?_, Item.ident_of_name? ht, hspan, hname⟩
  rw [hls, ← Item.next_append eof first rest]
  exact List.mem_append_right before (List.mem_append_left _ hl)

end Outline

namespace Analysis

/-! ## The token at a name -/

theorem findToken?_of_unique {p : Token → Bool} {ts : List Token} {t : Token} (ht : t ∈ ts)
    (hp : p t = true) (hu : ∀ u ∈ ts, p u = true → u = t) :
    ∃ after, findToken? p ts = some (t, after) := by
  cases hfound : findToken? p ts with
  | none =>
    rw [findToken?_eq_none hfound t ht] at hp
    cases hp
  | some found =>
    obtain ⟨u, after⟩ := found
    obtain ⟨hmem, hpu⟩ := of_findToken? hfound
    rw [hu u hmem hpu]
    exact ⟨after, rfl⟩

/-- A token is the one at each of its characters. -/
theorem tokenAt?_of_covers (file : FilePath) {source : List Char} {ts : List Token}
    (ht : tokenize source = .ok ts) {t : Token} (hmem : t ∈ Token.significant ts) {offset : Nat}
    (hcovers : t.Covers offset) :
    ∃ after, (ofText file source).tokenAt? offset = some (t, after) := by
  obtain ⟨tail, -, hw⟩ := Layout.written_of_tokenize ht
  have htokens : (ofText file source).tokens.getD [] = ts := by simp [ofText, ht]
  have hsub : ∀ {u}, u ∈ Token.significant ts → u ∈ ts := fun hu => (List.mem_filter.1 hu).1
  obtain ⟨after, hfound⟩ := findToken?_of_unique
    (p := fun u => decide (u.start ≤ offset) && decide (offset < u.stop)) hmem
    (by simpa [Token.Covers] using hcovers) fun u hu hholds => by
      simp only [Bool.and_eq_true, decide_eq_true_eq] at hholds
      exact Token.eq_of_covers (Token.ordered_of_written hw) (hsub hu) (hsub hmem) hholds hcovers
  refine ⟨after, ?_⟩
  rw [tokenAt?, htokens, hfound]
  rfl

/-- At the name of a declaration stands a word that spells it. -/
theorem tokenAt?_of_name {file : FilePath} {source : List Char} {d : Declaration Place}
    (hd : Occurs children d (ofText file source).declarations) {offset : Nat}
    (hstart : d.nameSpan.start.offset ≤ offset) (hstop : offset < d.nameSpan.stop.offset) :
    ∃ t after, (ofText file source).tokenAt? offset = some (t, after) ∧ t.kind = .ident ∧
      String.ofList t.text = d.name := by
  cases ht : tokenize source with
  | error e =>
    have hnone : (ofText file source).declarations = [] := by simp [ofText, ht]
    rw [hnone] at hd
    exact absurd hd Occurs.nil
  | ok ts =>
    rw [declarations_ofText file ht] at hd
    obtain ⟨e, he, rfl⟩ := hd.map (children_map _)
    obtain ⟨t, hmem, hkind, hspan, hname⟩ := Outline.name_of_occurs he
    rw [nameSpan_map, hspan] at hstart hstop
    obtain ⟨tail, hsource, hw⟩ := Layout.written_of_tokenize ht
    have hin : t.stop ≤ source.length := by
      have := Token.stop_of_written hw (List.mem_filter.1 hmem).1
      rw [hsource, List.length_append]
      omega
    have hlong : t.start ≤ t.stop := Nat.le_add_right _ _
    simp only [Outline.spanOf, Span.map, offset_at file source hin,
      offset_at file source (hlong.trans hin)] at hstart hstop
    obtain ⟨after, hfound⟩ := tokenAt?_of_covers file ht hmem ⟨hstart, hstop⟩
    exact ⟨t, after, hfound, hkind, by rw [name_map, hname]⟩

end Analysis

namespace Workspace

/-- A name that one declaration has means that one, whatever kinds are preferred. -/
theorem resolve?_of_unique (preferred : List Declaration.Kind) {ds : List (Declaration Place)}
    {d : Declaration Place} (hd : d ∈ ds) (hu : ∀ e ∈ ds, e.name = d.name → e = d) :
    resolve? preferred d.name ds = some d := by
  cases hfound : resolve? preferred d.name ds with
  | none =>
    simp only [resolve?, Option.or_eq_none_iff, List.head?_eq_none_iff] at hfound
    have hempty := List.filter_eq_nil_iff.1 hfound.2 d hd
    simp at hempty
  | some e =>
    obtain ⟨hname, hfirst⟩ := first_of_resolve? hfound
    rw [hu e (List.mem_of_find?_eq_some hfirst) hname]

/-- After every sequence of calls, the definition at each character of the name of a declaration of
a registered file is the declaration, at whatever depth it stands, if the name is no word of the
language and no other declaration of the file or outermost declaration of a file that it refers to
has that name. -/
theorem definition_own_name (start disk : Disk) (cs : List Call) (file : FilePath) (a : Analysis)
    (d : Declaration Place) (offset : Nat)
    (ha : (run start .empty cs).analysis? file = some a)
    (hd : Occurs children d a.declarations) (hword : d.name ∉ Candidate.keywords)
    (honly : ∀ e, Occurs children e a.declarations → e.name = d.name → e = d)
    (hothers : ∀ b, some b ∈ meant disk a.file (run start .empty cs) a.references →
      ∀ e ∈ b.declarations, e.name ≠ d.name)
    (hoffset : d.nameSpan.start.offset ≤ offset ∧ offset < d.nameSpan.stop.offset) :
    ((run start .empty cs).definition? disk file offset).2 = some d := by
  have hregistered := ha
  rw [(reflects_run reflects_empty start cs).files file] at hregistered
  obtain ⟨path, text, -, rfl⟩ := registered?_eq_some hregistered
  generalize run start .empty cs = w at ha hothers
  obtain ⟨t, after, hfound, hkind, hname⟩ := Analysis.tokenAt?_of_name hd hoffset.1 hoffset.2
  have hds := Analysis.placed_ofText path text
  -- the name lies inside the declaration, so the declaration is in scope there
  have hvisible : d ∈ visible (Analysis.ofText path text).declarations offset := by
    have hin := (hds.nested d hd).name_inside
    simp only [Span.Inside, span_map, nameSpan_map, Span.map] at hin
    exact mem_visible hds hd (by omega) (by omega)
  have hscope : ∀ e ∈ (w.scope disk (.ofText path text) offset).2, e.name = d.name → e = d := by
    intro e he hsame
    rw [scope_snd] at he
    rcases List.mem_append.1 he with he | he
    · exact honly e (occurs_visible he) hsame
    · obtain ⟨m, hm, he⟩ := List.mem_flatMap.1 he
      cases m with
      | none => cases he
      | some b => exact absurd hsame (hothers b hm e he)
  have hmem : d ∈ (w.scope disk (.ofText path text) offset).2 := by
    rw [scope_snd]
    exact List.mem_append_left _ hvisible
  have hplain :
      ¬ (t.kind ≠ .ident ∨ Candidate.keywords.contains (String.ofList t.text) = true) := by
    rw [hname, List.contains_iff_mem]
    simp [hkind, hword]
  unfold definition?
  rw [ha, Option.bind_some, hfound]
  simp only [Option.map_some, if_neg hplain]
  rw [hname]
  exact resolve?_of_unique _ hmem hscope

/-- A variable of a module in a file that refers to another one, where the cursor is on its name. -/
theorem definition_own_name_nested :
    ∃ d, ((run sharedDisk .empty
        [.register usingFile "use <l>module m(){y=3;}".toList]).definition? sharedDisk usingFile
          18).2 = some d ∧ d.name = "y" ∧ d.kind = .variable := by
  let text := "use <l>module m(){y=3;}".toList
  let ts : List Token :=
    [⟨.ident, 0, [], "use".toList⟩, ⟨.path, 4, [' '], "<l>".toList⟩,
      ⟨.ident, 7, [], "module".toList⟩, ⟨.ident, 14, [' '], ['m']⟩, ⟨.punct, 15, [], ['(']⟩,
      ⟨.punct, 16, [], [')']⟩, ⟨.punct, 17, [], ['{']⟩, ⟨.ident, 18, [], ['y']⟩,
      ⟨.punct, 19, [], ['=']⟩, ⟨.number, 20, [], ['3']⟩, ⟨.punct, 21, [], [';']⟩,
      ⟨.punct, 22, [], ['}']⟩]
  let y : Declaration Nat := ⟨"y", .variable, ⟨18, 22⟩, ⟨18, 19⟩, none, []⟩
  let m : Declaration Nat := ⟨"m", .module, ⟨7, 23⟩, ⟨14, 15⟩, none, [y]⟩
  have ht : tokenize text = .ok ts := by decide +kernel
  have hlist : (Outline.ofTokens text.length ts).declarations = [m] := by with_unfolding_all rfl
  have hforest : (Analysis.ofText usingFile text).declarations =
      [m].map (Declaration.map (Place.at usingFile text)) := by
    rw [Analysis.declarations_ofText usingFile ht, hlist]
  refine ⟨y.map (Place.at usingFile text), ?_, rfl, rfl⟩
  refine definition_own_name sharedDisk sharedDisk [.register usingFile text] usingFile
    (.ofText usingFile text) _ 18 rfl ?_ (by decide) (fun e he hname => ?_) (fun b hb e he => ?_)
    (by decide +kernel)
  · rw [hforest]
    exact .under List.mem_cons_self (.here List.mem_cons_self)
  · rw [hforest] at he
    obtain ⟨f, hf, rfl⟩ := he.map (children_map _)
    rcases hf.singleton with rfl | hf
    · simp [m, y] at hname
    rcases hf.singleton with rfl | hf
    · rfl
    · exact absurd hf Occurs.nil
  · have hothers : (meant sharedDisk usingFile (run sharedDisk .empty [.register usingFile text])
        (Analysis.ofText usingFile text).references).all
          (fun a => a.all fun a => a.declarations.all fun e => e.name != "y") = true := by
      decide +kernel
    rw [file_ofText] at hb
    have hb := List.all_eq_true.1 hothers _ hb
    simpa using List.all_eq_true.1 hb e he

end Workspace
end Scad
