import Scad.Proofs.Forest
import Scad.Proofs.Layout.Format
import Scad.Proofs.Outline.Alike
import Scad.Proofs.Position
import Scad.Protocol.Symbol

/-!
# Scad.Proofs.Outline.Extent

Where the declarations of an outline stand, whatever faults the source has.

* `Declaration.Nested`: the name of a declaration stands in it, its children stand in it after the
  name, one after another, and only modules have children.
* `Outline.Filled lo hi ds`: the declarations `ds` stand one after another from `lo` to `hi` and all
  members of the forest are nested.
* `Outline.Enclosing`: what is known of the open blocks while the items of a source are read.
  Closing a block keeps it, and so does every item.
* `Analysis.outline_wellFormed`: offsets, positions and the editor's outline of every text.
-/

namespace Scad

/-- The extent `s` lies in the extent `t`. -/
def Span.Inside {P : Type} [LE P] (s t : Span P) : Prop := t.start ≤ s.start ∧ s.stop ≤ t.stop

namespace Declaration

section Points

variable {P : Type} [LE P] [LT P]

/-- The declarations stand one after another. -/
def InOrder (ds : List (Declaration P)) : Prop :=
  ds.Pairwise fun d e => d.span.stop ≤ e.span.start

/-- Name and children stand in the declaration, the children after the name and one after another;
only modules have any. -/
structure Nested (d : Declaration P) : Prop where
  name_inside : d.nameSpan.Inside d.span
  name_nonempty : d.nameSpan.start < d.nameSpan.stop
  child_inside : ∀ e ∈ d.children, e.span.Inside d.span ∧ d.nameSpan.stop ≤ e.span.start
  children_inOrder : InOrder d.children
  childless : d.kind ≠ .module → d.children = []

end Points

theorem Nested.start_le_stop {d : Declaration Nat} (h : d.Nested) : d.span.start ≤ d.span.stop := by
  have h1 := h.name_inside.1
  have h2 := h.name_inside.2
  have h3 := h.name_nonempty
  omega

section Map

variable {Q : Type} [LE Q] {f : Nat → Q} {n : Nat}

theorem InOrder.map (hle : ∀ x y, x ≤ y → y ≤ n → f x ≤ f y) {ds : List (Declaration Nat)}
    (h : InOrder ds) (hds : ∀ d ∈ ds, d.Nested ∧ d.span.stop ≤ n) :
    InOrder (ds.map (Declaration.map f)) := by
  refine List.pairwise_map.2 (h.imp_of_mem fun {d e} _ he hde => ?_)
  have hstop := (hds e he).1.start_le_stop.trans (hds e he).2
  simpa [Span.map] using hle _ _ hde hstop

/-- A map that keeps the order of points keeps declarations nested. -/
theorem Nested.map [LT Q] (hle : ∀ x y, x ≤ y → y ≤ n → f x ≤ f y)
    (hlt : ∀ x y, x < y → y ≤ n → f x < f y) {d : Declaration Nat} (h : d.Nested)
    (hc : ∀ e ∈ d.children, e.Nested) (hn : d.span.stop ≤ n) : (d.map f).Nested := by
  have hname := h.name_inside.2.trans hn
  refine ⟨?_, ?_, ?_, ?_, ?_⟩
  · have h1 := hle _ _ h.name_inside.1 (Nat.le_of_lt h.name_nonempty |>.trans hname)
    have h2 := hle _ _ h.name_inside.2 hn
    simpa [Span.Inside, Span.map] using ⟨h1, h2⟩
  · simpa [Span.map] using hlt _ _ h.name_nonempty hname
  · intro e he
    rw [children_map] at he
    obtain ⟨e, hmem, rfl⟩ := List.mem_map.1 he
    obtain ⟨hin, hafter⟩ := h.child_inside e hmem
    have hstop := hin.2.trans hn
    have hstart := (hc e hmem).start_le_stop.trans hstop
    have h1 := hle _ _ hin.1 hstart
    have h2 := hle _ _ hin.2 hn
    have h3 := hle _ _ hafter hstart
    simpa [Span.Inside, Span.map] using ⟨⟨h1, h2⟩, h3⟩
  · rw [children_map]
    exact h.children_inOrder.map hle fun e he => ⟨hc e he, (h.child_inside e he).1.2.trans hn⟩
  · intro hk
    rw [kind_map] at hk
    rw [children_map, h.childless hk, List.map_nil]

end Map

end Declaration

/-! ## Leaves and items in order -/

theorem Leaf.map_token_ofTokensFrom (cs ts : List Token) :
    (ofTokensFrom cs ts).map Leaf.token = Token.significant ts := by
  induction ts generalizing cs with
  | nil => rfl
  | cons t ts ih =>
    rw [ofTokensFrom, Token.significant]
    cases ht : t.isComment with
    | true => simpa [ht, Token.significant] using ih (t :: cs)
    | false => simpa [ht, Token.significant] using ih []

theorem Leaf.token_mem_significant {ts : List Token} {l : Leaf} (h : l ∈ ofTokens ts) :
    l.token ∈ Token.significant ts := by
  rw [← map_token_ofTokensFrom [] ts]
  exact List.mem_map_of_mem h

namespace Item

variable {eof : Nat}

theorem start_of_ordered {ls : List Leaf} (h : Ordered eof ls) :
    ∀ l ∈ ls, here eof ls ≤ l.token.start := by
  induction ls with
  | nil =>
    intro l hl
    cases hl
  | cons m ls ih =>
    intro l hl
    rcases List.mem_cons.1 hl with rfl | hl
    · exact Nat.le_refl _
    · exact (start_le_here h).trans (ih h.2 l hl)

/-- Every leaf of an item stands between the beginning of the item and its end, which is the end of
a leaf and comes before what follows. -/
theorem extent_of_ordered {it : Item} {rest : List Leaf} (h : Ordered eof (it.leaves ++ rest)) :
    (∀ l ∈ it.leaves, it.first.token.start ≤ l.token.start ∧ l.token.stop ≤ it.stop) ∧
      it.stop ≤ here eof rest ∧ ∃ l ∈ it.leaves, it.stop = l.token.stop := by
  have hlast : ∀ (ls : List Leaf) (l : Leaf), Ordered eof (l :: ls ++ rest) →
      (∀ m ∈ l :: ls, m.token.stop ≤ (ls.getLast?.getD l).token.stop) ∧
        (ls.getLast?.getD l).token.stop ≤ here eof rest ∧ ls.getLast?.getD l ∈ l :: ls := by
    intro ls
    induction ls with
    | nil =>
      intro l h
      simpa using h.1
    | cons m ls ih =>
      intro l h
      obtain ⟨h1, h2, h3⟩ := ih m h.2
      rw [List.getLast?_cons, Option.getD_some]
      refine ⟨fun k hk => ?_, h2, List.mem_cons_of_mem l h3⟩
      rcases List.mem_cons.1 hk with rfl | hk
      · have hkm : k.token.stop ≤ m.token.start := h.1
        have hm : m.token.stop = m.token.start + m.token.text.length := rfl
        have := h1 m List.mem_cons_self
        omega
      · exact h1 k hk
  obtain ⟨h1, h2, h3⟩ := hlast it.others it.first h
  refine ⟨fun l hl => ⟨?_, h1 l hl⟩, h2, _, h3, rfl⟩
  exact start_of_ordered h l (List.mem_append_left rest hl)

/-- The token of the name that a shape gives a declaration. -/
def Shape.name? : Shape → Option Token
  | .declared _ name | .openedModule name => some name
  | .skipped | .included _ | .openedBlock | .closed => none

/-- The name that an item gives a declaration is one of its leaves. -/
def Named (it : Item) : Prop := ∀ name, it.shape.name? = some name → ∃ l ∈ it.leaves, l.token = name

theorem named_of_none {it : Item} (h : it.shape.name? = none) : it.Named := by
  intro name hname
  rw [h] at hname
  cases hname

theorem named_moduleItem (eof : Nat) (keyword name : Leaf) (ls : List Leaf) :
    (moduleItem eof keyword name ls).1.Named := by
  intro n hn
  refine ⟨name, by simp [moduleItem, leaves], ?_⟩
  simp only [moduleItem] at hn
  split at hn
  · exact Option.some.inj hn
  · exact Option.some.inj hn

theorem named_functionItem (eof : Nat) (keyword name : Leaf) (ls : List Leaf) :
    (functionItem eof keyword name ls).1.Named := by
  unfold functionItem
  dsimp only
  split
  · split
    · exact fun n hn => ⟨name, by simp [leaves], Option.some.inj hn⟩
    · exact fun n hn => ⟨name, by simp [leaves], Option.some.inj hn⟩
  · exact fun n hn => ⟨name, by simp [leaves], Option.some.inj hn⟩

theorem named_next (eof : Nat) (l : Leaf) (ls : List Leaf) : (next eof l ls).1.Named := by
  have hkeyword : ∀ kind, (keywordDeclaration eof kind l ls).1.Named := by
    intro kind
    unfold keywordDeclaration
    split
    · split
      · split
        · exact named_functionItem eof l _ _
        · exact named_moduleItem eof l _ _
      · exact named_of_none rfl
    · exact named_of_none rfl
  have hother : ∀ ms, (other l ms).1.Named := by
    intro ms
    apply named_of_none
    simp only [other]
    split <;> rfl
  unfold next
  split
  · exact named_of_none rfl
  split
  · exact hkeyword _
  split
  · exact hkeyword _
  split
  · split
    · apply named_of_none
      rename_i m rest _
      fun_cases reference l m rest <;> rfl
    split
    · intro n hn
      exact ⟨l, List.mem_cons_self, Option.some.inj hn⟩
    · exact hother _
  · exact hother _

theorem named_ofLeaves (eof : Nat) (ls : List Leaf) : ∀ it ∈ ofLeaves eof ls, it.Named := by
  fun_induction ofLeaves eof ls with
  | case1 =>
    intro it hit
    cases hit
  | case2 l ls ih =>
    intro it hit
    rcases List.mem_cons.1 hit with rfl | hit
    · exact named_next eof l ls
    · exact ih it hit

end Item

namespace Outline

/-! ## Declarations in a block -/

/-- Beginning, end and name of a declaration come from leaves. -/
structure Drawn (ls : List Leaf) (d : Declaration Nat) : Prop where
  start : ∃ l ∈ ls, d.span.start = l.token.start
  stop : ∃ l ∈ ls, d.span.stop = l.token.stop
  name : ∃ l ∈ ls, d.nameSpan = spanOf l.token ∧ d.name = String.ofList l.token.text

/-- The declarations stand one after another from `lo` to `hi`, and all members of the forest are
nested and drawn from the leaves. -/
structure Filled (ls : List Leaf) (lo hi : Nat) (ds : List (Declaration Nat)) : Prop where
  lower : ∀ d ∈ ds, lo ≤ d.span.start
  upper : ∀ d ∈ ds, d.span.stop ≤ hi
  inOrder : Declaration.InOrder ds
  all : ∀ d, Occurs Declaration.children d ds → d.Nested ∧ Drawn ls d

/-- The first leaf and the name of a declaration whose other parts begin at `lo` or later. -/
structure Headed (ls : List Leaf) (first : Leaf) (name : Token) (lo : Nat) : Prop where
  first_mem : first ∈ ls
  name_mem : ∃ l ∈ ls, l.token = name
  start_le : first.token.start ≤ name.start
  nonempty : name.start < name.stop
  stop_le : name.stop ≤ lo

section Filled

variable {ls : List Leaf} {lo mid hi : Nat} {ds es : List (Declaration Nat)}

theorem Filled.nil (ls : List Leaf) (lo hi : Nat) : Filled ls lo hi [] := by
  refine ⟨by simp, by simp, .nil, fun d hd => ?_⟩
  exact absurd hd Occurs.nil

theorem Filled.mono (h : Filled ls lo mid ds) (hhi : mid ≤ hi) : Filled ls lo hi ds :=
  ⟨h.lower, fun d hd => (h.upper d hd).trans hhi, h.inOrder, h.all⟩

theorem Filled.append (hd : Filled ls lo mid ds) {mid' : Nat} (he : Filled ls mid' hi es)
    (hlo : lo ≤ mid') (hmid : mid ≤ mid') (hhi : mid' ≤ hi) : Filled ls lo hi (ds ++ es) := by
  refine ⟨fun d h => ?_, fun d h => ?_, ?_, fun d h => ?_⟩
  · rcases List.mem_append.1 h with h | h
    · exact hd.lower d h
    · exact hlo.trans (he.lower d h)
  · rcases List.mem_append.1 h with h | h
    · exact (hd.upper d h).trans (hmid.trans hhi)
    · exact he.upper d h
  · refine List.pairwise_append.2 ⟨hd.inOrder, he.inOrder, fun d h e h' => ?_⟩
    exact (hd.upper d h).trans (hmid.trans (he.lower e h'))
  · rcases h.append with h | h
    · exact hd.all d h
    · exact he.all d h

/-- A declaration with the declarations `inner` found after its name. -/
theorem Filled.declare {kind : Declaration.Kind} {first : Leaf} {name : Token} {stop : Nat}
    {inner : List (Declaration Nat)} (hh : Headed ls first name lo) (hi : Filled ls lo stop inner)
    (hlo : lo ≤ stop) (hs : ∃ l ∈ ls, stop = l.token.stop) (hk : kind ≠ .module → inner = []) :
    Filled ls first.token.start stop [Outline.declare kind first name stop inner] := by
  have h1 := hh.start_le
  have h2 := hh.nonempty
  have h3 := hh.stop_le
  refine ⟨by simp [Outline.declare], by simp [Outline.declare], List.pairwise_singleton _ _,
    fun d hd => ?_⟩
  rcases hd.singleton with rfl | hd
  · refine ⟨⟨⟨h1, h3.trans hlo⟩, h2, fun e he => ?_, hi.inOrder, hk⟩, ⟨first, hh.first_mem, rfl⟩,
      hs, ?_⟩
    · have hlower : lo ≤ e.span.start := hi.lower e he
      have hupper : e.span.stop ≤ stop := hi.upper e he
      refine ⟨⟨?_, hupper⟩, h3.trans hlower⟩
      show first.token.start ≤ e.span.start
      omega
    · obtain ⟨l, hl, rfl⟩ := hh.name_mem
      exact ⟨l, hl, rfl, rfl⟩
  · exact hi.all d hd

end Filled

/-! ## Open blocks -/

/-- What is known of the open blocks, where the innermost one begins at `lo`: each holds the
declarations before the next one, and the module of a block begins after those. -/
inductive Enclosing (ls : List Leaf) : Nat → List Frame → Prop where
  | outermost : Enclosing ls 0 []
  | block {outer mid lo : Nat} {before : List (Declaration Nat)} {fs : List Frame} :
      Enclosing ls outer fs → outer ≤ mid → Filled ls outer mid before → mid ≤ lo →
      Enclosing ls lo (⟨none, before⟩ :: fs)
  | module {outer mid lo : Nat} {first : Leaf} {name : Token} {before : List (Declaration Nat)}
      {fs : List Frame} :
      Enclosing ls outer fs → outer ≤ mid → Filled ls outer mid before →
      mid ≤ first.token.start → Headed ls first name lo →
      Enclosing ls lo (⟨some (first, name), before⟩ :: fs)

section Enclosing

variable {ls : List Leaf} {lo stop : Nat} {found : List (Declaration Nat)}

theorem Enclosing.close {f : Frame} {fs : List Frame} (h : Enclosing ls lo (f :: fs))
    (hd : Filled ls lo stop found) (hlo : lo ≤ stop) (hs : ∃ l ∈ ls, stop = l.token.stop) :
    ∃ outer, Enclosing ls outer fs ∧ outer ≤ stop ∧ Filled ls outer stop (f.close found stop) := by
  cases h with
  | @block outer mid lo before fs henc hmid hbefore hle =>
    exact ⟨outer, henc, by omega, hbefore.append hd (by omega) hle hlo⟩
  | @module outer mid lo first name before fs henc hmid hbefore hle hh =>
    have h1 := hh.start_le
    have h2 := hh.nonempty
    have h3 := hh.stop_le
    refine ⟨outer, henc, by omega, hbefore.append (.declare hh hd hlo hs ?_) ?_ hle ?_⟩
    · exact fun hk => absurd rfl hk
    · omega
    · omega

/-- Blocks still open at the end of the source end there. -/
theorem Enclosing.closeAll {fs : List Frame} (h : Enclosing ls lo fs)
    (hd : Filled ls lo stop found) (hlo : lo ≤ stop)
    (hs : fs ≠ [] → ∃ l ∈ ls, stop = l.token.stop) :
    Filled ls 0 stop (fs.foldl (fun inner f => f.close inner stop) found) := by
  induction fs generalizing lo found with
  | nil =>
    cases h
    exact hd
  | cons f fs ih =>
    obtain ⟨outer, henc, hle, hclosed⟩ := h.close hd hlo (hs (by simp))
    exact ih henc hclosed hle fun _ => hs (by simp)

/-- The declarations of a sequence of items stand one after another, if its leaves do. -/
theorem filled_nestFrom {eof : Nat} {its : List Item} {fs : List Frame}
    (henc : Enclosing ls lo fs) (hd : Filled ls lo stop found) (hlo : lo ≤ stop)
    (hs : fs ≠ [] → ∃ l ∈ ls, stop = l.token.stop)
    (hord : Item.Ordered eof (its.flatMap Item.leaves))
    (hhere : stop ≤ Item.here eof (its.flatMap Item.leaves))
    (hmem : ∀ l ∈ its.flatMap Item.leaves, l ∈ ls)
    (hne : ∀ l ∈ ls, l.token.start < l.token.stop) (hnamed : ∀ it ∈ its, it.Named) :
    ∃ hi, Filled ls 0 hi (nestFrom fs found stop its) := by
  -- the invariant is that the open blocks enclose what is found in the innermost one, which begins
  -- at `lo` and has been read up to `stop`
  induction its generalizing lo stop found fs with
  | nil => exact ⟨stop, henc.closeAll hd hlo hs⟩
  | cons it its ih =>
    rw [List.flatMap_cons] at hord hhere hmem
    obtain ⟨hext, hafter, l, hl, hstop⟩ := Item.extent_of_ordered hord
    have hfirst : it.first ∈ it.leaves := List.mem_cons_self
    have hstart : stop ≤ it.first.token.start := hhere
    have hin : ∀ m ∈ it.leaves, m ∈ ls := fun m hm => hmem m (List.mem_append_left _ hm)
    have hend : ∃ l ∈ ls, it.stop = l.token.stop := ⟨l, hin l hl, hstop⟩
    have hlong : it.first.token.start ≤ it.stop := by
      have h1 := (hext it.first hfirst).2
      have h2 := hne it.first (hin it.first hfirst)
      omega
    have hle : stop ≤ it.stop := hstart.trans hlong
    have hhead : ∀ name, it.shape.name? = some name → Headed ls it.first name it.stop := by
      intro name hname
      obtain ⟨m, hm, rfl⟩ := hnamed it List.mem_cons_self name hname
      exact ⟨hin it.first hfirst, ⟨m, hin m hm, rfl⟩, (hext m hm).1, hne m (hin m hm),
        (hext m hm).2⟩
    have hrest : ∀ {lo fs found}, Enclosing ls lo fs → Filled ls lo it.stop found → lo ≤ it.stop →
        ∃ hi, Filled ls 0 hi (nestFrom fs found it.stop its) := by
      intro lo fs found henc hd hlo
      refine ih henc hd hlo (fun _ => hend) (Item.ordered_append hord).2 hafter ?_ ?_
      · exact fun m hm => hmem m (List.mem_append_right _ hm)
      · exact fun jt hjt => hnamed jt (List.mem_cons_of_mem it hjt)
    simp only [nestFrom]
    cases hshape : it.shape with
    | skipped => exact hrest henc (hd.mono hle) (by omega)
    | included path => exact hrest henc (hd.mono hle) (by omega)
    | declared kind name =>
      have hh := hhead name (by rw [hshape]; rfl)
      have hone : Filled ls _ it.stop [declare kind it.first name it.stop []] :=
        .declare hh (.nil ls it.stop it.stop) (Nat.le_refl _) hend fun _ => rfl
      exact hrest henc (hd.append hone (hlo.trans hstart) hstart hlong) (hlo.trans hle)
    | openedModule name =>
      have hh := hhead name (by rw [hshape]; rfl)
      exact hrest (.module henc hlo hd hstart hh) (.nil _ _ _) (Nat.le_refl _)
    | openedBlock => exact hrest (.block henc hlo hd hle) (.nil _ _ _) (Nat.le_refl _)
    | closed =>
      cases fs with
      | nil => exact hrest henc (hd.mono hle) (by omega)
      | cons f fs =>
        obtain ⟨outer, henc', hle', hclosed⟩ := henc.close (hd.mono hle) (by omega) hend
        exact hrest henc' hclosed hle'

end Enclosing

/-- The declarations of a source stand one after another, and all of them are nested. -/
theorem filled_ofTokens {tail : List Char} {ts : List Token} (hw : Written 0 tail ts) :
    ∃ hi, Filled (Leaf.ofTokens ts) 0 hi
      (Outline.ofTokens (Token.spell ts ++ tail).length ts).declarations := by
  have hleaves := Item.leaves_ofLeaves (Token.spell ts ++ tail).length (Leaf.ofTokens ts)
  have hord : Item.Ordered (Token.spell ts ++ tail).length
      ((Item.ofLeaves (Token.spell ts ++ tail).length (Leaf.ofTokens ts)).flatMap Item.leaves) := by
    rw [hleaves]
    exact (Leaf.ordered_ofTokensFrom hw (by simp) []).2
  refine filled_nestFrom .outermost (.nil _ _ _) (Nat.le_refl _) (by simp) hord (Nat.zero_le _) ?_
    (fun l hl => ?_) (Item.named_ofLeaves _ _)
  · rw [hleaves]
    exact fun l hl => hl
  · have hsig := Leaf.token_mem_significant hl
    exact (Token.sound_of_written hw (List.mem_filter.1 hsig).1).start_lt_stop

end Outline

/-! ## Every text -/

/-- Beginning and end of a declaration are those of tokens, and the name is read off the text. -/
structure Declaration.Grounded (text : List Char) (tokens : List Token) (d : Declaration Nat) :
    Prop where
  start : ∃ t ∈ Token.significant tokens, d.span.start = t.start
  stop : ∃ t ∈ Token.significant tokens, d.span.stop = t.stop
  stop_le : d.span.stop ≤ text.length
  name : d.name = String.ofList
    ((text.drop d.nameSpan.start).take (d.nameSpan.stop - d.nameSpan.start))

theorem Outline.Drawn.grounded {tail : List Char} {ts : List Token} (hw : Written 0 tail ts)
    {d : Declaration Nat} (h : Outline.Drawn (Leaf.ofTokens ts) d) :
    d.Grounded (Token.spell ts ++ tail) ts := by
  obtain ⟨⟨l, hl, hstart⟩, ⟨m, hm, hstop⟩, n, hn, hspan, hname⟩ := h
  have hm' := Leaf.token_mem_significant hm
  refine ⟨⟨_, Leaf.token_mem_significant hl, hstart⟩, ⟨_, hm', hstop⟩, ?_, ?_⟩
  · have := Token.stop_of_written hw (List.mem_filter.1 hm').1
    rw [hstop, List.length_append]
    omega
  · have hn' := (List.mem_filter.1 (Leaf.token_mem_significant hn)).1
    obtain ⟨x, y, htext, hx⟩ := Token.text_of_written hw hn'
    have hlen : n.token.stop - n.token.start = n.token.text.length := by
      rw [Token.stop]
      omega
    simp only [hspan, Outline.spanOf, hname, hlen]
    rw [htext, ← hx, Nat.zero_add, List.append_assoc, List.drop_left, List.take_left]

namespace Symbol

theorem ofDeclarations_eq_map (ds : List (Declaration Place)) :
    ofDeclarations ds = ds.map ofDeclaration := by
  induction ds with
  | nil => rfl
  | cons d ds ih => rw [ofDeclarations, ih, List.map_cons]

theorem children_ofDeclaration (d : Declaration Place) :
    (ofDeclaration d).children = d.children.map ofDeclaration := by
  cases d with
  | mk name kind span nameSpan doc children => exact ofDeclarations_eq_map children

theorem range_ofDeclaration (d : Declaration Place) :
    (ofDeclaration d).range = (d.map Place.position).span := by
  cases d; rfl

theorem selection_ofDeclaration (d : Declaration Place) :
    (ofDeclaration d).selection = (d.map Place.position).nameSpan := by
  cases d; rfl

/-- The entries stand one after another. -/
def InOrder (ss : List Symbol) : Prop := ss.Pairwise fun r s => r.range.stop ≤ s.range.start

/-- The name of an entry and the entries below it stand in it, these one after another. -/
structure Nested (s : Symbol) : Prop where
  selection_inside : s.selection.Inside s.range
  child_inside : ∀ r ∈ s.children, r.range.Inside s.range
  children_inOrder : InOrder s.children

theorem inOrder_ofDeclarations {ds : List (Declaration Place)}
    (h : Declaration.InOrder (ds.map (Declaration.map Place.position))) :
    InOrder (ds.map ofDeclaration) := by
  refine List.pairwise_map.2 ((List.pairwise_map.1 h).imp fun {d e} hde => ?_)
  rw [range_ofDeclaration, range_ofDeclaration]
  exact hde

theorem nested_ofDeclaration {d : Declaration Place} (h : (d.map Place.position).Nested) :
    (ofDeclaration d).Nested := by
  refine ⟨?_, fun r hr => ?_, ?_⟩
  · rw [selection_ofDeclaration, range_ofDeclaration]
    exact h.name_inside
  · rw [children_ofDeclaration] at hr
    obtain ⟨e, he, rfl⟩ := List.mem_map.1 hr
    rw [range_ofDeclaration, range_ofDeclaration]
    refine (h.child_inside _ ?_).1
    rw [Declaration.children_map]
    exact List.mem_map_of_mem he
  · rw [children_ofDeclaration]
    apply inOrder_ofDeclarations
    rw [← Declaration.children_map]
    exact h.children_inOrder

end Symbol

namespace Declaration

theorem Grounded.map {text : List Char} {tokens : List Token} {d : Declaration Nat}
    (h : d.Grounded text tokens) (hd : d.Nested) {f : Nat → Nat}
    (hf : ∀ x, x ≤ text.length → f x = x) : (d.map f).Grounded text tokens := by
  have hname := hd.name_inside.2.trans h.stop_le
  have hstart := hd.start_le_stop.trans h.stop_le
  have hnameStart := (Nat.le_of_lt hd.name_nonempty).trans hname
  refine ⟨?_, ?_, ?_, ?_⟩
  · simpa [Span.map, hf _ hstart] using h.start
  · simpa [Span.map, hf _ h.stop_le] using h.stop
  · simpa [Span.map, hf _ h.stop_le] using h.stop_le
  · simpa [Span.map, hf _ hname, hf _ hnameStart] using h.name

end Declaration

namespace Analysis

open Declaration

theorem offset_at (file : FilePath) (text : List Char) {n : Nat} (h : n ≤ text.length) :
    (Place.at file text n).offset = n :=
  Nat.min_eq_left h

theorem position_at (file : FilePath) (text : List Char) {n : Nat} (h : n ≤ text.length) :
    (Place.at file text n).position = Position.ofOffset text n := by
  simp only [Place.at, Nat.min_eq_left h]

/-- The declarations of a text are those of its outline, each at its place. -/
theorem declarations_ofText (file : FilePath) {text : List Char} {ts : List Token}
    (h : tokenize text = .ok ts) :
    (ofText file text).declarations =
      (Outline.ofTokens text.length ts).declarations.map
        (Declaration.map (Place.at file text)) := by
  simp [ofText, h, mapAll_eq_map]

/-- The points of an outline, shown by a function that keeps their order, keep it nested. -/
theorem nested_shown {Q : Type} [LE Q] [LT Q] (file : FilePath) {text : List Char}
    {ts : List Token} (h : tokenize text = .ok ts) (view : Place → Q)
    (hle : ∀ x y, x ≤ y → y ≤ text.length →
      view (Place.at file text x) ≤ view (Place.at file text y))
    (hlt : ∀ x y, x < y → y ≤ text.length →
      view (Place.at file text x) < view (Place.at file text y)) :
    (∀ d, Occurs children d (ofText file text).declarations → (d.map view).Nested) ∧
      InOrder ((ofText file text).declarations.map (Declaration.map view)) := by
  obtain ⟨tail, rfl, hw⟩ := Layout.written_of_tokenize h
  obtain ⟨hi, hfilled⟩ := Outline.filled_ofTokens hw
  rw [declarations_ofText file h]
  refine ⟨fun d hd => ?_, ?_⟩
  · obtain ⟨e, he, rfl⟩ := hd.map (children_map _)
    obtain ⟨hnested, hdrawn⟩ := hfilled.all e he
    rw [map_map]
    exact hnested.map hle hlt (fun c hc => (hfilled.all c (he.child hc)).1)
      (hdrawn.grounded hw).stop_le
  · rw [List.map_map]
    simp only [Function.comp_def, map_map]
    exact hfilled.inOrder.map hle fun d hd =>
      ⟨(hfilled.all d (.here hd)).1, ((hfilled.all d (.here hd)).2.grounded hw).stop_le⟩

theorem grounded_ofText {file : FilePath} {text : List Char} {ts : List Token}
    (h : tokenize text = .ok ts) {d : Declaration Place}
    (hd : Occurs children d (ofText file text).declarations) :
    (d.map Place.offset).Grounded text ts := by
  rw [declarations_ofText file h] at hd
  obtain ⟨tail, rfl, hw⟩ := Layout.written_of_tokenize h
  obtain ⟨hi, hfilled⟩ := Outline.filled_ofTokens hw
  obtain ⟨e, he, rfl⟩ := hd.map (children_map _)
  obtain ⟨hnested, hdrawn⟩ := hfilled.all e he
  rw [map_map]
  exact (hdrawn.grounded hw).map hnested fun x hx => offset_at file _ hx

/-- The outline of every text is well-formed, whatever problems the text has. Every declaration, at
any depth, begins and ends with a token, holds its name, which the text spells there, and its
children after the name, one after another; only modules have children. The same holds for the
positions that the editor shows, and so the editor's outline is well-formed too. -/
theorem outline_wellFormed (file : FilePath) (text : List Char) :
    (∀ d, Occurs children d (ofText file text).declarations →
      (d.map Place.offset).Nested ∧ (d.map Place.position).Nested ∧
        (d.map Place.offset).Grounded text ((ofText file text).tokens.getD [])) ∧
    InOrder ((ofText file text).declarations.map (Declaration.map Place.offset)) ∧
    InOrder ((ofText file text).declarations.map (Declaration.map Place.position)) ∧
    (∀ s, Occurs Symbol.children s (Symbol.ofDeclarations (ofText file text).declarations) →
      s.Nested) ∧
    Symbol.InOrder (Symbol.ofDeclarations (ofText file text).declarations) := by
  cases ht : tokenize text with
  | error e =>
    have hnone : (ofText file text).declarations = [] := by simp [ofText, ht]
    rw [hnone]
    exact ⟨fun d hd => absurd hd Occurs.nil, .nil, .nil, fun s hs => absurd hs Occurs.nil, .nil⟩
  | ok ts =>
    obtain ⟨hoffset, horder⟩ := nested_shown file ht Place.offset
      (fun x y hxy hy => by rwa [offset_at file text hy, offset_at file text (hxy.trans hy)])
      (fun x y hxy hy => by
        rwa [offset_at file text hy, offset_at file text ((Nat.le_of_lt hxy).trans hy)])
    obtain ⟨hposition, horder'⟩ := nested_shown file ht Place.position
      (fun x y hxy hy => by
        rw [position_at file text hy, position_at file text (hxy.trans hy)]
        exact Position.ofOffset_le_ofOffset hxy hy)
      (fun x y hxy hy => by
        rw [position_at file text hy, position_at file text ((Nat.le_of_lt hxy).trans hy)]
        exact Position.ofOffset_lt_ofOffset hxy hy)
    have htokens : (ofText file text).tokens.getD [] = ts := by simp [ofText, ht]
    rw [htokens, Symbol.ofDeclarations_eq_map]
    refine ⟨fun d hd => ⟨hoffset d hd, hposition d hd, grounded_ofText ht hd⟩, horder, horder',
      fun s hs => ?_, Symbol.inOrder_ofDeclarations horder'⟩
    obtain ⟨d, hd, rfl⟩ := hs.map Symbol.children_ofDeclaration
    exact Symbol.nested_ofDeclaration (hposition d hd)

end Analysis
end Scad
