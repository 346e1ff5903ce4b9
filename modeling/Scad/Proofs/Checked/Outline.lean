import Scad.Proofs.Checked.Item

/-!
# Scad.Proofs.Checked.Outline

The outline of a source read by descent: the block of an item is read before what follows the item.

* `Checked.bracketFaults`: the faults of brackets. It looks at the first character of every token of
  punctuation.
* `Reader.block`: the declarations up to the brace that closes a block, or up to the end of the
  source.
* `Checked.outline`: the outline. `Checked.outline_eq` says that no look-up fails and that descent
  finds what the machine of `Outline.State` finds with its stack of open blocks.
-/

namespace Scad

open Checked Outline

/-! ## Brackets -/

namespace Checked

/-- The faults of brackets, where `stack` holds the open brackets, innermost first. -/
def bracketFaults (source : List Char) (stack : List (Char × Nat)) :
    List Mark → Checked (List Fault)
  | [] => return stack.reverse.map fun (opener, offset) => ⟨offset, .unclosed opener⟩
  | m :: ms =>
    if m.kind = .punct then do
      let c ← index source m.start
      if (← minus m.stop m.start) ≠ 1 then
        bracketFaults source stack ms
      else if ['(', '[', '{'].contains c then
        bracketFaults source ((c, m.start) :: stack) ms
      else if [')', ']', '}'].contains c then
        match stack with
        | [] => return ⟨m.start, .unmatched c⟩ :: (← bracketFaults source [] ms)
        | (opener, _) :: stack =>
          if Bracket.closerOf opener = c then
            bracketFaults source stack ms
          else
            return ⟨m.start, .mismatched (Bracket.closerOf opener) c⟩ ::
              (← bracketFaults source stack ms)
      else
        bracketFaults source stack ms
    else
      bracketFaults source stack ms

theorem index_start {source : List Char} {t : Token} (h : t.Stands source) {c : Char}
    {cs : List Char} (ht : t.text = c :: cs) : index source t.start = .ok c := by
  obtain ⟨before, after, rfl, hstart⟩ := h
  refine index_of_getElem? ?_
  rw [← hstart, ht, List.append_assoc, List.getElem?_append_right (Nat.le_refl _), Nat.sub_self]
  rfl

theorem bracket?_of_kind {t : Token} (h : t.kind ≠ .punct) : t.bracket? = none := by
  unfold Token.bracket?
  split
  · rename_i hpunct _
    exact absurd hpunct h
  · rfl

theorem bracket?_of_long {t : Token} {c d : Char} {cs : List Char} (h : t.text = c :: d :: cs) :
    t.bracket? = none := by
  simp [Token.bracket?, h]

theorem bracket?_of_char {t : Token} (hkind : t.kind = .punct) {c : Char} (htext : t.text = [c]) :
    t.bracket? =
      if ['(', '[', '{'].contains c || [')', ']', '}'].contains c then some c else none := by
  have hall : ['(', ')', '[', ']', '{', '}'].contains c =
      (['(', '[', '{'].contains c || [')', ']', '}'].contains c) := by
    simp only [List.contains_cons, List.contains_nil, Bool.or_false]
    grind
  simp only [Token.bracket?, hkind, htext, hall]

theorem bracketFaults_eq {source : List Char} {ts : List Token} (hts : ∀ t ∈ ts, t.Stands source)
    (htexts : ∀ t ∈ ts, t.text ≠ []) (stack : List (Char × Nat)) :
    bracketFaults source stack (ts.map Token.mark) = .ok (Bracket.faultsFrom stack ts) := by
  induction ts generalizing stack with
  | nil => rfl
  | cons t ts ih =>
    obtain ⟨ht, hts⟩ := List.forall_mem_cons.1 hts
    obtain ⟨htext, htexts⟩ := List.forall_mem_cons.1 htexts
    obtain ⟨c, cs, htext⟩ := List.exists_cons_of_ne_nil htext
    have hstart : index source t.mark.start = .ok c := index_start ht htext
    rw [List.map_cons, bracketFaults, hstart, Token.minus_mark, ok_bind, ok_bind,
      Bracket.faultsFrom]
    simp only [ih hts htexts]
    by_cases hkind : t.kind = .punct
    · rw [if_pos (show t.mark.kind = .punct from hkind)]
      cases cs with
      | cons d cs => rw [if_pos (by simp [htext]), bracket?_of_long htext]
      | nil =>
        rw [if_neg (by simp [htext]), Token.isOpener, bracket?_of_char hkind htext]
        cases ho : ['(', '[', '{'].contains c with
        | true =>
          simp only [Bool.true_or, if_true, Option.any_some, ho]
          rfl
        | false =>
          cases hc : [')', ']', '}'].contains c with
          | true =>
            simp only [Bool.or_true, if_true, Option.any_some, ho, Bool.false_eq_true, if_false]
            cases stack with
            | nil => rfl
            | cons opener stack =>
              dsimp only
              split
              · rfl
              · rfl
          | false => simp only [Bool.or_false, Bool.false_eq_true, if_false]
    · rw [if_neg (show ¬ t.mark.kind = .punct from hkind), bracket?_of_kind hkind]

end Checked

/-! ## Blocks -/

namespace Reader

/-- The declarations up to the brace that closes the block, which is read too, or up to the end of
the source. Outside all blocks a closing brace is passed over. -/
def block (r : Reader) : Nat → Bool → Cursor → Read
  | 0, _, _ => .error .endless
  | fuel + 1, nested, k => do
    match ← r.peekAt k.pos 0 with
    | none => return ([], k)
    | some m =>
      if ← m.is r.source Token.braceClose then
        let (_, k) ← r.advance k
        if nested then return ([], k) else r.block fuel nested k
      else
        let (found, k) ← r.item (r.block fuel true) m k
        let (others, k) ← r.block fuel nested k
        return (found ++ others, k)

end Reader

namespace Checked

def outline (source : List Char) (marks : List Mark) : Checked Outline := do
  let faults ← bracketFaults source [] marks
  let r ← Reader.ofMarks source marks
  let (declarations, k) ← r.block r.rounds false ⟨0, 0, [], []⟩
  return ⟨declarations, k.references,
    (faults ++ k.faults).mergeSort fun a b => decide (a.offset ≤ b.offset)⟩

namespace Cursor

/-- The state of the machine where the cursor stands. -/
def state (k : Cursor) (frames : List Frame) (found : List (Declaration Nat)) : State :=
  ⟨frames, found, k.stop, k.references, k.faults⟩

/-- The state after the innermost open block has ended where the cursor stands. -/
def leave (k : Cursor) : List Frame → List (Declaration Nat) → State
  | [], found => k.state [] found
  | f :: frames, found => k.state frames (f.close found k.stop)

theorem take_stop (k : Cursor) (it : Item) : (k.take it).stop = it.stop := by
  have hskip : (k.take it).stop = (k.skip it.leaves).stop := rfl
  rw [hskip, skip_eq, Item.leaves, List.getLast?_cons, Item.stop]
  rfl

/-- Reading an item is a step of the machine. -/
theorem step_state (k : Cursor) (it : Item) (frames : List Frame) (found : List (Declaration Nat)) :
    (k.state frames found).step it =
      (k.take it).state (State.place frames found it).1 (State.place frames found it).2 := by
  have hfaults : (k.take it).faults = k.faults ++ it.faults := by
    show (k.skip it.leaves).faults ++ it.faults = _
    rw [skip_eq]
  simp only [State.step, state, take_stop, hfaults]
  rfl

end Cursor
end Checked

/-- Only a closing brace is read as one. -/
theorem Item.next_shape (eof : Nat) {l : Leaf} (hl : l.is Token.braceClose = false)
    (ls : List Leaf) : (next eof l ls).1.shape ≠ .closed := by
  have hkeyword : ∀ kind, (keywordDeclaration eof kind l ls).1.shape ≠ .closed := by
    intro kind
    unfold keywordDeclaration functionItem moduleItem
    dsimp only
    split
    · split
      · split
        · split
          · split <;> simp
          · simp
        · split <;> simp
      · simp
    · simp
  have hother : ∀ ms, (other l ms).1.shape ≠ .closed := by
    intro ms
    simp only [other]
    split <;> simp
  unfold next
  rw [if_neg (by simp [hl])]
  split
  · exact hkeyword .module
  split
  · exact hkeyword .function
  split
  · rename_i m rest
    split
    · fun_cases reference l m rest <;> simp
    split
    · simp [variableItem]
    · exact hother (m :: rest)
  · exact hother []

/-- The two states give the same outline. -/
structure Outline.State.Same (s t : State) : Prop where
  declarations : s.declarations = t.declarations
  references : s.references = t.references
  faults : s.faults = t.faults

theorem Outline.State.Same.refl (s : State) : s.Same s := ⟨rfl, rfl, rfl⟩

theorem Outline.State.Same.trans {s t u : State} (h : s.Same t) (h' : t.Same u) : s.Same u :=
  ⟨h.1.trans h'.1, h.2.trans h'.2, h.3.trans h'.3⟩

namespace Reader

/-- The cursor stands before the leaves `ls`, which follow each other. -/
structure Stands (r : Reader) (tail : List Char) (ts : List Token) (k : Cursor) (ls : List Leaf) :
    Prop where
  shows : r.Shows tail ts k.pos ls
  ordered : Item.Ordered r.source.length ls
  stop : k.stop ≤ Item.here r.source.length ls

/-- The block before which the cursor `k` stands gives the declarations `ds` and ends before `k'`:
wherever it is opened, the machine comes to the same outline from there. -/
structure Spans (r : Reader) (tail : List Char) (ts : List Token) (nested : Bool) (k : Cursor)
    (ls : List Leaf) (ds : List (Declaration Nat)) (k' : Cursor) (ls' : List Leaf) : Prop where
  stands : r.Stands tail ts k' ls'
  length : ls'.length ≤ ls.length
  stop : k.stop ≤ k'.stop
  done : nested = false → ls' = []
  same : ∀ frames found, frames.isEmpty = !nested →
    State.Same ((k.state frames found).read r.source.length ls)
      ((k'.leave frames (found ++ ds)).read r.source.length ls')

section Block

variable {r : Reader} {tail : List Char} {ts : List Token} {k : Cursor} {ls : List Leaf} {l : Leaf}

theorem Stands.take (h : r.Stands tail ts k (l :: ls)) :
    r.Stands tail ts (k.take (Item.next r.source.length l ls).1)
      (Item.next r.source.length l ls).2 ∧
      k.stop ≤ (k.take (Item.next r.source.length l ls).1).stop := by
  have happend := Item.next_append r.source.length l ls
  obtain ⟨hshows, hordered, hstop⟩ := h
  rw [← happend] at hshows hordered
  obtain ⟨hextent, hhere, -⟩ := Item.extent_of_ordered hordered
  have hfirst := Item.first_next r.source.length l ls
  have hl : l ∈ (Item.next r.source.length l ls).1.leaves := by
    rw [Item.leaves, hfirst]
    exact List.mem_cons_self
  have hlast := (hextent l hl).2
  have hlength : l.token.stop = l.token.start + l.token.text.length := rfl
  have hbefore : k.stop ≤ l.token.start := hstop
  refine ⟨⟨Shows.skip (k := k) hshows, (Item.ordered_append hordered).2, ?_⟩, ?_⟩
  · rwa [Cursor.take_stop]
  · rw [Cursor.take_stop]
    omega

/-- The name of a declaration ends before the cursor behind its item. -/
theorem Stands.name_le (h : r.Stands tail ts k (l :: ls)) (name : Token)
    (hname : (Item.next r.source.length l ls).1.shape.name? = some name) :
    name.stop ≤ (k.take (Item.next r.source.length l ls).1).stop := by
  have hordered := h.ordered
  rw [← Item.next_append r.source.length l ls] at hordered
  obtain ⟨m, hm, rfl⟩ := Item.named_next r.source.length l ls name hname
  rw [Cursor.take_stop]
  exact ((Item.extent_of_ordered hordered).1 m hm).2

/-- Reading an item with the block it opens does not fail, and the machine comes to the same outline
from there. -/
theorem item_spans {inner : Cursor → Read} {fuel : Nat}
    (hinner : ∀ {k ls}, r.Stands tail ts k ls → ls.length < fuel →
      ∃ ds k' ls', inner k = .ok (ds, k') ∧ r.Spans tail ts true k ls ds k' ls')
    (h : r.Stands tail ts k (l :: ls)) (hl : l.is Token.braceClose = false)
    (hfuel : ls.length < fuel) :
    ∃ ds k' ls', r.item inner l.token.mark k = .ok (ds, k') ∧ r.Stands tail ts k' ls' ∧
      ls'.length ≤ ls.length ∧ k.stop ≤ k'.stop ∧
      ∀ frames found, State.Same ((k.state frames found).read r.source.length (l :: ls))
        ((k'.state frames (found ++ ds)).read r.source.length ls') := by
  have hshape := Item.next_shape r.source.length hl ls
  have hname := h.name_le
  have hlength : (Item.next r.source.length l ls).2.length ≤ ls.length :=
    Nat.le_of_lt_succ (Item.next_length r.source.length l ls)
  obtain ⟨hstands, hstop⟩ := h.take
  rw [item_eq inner h.shows hl]
  simp only [State.read_cons, Cursor.step_state]
  generalize (Item.next r.source.length l ls).1 = it at *
  generalize (Item.next r.source.length l ls).2 = rest at *
  unfold finish
  cases hs : it.shape with
  | closed => exact absurd hs hshape
  | skipped =>
    refine ⟨[], k.take it, rest, rfl, hstands, hlength, hstop, fun frames found => ?_⟩
    simp only [State.place, hs, List.append_nil]
    exact .refl _
  | included path =>
    refine ⟨[], k.take it, rest, rfl, hstands, hlength, hstop, fun frames found => ?_⟩
    simp only [State.place, hs, List.append_nil]
    exact .refl _
  | declared kind name =>
    have hmax : max (k.take it).stop name.stop = it.stop := by
      rw [Nat.max_eq_left (hname name (by rw [hs]; rfl)), Cursor.take_stop]
    refine ⟨[declare kind it.first name it.stop []], k.take it, rest, ?_, hstands, hlength, hstop,
      fun frames found => ?_⟩
    · dsimp only
      rw [hmax]
    · simp only [State.place, hs]
      exact .refl _
  | openedModule name =>
    obtain ⟨ds, k', ls', hread, hspans⟩ := hinner hstands (Nat.lt_of_le_of_lt hlength hfuel)
    have hmax : max k'.stop name.stop = k'.stop :=
      Nat.max_eq_left ((hname name (by rw [hs]; rfl)).trans hspans.stop)
    refine ⟨[declare .module it.first name k'.stop ds], k', ls', ?_, hspans.stands,
      hspans.length.trans hlength, hstop.trans hspans.stop, fun frames found => ?_⟩
    · dsimp only
      rw [hread, ok_bind, hmax]
      rfl
    · have hsame := hspans.same (⟨some (it.first, name), found⟩ :: frames) [] rfl
      simp only [State.place, hs]
      exact hsame
  | openedBlock =>
    obtain ⟨ds, k', ls', hread, hspans⟩ := hinner hstands (Nat.lt_of_le_of_lt hlength hfuel)
    refine ⟨ds, k', ls', hread, hspans.stands, hspans.length.trans hlength,
      hstop.trans hspans.stop, fun frames found => ?_⟩
    have hsame := hspans.same (⟨none, found⟩ :: frames) [] rfl
    simp only [State.place, hs]
    exact hsame

/-- A closing brace ends the innermost open block. -/
theorem Stands.brace (h : r.Stands tail ts k (l :: ls)) (hl : l.is Token.braceClose = true) :
    r.Stands tail ts (k.step l) ls ∧ k.stop ≤ (k.step l).stop ∧
      ∀ frames found, (k.state frames found).read r.source.length (l :: ls) =
        ((k.step l).leave frames found).read r.source.length ls := by
  have hnext : Item.next r.source.length l ls = (⟨.closed, l, [], []⟩, ls) := by
    unfold Item.next
    rw [if_pos hl]
  have htake : k.take ⟨.closed, l, [], []⟩ = k.step l := by
    rw [Cursor.take_of_none rfl, Cursor.add_nil]
    rfl
  obtain ⟨hstands, hstop⟩ := h.take
  simp only [hnext, htake] at hstands hstop
  refine ⟨hstands, hstop, fun frames found => ?_⟩
  rw [State.read_cons, hnext, Cursor.step_state, htake]
  cases frames with
  | nil => rfl
  | cons f frames => rfl

/-- Reading a block does not fail, and the machine comes to the same outline behind it. -/
theorem block_spans (nested : Bool) (h : r.Stands tail ts k ls) {fuel : Nat}
    (hfuel : ls.length < fuel) :
    ∃ ds k' ls', r.block fuel nested k = .ok (ds, k') ∧ r.Spans tail ts nested k ls ds k' ls' := by
  -- the induction is on the fuel, because an item goes on behind the block that it opens
  induction fuel generalizing nested k ls with
  | zero => exact absurd hfuel (Nat.not_lt_zero _)
  | succ fuel ih =>
    rw [block, h.shows.peek, ok_bind]
    cases ls with
    | nil =>
      refine ⟨[], k, [], rfl, h, Nat.le_refl _, Nat.le_refl _, fun _ => rfl, ?_⟩
      intro frames found _
      rw [List.append_nil, State.read_nil, State.read_nil]
      cases frames with
      | nil => exact .refl _
      | cons f frames => exact ⟨rfl, rfl, rfl⟩
    | cons l ls =>
      have hn : ls.length < fuel := Nat.lt_of_succ_lt_succ hfuel
      simp only [List.head?_cons, Option.map_some, h.shows.is, ok_bind, h.shows.advance]
      cases hl : l.is Token.braceClose with
      | true =>
        obtain ⟨hstands, hstop, hread⟩ := h.brace hl
        cases nested with
        | true =>
          refine ⟨[], k.step l, ls, rfl, hstands, Nat.le_succ _, hstop, by simp, ?_⟩
          intro frames found _
          rw [hread, List.append_nil]
          exact .refl _
        | false =>
          obtain ⟨ds, k', ls', hblock, hspans⟩ := ih false hstands hn
          refine ⟨ds, k', ls', hblock, hspans.stands, hspans.length.trans (Nat.le_succ _),
            hstop.trans hspans.stop, hspans.done, fun frames found hframes => ?_⟩
          cases frames with
          | nil =>
            rw [hread]
            exact hspans.same [] found rfl
          | cons f frames => cases hframes
      | false =>
        obtain ⟨ds, k', ls', hitem, hstands, hlength, hstop, hsame⟩ :=
          item_spans (fun h hlt => ih true h hlt) h hl hn
        obtain ⟨es, k'', ls'', hblock, hspans⟩ := ih nested hstands (Nat.lt_of_le_of_lt hlength hn)
        simp only [Bool.false_eq_true, if_false, hitem, ok_bind, hblock]
        refine ⟨ds ++ es, k'', ls'', rfl, hspans.stands, ?_, hstop.trans hspans.stop, hspans.done,
          fun frames found hframes => ?_⟩
        · have hle := hspans.length
          rw [List.length_cons]
          omega
        · rw [← List.append_assoc]
          exact (hsame frames found).trans (hspans.same frames (found ++ ds) hframes)

end Block
end Reader

/-- No look-up fails while an outline is read, and it is the outline of the tokens. -/
theorem Checked.outline_eq {source : List Char} {ts : List Token}
    (h : Reads false 0 source ts) :
    outline source (ts.map Token.mark) = .ok (Outline.ofTokens source.length ts) := by
  obtain ⟨tail, rfl, hw⟩ := h.written
  obtain ⟨r, hr, hshows⟩ := Reader.shows_ofMarks hw h.path_length
  have hfaults : bracketFaults (Token.spell ts ++ tail) [] (ts.map Token.mark) =
      .ok (Bracket.faults ts) :=
    bracketFaults_eq (fun t ht => Token.stands_of_written hw ht)
      (fun t ht => (Token.sound_of_written hw ht).text_ne_nil) []
  have hlength : 0 + (Token.spell ts).length ≤ r.source.length := by
    rw [hshows.source, List.length_append]
    omega
  have hstands : r.Stands tail ts ⟨0, 0, [], []⟩ (Leaf.ofTokens ts) :=
    ⟨hshows, (Leaf.ordered_ofTokensFrom hw hlength []).2, Nat.zero_le _⟩
  obtain ⟨ds, k, ls, hblock, hspans⟩ := Reader.block_spans false hstands hstands.shows.length_lt
  obtain ⟨hdeclarations, hreferences, hmarks⟩ := hspans.same [] [] rfl
  rw [hspans.done rfl, State.read_nil, hshows.source] at hdeclarations hreferences hmarks
  rw [outline, hfaults, ok_bind, hr, ok_bind, hblock, ok_bind, ofTokens_eq_read]
  show Except.ok (Outline.mk ds k.references _) = _
  rw [State.init]
  simp only [Cursor.state] at hdeclarations hreferences hmarks
  rw [hdeclarations, hreferences, hmarks]
  rfl

/-- A path of one character, which no source has, would have nothing between its brackets. -/
example : Checked.outline "use <".toList [⟨.ident, 0, 3⟩, ⟨.path, 4, 5⟩] =
    .error (.slice 5 4 5) := by
  rfl

end Scad
