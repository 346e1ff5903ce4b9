import Mathlib.Data.List.Chain
import Scad.Proofs.Layout.Depth

/-!
# Scad.Proofs.Layout.Row

The standard layout of a source, line by line.

* `Layout.Cuts`: a text cut into its lines.
* `Layout.not_blank_of_change`: a line on which a string or comment begins or ends that runs over
  the end of a line is not blank. This keeps blank lines of the layout away from the lines inside it.
* `Layout.rowsFrom`: the lines of the layout, each with what it comes from.
* `Layout.Arranged ts ls rows`: which rows the lines `ls` become.
* `Layout.reindent_layout`: the rows of the layout of a source.
-/

namespace Scad
namespace Layout

open Text

/-! ## Where the lines of a source stand -/

/-- The text, which starts at `offset`, has these lines. -/
inductive Cuts : Nat → List Char → List SourceLine → Prop where
  | last {offset : Nat} {x : List Char} : '\n' ∉ x → Cuts offset x [⟨offset, x⟩]
  | line {offset : Nat} {x s : List Char} {ls : List SourceLine} : '\n' ∉ x →
      Cuts (offset + x.length + 1) s ls → Cuts offset (x ++ '\n' :: s) (⟨offset, x⟩ :: ls)

theorem cuts_sourceLinesFrom (offset : Nat) (s : List Char) :
    Cuts offset s (sourceLinesFrom offset (splitOn (· == '\n') s)) := by
  induction hn : s.length using Nat.strong_induction_on generalizing s offset with
  | _ n ih =>
    by_cases hm : '\n' ∈ s
    · obtain ⟨x, r, rfl, hx⟩ := List.eq_append_cons_of_mem hm
      rw [splitOn_append (beq_newline hx) (by decide), sourceLinesFrom]
      have hlen := length_append_newline x r
      exact .line hx (ih r.length (by omega) _ r rfl)
    · rw [splitOn_of_none (beq_newline hm)]
      exact .last hm

/-- The line stands in the source where it starts, and ends with a newline or with the source. -/
structure SourceLine.Stands (source : List Char) (l : SourceLine) : Prop where
  no_newline : '\n' ∉ l.text
  text : ∃ x y, source = x ++ (l.text ++ y) ∧ x.length = l.start ∧ ∀ c ∈ y.head?, c = '\n'

theorem Cuts.stands {offset : Nat} {s : List Char} {ls : List SourceLine} (h : Cuts offset s ls)
    {x : List Char} (hx : x.length = offset) : ∀ l ∈ ls, l.Stands (x ++ s) := by
  induction h generalizing x with
  | @last offset z hz =>
    intro l hl
    rw [List.mem_singleton.1 hl]
    exact ⟨hz, x, [], by simp, hx, by simp⟩
  | @line offset z s ls hz _ ih =>
    refine List.forall_mem_cons.2 ⟨⟨hz, x, '\n' :: s, rfl, hx, by simp⟩, ?_⟩
    have hrest := ih (x := x ++ (z ++ ['\n'])) (by simp [hx]; omega)
    simpa using hrest

theorem Cuts.chain {offset : Nat} {s : List Char} {ls : List SourceLine} (h : Cuts offset s ls) :
    (∀ l ∈ ls.head?, l.start = offset) ∧
      ls.IsChain fun l m => m.start = l.start + l.text.length + 1 := by
  induction h with
  | last => exact ⟨by simp, .singleton _⟩
  | line _ _ ih => exact ⟨by simp, List.isChain_cons.2 ⟨ih.1, ih.2⟩⟩

theorem Cuts.last_stop {offset : Nat} {s : List Char} {ls : List SourceLine}
    (h : Cuts offset s ls) : ∀ l ∈ ls.getLast?, l.start + l.text.length = offset + s.length := by
  induction h with
  | last => simp
  | @line offset x s ls _ hrest ih =>
    intro l hl
    have hne : ls ≠ [] := by cases hrest <;> simp
    rw [List.getLast?_cons_of_ne_nil hne] at hl
    rw [ih l hl, length_append_newline]
    omega

/-- A line that holds a character other than a blank is not blank. -/
theorem SourceLine.Stands.not_blank {source : List Char} {l : SourceLine} (h : l.Stands source)
    {n : Nat} (hstart : l.start ≤ n) (hstop : n ≤ l.start + l.text.length) {c : Char}
    (hc : source[n]? = some c) (hb : isBlank c = false) : isBlankLine l.text = false := by
  obtain ⟨x, y, rfl, hx, hy⟩ := h.text
  rw [List.getElem?_append_right (by omega)] at hc
  have hmem : c ∈ l.text := by
    by_cases hn : n - x.length < l.text.length
    · rw [List.getElem?_append_left hn] at hc
      exact List.mem_of_getElem? hc
    · have hend : n - x.length = l.text.length := by omega
      rw [hend, List.getElem?_append_right (Nat.le_refl _), Nat.sub_self, ← List.head?_eq_getElem?]
        at hc
      rw [hy c hc] at hb
      cases hb
  by_contra hblank
  rw [Bool.not_eq_false, isBlankLine, List.all_eq_true] at hblank
  rw [hblank c hmem] at hb
  cases hb

/-! ## Lines inside a token -/

section Written

variable {tail : List Char} {ts : List Token}

theorem first_of_written (hw : Written 0 tail ts) {t : Token} (ht : t ∈ ts) :
    ∃ c, (Token.spell ts ++ tail)[t.start]? = some c ∧ isBlank c = false := by
  obtain ⟨x, y, htext, hx⟩ := Token.text_of_written hw ht
  have hsound := Token.sound_of_written hw ht
  obtain ⟨c, cs, hc⟩ := List.exists_cons_of_ne_nil hsound.text_ne_nil
  refine ⟨c, ?_, hsound.head_not_blank c (by simp [hc])⟩
  rw [htext, ← hx, hc]
  simp

theorem last_of_written (hw : Written 0 tail ts) {t : Token} (ht : t ∈ ts)
    (hm : t.isMultiline = true) :
    ∃ c, (Token.spell ts ++ tail)[t.stop - 1]? = some c ∧ isBlank c = false := by
  obtain ⟨x, y, htext, hx⟩ := Token.text_of_written hw ht
  have hsound := Token.sound_of_written hw ht
  have hkind : t.kind ≠ .lineComment := by
    intro hk
    simp [Token.isMultiline, hk] at hm
  obtain ⟨s, c, hs⟩ : ∃ s c, t.text = s ++ [c] :=
    ⟨_, _, (List.dropLast_append_getLast hsound.text_ne_nil).symm⟩
  refine ⟨c, ?_, hsound.last_not_blank hkind c (by simp [hs])⟩
  have hstop : t.stop - 1 = (x ++ s).length := by
    rw [Token.stop, hs]
    simp
    omega
  rw [htext, hstop, hs]
  simp

/-- Where a token begins or ends that runs over the end of a line, the line is not blank. -/
theorem not_blank_of_change (hw : Written 0 tail ts) {l m : SourceLine}
    (hl : l.Stands (Token.spell ts ++ tail)) (hm : m.start = l.start + l.text.length + 1)
    (h : ¬ (l.Continues ts ↔ m.Continues ts)) : isBlankLine l.text = false := by
  by_cases hcl : l.Continues ts
  · have hcm : ¬ m.Continues ts := fun hcm => h ⟨fun _ => hcm, fun _ => hcl⟩
    obtain ⟨t, ht, hmulti, hstart, hstop⟩ := hcl
    have hends : t.stop ≤ m.start := by
      by_contra hlong
      exact hcm ⟨t, ht, hmulti, by omega, by omega⟩
    obtain ⟨c, hc, hb⟩ := last_of_written hw ht hmulti
    exact hl.not_blank (by omega) (by omega) hc hb
  · have hcm : m.Continues ts := by
      by_contra hcm
      exact h ⟨fun hcl' => absurd hcl' hcl, fun hcm' => absurd hcm' hcm⟩
    obtain ⟨t, ht, hmulti, hstart, hstop⟩ := hcm
    have hbegins : l.start ≤ t.start := by
      by_contra hearly
      exact hcl ⟨t, ht, hmulti, by omega, by omega⟩
    obtain ⟨c, hc, hb⟩ := first_of_written hw ht
    exact hl.not_blank hbegins (by omega) hc hb

/-- The last line of a source is not blank if it begins inside a token. -/
theorem not_blank_of_last (hw : Written 0 tail ts) {l : SourceLine}
    (hl : l.Stands (Token.spell ts ++ tail))
    (hend : l.start + l.text.length = (Token.spell ts ++ tail).length) (h : l.Continues ts) :
    isBlankLine l.text = false := by
  obtain ⟨t, ht, hmulti, hstart, hstop⟩ := h
  obtain ⟨c, hc, hb⟩ := last_of_written hw ht hmulti
  have hin := Token.stop_of_written hw ht
  rw [List.length_append] at hend
  exact hl.not_blank (by omega) (by omega) hc hb

end Written

/-! ## Rows -/

/-- A line of the layout. -/
inductive Row where
  /-- A line that begins inside a token, as it stands in the source. -/
  | kept (text : List Char)
  /-- Another line, trimmed and indented. -/
  | set (text : List Char)
  /-- The empty line that stands for blank lines of the source. -/
  | gap
  deriving DecidableEq, Repr

def Row.text : Row → List Char
  | .kept text | .set text => text
  | .gap => []

/-- The rows of some lines in standard layout, as `renderFrom` writes them. -/
def rowsFrom (depth : Nat) (pending started : Bool) : List Line → List Row
  | [] => []
  | l :: ls =>
    if l.continues then .kept l.text :: rowsFrom (depth + l.opens - l.closes) pending true ls
    else if isBlankLine l.text then rowsFrom (depth + l.opens - l.closes) started started ls
    else
      (if pending then [.gap] else []) ++ .set (indent (depth - l.leadingClosers) ++ trim l.text) ::
        rowsFrom (depth + l.opens - l.closes) false true ls

theorem mem_of_mem_trim {c : Char} {s : List Char} (h : c ∈ trim s) : c ∈ s := by
  have hstart : c ∈ trimStart s :=
    List.mem_reverse.1 ((List.dropWhile_sublist isBlank).subset (List.mem_reverse.1 h))
  exact (List.dropWhile_sublist isBlank).subset hstart

theorem isEmpty_trim (s : List Char) : (trim s).isEmpty = isBlankLine s := by
  rw [Bool.eq_iff_iff, List.isEmpty_iff, trim_eq_nil_iff, isBlankLine, List.all_eq_true]

theorem renderFrom_eq (depth : Nat) (pending started : Bool) (ls : List Line) :
    renderFrom depth pending started ls =
      (rowsFrom depth pending started ls).flatMap fun r => r.text ++ ['\n'] := by
  fun_induction rowsFrom depth pending started ls with
  | case1 => rfl
  | case2 depth pending started l ls hc ih => simp [renderFrom, hc, ih, Row.text]
  | case3 depth pending started l ls hc hb ih =>
    simp only [renderFrom, isEmpty_trim, hb, ih, if_neg hc, if_true]
  | case4 depth pending started l ls hc hb ih =>
    simp only [renderFrom, isEmpty_trim, hb, ih, if_neg hc]
    cases pending <;> simp [Row.text]

theorem no_newline_rowsFrom {depth : Nat} {pending started : Bool} {ls : List Line}
    (h : ∀ l ∈ ls, '\n' ∉ l.text) :
    ∀ r ∈ rowsFrom depth pending started ls, '\n' ∉ r.text := by
  fun_induction rowsFrom depth pending started ls with
  | case1 => simp
  | case2 depth pending started l ls hc ih =>
    obtain ⟨hl, hls⟩ := List.forall_mem_cons.1 h
    exact List.forall_mem_cons.2 ⟨hl, ih hls⟩
  | case3 depth pending started l ls hc hb ih => exact ih (List.forall_mem_cons.1 h).2
  | case4 depth pending started l ls hc hb ih =>
    obtain ⟨hl, hls⟩ := List.forall_mem_cons.1 h
    have hset : '\n' ∉ indent (depth - l.leadingClosers) ++ trim l.text := by
      rw [List.mem_append, not_or]
      exact ⟨newline_not_mem_indent _, fun hm => hl (mem_of_mem_trim hm)⟩
    refine List.forall_mem_append.2 ⟨?_, List.forall_mem_cons.2 ⟨hset, ih hls⟩⟩
    cases pending <;> simp [Row.text]

/-- The lines of a text that is written row by row. -/
theorem splitOn_rows {rows : List Row} (h : ∀ r ∈ rows, '\n' ∉ r.text) :
    splitOn (· == '\n') (rows.flatMap fun r => r.text ++ ['\n']) = rows.map Row.text ++ [[]] := by
  induction rows with
  | nil => rfl
  | cons r rows ih =>
    obtain ⟨hr, hrows⟩ := List.forall_mem_cons.1 h
    rw [List.flatMap_cons, List.append_assoc, List.singleton_append,
      splitOn_append (beq_newline hr) (by decide), ih hrows]
    rfl

/-! ## Blank rows -/

/-- Of a line that begins inside a token and one that does not, the first is not blank. -/
def Apart (l m : Line) : Prop := l.continues ≠ m.continues → isBlankLine l.text = false

/-- Only rows that stand as in the source are both blank. -/
def Loose (r s : Row) : Prop :=
  isBlankLine r.text = true → isBlankLine s.text = true → (∃ x, r = .kept x) ∧ ∃ x, s = .kept x

section Blank

variable {depth : Nat} {pending started : Bool} {ls : List Line}

theorem isBlankLine_set {s : List Char} (h : isBlankLine s = false) (n : Nat) :
    isBlankLine (indent n ++ trim s) = false := by
  have hlead : isBlankLine (trim s) = false := by
    cases hs : trimStart s with
    | nil =>
      rw [isBlankLine, List.all_eq_true.2 (trimStart_eq_nil_iff.1 hs)] at h
      cases h
    | cons c cs =>
      have hc := Lexeme.dropWhile_stops isBlank s c (by rw [← trimStart, hs]; rfl)
      rw [trim, hs, trimEnd_cons_of_not_blank hc, isBlankLine, List.all_cons, hc, Bool.false_and]
  rw [isBlankLine] at hlead ⊢
  rw [List.all_append, hlead, Bool.and_false]

theorem not_blank_set {x : List Char} (h : .set x ∈ rowsFrom depth pending started ls) :
    isBlankLine x = false := by
  fun_induction rowsFrom depth pending started ls with
  | case1 => cases h
  | case2 depth pending started l ls hc ih => exact ih ((List.mem_cons.1 h).resolve_left (by simp))
  | case3 depth pending started l ls hc hb ih => exact ih h
  | case4 depth pending started l ls hc hb ih =>
    rcases List.mem_append.1 h with h | h
    · cases pending <;> simp at h
    · rcases List.mem_cons.1 h with h | h
      · cases h
        exact isBlankLine_set (by simpa using hb) _
      · exact ih h

/-- Rows that do not begin with a line inside a token are those of lines that do not either. -/
theorem exists_of_head {r : Row} (h : r ∈ (rowsFrom depth pending started ls).head?)
    (hr : ∀ x, r ≠ .kept x) : ∃ l ∈ ls.head?, l.continues = false := by
  cases ls with
  | nil => cases h
  | cons l ls =>
    refine ⟨l, rfl, ?_⟩
    by_contra hc
    rw [rowsFrom, if_pos (by simpa using hc)] at h
    exact hr l.text (Option.some.inj h).symm

theorem continues_of_nil {l : Line} (h : rowsFrom depth pending started (l :: ls) = []) :
    l.continues = false := by
  by_contra hc
  rw [rowsFrom, if_pos (by simpa using hc)] at h
  cases h

theorem chain_rowsFrom (depth : Nat) (pending started : Bool) (h : ls.IsChain Apart) :
    (rowsFrom depth pending started ls).IsChain Loose := by
  fun_induction rowsFrom depth pending started ls with
  | case1 => exact .nil
  | case2 depth pending started l ls hc ih =>
    obtain ⟨hnext, hls⟩ := List.isChain_cons.1 h
    refine List.isChain_cons.2 ⟨fun r hr hblank hblank' => ?_, ih hls⟩
    cases r with
    | kept x => exact ⟨⟨_, rfl⟩, _, rfl⟩
    | set x =>
      rw [Row.text, not_blank_set (List.mem_of_mem_head? hr)] at hblank'
      cases hblank'
    | gap =>
      obtain ⟨m, hm, hcm⟩ := exists_of_head hr (by simp)
      rw [Row.text, hnext m hm (by simp [hc, hcm])] at hblank
      cases hblank
  | case3 depth pending started l ls hc hb ih => exact ih (List.isChain_cons.1 h).2
  | case4 depth pending started l ls hc hb ih =>
    have hset := isBlankLine_set (by simpa using hb) (depth - l.leadingClosers)
    have hrows : (.set (indent (depth - l.leadingClosers) ++ trim l.text) ::
        rowsFrom (depth + l.opens - l.closes) false true ls).IsChain Loose := by
      refine List.isChain_cons.2 ⟨fun r _ hblank _ => ?_, ih (List.isChain_cons.1 h).2⟩
      rw [Row.text, hset] at hblank
      cases hblank
    cases pending with
    | false => exact hrows
    | true =>
      refine List.isChain_cons.2 ⟨fun r hr _ hblank => ?_, hrows⟩
      cases hr
      rw [Row.text, hset] at hblank
      cases hblank

/-- The layout does not begin with a blank line. -/
theorem not_blank_head (depth : Nat) (h : ls.IsChain Apart)
    (hfirst : ∀ l ∈ ls.head?, l.continues = false) :
    ∀ r ∈ (rowsFrom depth false false ls).head?, isBlankLine r.text = false := by
  induction ls generalizing depth with
  | nil => simp [rowsFrom]
  | cons l ls ih =>
    obtain ⟨hnext, hls⟩ := List.isChain_cons.1 h
    have hc : l.continues = false := hfirst l rfl
    rw [rowsFrom, if_neg (by simp [hc])]
    split
    · rename_i hb
      refine ih _ hls fun m hm => ?_
      by_contra hcm
      rw [hnext m hm (by simpa [hc] using hcm)] at hb
      cases hb
    · rename_i hb
      intro r hr
      cases hr
      exact isBlankLine_set (by simpa using hb) _

/-- The layout does not end with a blank line. -/
theorem not_blank_last (depth : Nat) (pending started : Bool) (h : ls.IsChain Apart)
    (hlast : ∀ l ∈ ls.getLast?, l.continues = true → isBlankLine l.text = false) :
    ∀ r ∈ (rowsFrom depth pending started ls).getLast?, isBlankLine r.text = false := by
  have htail : ∀ {l : Line} {ls : List Line},
      (∀ m ∈ (l :: ls).getLast?, m.continues = true → isBlankLine m.text = false) →
      ∀ m ∈ ls.getLast?, m.continues = true → isBlankLine m.text = false := by
    intro l ls hlast m hm
    refine hlast m ?_
    rw [List.getLast?_cons, Option.mem_def.1 hm]
    rfl
  fun_induction rowsFrom depth pending started ls with
  | case1 => simp
  | case2 depth pending started l ls hc ih =>
    obtain ⟨hnext, hls⟩ := List.isChain_cons.1 h
    intro r hr
    rw [List.getLast?_cons] at hr
    cases hrows : (rowsFrom (depth + l.opens - l.closes) pending true ls).getLast? with
    | some r' =>
      rw [hrows] at hr
      cases hr
      exact ih hls (htail hlast) _ hrows
    | none =>
      rw [hrows] at hr
      cases hr
      cases ls with
      | nil => exact hlast l rfl hc
      | cons m ls =>
        have hcm := continues_of_nil (List.getLast?_eq_none_iff.1 hrows)
        exact hnext m rfl (by simp [hc, hcm])
  | case3 depth pending started l ls hc hb ih =>
    exact ih (List.isChain_cons.1 h).2 (htail hlast)
  | case4 depth pending started l ls hc hb ih =>
    intro r hr
    rw [List.getLast?_append, List.getLast?_cons, Option.some_or] at hr
    cases hrows : (rowsFrom (depth + l.opens - l.closes) false true ls).getLast? with
    | some r' =>
      rw [hrows] at hr
      cases hr
      exact ih (List.isChain_cons.1 h).2 (htail hlast) _ hrows
    | none =>
      rw [hrows] at hr
      cases hr
      exact isBlankLine_set (by simpa using hb) _

end Blank

/-! ## The rows of a source -/

/-- The lines of a source become these rows: a line that begins inside a token stays as it is, of
the others those that are not blank are indented by the brackets open there, and empty rows may
stand anywhere. -/
inductive Arranged (ts : List Token) : List SourceLine → List Row → Prop where
  | done : Arranged ts [] []
  | kept {l : SourceLine} {ls : List SourceLine} {rows : List Row} : l.Continues ts →
      Arranged ts ls rows → Arranged ts (l :: ls) (.kept l.text :: rows)
  | set {l : SourceLine} {ls : List SourceLine} {rows : List Row} : ¬ l.Continues ts →
      isBlankLine l.text = false → Arranged ts ls rows →
      Arranged ts (l :: ls) (.set (indent (l.depth ts) ++ trim l.text) :: rows)
  | passed {l : SourceLine} {ls : List SourceLine} {rows : List Row} : ¬ l.Continues ts →
      isBlankLine l.text = true → Arranged ts ls rows → Arranged ts (l :: ls) rows
  | gap {ls : List SourceLine} {rows : List Row} : Arranged ts ls rows →
      Arranged ts ls (.gap :: rows)

theorem countP_leading (ts : List Token) :
    (ts.takeWhile Token.isCloser).countP Token.isCloser = (ts.takeWhile Token.isCloser).length ∧
      (ts.takeWhile Token.isCloser).countP Token.isOpener = 0 := by
  have hall : ∀ t ∈ ts.takeWhile Token.isCloser, t.isCloser = true :=
    fun t ht => List.all_eq_true.1 List.all_takeWhile t ht
  refine ⟨List.countP_eq_length.2 hall, List.countP_eq_zero.2 fun t ht hopen => ?_⟩
  have hclose := hall t ht
  cases hb : t.bracket? with
  | none => simp [Token.isCloser, hb] at hclose
  | some c => simp [Bracket.isCloser_eq_not_isOpener hb, hopen] at hclose

/-- Where all brackets match, the depth that the layout counts is the number of open brackets: for a
line that begins at `offset`, and for the lines after it. -/
theorem Passed.depth_eq {ts before later : List Token} {offset covered : Nat}
    (h : Passed ts offset covered before later) (hb : Bracket.faults ts = []) (text : List Char) :
    (Bracket.openFrom [] before).length -
        ((later.takeWhile fun t => t.start ≤ offset + text.length).takeWhile
          Token.isCloser).length =
      SourceLine.depth ts ⟨offset, text⟩ ∧
    (Bracket.openFrom [] before).length +
          (later.takeWhile fun t => t.start ≤ offset + text.length).countP Token.isOpener -
        (later.takeWhile fun t => t.start ≤ offset + text.length).countP Token.isCloser =
      (Bracket.openFrom []
        (before ++ later.takeWhile fun t => t.start ≤ offset + text.length)).length := by
  have hmatch : Bracket.faultsFrom (Bracket.openFrom [] before) later = [] := by
    have hall := hb
    rw [Bracket.faults, h.split] at hall
    exact (Bracket.length_openFrom hall).2
  rw [← List.takeWhile_append_dropWhile (p := fun t : Token =>
    decide (t.start ≤ offset + text.length)) (l := later)] at hmatch
  have hbefore := h.before_eq text
  have htokens := h.tokens_eq text
  generalize later.takeWhile (fun t => decide (t.start ≤ offset + text.length)) = here at *
  constructor
  · rw [← List.takeWhile_append_dropWhile (p := Token.isCloser) (l := here), List.append_assoc]
      at hmatch
    have hlength := (Bracket.length_openFrom hmatch).1
    obtain ⟨hclose, hopen⟩ := countP_leading here
    rw [SourceLine.depth, hbefore, htokens, Bracket.openFrom_append]
    omega
  · have hlength := (Bracket.length_openFrom hmatch).1
    rw [Bracket.openFrom_append]
    omega

/-- The rows that the layout makes of the lines from `offset` on are those lines arranged. -/
theorem Passed.arranged {ts before later : List Token} {offset covered : Nat}
    (h : Passed ts offset covered before later) (hb : Bracket.faults ts = [])
    (pending started : Bool) (texts : List (List Char)) :
    Arranged ts (sourceLinesFrom offset texts)
      (rowsFrom (Bracket.openFrom [] before).length pending started
        (linesFrom offset covered texts later)) := by
  induction texts generalizing offset covered before later pending started with
  | nil => exact .done
  | cons text rest ih =>
    have hcontinues := h.continues_iff text
    obtain ⟨hdepth, hafter⟩ := h.depth_eq hb text
    have hrest := fun pending started => ih (h.next text.length) pending started
    rw [← hafter] at hrest
    rw [sourceLinesFrom]
    simp only [linesFrom]
    by_cases hc : offset < covered
    · simp only [rowsFrom, decide_eq_true hc, if_true]
      exact .kept (hcontinues.2 hc) (hrest _ _)
    · simp only [rowsFrom, decide_eq_false hc, Bool.false_eq_true, if_false]
      cases hblank : isBlankLine text with
      | true => exact .passed (fun h => hc (hcontinues.1 h)) hblank (hrest _ _)
      | false =>
        have hset := Arranged.set (fun h => hc (hcontinues.1 h)) hblank (hrest false true)
        rw [← hdepth] at hset
        cases pending with
        | false => exact hset
        | true => exact .gap hset

/-- The lines of a source, as the layout knows them, are apart where they begin inside a token. -/
theorem apart_lines {tail : List Char} {ts : List Token} (hw : Written 0 tail ts) :
    (lines (Token.spell ts ++ tail) ts).IsChain Apart ∧
      (∀ l ∈ (lines (Token.spell ts ++ tail) ts).head?, l.continues = false) ∧
      ∀ l ∈ (lines (Token.spell ts ++ tail) ts).getLast?, l.continues = true →
        isBlankLine l.text = false := by
  have hcuts := cuts_sourceLinesFrom 0 (Token.spell ts ++ tail)
  have hstands : ∀ l ∈ sourceLines (Token.spell ts ++ tail), l.Stands (Token.spell ts ++ tail) :=
    hcuts.stands (x := []) rfl
  obtain ⟨hfirst, hchain⟩ := hcuts.chain
  have hlast := hcuts.last_stop
  rw [lines_eq hw]
  refine ⟨(List.isChain_map _).2 (hchain.imp_of_mem_imp fun l m hl _ hlm hne => ?_),
    fun l hl => ?_, fun l hl hc => ?_⟩
  · refine not_blank_of_change hw (hstands l hl) hlm fun hiff => hne ?_
    exact decide_eq_decide.2 hiff
  · rw [List.head?_map] at hl
    obtain ⟨m, hm, rfl⟩ := Option.map_eq_some_iff.1 hl
    -- no token starts before the source
    refine decide_eq_false fun ⟨t, _, _, hstart, _⟩ => ?_
    rw [hfirst m hm] at hstart
    exact Nat.not_lt_zero _ hstart
  · rw [List.getLast?_map] at hl
    obtain ⟨m, hm, rfl⟩ := Option.map_eq_some_iff.1 hl
    have hend := hlast m hm
    rw [Nat.zero_add] at hend
    exact not_blank_of_last hw (hstands m (List.mem_of_getLast? hm)) hend (of_decide_eq_true hc)

/-- A text of rows that does not end with a blank one ends with one newline. -/
theorem ends_rows {rows : List Row} {r : Row} (hr : r ∈ rows.getLast?) (hn : '\n' ∉ r.text)
    (hb : isBlankLine r.text = false) :
    ∃ s c, (rows.flatMap fun r => r.text ++ ['\n']) = s ++ [c, '\n'] ∧ c ≠ '\n' := by
  obtain ⟨front, rfl⟩ := List.getLast?_eq_some_iff.1 hr
  have hne : r.text ≠ [] := by
    intro hnil
    rw [hnil] at hb
    cases hb
  obtain ⟨s, c, hs⟩ : ∃ s c, r.text = s ++ [c] :=
    ⟨_, _, (List.dropLast_append_getLast hne).symm⟩
  refine ⟨(front.flatMap fun r => r.text ++ ['\n']) ++ s, c, by simp [hs], ?_⟩
  rintro rfl
  exact hn (by simp [hs])

/-- The layout of a source that has tokens and whose brackets match. The lines that begin inside a
string or a block comment are unchanged. The others that are not blank stand in order, each trimmed
and after four blanks for every bracket that is open just after the closing brackets at its
beginning. The layout does not begin with a blank line and ends with one newline, and of two
neighbouring lines that are blank both begin inside a token. -/
theorem reindent_layout {source : List Char} {ts : List Token} (h : tokenize source = .ok ts)
    (hne : ts ≠ []) (hb : Bracket.faults ts = []) :
    ∃ rows : List Row,
      Arranged ts (sourceLines source) rows ∧
      splitOn (· == '\n') (reindent source ts) = rows.map Row.text ++ [[]] ∧
      (∃ r ∈ rows.head?, isBlankLine r.text = false) ∧
      (∃ s c, reindent source ts = s ++ [c, '\n'] ∧ c ≠ '\n') ∧
      rows.IsChain fun r s => isBlankLine r.text = true → isBlankLine s.text = true →
        (∃ x, r = .kept x) ∧ ∃ x, s = .kept x := by
  obtain ⟨tail, hs, hw⟩ := written_of_tokenize h
  obtain ⟨hapart, hfirst, hlast⟩ := apart_lines hw
  rw [← hs] at hapart hfirst hlast
  have htext : reindent source ts =
      (rowsFrom 0 false false (lines source ts)).flatMap fun r => r.text ++ ['\n'] :=
    renderFrom_eq 0 false false _
  have hnewline : ∀ r ∈ rowsFrom 0 false false (lines source ts), '\n' ∉ r.text := by
    refine no_newline_rowsFrom fun l hl => ?_
    rw [lines_eq hw] at hl
    obtain ⟨m, hm, rfl⟩ := List.mem_map.1 hl
    exact ((cuts_sourceLinesFrom 0 source).stands (x := []) rfl m hm).no_newline
  have harranged : Arranged ts (sourceLines source) (rowsFrom 0 false false (lines source ts)) :=
    (Passed.start (Token.ordered_of_written hw)).arranged hb false false _
  have hhead := not_blank_head 0 hapart hfirst
  have hend := not_blank_last 0 false false hapart hlast
  have hchain := chain_rowsFrom 0 false false hapart
  generalize rowsFrom 0 false false (lines source ts) = rows at *
  have hrows : rows ≠ [] := by
    rintro rfl
    have hlaid := reindent_eq hw
    rw [← hs, htext] at hlaid
    simp [ending, hne, endingFrom] at hlaid
  have hhead? := List.head?_eq_some_head hrows
  have hlast? := List.getLast?_eq_some_getLast hrows
  refine ⟨rows, harranged, ?_, ⟨_, hhead?, hhead _ hhead?⟩, ?_, hchain⟩
  · rw [htext, splitOn_rows hnewline]
  · rw [htext]
    exact ends_rows hlast? (hnewline _ (List.getLast_mem hrows)) (hend _ hlast?)

/-- Blank lines at the beginning, in a block and in a comment, and a list over two lines. -/
def spacedSource : List Char :=
  "\n\nmodule m() \x7b\n\n\n/* a\n\n\nb */ x = [\n1 ];\n\x7d".toList

theorem reindent_layout_spaced :
    reindent spacedSource ((tokenize spacedSource).toOption.getD []) =
        "module m() \x7b\n\n    /* a\n\n\nb */ x = [\n        1 ];\n\x7d\n".toList ∧
      ∃ rows, Arranged ((tokenize spacedSource).toOption.getD []) (sourceLines spacedSource) rows ∧
        splitOn (· == '\n') (reindent spacedSource ((tokenize spacedSource).toOption.getD [])) =
          rows.map Row.text ++ [[]] := by
  have h : tokenize spacedSource = .ok ((tokenize spacedSource).toOption.getD []) := by
    decide +kernel
  refine ⟨by decide +kernel, ?_⟩
  obtain ⟨rows, harranged, htext, -⟩ :=
    reindent_layout h (by decide +kernel) (by decide +kernel)
  exact ⟨rows, harranged, htext⟩

end Layout
end Scad
