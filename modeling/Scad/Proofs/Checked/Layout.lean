import Scad.Proofs.Checked.Outline
import Scad.Proofs.Layout.Render
import Scad.Proofs.Token.Partition

/-!
# Scad.Proofs.Checked.Layout

Standard layout by line numbers. One pass over the tokens counts in tables, one entry for each line,
what the second pass over the lines needs.

* `Checked.Tally`: the tables. `Tally.add` finds the line of a token and writes its entries.
* `Checked.reindent`: the source in standard layout.
* `Checked.reindent_eq`: every line number is in the tables, and the layout is that of
  `Layout.reindent`.
-/

namespace Scad
namespace Checked

open Text Layout

/-! ## Line numbers -/

/-- The offsets after the newlines of a text whose first character has the offset `i`. -/
def newlineStarts (i : Nat) : List Char → List Nat
  | [] => []
  | c :: cs =>
    if c = '\n' then (i + 1) :: newlineStarts (i + 1) cs else newlineStarts (i + 1) cs

/-- Where the lines of a text start that has the offset `i`. -/
def lineStarts (i : Nat) (source : List Char) : List Nat := i :: newlineStarts i source

/-- The number of lines that start up to a given offset. -/
def upTo (starts : List Nat) (offset : Nat) : Nat :=
  (starts.takeWhile fun start => decide (start ≤ offset)).length

def lineOf (starts : List Nat) (offset : Nat) : Checked Nat := minus (upTo starts offset) 1

/-- What is known of every line: whether it begins inside a token, how many brackets it opens and
closes, how many it closes before anything else, and whether there was anything else. -/
structure Tally where
  verbatim : List Bool
  opens : List Nat
  closes : List Nat
  leading : List Nat
  seen : List Bool
  deriving DecidableEq, Repr

/-- The flags with those from `start` up to `stop` set. -/
def fill (flags : List Bool) (start stop : Nat) : Checked (List Bool) := do
  let _ ← slice flags start stop
  return flags.mapIdx fun i flag => flag || (decide (start ≤ i) && decide (i < stop))

/-- The character of a token of punctuation that has only one. -/
def bracketAt (source : List Char) (m : Mark) : Checked (Option Char) := do
  if m.kind = .punct then
    if (← minus m.stop m.start) = 1 then
      return some (← index source m.start)
    else
      return none
  else
    return none

namespace Tally

/-- The tables with the bracket of a token counted that starts on the line. -/
def count (source : List Char) (y : Tally) (m : Mark) (line : Nat) : Checked Tally := do
  let c ← bracketAt source m
  if c.any ['(', '[', '{'].contains then
    let opens ← update y.opens line (· + 1)
    let seen ← update y.seen line fun _ => true
    return { y with opens, seen }
  else if c.any [')', ']', '}'].contains then
    let closes ← update y.closes line (· + 1)
    if ← index y.seen line then
      let seen ← update y.seen line fun _ => true
      return { y with closes, seen }
    else
      let leading ← update y.leading line (· + 1)
      return { y with closes, leading }
  else
    let seen ← update y.seen line fun _ => true
    return { y with seen }

def add (source : List Char) (starts : List Nat) (y : Tally) (m : Mark) : Checked Tally := do
  let line ← lineOf starts m.start
  if m.kind = .blockComment ∨ m.kind = .str then
    let last ← lineOf starts (max (m.stop - 1) m.start)
    let verbatim ← fill y.verbatim (line + 1) (last + 1)
    count source { y with verbatim } m line
  else
    count source y m line

/-- The tables of so many lines without tokens. -/
def init (lines : Nat) : Tally :=
  ⟨.replicate lines false, .replicate lines 0, .replicate lines 0, .replicate lines 0,
    .replicate lines false⟩

end Tally

/-- Where a line stops: before the newline that starts the next one, or at the end. -/
def lineStop (source : List Char) (starts : List Nat) (line : Nat) : Checked Nat :=
  match starts[line + 1]? with
  | none => return source.length
  | some next => minus next 1

/-- The lines from number `line` on in standard layout, after what has been written in `out`. -/
def renderLines (source : List Char) (starts : List Nat) (y : Tally) (line depth : Nat)
    (pending : Bool) (out : List Char) : List Nat → Checked (List Char)
  | [] => return out
  | start :: others => do
    let text ← slice source start (← lineStop source starts line)
    let after := depth + (← index y.opens line) - (← index y.closes line)
    if ← index y.verbatim line then
      renderLines source starts y (line + 1) after pending (out ++ text ++ ['\n']) others
    else if (trim text).isEmpty then
      renderLines source starts y (line + 1) after (!out.isEmpty) out others
    else
      let blank := if pending then ['\n'] else []
      let leading ← index y.leading line
      renderLines source starts y (line + 1) after false
        (out ++ blank ++ indent (depth - leading) ++ trim text ++ ['\n']) others

/-- A source with the given tokens in standard layout. -/
def reindent (source : List Char) (marks : List Mark) : Checked (List Char) := do
  let starts := lineStarts 0 source
  let y ← marks.foldlM (Tally.add source starts) (Tally.init starts.length)
  renderLines source starts y 0 0 false [] starts

/-! ## Lines by number -/

theorem newlineStarts_append (i : Nat) (s t : List Char) :
    newlineStarts i (s ++ t) = newlineStarts i s ++ newlineStarts (i + s.length) t := by
  induction s generalizing i with
  | nil => rfl
  | cons c s ih =>
    have hlength : i + 1 + s.length = i + (c :: s).length := by
      rw [List.length_cons]
      omega
    rw [List.cons_append, newlineStarts, newlineStarts, ih, hlength]
    split
    · rfl
    · rfl

theorem newlineStarts_of_none {s : List Char} (h : '\n' ∉ s) (i : Nat) :
    newlineStarts i s = [] := by
  induction s generalizing i with
  | nil => rfl
  | cons c s ih =>
    obtain ⟨hc, hs⟩ := not_or.1 (List.mem_cons.not.1 h)
    rw [newlineStarts, if_neg (Ne.symm hc), ih hs]

theorem lineStarts_of_none {s : List Char} (h : '\n' ∉ s) (i : Nat) : lineStarts i s = [i] := by
  rw [lineStarts, newlineStarts_of_none h]

theorem lineStarts_append {s : List Char} (h : '\n' ∉ s) (i : Nat) (t : List Char) :
    lineStarts i (s ++ '\n' :: t) = i :: lineStarts (i + s.length + 1) t := by
  rw [lineStarts, newlineStarts_append, newlineStarts_of_none h, newlineStarts, if_pos rfl]
  rfl

/-- A text is one line, or a line and the text after its newline. -/
theorem line_induction {P : List Char → Prop} (last : ∀ s, '\n' ∉ s → P s)
    (line : ∀ s t, '\n' ∉ s → P t → P (s ++ '\n' :: t)) (s : List Char) : P s := by
  by_cases h : '\n' ∈ s
  · obtain ⟨t, rest, rfl, ht⟩ := List.eq_append_cons_of_mem h
    exact line t rest ht (line_induction last line rest)
  · exact last s h
termination_by s.length
decreasing_by
  subst_vars
  simp only [List.length_append, List.length_cons]
  omega

theorem upTo_of_le {start x : Nat} (h : start ≤ x) (starts : List Nat) :
    upTo (start :: starts) x = upTo starts x + 1 := by
  rw [upTo, List.takeWhile_cons, if_pos (by simpa using h)]
  rfl

theorem upTo_of_lt {start x : Nat} (h : x < start) (starts : List Nat) :
    upTo (start :: starts) x = 0 := by
  rw [upTo, List.takeWhile_cons, if_neg (by simpa using h)]
  rfl

theorem upTo_mono {x y : Nat} (h : x ≤ y) (starts : List Nat) : upTo starts x ≤ upTo starts y := by
  induction starts with
  | nil => exact Nat.le_refl _
  | cons start starts ih =>
    rcases Nat.lt_or_ge x start with hx | hx
    · rw [upTo_of_lt hx]
      exact Nat.zero_le _
    · rw [upTo_of_le hx, upTo_of_le (hx.trans h)]
      exact Nat.succ_le_succ ih

theorem upTo_le_length (starts : List Nat) (x : Nat) : upTo starts x ≤ starts.length :=
  List.Sublist.length_le (List.takeWhile_sublist _)

theorem linesFrom_last {s : List Char} (h : '\n' ∉ s) (offset covered : Nat) (ts : List Token) :
    linesFrom offset covered (splitOn (· == '\n') s) ts =
      [⟨s, decide (offset < covered),
        ts.takeWhile fun t => decide (t.start ≤ offset + s.length)⟩] := by
  rw [splitOn_of_none (beq_newline h), linesFrom, linesFrom]

theorem linesFrom_line {s : List Char} (h : '\n' ∉ s) (t : List Char) (offset covered : Nat)
    (ts : List Token) :
    linesFrom offset covered (splitOn (· == '\n') (s ++ '\n' :: t)) ts =
      ⟨s, decide (offset < covered),
        ts.takeWhile fun t => decide (t.start ≤ offset + s.length)⟩ ::
        linesFrom (offset + s.length + 1)
          (coversFrom covered (ts.takeWhile fun t => decide (t.start ≤ offset + s.length)))
          (splitOn (· == '\n') t) (ts.dropWhile fun t => decide (t.start ≤ offset + s.length)) := by
  rw [splitOn_append (beq_newline h) (by rfl), linesFrom]
  rfl

/-- A token whose last character has the offset `x` covers the lines that start up to there. -/
theorem linesFrom_covered (offset covered x : Nat) (s : List Char) :
    linesFrom offset (max covered (x + 1)) (splitOn (· == '\n') s) [] =
      (linesFrom offset covered (splitOn (· == '\n') s) []).mapIdx fun i l =>
        ⟨l.text, l.continues || decide (i < upTo (lineStarts offset s) x), l.tokens⟩ := by
  have hor : ∀ offset covered, decide (offset < max covered (x + 1)) =
      (decide (offset < covered) || decide (offset ≤ x)) := by
    intro offset covered
    rw [← Bool.decide_or]
    exact decide_eq_decide.2 (by omega)
  induction s using line_induction generalizing offset covered with
  | last s h =>
    rw [linesFrom_last h, linesFrom_last h, lineStarts_of_none h, hor, List.takeWhile_nil]
    rcases Nat.lt_or_ge x offset with hx | hx
    · simp [upTo_of_lt hx, Nat.not_le.2 hx]
    · simp [upTo_of_le hx, hx]
  | line s t h ih =>
    rw [linesFrom_line h, linesFrom_line h, lineStarts_append h, hor, List.mapIdx_cons]
    simp only [List.takeWhile_nil, List.dropWhile_nil, coversFrom, List.filter_nil, List.foldl_nil]
    rw [ih]
    rcases Nat.lt_or_ge x offset with hx | hx
    · have hnext : upTo (lineStarts (offset + s.length + 1) t) x = 0 := upTo_of_lt (by omega) _
      simp [upTo_of_lt hx, hnext, Nat.not_le.2 hx]
    · simp [upTo_of_le hx, hx]

/-- The line with one more token, if `line` is the number of the token's line and it runs over the
lines before number `last`. -/
def addLine (line last : Nat) (t : Token) (i : Nat) (l : Line) : Line :=
  ⟨l.text, l.continues || (t.isMultiline && decide (line < i) && decide (i < last)),
    if i = line then l.tokens ++ [t] else l.tokens⟩

theorem addLine_succ (line last : Nat) (t : Token) :
    (fun i => addLine (line + 1) (last + 1) t (i + 1)) = addLine line last t := by
  funext i l
  simp [addLine]

theorem addLine_zero (last : Nat) (t : Token) :
    (fun i => addLine 0 (last + 1) t (i + 1)) = fun i l =>
      ⟨l.text, l.continues || (t.isMultiline && decide (i < last)), l.tokens⟩ := by
  funext i l
  simp [addLine]

/-- What fails a test at the end of a list is not taken. -/
theorem takeWhile_snoc {α : Type} {p : α → Bool} {a : α} (h : p a = false) (as : List α) :
    (as ++ [a]).takeWhile p = as.takeWhile p ∧
      (as ++ [a]).dropWhile p = as.dropWhile p ++ [a] := by
  induction as with
  | nil => simp [h]
  | cons b as ih =>
    cases hb : p b with
    | true => simp [hb, ih]
    | false => simp [hb]

/-- Tokens that start up to `x` are all taken. -/
theorem takeWhile_start {ts : List Token} {x y : Nat} (hts : ∀ t ∈ ts, t.start ≤ x) (h : x ≤ y) :
    ts.takeWhile (fun t => decide (t.start ≤ y)) = ts ∧
      ts.dropWhile (fun t => decide (t.start ≤ y)) = [] := by
  have hall : ∀ t ∈ ts, decide (t.start ≤ y) = true :=
    fun t ht => decide_eq_true ((hts t ht).trans h)
  exact ⟨List.takeWhile_eq_self_iff.2 hall, List.dropWhile_eq_nil_iff.2 hall⟩

/-- The lines behind that of the last token, which may run over them. -/
theorem linesFrom_behind {t : Token} (ht : t.text ≠ []) (offset covered : Nat)
    (before : List Token) (s : List Char) :
    linesFrom offset (coversFrom covered (before ++ [t])) (splitOn (· == '\n') s) [] =
      (linesFrom offset (coversFrom covered before) (splitOn (· == '\n') s) []).mapIdx fun i l =>
        ⟨l.text, l.continues ||
          (t.isMultiline && decide (i < upTo (lineStarts offset s) (t.stop - 1))), l.tokens⟩ := by
  rw [coversFrom_append]
  cases t.isMultiline with
  | false =>
    simp only [Bool.false_eq_true, if_false, Bool.false_and, Bool.or_false]
    refine List.ext_getElem? fun i => ?_
    simp
  | true =>
    have hpos : 0 < t.text.length := List.length_pos_iff.2 ht
    have hlast : t.stop = t.stop - 1 + 1 := by
      rw [Token.stop]
      omega
    rw [if_pos rfl, hlast, linesFrom_covered]
    simp

/-- One more token behind all others is added to one line, and covers those that it runs over. -/
theorem linesFrom_snoc {t : Token} (ht : t.text ≠ []) {before : List Token}
    (hbefore : ∀ b ∈ before, b.start ≤ t.start) {offset : Nat} (hoffset : offset ≤ t.start)
    {s : List Char} (hs : t.start ≤ offset + s.length) (covered : Nat) :
    ∃ line, upTo (lineStarts offset s) t.start = line + 1 ∧
      linesFrom offset covered (splitOn (· == '\n') s) (before ++ [t]) =
        (linesFrom offset covered (splitOn (· == '\n') s) before).mapIdx
          (addLine line (upTo (lineStarts offset s) (t.stop - 1)) t) := by
  have hstop : t.stop = t.start + t.text.length := rfl
  have hsnoc : ∀ {before : List Token}, (∀ b ∈ before, b.start ≤ t.start) →
      ∀ b ∈ before ++ [t], b.start ≤ t.start := by
    intro before hbefore
    simpa [or_imp, forall_and] using hbefore
  induction s using line_induction generalizing offset covered before with
  | last s h =>
    refine ⟨0, ?_, ?_⟩
    · rw [lineStarts_of_none h, upTo_of_le hoffset]
      rfl
    · rw [linesFrom_last h, linesFrom_last h, (takeWhile_start (hsnoc hbefore) hs).1,
        (takeWhile_start hbefore hs).1]
      simp [addLine]
  | line s rest h ih =>
    have hlast : offset ≤ t.stop - 1 := by
      have hpos := List.length_pos_iff.2 ht
      omega
    rw [lineStarts_append h, linesFrom_line h, linesFrom_line h, upTo_of_le hoffset,
      upTo_of_le hlast]
    simp only [List.mapIdx_cons]
    rcases Nat.lt_or_ge (offset + s.length) t.start with hlt | hge
    · -- the token is on a later line
      have htoken : decide (t.start ≤ offset + s.length) = false := by simpa using hlt
      obtain ⟨htake, hdrop⟩ :=
        takeWhile_snoc (p := fun t : Token => decide (t.start ≤ offset + s.length)) htoken before
      have hrest : t.start ≤ offset + s.length + 1 + rest.length := by
        rw [length_append_newline] at hs
        omega
      obtain ⟨line, hline, hlines⟩ := ih
        (fun b hb => hbefore b ((List.dropWhile_sublist _).subset hb))
        (Nat.lt_iff_add_one_le.1 hlt) hrest
        (coversFrom covered (before.takeWhile fun t => decide (t.start ≤ offset + s.length)))
      refine ⟨line + 1, by rw [hline], ?_⟩
      rw [htake, hdrop, hlines, addLine_succ]
      simp [addLine]
    · -- the token is on this line, and so are all others
      have hnext : upTo (lineStarts (offset + s.length + 1) rest) t.start = 0 :=
        upTo_of_lt (by omega) _
      obtain ⟨htake, hdrop⟩ := takeWhile_start (hsnoc hbefore) hge
      obtain ⟨htake', hdrop'⟩ := takeWhile_start hbefore hge
      refine ⟨0, by rw [hnext], ?_⟩
      rw [htake, hdrop, htake', hdrop', addLine_zero, linesFrom_behind ht]
      simp [addLine]

/-! ## The tables are those of the lines -/

section Fields

variable {α : Type} {ls : List Line} {line : Nat} {l : Line}

theorem map_addLine (f : List Token → α) (hl : ls[line]? = some l) (last : Nat) (t : Token) :
    (ls.mapIdx (addLine line last t)).map (fun l => f l.tokens) =
      (ls.map fun l => f l.tokens).set line (f (l.tokens ++ [t])) := by
  refine List.ext_getElem? fun i => ?_
  rw [List.getElem?_map, List.getElem?_mapIdx, List.getElem?_set, List.getElem?_map,
    List.length_map]
  by_cases hi : line = i
  · subst hi
    obtain ⟨hlt, rfl⟩ := List.getElem?_eq_some_iff.1 hl
    simp [hlt, addLine]
  · rw [if_neg hi]
    cases ls[i]? with
    | none => rfl
    | some m => simp [addLine, Ne.symm hi]

theorem update_addLine (f : List Token → α) (hl : ls[line]? = some l) {t : Token} {g : α → α}
    (hg : f (l.tokens ++ [t]) = g (f l.tokens)) (last : Nat) :
    update (ls.map fun l => f l.tokens) line g =
      .ok ((ls.mapIdx (addLine line last t)).map fun l => f l.tokens) := by
  have hget : (ls.map fun l => f l.tokens)[line]? = some (f l.tokens) := by
    rw [List.getElem?_map, hl]
    rfl
  rw [update_of_getElem? hget, map_addLine f hl, hg]

theorem map_addLine_self (f : List Token → α) (hl : ls[line]? = some l) {t : Token}
    (hf : f (l.tokens ++ [t]) = f l.tokens) (last : Nat) :
    ((ls.mapIdx (addLine line last t)).map fun l => f l.tokens) = ls.map fun l => f l.tokens := by
  obtain ⟨hlt, rfl⟩ := List.getElem?_eq_some_iff.1 hl
  have hget : (ls.map fun l => f l.tokens)[line]? = some (f ls[line].tokens) := by
    rw [List.getElem?_map, hl]
    rfl
  obtain ⟨hmap, heq⟩ := List.getElem?_eq_some_iff.1 hget
  rw [map_addLine f hl, hf, ← heq, List.set_getElem_self]

end Fields

namespace Tally

/-- The number of closing brackets before anything else among the tokens of a line. -/
def leadingOf (ts : List Token) : Nat := (ts.takeWhile Token.isCloser).length

/-- Whether anything else is among them. -/
def seenOf (ts : List Token) : Bool := !ts.all Token.isCloser

def ofLines (ls : List Line) : Tally where
  verbatim := ls.map Line.continues
  opens := ls.map fun l => l.tokens.countP Token.isOpener
  closes := ls.map fun l => l.tokens.countP Token.isCloser
  leading := ls.map fun l => leadingOf l.tokens
  seen := ls.map fun l => seenOf l.tokens

end Tally

theorem bracketAt_eq {source : List Char} {t : Token} (h : t.Stands source) (ht : t.text ≠ []) :
    ∃ c, bracketAt source t.mark = .ok c ∧ c.any ['(', '[', '{'].contains = t.isOpener ∧
      c.any [')', ']', '}'].contains = t.isCloser := by
  obtain ⟨c, cs, htext⟩ := List.exists_cons_of_ne_nil ht
  have hstart : index source t.mark.start = .ok c := index_start h htext
  rw [bracketAt, Token.minus_mark, hstart]
  by_cases hkind : t.kind = .punct
  · rw [if_pos (show t.mark.kind = .punct from hkind), ok_bind, Token.isOpener, Token.isCloser]
    cases cs with
    | nil =>
      refine ⟨some c, by rw [if_pos (by simp [htext])]; rfl, ?_⟩
      rw [bracket?_of_char hkind htext, Option.any_some, Option.any_some]
      cases ho : ['(', '[', '{'].contains c with
      | true =>
        rw [Bool.true_or, if_pos rfl, Option.any_some, Option.any_some, ho]
        exact ⟨rfl, rfl⟩
      | false =>
        cases hc : [')', ']', '}'].contains c with
        | true =>
          rw [Bool.or_true, if_pos rfl, Option.any_some, Option.any_some, ho, hc]
          exact ⟨rfl, rfl⟩
        | false => exact ⟨rfl, rfl⟩
    | cons d cs =>
      refine ⟨none, by rw [if_neg (by simp [htext])]; rfl, ?_⟩
      rw [bracket?_of_long htext]
      exact ⟨rfl, rfl⟩
  · refine ⟨none, if_neg hkind, ?_⟩
    rw [Token.isOpener, Token.isCloser, bracket?_of_kind hkind]
    exact ⟨rfl, rfl⟩

namespace Tally

section Add

variable {source : List Char} {t : Token} {ls : List Line} {line : Nat} {l : Line}

theorem countP_snoc (p : Token → Bool) (ts : List Token) (t : Token) :
    (ts ++ [t]).countP p = ts.countP p + if p t then 1 else 0 := by
  rw [List.countP_append, List.countP_singleton]

theorem leadingOf_snoc (ts : List Token) (t : Token) :
    leadingOf (ts ++ [t]) = leadingOf ts + if !seenOf ts && t.isCloser then 1 else 0 := by
  rw [leadingOf, leadingOf, seenOf, Bool.not_not]
  induction ts with
  | nil => cases ht : t.isCloser <;> simp [ht]
  | cons u ts ih =>
    cases hu : u.isCloser with
    | true =>
      simp only [List.cons_append, List.takeWhile_cons, hu, if_true, List.length_cons, ih,
        List.all_cons, Bool.true_and]
      omega
    | false => simp [hu]

theorem seenOf_snoc (ts : List Token) (t : Token) :
    seenOf (ts ++ [t]) = (seenOf ts || !t.isCloser) := by
  simp only [seenOf, List.all_append, List.all_cons, List.all_nil, Bool.and_true, Bool.not_and]

theorem not_isCloser (h : t.isOpener = true) : t.isCloser = false := by
  rw [Token.isOpener, Option.any_eq_true] at h
  obtain ⟨c, hc, hopens⟩ := h
  have hcases : c = '(' ∨ c = '[' ∨ c = '{' := by simpa using hopens
  rw [Token.isCloser, hc]
  rcases hcases with rfl | rfl | rfl <;> rfl

/-- The token is counted where it stands. -/
theorem count_eq (ht : t.Stands source) (htext : t.text ≠ []) (hl : ls[line]? = some l) (last : Nat)
    (flags : List Bool) :
    count source { ofLines ls with verbatim := flags } t.mark line =
      .ok { ofLines (ls.mapIdx (addLine line last t)) with verbatim := flags } := by
  have hopens := countP_snoc Token.isOpener l.tokens t
  have hcloses := countP_snoc Token.isCloser l.tokens t
  have hleading := leadingOf_snoc l.tokens t
  have hseen := seenOf_snoc l.tokens t
  have hindex : index (ls.map fun l => seenOf l.tokens) line = .ok (seenOf l.tokens) := by
    refine index_of_getElem? ?_
    rw [List.getElem?_map, hl]
    rfl
  obtain ⟨c, hc, hopener, hcloser⟩ := bracketAt_eq ht htext
  rw [count, hc, ok_bind, hopener, hcloser, ofLines, ofLines]
  dsimp only
  cases ho : t.isOpener with
  | true =>
    rw [ho] at hopens
    rw [not_isCloser ho] at hcloses hleading hseen
    rw [if_pos rfl, update_addLine _ hl hopens last, ok_bind,
      update_addLine seenOf hl (t := t) (g := fun _ => true) (by simp [hseen]) last, ok_bind,
      map_addLine_self _ hl hcloses, map_addLine_self leadingOf hl (by simp [hleading])]
    rfl
  | false =>
    rw [ho] at hopens
    rw [if_neg Bool.false_ne_true, map_addLine_self _ hl hopens]
    cases hend : t.isCloser with
    | true =>
      rw [hend] at hcloses hleading hseen
      rw [if_pos rfl, update_addLine _ hl hcloses last, ok_bind, hindex, ok_bind]
      cases hfirst : seenOf l.tokens with
      | true =>
        rw [hfirst] at hleading hseen
        rw [if_pos rfl, update_addLine seenOf hl (g := fun _ => true) hseen last, ok_bind,
          map_addLine_self leadingOf hl hleading]
        rfl
      | false =>
        rw [hfirst] at hleading hseen
        rw [if_neg Bool.false_ne_true, update_addLine leadingOf hl hleading last, ok_bind,
          map_addLine_self seenOf hl (hseen.trans hfirst.symm)]
        rfl
    | false =>
      rw [hend] at hcloses hleading hseen
      rw [if_neg Bool.false_ne_true,
        update_addLine seenOf hl (t := t) (g := fun _ => true) (by simp [hseen]) last, ok_bind,
        map_addLine_self _ hl hcloses, map_addLine_self leadingOf hl (by simp [hleading])]
      rfl

theorem verbatim_addLine (ls : List Line) (line last : Nat) (t : Token) :
    (ls.mapIdx (addLine line last t)).map Line.continues =
      (ls.map Line.continues).mapIdx fun i flag =>
        flag || (t.isMultiline && decide (line < i) && decide (i < last)) := by
  refine List.ext_getElem? fun i => ?_
  rw [List.getElem?_map, List.getElem?_mapIdx, List.getElem?_mapIdx, List.getElem?_map]
  cases ls[i]? with
  | none => rfl
  | some l => rfl

theorem verbatim_addLine_self (ls : List Line) (line last : Nat) (h : t.isMultiline = false) :
    (ls.mapIdx (addLine line last t)).map Line.continues = ls.map Line.continues := by
  rw [verbatim_addLine, h]
  refine List.ext_getElem? fun i => ?_
  simp
  rfl

theorem fill_eq (flags : List Bool) {start stop : Nat} (h : start ≤ stop)
    (hlength : stop ≤ flags.length) :
    fill flags start stop =
      .ok (flags.mapIdx fun i flag => flag || (decide (start ≤ i) && decide (i < stop))) := by
  rw [fill, slice, if_pos ⟨h, hlength⟩]
  rfl

theorem lineOf_eq {starts : List Nat} {offset line : Nat} (h : upTo starts offset = line + 1) :
    lineOf starts offset = .ok line := by
  rw [lineOf, h, minus_of_le (Nat.le_add_left 1 line)]
  rfl

theorem length_linesFrom (offset covered : Nat) (s : List Char) (ts : List Token) :
    (linesFrom offset covered (splitOn (· == '\n') s) ts).length =
      (lineStarts offset s).length := by
  induction s using line_induction generalizing offset covered ts with
  | last s h =>
    rw [linesFrom_last h, lineStarts_of_none h]
    rfl
  | line s t h ih =>
    rw [linesFrom_line h, lineStarts_append h, List.length_cons, ih, List.length_cons]

/-- The tables of the lines with one more token behind all others. -/
theorem add_eq (ht : t.Stands source) (htext : t.text ≠ []) {before : List Token}
    (hbefore : ∀ b ∈ before, b.start ≤ t.start) :
    add source (lineStarts 0 source) (ofLines (lines source before)) t.mark =
      .ok (ofLines (lines source (before ++ [t]))) := by
  have hstop := ht.stop_le
  have hpos : 0 < t.text.length := List.length_pos_iff.2 htext
  have heq : t.stop = t.start + t.text.length := rfl
  obtain ⟨line, hline, hlines⟩ := linesFrom_snoc htext hbefore (Nat.zero_le _)
    (s := source) (by omega) 0
  have hlength : (lines source before).length = (lineStarts 0 source).length :=
    length_linesFrom 0 0 source before
  have hlt : line < (lines source before).length := by
    have hle := upTo_le_length (lineStarts 0 source) t.start
    omega
  obtain ⟨l, hl⟩ : ∃ l, (lines source before)[line]? = some l := ⟨_, List.getElem?_eq_getElem hlt⟩
  have hmono := upTo_mono (show t.start ≤ t.stop - 1 by omega) (lineStarts 0 source)
  have hmax := upTo_le_length (lineStarts 0 source) (t.stop - 1)
  obtain ⟨last, hlast⟩ : ∃ last, upTo (lineStarts 0 source) (t.stop - 1) = last + 1 :=
    ⟨upTo (lineStarts 0 source) (t.stop - 1) - 1, by omega⟩
  rw [hline] at hmono
  rw [hlast] at hmono hmax hlines
  have hresult : lines source (before ++ [t]) =
      (lines source before).mapIdx (addLine line (last + 1) t) := hlines
  have hcount := fun flags => count_eq ht htext hl (last + 1) flags
  rw [add, Token.start_mark, lineOf_eq hline, ok_bind, hresult]
  cases hmulti : t.isMultiline with
  | true =>
    have hkind : t.mark.kind = .blockComment ∨ t.mark.kind = .str := by
      rw [Token.kind_mark]
      simpa [Token.isMultiline, or_comm] using hmulti
    have hend : max (t.mark.stop - 1) t.start = t.stop - 1 := by
      rw [Token.stop_mark]
      omega
    have hfill := fill_eq ((lines source before).map Line.continues) hmono
      (by rw [List.length_map]; omega)
    rw [if_pos hkind, hend, lineOf_eq hlast, ok_bind]
    show (fill ((lines source before).map Line.continues) _ _ >>= _) = _
    rw [hfill, ok_bind, hcount, ofLines, verbatim_addLine, hmulti]
    simp only [Bool.true_and]
    rfl
  | false =>
    have hkind : ¬ (t.mark.kind = .blockComment ∨ t.mark.kind = .str) := by
      rw [Token.kind_mark]
      simpa [Token.isMultiline, and_comm] using hmulti
    have hsame := verbatim_addLine_self (lines source before) line (last + 1) hmulti
    rw [if_neg hkind]
    exact (hcount ((lines source before).map Line.continues)).trans (by rw [← hsame]; rfl)

end Add
end Tally

theorem ofLines_nil (source : List Char) :
    Tally.init (lineStarts 0 source).length = Tally.ofLines (lines source []) := by
  have hlines : ∀ offset (s : List Char), ∀ l ∈ linesFrom offset 0 (splitOn (· == '\n') s) [],
      l.continues = false ∧ l.tokens = [] := by
    intro offset s
    induction s using line_induction generalizing offset with
    | last s h => simp [linesFrom_last h]
    | line s t h ih =>
      rw [linesFrom_line h]
      exact List.forall_mem_cons.2 ⟨by simp, ih _⟩
  have hfield : ∀ {α : Type} (f : Line → α) (a : α),
      (∀ l : Line, l.continues = false → l.tokens = [] → f l = a) →
      List.replicate (lineStarts 0 source).length a = (Layout.lines source []).map f := by
    intro α f a hf
    rw [← Tally.length_linesFrom 0 0 source [], eq_comm]
    refine List.map_eq_replicate_iff.2 fun l hl => ?_
    obtain ⟨hcontinues, htokens⟩ := hlines 0 source l hl
    exact hf l hcontinues htokens
  rw [Tally.init, Tally.ofLines]
  congr 1
  · exact hfield _ _ fun l hcontinues _ => hcontinues
  · exact hfield _ _ fun l _ htokens => by rw [htokens]; rfl
  · exact hfield _ _ fun l _ htokens => by rw [htokens]; rfl
  · exact hfield _ _ fun l _ htokens => by rw [htokens]; rfl
  · exact hfield _ _ fun l _ htokens => by rw [htokens]; rfl

theorem tally_eq {source : List Char} {ts : List Token} (hstands : ∀ t ∈ ts, t.Stands source)
    (htexts : ∀ t ∈ ts, t.text ≠ []) (hts : ts.Pairwise fun t u => t.start ≤ u.start) :
    (ts.map Token.mark).foldlM (Tally.add source (lineStarts 0 source))
      (Tally.init (lineStarts 0 source).length) = .ok (Tally.ofLines (lines source ts)) := by
  induction ts using List.reverseRecOn with
  | nil =>
    rw [ofLines_nil]
    rfl
  | append_singleton ts t ih =>
    simp only [List.forall_mem_append, List.forall_mem_singleton] at hstands htexts
    obtain ⟨hts, -, hlast⟩ := List.pairwise_append.1 hts
    rw [List.map_append, List.foldlM_append, ih hstands.1 htexts.1 hts, ok_bind, List.map_singleton,
      List.foldlM_cons, Tally.add_eq hstands.2 htexts.2 fun b hb => hlast b hb t (by simp)]
    rfl

/-! ## Lines are written -/

/-- Whether a blank line is pending, and what has been written, after one more line. -/
def writeLine (depth : Nat) (l : Line) (pending : Bool) (out : List Char) : Bool × List Char :=
  if l.continues then (pending, out ++ l.text ++ ['\n'])
  else if (trim l.text).isEmpty then (!out.isEmpty, out)
  else
    (false, out ++ (if pending then ['\n'] else []) ++ indent (depth - l.leadingClosers) ++
      trim l.text ++ ['\n'])

theorem renderFrom_cons (depth : Nat) (pending : Bool) (out : List Char) (l : Line)
    (ls : List Line) :
    out ++ renderFrom depth pending (!out.isEmpty) (l :: ls) =
      (writeLine depth l pending out).2 ++
        renderFrom (depth + l.opens - l.closes) (writeLine depth l pending out).1
          (!(writeLine depth l pending out).2.isEmpty) ls := by
  rw [renderFrom, writeLine]
  cases l.continues with
  | true =>
    have hended : (!(out ++ l.text ++ ['\n']).isEmpty) = true := by simp
    rw [if_pos rfl, if_pos rfl, hended]
    simp only [List.append_assoc, List.singleton_append]
  | false =>
    rw [if_neg Bool.false_ne_true, if_neg Bool.false_ne_true]
    dsimp only
    cases (trim l.text).isEmpty with
    | true => rfl
    | false =>
      have hended : ∀ text : List Char, (!(out ++ text ++ ['\n']).isEmpty) = true := by simp
      rw [if_neg Bool.false_ne_true, if_neg Bool.false_ne_true, List.append_assoc out,
        List.append_assoc out, hended]
      simp only [List.append_assoc, List.singleton_append]

theorem getElem?_append_cons {α : Type} {as : List α} {n : Nat} (h : as.length = n) (a : α)
    (bs : List α) : (as ++ a :: bs)[n]? = some a := by
  subst h
  simp

theorem renderLines_cons {source : List Char} {starts : List Nat} {ls : List Line} {line : Nat}
    {l : Line} (hl : ls[line]? = some l) {start stop : Nat}
    (hstop : lineStop source starts line = .ok stop)
    (htext : slice source start stop = .ok l.text) (depth : Nat) (pending : Bool) (out : List Char)
    (others : List Nat) :
    renderLines source starts (.ofLines ls) line depth pending out (start :: others) =
      renderLines source starts (.ofLines ls) (line + 1) (depth + l.opens - l.closes)
        (writeLine depth l pending out).1 (writeLine depth l pending out).2 others := by
  have hfield : ∀ {α : Type} (f : Line → α), index (ls.map f) line = .ok (f l) := by
    intro α f
    refine index_of_getElem? ?_
    rw [List.getElem?_map, hl]
    rfl
  rw [renderLines, hstop, ok_bind, htext, ok_bind]
  simp only [Tally.ofLines, hfield, ok_bind, writeLine]
  split
  · rfl
  split
  · rfl
  · rfl

/-- The lines from one on are written as they are in standard layout. -/
theorem renderLines_eq {source before s : List Char} {starts : List Nat} {ls : List Line}
    (hsource : source = before ++ s) {offset : Nat} (hoffset : offset = before.length)
    (hlength : ls.length = starts.length) (covered : Nat) (ts : List Token) (depth : Nat)
    (pending : Bool) (out : List Char) :
    renderLines source (starts ++ lineStarts offset s)
        (.ofLines (ls ++ linesFrom offset covered (splitOn (· == '\n') s) ts)) starts.length depth
        pending out (lineStarts offset s) =
      .ok (out ++ renderFrom depth pending (!out.isEmpty)
        (linesFrom offset covered (splitOn (· == '\n') s) ts)) := by
  induction s using line_induction generalizing before starts ls offset covered ts depth pending
    out with
  | last s h =>
    have htext : slice source offset source.length = .ok s := by
      have happend : slice (before ++ s ++ []) offset source.length = .ok s :=
        slice_append before s [] hoffset (by rw [hsource, List.length_append, hoffset])
      rwa [List.append_nil, ← hsource] at happend
    have hstop : lineStop source (starts ++ [offset]) starts.length = .ok source.length := by
      simp [lineStop]
    rw [linesFrom_last h, lineStarts_of_none h, renderFrom_cons,
      renderLines_cons (getElem?_append_cons hlength _ _) hstop htext, renderLines, renderFrom,
      List.append_nil]
    rfl
  | line s t h ih =>
    have htext : slice source offset (offset + s.length) = .ok s := by
      have happend := slice_append before s ('\n' :: t) hoffset rfl
      rwa [List.append_assoc, ← hsource] at happend
    have hsnoc : starts ++ offset :: lineStarts (offset + s.length + 1) t =
        starts ++ [offset] ++ lineStarts (offset + s.length + 1) t := by simp
    have hstop : lineStop source (starts ++ offset :: lineStarts (offset + s.length + 1) t)
        starts.length = .ok (offset + s.length) := by
      rw [lineStop, hsnoc, lineStarts, getElem?_append_cons (by simp)]
      exact minus_of_le (Nat.le_add_left 1 _)
    rw [linesFrom_line h, lineStarts_append h, renderFrom_cons,
      renderLines_cons (getElem?_append_cons hlength _ _) hstop htext, hsnoc, List.append_cons ls]
    have hstarts : starts.length + 1 = (starts ++ [offset]).length := by simp
    have hbefore : offset + s.length + 1 = (before ++ s ++ ['\n']).length := by
      rw [hoffset, List.length_append, List.length_append]
      rfl
    rw [hstarts]
    refine ih ?_ hbefore ?_ _ _ _ _ _
    · rw [hsource]
      simp
    · simp [hlength]

/-- Every line number is in the tables, and the layout is the standard one. -/
theorem reindent_eq {source : List Char} {ts : List Token} (h : Reads false 0 source ts) :
    reindent source (ts.map Token.mark) = .ok (Layout.reindent source ts) := by
  obtain ⟨tail, rfl, hw⟩ := h.written
  have htally := tally_eq (fun t ht => Token.stands_of_written hw ht)
    (fun t ht => (Token.sound_of_written hw ht).text_ne_nil)
    ((Token.ordered_of_written hw).imp fun {t u} hle =>
      (Nat.le_add_right t.start t.text.length).trans hle)
  have hsource : Token.spell ts ++ tail = [] ++ (Token.spell ts ++ tail) := rfl
  have hlength : ([] : List Line).length = ([] : List Nat).length := rfl
  have hrender := renderLines_eq hsource rfl hlength 0 ts 0 false []
  rw [reindent, htally, ok_bind]
  exact hrender

end Checked
end Scad
