import Scad.Outline.Bracket
import Scad.Proofs.Layout.Format
import Scad.Proofs.Token.Partition

/-!
# Scad.Proofs.Layout.Depth

The lines of a source, and the brackets that are open on them.

* `Bracket.openFrom`: the brackets open after some tokens. Where all brackets match, their number is
  that of the openers less that of the closers (`Bracket.length_openFrom`).
* `Layout.sourceLines`: the lines of a source, from its text alone, and what the tokens say of them:
  whether a line begins inside one, and how deep it stands.
* `Layout.Passed`: what is known of the tokens before a line and of those after it. It is carried
  from line to line (`Passed.next`), so the layout knows the same lines (`lines_eq`).
-/

namespace Scad

open Text

namespace Bracket

/-- The brackets open after the tokens, with their offsets, innermost first. `stack` holds those
open before them. -/
def openFrom (stack : List (Char × Nat)) : List Token → List (Char × Nat)
  | [] => stack
  | t :: ts =>
    match t.bracket? with
    | none => openFrom stack ts
    | some c => openFrom (if t.isOpener then (c, t.start) :: stack else stack.tail) ts

theorem openFrom_append (stack : List (Char × Nat)) (ts us : List Token) :
    openFrom stack (ts ++ us) = openFrom (openFrom stack ts) us := by
  induction ts generalizing stack with
  | nil => rfl
  | cons t ts ih =>
    simp only [List.cons_append, openFrom]
    split
    · exact ih _
    · exact ih _

theorem isCloser_eq_not_isOpener {t : Token} {c : Char} (h : t.bracket? = some c) :
    t.isCloser = !t.isOpener := by
  have hc : c ∈ ['(', ')', '[', ']', '{', '}'] := by
    unfold Token.bracket? at h
    split at h
    · split at h
      · rename_i hmem
        cases h
        exact List.contains_iff_mem.1 hmem
      · cases h
    · cases h
  simp only [List.mem_cons, List.not_mem_nil, or_false] at hc
  rcases hc with rfl | rfl | rfl | rfl | rfl | rfl <;> simp [Token.isCloser, Token.isOpener, h]

/-- Where all brackets match, every closing bracket takes an open one away. -/
theorem length_openFrom {stack : List (Char × Nat)} {ts us : List Token}
    (h : faultsFrom stack (ts ++ us) = []) :
    (openFrom stack ts).length + ts.countP Token.isCloser =
        stack.length + ts.countP Token.isOpener ∧
      faultsFrom (openFrom stack ts) us = [] := by
  induction ts generalizing stack with
  | nil => exact ⟨rfl, h⟩
  | cons t ts ih =>
    simp only [List.cons_append, faultsFrom] at h
    simp only [openFrom, List.countP_cons]
    cases hb : t.bracket? with
    | none =>
      have hopen : t.isOpener = false := by simp [Token.isOpener, hb]
      have hclose : t.isCloser = false := by simp [Token.isCloser, hb]
      rw [hb] at h
      simpa [hopen, hclose] using ih h
    | some c =>
      have hclose := isCloser_eq_not_isOpener hb
      simp only [hb] at h
      cases hopen : t.isOpener with
      | true =>
        rw [hopen, if_pos rfl] at h
        obtain ⟨hlength, hrest⟩ := ih h
        rw [List.length_cons] at hlength
        simp only [hclose, hopen, if_true, Bool.not_true, Bool.false_eq_true, if_false]
        exact ⟨by omega, hrest⟩
      | false =>
        rw [hopen, if_neg (by decide)] at h
        cases stack with
        | nil => cases h
        | cons b stack =>
          simp only at h
          split at h
          · obtain ⟨hlength, hrest⟩ := ih h
            simp only [hclose, hopen, if_true, Bool.not_false, Bool.false_eq_true, if_false,
              List.tail_cons, List.length_cons]
            exact ⟨by omega, hrest⟩
          · cases h

end Bracket

namespace Layout

/-! ## Lines of a source -/

/-- A line of a source: the offset where it starts and its text without the newline. -/
structure SourceLine where
  start : Nat
  text : List Char
  deriving DecidableEq, Repr

/-- The lines with the given texts, of which the first starts at `offset`. -/
def sourceLinesFrom (offset : Nat) : List (List Char) → List SourceLine
  | [] => []
  | text :: rest => ⟨offset, text⟩ :: sourceLinesFrom (offset + text.length + 1) rest

/-- The lines of a source. -/
def sourceLines (source : List Char) : List SourceLine :=
  sourceLinesFrom 0 (splitOn (· == '\n') source)

namespace SourceLine

/-- The line begins inside a string or a block comment. -/
def Continues (ts : List Token) (l : SourceLine) : Prop :=
  ∃ t ∈ ts, t.isMultiline = true ∧ t.start < l.start ∧ l.start < t.stop

instance (ts : List Token) (l : SourceLine) : Decidable (l.Continues ts) :=
  inferInstanceAs (Decidable (∃ t ∈ ts, _))

/-- The tokens that start on lines before. -/
def before (ts : List Token) (l : SourceLine) : List Token :=
  ts.filter fun t => decide (t.start < l.start)

/-- The tokens that start on the line. -/
def tokens (ts : List Token) (l : SourceLine) : List Token :=
  ts.filter fun t => decide (l.start ≤ t.start) && decide (t.start ≤ l.start + l.text.length)

/-- The number of brackets that are open just after the closing brackets at the beginning of the
line. -/
def depth (ts : List Token) (l : SourceLine) : Nat :=
  (Bracket.openFrom [] (l.before ts ++ (l.tokens ts).takeWhile Token.isCloser)).length

/-- The line as the layout knows it. -/
def line (ts : List Token) (l : SourceLine) : Line :=
  ⟨l.text, decide (l.Continues ts), l.tokens ts⟩

end SourceLine

/-! ## From line to line -/

theorem lt_coversFrom_iff {n covered : Nat} {here : List Token} :
    n < coversFrom covered here ↔
      n < covered ∨ ∃ t ∈ here, t.isMultiline = true ∧ n < t.stop := by
  induction here generalizing covered with
  | nil => simp [coversFrom]
  | cons t here ih =>
    cases ht : t.isMultiline with
    | true =>
      have hcons : coversFrom covered (t :: here) = coversFrom (max covered t.stop) here := by
        simp [coversFrom, ht]
      have hmax : n < max covered t.stop ↔ n < covered ∨ n < t.stop := by omega
      rw [hcons, ih, hmax]
      simp [ht, or_assoc]
    | false =>
      have hcons : coversFrom covered (t :: here) = coversFrom covered here := by
        simp [coversFrom, ht]
      rw [hcons, ih]
      simp [ht]

/-- The tokens `before` are those that start before `offset`, the tokens `later` the others, and
`covered` is the end of the last string or block comment among `before`, as far as that matters
from `offset` on. -/
structure Passed (ts : List Token) (offset covered : Nat) (before later : List Token) : Prop where
  split : ts = before ++ later
  ordered : ts.Pairwise fun t u => t.stop ≤ u.start
  before_lt : ∀ t ∈ before, t.start < offset
  le_later : ∀ t ∈ later, offset ≤ t.start
  covered : ∀ n, offset ≤ n →
    (n < covered ↔ ∃ t ∈ before, t.isMultiline = true ∧ n < t.stop)

namespace Passed

variable {ts before later : List Token} {offset covered : Nat}

theorem start {ts : List Token} (h : ts.Pairwise fun t u => t.stop ≤ u.start) :
    Passed ts 0 0 [] ts :=
  ⟨rfl, h, by simp, by simp, by simp⟩

theorem later_ordered (h : Passed ts offset covered before later) :
    later.Pairwise fun t u => t.stop ≤ u.start := by
  have hord := h.ordered
  rw [h.split] at hord
  exact (List.pairwise_append.1 hord).2.1

/-- The tokens that start up to an offset come before those that start after it. -/
theorem lt_of_mem_dropWhile (h : Passed ts offset covered before later) {n : Nat} {t : Token}
    (ht : t ∈ later.dropWhile fun t => decide (t.start ≤ n)) : n < t.start := by
  have hord := h.later_ordered.sublist
    (List.dropWhile_sublist (l := later) fun t => decide (t.start ≤ n))
  have hhead := List.head?_dropWhile_not (fun t : Token => decide (t.start ≤ n)) later
  cases hl : later.dropWhile fun t => decide (t.start ≤ n) with
  | nil =>
    rw [hl] at ht
    cases ht
  | cons u us =>
    rw [hl] at ht hord hhead
    have hu : n < u.start := by simpa using hhead
    rcases List.mem_cons.1 ht with rfl | ht
    · exact hu
    · have h1 := (List.pairwise_cons.1 hord).1 t ht
      have h2 : u.stop = u.start + u.text.length := rfl
      omega

theorem next (h : Passed ts offset covered before later) (length : Nat) :
    Passed ts (offset + length + 1)
      (coversFrom covered (later.takeWhile fun t => decide (t.start ≤ offset + length)))
      (before ++ later.takeWhile fun t => decide (t.start ≤ offset + length))
      (later.dropWhile fun t => decide (t.start ≤ offset + length)) := by
  have hhere : ∀ t ∈ later.takeWhile fun t => decide (t.start ≤ offset + length),
      t.start ≤ offset + length :=
    fun t ht => of_decide_eq_true (List.all_eq_true.1 List.all_takeWhile t ht)
  refine ⟨?_, h.ordered, fun t ht => ?_, fun t ht => ?_, fun n hn => ?_⟩
  · rw [List.append_assoc, List.takeWhile_append_dropWhile, h.split]
  · rcases List.mem_append.1 ht with ht | ht
    · have := h.before_lt t ht
      omega
    · have := hhere t ht
      omega
  · have := h.lt_of_mem_dropWhile ht
    omega
  · rw [lt_coversFrom_iff, h.covered n (by omega)]
    simp only [List.mem_append, or_and_right, exists_or]

theorem continues_iff (h : Passed ts offset covered before later) (text : List Char) :
    SourceLine.Continues ts ⟨offset, text⟩ ↔ offset < covered := by
  rw [h.covered offset (Nat.le_refl _), SourceLine.Continues, h.split]
  constructor
  · rintro ⟨t, ht, hmulti, hstart, hstop⟩
    rcases List.mem_append.1 ht with ht | ht
    · exact ⟨t, ht, hmulti, hstop⟩
    · exact absurd (h.le_later t ht) (Nat.not_le.2 hstart)
  · rintro ⟨t, ht, hmulti, hstop⟩
    exact ⟨t, List.mem_append_left _ ht, hmulti, h.before_lt t ht, hstop⟩

theorem before_eq (h : Passed ts offset covered before later) (text : List Char) :
    SourceLine.before ts ⟨offset, text⟩ = before := by
  have hbefore : before.filter (fun t => decide (t.start < offset)) = before :=
    List.filter_eq_self.2 fun t ht => decide_eq_true (h.before_lt t ht)
  have hlater : later.filter (fun t => decide (t.start < offset)) = [] :=
    List.filter_eq_nil_iff.2 fun t ht => by
      have := h.le_later t ht
      simpa using this
  rw [SourceLine.before, h.split, List.filter_append, hbefore, hlater, List.append_nil]

theorem tokens_eq (h : Passed ts offset covered before later) (text : List Char) :
    SourceLine.tokens ts ⟨offset, text⟩ =
      later.takeWhile fun t => decide (t.start ≤ offset + text.length) := by
  have hbefore : before.filter (fun t => decide (offset ≤ t.start) &&
      decide (t.start ≤ offset + text.length)) = [] :=
    List.filter_eq_nil_iff.2 fun t ht => by
      have := h.before_lt t ht
      simp only [Bool.and_eq_true, decide_eq_true_eq]
      omega
  have hlater : later.filter (fun t => decide (offset ≤ t.start) &&
      decide (t.start ≤ offset + text.length)) =
        later.filter fun t => decide (t.start ≤ offset + text.length) :=
    List.filter_congr fun t ht => by simp [h.le_later t ht]
  have hsorted : later.Pairwise fun t u => decide (u.start ≤ offset + text.length) = true →
      decide (t.start ≤ offset + text.length) = true := by
    refine h.later_ordered.imp fun {t u} htu hu => ?_
    have hstop : t.stop = t.start + t.text.length := rfl
    simp only [decide_eq_true_eq] at hu ⊢
    omega
  rw [SourceLine.tokens, h.split, List.filter_append, hbefore, List.nil_append]
  exact hlater.trans (filter_eq_takeWhile hsorted)

theorem linesFrom_eq (h : Passed ts offset covered before later) (texts : List (List Char)) :
    linesFrom offset covered texts later =
      (sourceLinesFrom offset texts).map (SourceLine.line ts) := by
  induction texts generalizing offset covered before later with
  | nil => rfl
  | cons text rest ih =>
    have hline : SourceLine.line ts ⟨offset, text⟩ = ⟨text, decide (offset < covered),
        later.takeWhile fun t => decide (t.start ≤ offset + text.length)⟩ := by
      rw [SourceLine.line, h.tokens_eq text, decide_eq_decide.2 (h.continues_iff text)]
    rw [sourceLinesFrom, List.map_cons, hline, ← ih (h.next text.length)]
    rfl

end Passed

/-- The layout knows the lines of a source. -/
theorem lines_eq {tail : List Char} {ts : List Token} (hw : Written 0 tail ts)
    (source : List Char) : lines source ts = (sourceLines source).map (SourceLine.line ts) :=
  (Passed.start (Token.ordered_of_written hw)).linesFrom_eq _

end Layout
end Scad
