import Scad.Proofs.Layout.Relaid

/-!
# Scad.Proofs.Layout.Render

Line by line and token by token, the standard layout is the same text.

* `Layout.OnLine`: a line that is being written and the cursor inside it belong together. It is kept
  by blanks and by tokens (`OnLine.blanks`, `OnLine.count`), and `OnLine.endLine` writes the line
  where it ends.
* `Layout.reindent_eq`: the text of a source in standard layout is spelled by `Layout.relaid`.
-/

namespace Scad
namespace Layout

open Text

/-- The end of the last string or block comment among `here`, or `covered` if that is later. -/
def coversFrom (covered : Nat) (here : List Token) : Nat :=
  (here.filter Token.isMultiline).foldl (fun m t => max m t.stop) covered

theorem coversFrom_append (covered : Nat) (here : List Token) (t : Token) :
    coversFrom covered (here ++ [t]) =
      if t.isMultiline then max (coversFrom covered here) t.stop else coversFrom covered here := by
  cases h : t.isMultiline <;> simp [coversFrom, List.filter_append, h]

theorem coversFrom_append_le {covered : Nat} {here : List Token} {t : Token}
    (h : coversFrom covered here ≤ t.start) : coversFrom covered (here ++ [t]) ≤ t.stop := by
  have hle : t.start ≤ t.stop := Nat.le_add_right _ _
  rw [coversFrom_append]
  split <;> omega

theorem coversFrom_append_of_newline {covered : Nat} {here : List Token} {t : Token}
    (h : coversFrom covered here ≤ t.start) (ht : t.Sound) (hn : '\n' ∈ t.text) :
    coversFrom covered (here ++ [t]) = t.stop := by
  have hle : t.start ≤ t.stop := Nat.le_add_right _ _
  rw [coversFrom_append, if_pos (ht.newline hn)]
  omega

/-- A token that begins after `cur` ends after its text. -/
theorem stop_of_start {t : Token} {offset : Nat} {cur : List Char}
    (h : t.start = offset + cur.length) : t.stop = offset + (cur ++ t.text).length := by
  rw [Token.stop, h, List.length_append]
  omega

/-- The end of a token, counted from the end of its first line. -/
theorem stop_of_lines {t : Token} {offset : Nat} {cur x y : List Char}
    (h : t.start = offset + cur.length) (htext : t.text = x ++ '\n' :: y) :
    t.stop = offset + (cur ++ x).length + 1 + y.length := by
  rw [Token.stop, h, htext, length_append_newline, List.length_append]
  omega

/-- The standard layout of the text from `offset` on. -/
def layoutFrom (depth : Nat) (pending started : Bool) (offset covered : Nat) (text : List Char)
    (tokens : List Token) : List Char :=
  renderFrom depth pending started (linesFrom offset covered (splitOn (· == '\n') text) tokens)

/-- The line `cur` without its newline, if `n` brackets are closed at its beginning. -/
def Cursor.line (k : Cursor) (pending : Bool) (n : Nat) (cur : List Char) : List Char :=
  if k.continues then cur
  else (if pending then ['\n'] else []) ++ (indent (k.depth - n) ++ trim cur)

/-- The line that starts at `offset` has the text `cur` and the tokens `here` up to the place `k`.
-/
structure OnLine (k : Cursor) (offset covered : Nat) (cur : List Char) (here : List Token) :
    Prop where
  no_newline : '\n' ∉ cur
  starts : ∀ t ∈ here, t.start ≤ offset + cur.length
  opens : k.opens = here.countP Token.isOpener
  closes : k.closes = here.countP Token.isCloser
  continues : k.continues = decide (offset < covered)

/-- A line to be written holds something, and no blank line is pending before the inside of a token.
-/
structure Shown (k : Cursor) (pending : Bool) (cur : List Char) : Prop where
  pending : k.continues = true → pending = false
  text : k.continues = false → trim cur ≠ []

namespace OnLine

variable {k : Cursor} {offset covered : Nat} {cur : List Char} {here : List Token}

/-- The beginning of a line. -/
theorem start (depth offset covered : Nat) :
    OnLine ⟨depth, 0, 0, decide (offset < covered)⟩ offset covered [] [] :=
  ⟨by simp, by simp, rfl, rfl, rfl⟩

theorem start_inside (depth : Nat) {offset covered : Nat} (h : offset < covered) :
    OnLine ⟨depth, 0, 0, true⟩ offset covered [] [] := by
  have hstart := start depth offset covered
  rwa [decide_eq_true h] at hstart

theorem start_outside (depth : Nat) {offset covered : Nat} (h : covered ≤ offset) :
    OnLine ⟨depth, 0, 0, false⟩ offset covered [] [] := by
  have hstart := start depth offset covered
  rwa [decide_eq_false (Nat.not_lt.2 h)] at hstart

theorem blanks (h : OnLine k offset covered cur here) {g : List Char} (hg : '\n' ∉ g) :
    OnLine k offset covered (cur ++ g) here := by
  refine ⟨by simp [h.no_newline, hg], ?_, h.opens, h.closes, h.continues⟩
  intro t ht
  have := h.starts t ht
  simp only [List.length_append]
  omega

/-- A token that begins here, with the part `x` of its text that is on the line. -/
theorem count (h : OnLine k offset covered cur here) {t : Token}
    (ht : t.start = offset + cur.length) {x : List Char} (hx : '\n' ∉ x) :
    OnLine (k.count t) offset covered (cur ++ x) (here ++ [t]) := by
  refine ⟨by simp [h.no_newline, hx], ?_, ?_, ?_, h.continues⟩
  · intro u hu
    simp only [List.length_append]
    rcases List.mem_append.1 hu with hu | hu
    · have := h.starts u hu
      omega
    · rw [List.mem_singleton.1 hu]
      omega
  · simp [Cursor.count, h.opens, List.countP_append, List.countP_cons]
  · simp [Cursor.count, h.closes, List.countP_append, List.countP_cons]

theorem takeWhile_here (h : OnLine k offset covered cur here) {later : List Token}
    (hl : ∀ t ∈ later.head?, offset + cur.length < t.start) :
    (here ++ later).takeWhile (fun t => decide (t.start ≤ offset + cur.length)) = here ∧
      (here ++ later).dropWhile (fun t => decide (t.start ≤ offset + cur.length)) = later := by
  have hall : ∀ t ∈ here, decide (t.start ≤ offset + cur.length) = true := by
    intro t ht
    simpa using h.starts t ht
  rw [List.takeWhile_append_of_pos hall, List.dropWhile_append_of_pos hall]
  cases later with
  | nil => simp
  | cons t ts =>
    have ht : decide (t.start ≤ offset + cur.length) = false := by
      have := hl t (by simp)
      simpa using this
    simp [ht]

theorem after (h : OnLine k offset covered cur here) :
    k.after = k.depth + here.countP Token.isOpener - here.countP Token.isCloser := by
  rw [Cursor.after, h.opens, h.closes]

/-- The first line of a text. -/
theorem linesFrom_cons (h : OnLine k offset covered cur here) {later : List Token}
    (hl : ∀ t ∈ later.head?, offset + cur.length < t.start) (texts : List (List Char)) :
    linesFrom offset covered (cur :: texts) (here ++ later) =
      ⟨cur, k.continues, here⟩ ::
        linesFrom (offset + cur.length + 1) (coversFrom covered here) texts later := by
  obtain ⟨h1, h2⟩ := h.takeWhile_here hl
  simp only [linesFrom, h1, h2, h.continues]
  rfl

theorem render_shown (h : OnLine k offset covered cur here) {p : Bool} (hs : Shown k p cur)
    (s : Bool) (ls : List Line) :
    renderFrom k.depth p s (⟨cur, k.continues, here⟩ :: ls) =
      k.line p (closers here) cur ++ '\n' :: renderFrom k.after false true ls := by
  rw [h.after]
  cases hk : k.continues with
  | true =>
    rw [hs.pending hk]
    simp [renderFrom, Cursor.line, hk, Line.opens, Line.closes]
  | false =>
    have hne : (trim cur).isEmpty = false := by simpa using hs.text hk
    simp [renderFrom, Cursor.line, hk, Line.opens, Line.closes, Line.leadingClosers, closers, hne]

/-- A line that holds something is written where it ends. -/
theorem endLine (h : OnLine k offset covered cur here) {p : Bool} (hs : Shown k p cur) (s : Bool)
    {later : List Token} (hl : ∀ t ∈ later.head?, offset + cur.length < t.start)
    (rest : List Char) :
    layoutFrom k.depth p s offset covered (cur ++ '\n' :: rest) (here ++ later) =
      k.line p (closers here) cur ++ '\n' ::
        layoutFrom k.after false true (offset + cur.length + 1) (coversFrom covered here) rest
          later := by
  rw [layoutFrom, splitOn_append (beq_newline h.no_newline) (by decide), h.linesFrom_cons hl,
    h.render_shown hs]
  rfl

/-- The last line of a text is ended by a newline as well. -/
theorem last (h : OnLine k offset covered cur here) {p : Bool} (hs : Shown k p cur) (s : Bool) :
    layoutFrom k.depth p s offset covered cur here = k.line p (closers here) cur ++ ['\n'] := by
  have hlines := h.linesFrom_cons (by simp : ∀ t ∈ [].head?, _ < Token.start t) []
  rw [List.append_nil] at hlines
  rw [layoutFrom, splitOn_of_none (beq_newline h.no_newline), hlines, h.render_shown hs]
  rfl

/-- A line of blanks is passed over. -/
theorem endLine_blank (h : OnLine k offset covered cur here) (hk : k.continues = false)
    (hb : trim cur = []) (p s : Bool) {later : List Token}
    (hl : ∀ t ∈ later.head?, offset + cur.length < t.start) (rest : List Char) :
    layoutFrom k.depth p s offset covered (cur ++ '\n' :: rest) (here ++ later) =
      layoutFrom k.after s s (offset + cur.length + 1) (coversFrom covered here) rest later := by
  rw [layoutFrom, splitOn_append (beq_newline h.no_newline) (by decide), h.linesFrom_cons hl,
    h.after]
  simp [renderFrom, hk, hb, Line.opens, Line.closes, layoutFrom]

end OnLine

/-- Blanks at the end of a source give nothing. -/
theorem layoutFrom_blank {tail : List Char} (h : ∀ c ∈ tail, isBlank c = true) {depth : Nat}
    {p s : Bool} {offset covered : Nat} (hc : covered ≤ offset) :
    layoutFrom depth p s offset covered tail [] = [] := by
  induction hn : tail.length using Nat.strong_induction_on generalizing tail p offset with
  | _ n ih =>
    have hon := OnLine.start_outside depth hc
    by_cases hm : '\n' ∈ tail
    · obtain ⟨g, r, rfl, hno⟩ := List.eq_append_cons_of_mem hm
      have hg : trim g = [] := trim_eq_nil_iff.2 fun c hc => h c (by simp [hc])
      have hstep := (hon.blanks hno).endLine_blank rfl hg p s
        (by simp : ∀ t ∈ [].head?, _ < Token.start t) r
      refine hstep.trans (ih r.length ?_ ?_ ?_ rfl)
      · rw [← hn, length_append_newline]
        omega
      · exact fun c hc => h c (by simp [hc])
      · omega
    · have hg : trim tail = [] := trim_eq_nil_iff.2 h
      have hlines := (hon.blanks hm).linesFrom_cons (by simp : ∀ t ∈ [].head?, _ < Token.start t) []
      rw [layoutFrom, splitOn_of_none (beq_newline hm)]
      simp only [List.nil_append] at hlines
      rw [hlines]
      simp [renderFrom, hg, linesFrom]

/-! ## Between two tokens -/

/-- After a token, the rest of a source is laid out as `relaidFrom` says. The text of the line
before it is trimmed at its end, unless the line ends here. -/
def Laid (tail : List Char) (ts : List Token) : Prop :=
  ∀ {k : Cursor} {offset covered : Nat} {cur : List Char} {here : List Token} {p : Bool}
    (s : Bool) (offset' : Nat), OnLine k offset covered cur here → Shown k p cur →
    coversFrom covered here ≤ offset + cur.length → Written (offset + cur.length) tail ts →
    (trimEnd cur = cur ∨ ∀ c ∈ (Token.spell ts ++ tail).head?, c = '\n') →
    layoutFrom k.depth p s offset covered (cur ++ (Token.spell ts ++ tail)) (here ++ ts) =
      k.line p (closers (here ++ sameLine ts)) cur ++
        (Token.spell (relaidFrom k offset' ts) ++ endingFrom (k.through ts) tail)

/-- The lines inside a token stay as they are. -/
theorem layoutFrom_inside {tail : List Char} {ts : List Token} (hP : Laid tail ts) {y : List Char}
    (hy : y ≠ []) (hlast : ∀ c ∈ y.getLast?, isBlank c = false) (depth : Nat)
    {offset covered : Nat} (hc : covered = offset + y.length) (hw : Written covered tail ts)
    (offset' : Nat) :
    layoutFrom depth false true offset covered (y ++ (Token.spell ts ++ tail)) ts =
      y ++ (Token.spell (relaidFrom ⟨depth, 0, 0, true⟩ offset' ts) ++
        endingFrom (Cursor.through ⟨depth, 0, 0, true⟩ ts) tail) := by
  induction hn : y.length using Nat.strong_induction_on generalizing y offset with
  | _ n ih =>
    have hpos := List.length_pos_iff.2 hy
    have hon := OnLine.start_inside depth (show offset < covered by omega)
    by_cases hm : '\n' ∈ y
    · obtain ⟨x, r, rfl, hx⟩ := List.eq_append_cons_of_mem hm
      have hr : r ≠ [] := by
        rintro rfl
        have := hlast '\n' (by simp)
        cases this
      have hshown : Shown ⟨depth, 0, 0, true⟩ false x := ⟨fun _ => rfl, fun h => by cases h⟩
      have hlen := length_append_newline x r
      have hstep := (hon.blanks hx).endLine hshown true
        (hw.later (show offset + x.length < covered by omega)) (r ++ (Token.spell ts ++ tail))
      have hlast' : ∀ c ∈ r.getLast?, isBlank c = false := by
        intro c hcr
        refine hlast c ?_
        rw [Option.mem_def] at hcr ⊢
        simp [List.getLast?_append, List.getLast?_cons, hcr]
      have hc' : covered = offset + x.length + 1 + r.length := by omega
      have hrest := ih r.length (by omega) hr hlast' hc' rfl
      simp only [List.nil_append] at hstep
      rw [List.append_assoc, List.cons_append, hstep, Cursor.after]
      simp only [coversFrom, List.filter_nil, List.foldl_nil, Nat.add_zero, Nat.sub_zero]
      rw [hrest]
      simp [Cursor.line]
    · have hshown : Shown ⟨depth, 0, 0, true⟩ false y := ⟨fun _ => rfl, fun h => by cases h⟩
      have hstep := hP true offset' (hon.blanks hm) hshown (by simp [coversFrom, hc])
        (by simpa [← hc] using hw) (.inl (trimEnd_eq_self_of_getLast hlast))
      simpa [Cursor.line] using hstep

section Token

variable {tail : List Char} {ts : List Token} {k : Cursor} {offset covered : Nat} {cur : List Char}
  {here : List Token} {p : Bool} {t : Token}

/-- The line up to a token, if its text so far is `cur` and `n` brackets are closed at its
beginning. -/
def Cursor.lead (k : Cursor) (pending : Bool) (n : Nat) (cur : List Char) : List Char :=
  if k.continues then cur
  else (if pending then ['\n'] else []) ++ (indent (k.depth - n) ++ trimStart cur)

theorem line_append_text (k : Cursor) (p : Bool) (n : Nat) (cur : List Char) {x : List Char}
    (hx : x ≠ [] ∧ ∀ c ∈ x.head?, isBlank c = false) :
    k.line p n (cur ++ x) = k.lead p n cur ++ if k.continues then x else trimEnd x := by
  rw [Cursor.line, Cursor.lead, trim_append_text cur hx.1 hx.2]
  split <;> simp

theorem shown_append_text (hp : k.continues = true → p = false) {x : List Char}
    (hx : x ≠ [] ∧ ∀ c ∈ x.head?, isBlank c = false) : Shown k p (cur ++ x) := by
  refine ⟨hp, fun _ hnil => ?_⟩
  rw [trim_append_text cur hx.1 hx.2] at hnil
  exact trimEnd_ne_nil hx.1 hx.2 (List.append_eq_nil_iff.1 hnil).2

/-- A token that ends on its line is written, and what follows it. -/
theorem layoutFrom_token_line (hP : Laid tail ts) (s : Bool) (offset' : Nat)
    (hon : OnLine k offset covered cur here) (hp : k.continues = true → p = false)
    (hc : coversFrom covered here ≤ offset + cur.length) (ht : t.Sound)
    (hstart : t.start = offset + cur.length)
    (hl : t.kind = .lineComment → ∀ c ∈ (Token.spell ts ++ tail).head?, c = '\n')
    (hw : Written t.stop tail ts) (hm : '\n' ∉ t.text) :
    layoutFrom k.depth p s offset covered (cur ++ t.text ++ (Token.spell ts ++ tail))
        (here ++ [t] ++ ts) =
      k.lead p (closers (here ++ row t ts)) cur ++ newText k t ++
        (Token.spell (relaidFrom (k.pass t) offset' ts) ++
          endingFrom ((k.pass t).through ts) tail) := by
  have hstop := stop_of_start hstart
  have hcov := coversFrom_append_le (hc.trans_eq hstart.symm)
  have hend : trimEnd (cur ++ t.text) = cur ++ t.text ∨
      ∀ c ∈ (Token.spell ts ++ tail).head?, c = '\n' := by
    by_cases hk : t.kind = .lineComment
    · exact .inr (hl hk)
    · have htext : trimEnd t.text = t.text := trimEnd_eq_self_of_getLast (ht.last_not_blank hk)
      left
      rw [trimEnd_append _ (by rw [htext]; exact ht.text_ne_nil), htext]
  have htext : t.text ≠ [] ∧ ∀ c ∈ t.text.head?, isBlank c = false :=
    ⟨ht.text_ne_nil, ht.head_not_blank⟩
  have hrow : here ++ row t ts = here ++ [t] ++ sameLine ts := by simp [row, hm]
  have hstep := hP s offset' (hon.count hstart hm) (shown_append_text (k := k.count t) hp htext)
    (hstop ▸ hcov) (hstop ▸ hw) hend
  rw [Cursor.pass_of_no_newline hm, hrow, newText, trimLine_of_no_newline hm]
  exact hstep.trans (by rw [line_append_text _ _ _ _ htext]; rfl)

/-- A token that runs over several lines is written, and what follows it. -/
theorem layoutFrom_token_lines (hP : Laid tail ts) (s : Bool) (offset' : Nat)
    (hon : OnLine k offset covered cur here) (hp : k.continues = true → p = false)
    (hc : coversFrom covered here ≤ offset + cur.length) (ht : t.Sound)
    (hstart : t.start = offset + cur.length) (hw : Written t.stop tail ts) {x y : List Char}
    (htext : t.text = x ++ '\n' :: y) (hx : '\n' ∉ x) :
    layoutFrom k.depth p s offset covered (cur ++ x ++ '\n' :: (y ++ (Token.spell ts ++ tail)))
        (here ++ [t] ++ ts) =
      k.lead p (closers (here ++ row t ts)) cur ++ newText k t ++
        (Token.spell (relaidFrom (k.pass t) offset' ts) ++
          endingFrom ((k.pass t).through ts) tail) := by
  obtain ⟨hfirst, hlast⟩ := ht.lines htext
  have hm : '\n' ∈ t.text := by simp [htext]
  have hstop := stop_of_lines hstart htext
  have hlater := hw.later (show offset + (cur ++ x).length < t.stop by omega)
  have hcov := coversFrom_append_of_newline (hc.trans_eq hstart.symm) ht hm
  have hrow : here ++ row t ts = here ++ [t] := by simp [row, hm]
  have hshown : Shown (k.count t) p (cur ++ x) := shown_append_text (k := k.count t) hp hfirst
  have hstep := (hon.count hstart hx).endLine hshown s hlater
    (y ++ (Token.spell ts ++ tail))
  have hins := layoutFrom_inside hP hlast.1 hlast.2 (k.count t).after hstop hw offset'
  rw [hcov, hins, line_append_text _ _ _ _ hfirst] at hstep
  have hnew : newText k t = (if k.continues then x else trimEnd x) ++ '\n' :: y := by
    rw [newText, htext, trimLine_append_newline hx]
    split <;> rfl
  rw [Cursor.pass_of_newline hm, hrow, hnew]
  refine hstep.trans ?_
  simp only [List.append_assoc, List.cons_append]
  rfl

/-- A token is written, and what follows it. -/
theorem layoutFrom_token (hP : Laid tail ts) (s : Bool) (offset' : Nat)
    (hon : OnLine k offset covered cur here) (hp : k.continues = true → p = false)
    (hc : coversFrom covered here ≤ offset + cur.length) (ht : t.Sound)
    (hstart : t.start = offset + cur.length)
    (hl : t.kind = .lineComment → ∀ c ∈ (Token.spell ts ++ tail).head?, c = '\n')
    (hw : Written t.stop tail ts) :
    layoutFrom k.depth p s offset covered (cur ++ (t.text ++ (Token.spell ts ++ tail)))
        (here ++ t :: ts) =
      k.lead p (closers (here ++ row t ts)) cur ++ newText k t ++
        (Token.spell (relaidFrom (k.pass t) offset' ts) ++
          endingFrom ((k.pass t).through ts) tail) := by
  have hhere : here ++ t :: ts = here ++ [t] ++ ts := by simp
  rw [hhere]
  by_cases hm : '\n' ∈ t.text
  · obtain ⟨x, y, htext, hx⟩ := List.eq_append_cons_of_mem hm
    have hstep := layoutFrom_token_lines hP s offset' hon hp hc ht hstart hw htext hx
    rw [← hstep, htext]
    simp
  · have hstep := layoutFrom_token_line hP s offset' hon hp hc ht hstart hl hw hm
    rw [← hstep]
    simp

/-- Blank lines before a token leave at most one behind. -/
theorem layoutFrom_gap (hP : Laid tail ts) (s : Bool) (offset' depth : Nat) {g : List Char}
    (hg : ∀ c ∈ g, isBlank c = true) (hc : covered ≤ offset) (ht : t.Sound)
    (hstart : t.start = offset + g.length)
    (hl : t.kind = .lineComment → ∀ c ∈ (Token.spell ts ++ tail).head?, c = '\n')
    (hw : Written t.stop tail ts) :
    layoutFrom depth p s offset covered (g ++ (t.text ++ (Token.spell ts ++ tail))) (t :: ts) =
      (if (if '\n' ∈ g then s else p) then ['\n'] else []) ++
        (indent (depth - closers (row t ts)) ++ (trimLine t.text ++
          (Token.spell (relaidFrom (Cursor.pass ⟨depth, 0, 0, false⟩ t) offset' ts) ++
            endingFrom ((Cursor.pass ⟨depth, 0, 0, false⟩ t).through ts) tail))) := by
  induction hn : g.length using Nat.strong_induction_on generalizing g offset p with
  | _ n ih =>
    have hon := OnLine.start_outside depth hc
    by_cases hm : '\n' ∈ g
    · obtain ⟨x, r, rfl, hx⟩ := List.eq_append_cons_of_mem hm
      have hlen := length_append_newline x r
      have hblank : trim ([] ++ x) = [] := trim_eq_nil_iff.2 fun c hc => hg c (by simp_all)
      have hlater : ∀ u ∈ (t :: ts).head?, offset + ([] ++ x).length < u.start := by
        intro u hu
        cases hu
        simp only [List.nil_append]
        omega
      have hstep := (hon.blanks hx).endLine_blank rfl hblank p s hlater
        (r ++ (t.text ++ (Token.spell ts ++ tail)))
      have hrest := ih r.length (by omega) (p := s) (fun c hc => hg c (by simp [hc]))
        (show covered ≤ offset + x.length + 1 by omega) (by omega) rfl
      simp only [List.nil_append] at hstep
      rw [List.append_assoc, List.cons_append, hstep, Cursor.after]
      simp only [coversFrom, List.filter_nil, List.foldl_nil, Nat.add_zero, Nat.sub_zero]
      rw [hrest, if_pos hm]
      simp
    · have hblank : trimStart g = [] := trimStart_eq_nil_iff.2 hg
      have hstep := layoutFrom_token hP s offset' (hon.blanks hm) (fun h => by cases h)
        (by simp [coversFrom]; omega) ht hstart hl hw (p := p)
      refine hstep.trans ?_
      rw [if_neg hm]
      simp [Cursor.lead, hblank, newText]

end Token

/-! ## The whole source -/

theorem shown_append_blank {k : Cursor} {p : Bool} {cur g : List Char} (hs : Shown k p cur)
    (hg : ∀ c ∈ g, isBlank c = true) : Shown k p (cur ++ g) := by
  refine ⟨hs.pending, fun hk => ?_⟩
  rw [trim_append_blank cur hg]
  exact hs.text hk

theorem line_append_blank (k : Cursor) (p : Bool) (n : Nat) (cur : List Char) {g : List Char}
    (hg : ∀ c ∈ g, isBlank c = true) :
    k.line p n (cur ++ g) = k.line p n cur ++ if k.continues then g else [] := by
  simp only [Cursor.line, trim_append_blank cur hg]
  split <;> simp

theorem laid_nil (tail : List Char) : Laid tail [] := by
  intro k offset covered cur here p s offset' hon hs hc hw hend
  have hthrough : k.through [] = k := rfl
  rw [hthrough]
  simp only [Token.spell_nil, List.nil_append, relaidFrom, sameLine, List.append_nil, endingFrom]
  by_cases hm : '\n' ∈ tail
  · obtain ⟨g, r, rfl, hg⟩ := List.eq_append_cons_of_mem hm
    have hgb : ∀ c ∈ g, isBlank c = true := fun c hc => hw c (by simp [hc])
    have hstep := (hon.blanks hg).endLine (shown_append_blank hs hgb) s
      (by simp : ∀ t ∈ [].head?, _ < Token.start t) r
    have hlen : (cur ++ g).length = cur.length + g.length := List.length_append
    rw [layoutFrom_blank (fun c hc => hw c (by simp [hc])) (by omega),
      line_append_blank _ _ _ _ hgb] at hstep
    have htake : (g ++ '\n' :: r).takeWhile (· != '\n') = g := by
      rw [List.takeWhile_append_of_pos (bne_newline hg)]
      simp
    rw [htake]
    simpa using hstep
  · have hstep := (hon.blanks hm).last (shown_append_blank hs hw) s
    rw [line_append_blank _ _ _ _ hw] at hstep
    rw [hstep, List.takeWhile_eq_self_iff.2 (bne_newline hm)]
    simp

theorem lead_append_gap {k : Cursor} {p : Bool} {n : Nat} {cur g : List Char} (hs : Shown k p cur)
    (hend : trimEnd cur = cur) : k.lead p n (cur ++ g) = k.line p n cur ++ g := by
  cases hk : k.continues with
  | true => simp [Cursor.lead, Cursor.line, hk]
  | false =>
    have htrim := trim_eq_trimStart hend (hs.text hk)
    have hne : trimStart cur ≠ [] := by
      rw [← htrim]
      exact hs.text hk
    simp [Cursor.lead, Cursor.line, hk, htrim, trimStart_append hne]

/-- The token after the next one is on the same line. -/
theorem laid_cons_line {tail : List Char} {t : Token} {ts : List Token} (hP : Laid tail ts)
    (hg : '\n' ∉ t.gap) {k : Cursor} {offset covered : Nat} {cur : List Char} {here : List Token}
    {p : Bool} (s : Bool) (offset' : Nat) (hon : OnLine k offset covered cur here)
    (hs : Shown k p cur) (hc : coversFrom covered here ≤ offset + cur.length)
    (hw : Written (offset + cur.length) tail (t :: ts)) (hend : trimEnd cur = cur) :
    layoutFrom k.depth p s offset covered (cur ++ (Token.spell (t :: ts) ++ tail))
        (here ++ t :: ts) =
      k.line p (closers (here ++ sameLine (t :: ts))) cur ++
        (Token.spell (relaidFrom k offset' (t :: ts)) ++
          endingFrom (k.through (t :: ts)) tail) := by
  obtain ⟨ht, hstart, hl, hws⟩ := hw
  have hlen : (cur ++ t.gap).length = cur.length + t.gap.length := List.length_append
  have hstep := layoutFrom_token hP s (relay k offset' t ts).stop (hon.blanks hg) hs.pending
    (by omega) ht (by omega) hl hws
  have hreach : k.reach t = k := Cursor.reach_of_no_newline hg
  have hrow : sameLine (t :: ts) = row t ts := by rw [sameLine, if_neg hg, row]
  have hgap : (relay k offset' t ts).gap = t.gap := by rw [relay, newGap, if_neg hg]
  have htext : (relay k offset' t ts).text = newText k t := by rw [relay, hreach]
  rw [lead_append_gap hs hend] at hstep
  simp only [relaidFrom, Token.spell_cons, Cursor.through, hreach, hrow, hgap, htext]
  simpa using hstep

/-- The next token is on a line below. -/
theorem laid_cons_below {tail : List Char} {t : Token} {ts : List Token} (hP : Laid tail ts)
    (hg : '\n' ∈ t.gap) {k : Cursor} {offset covered : Nat} {cur : List Char} {here : List Token}
    {p : Bool} (s : Bool) (offset' : Nat) (hon : OnLine k offset covered cur here)
    (hs : Shown k p cur) (hc : coversFrom covered here ≤ offset + cur.length)
    (hw : Written (offset + cur.length) tail (t :: ts)) :
    layoutFrom k.depth p s offset covered (cur ++ (Token.spell (t :: ts) ++ tail))
        (here ++ t :: ts) =
      k.line p (closers (here ++ sameLine (t :: ts))) cur ++
        (Token.spell (relaidFrom k offset' (t :: ts)) ++
          endingFrom (k.through (t :: ts)) tail) := by
  obtain ⟨ht, hstart, hl, hws⟩ := hw
  obtain ⟨g, r, hgap, hgn⟩ := List.eq_append_cons_of_mem hg
  have hblank := ht.gap_blank
  rw [hgap] at hblank
  have hgb : ∀ c ∈ g, isBlank c = true := fun c hc => hblank c (by simp [hc])
  have hrb : ∀ c ∈ r, isBlank c = true := fun c hc => hblank c (by simp [hc])
  have hlen : (cur ++ g).length = cur.length + g.length := List.length_append
  have hglen : t.gap.length = g.length + 1 + r.length := by rw [hgap, length_append_newline]
  have hlater : ∀ u ∈ (t :: ts).head?, offset + (cur ++ g).length < u.start := by
    intro u hu
    cases hu
    omega
  have hstep := (hon.blanks hgn).endLine (shown_append_blank hs hgb) s hlater
    (r ++ (t.text ++ (Token.spell ts ++ tail)))
  have hrest := layoutFrom_gap hP true (relay k offset' t ts).stop k.after hrb
    (show coversFrom covered here ≤ offset + (cur ++ g).length + 1 by omega) ht (by omega) hl hws
    (p := false)
  have hreach : k.reach t = ⟨k.after, 0, 0, false⟩ := Cursor.reach_of_newline hg
  have htake : t.gap.takeWhile (· != '\n') = g := by
    rw [hgap, List.takeWhile_append_of_pos (bne_newline hgn)]
    simp
  have hcount : 1 < t.newlinesBefore ↔ '\n' ∈ r := by
    have h0 := List.count_eq_zero.2 hgn
    rw [Token.newlinesBefore, hgap, List.count_append, List.count_cons, h0, ← List.count_pos_iff]
    simp
  have hnew : (relay k offset' t ts).gap = (if k.continues then g else []) ++
      ('\n' :: (if '\n' ∈ r then ['\n'] else []) ++ indent (k.after - closers (row t ts))) := by
    rw [relay, newGap, if_pos hg, htake]
    simp only [hcount]
    split <;> split <;> rfl
  have htext : (relay k offset' t ts).text = trimLine t.text := by rw [relay, hreach]; rfl
  have hsame : sameLine (t :: ts) = [] := by rw [sameLine, if_pos hg]
  rw [line_append_blank _ _ _ _ hgb, hrest] at hstep
  simp only [relaidFrom, Token.spell_cons, Cursor.through, hreach, hsame, hnew, htext, hgap]
  simpa using hstep

/-- After every token, the rest of a source is laid out as `relaidFrom` says. -/
theorem laid (tail : List Char) (ts : List Token) : Laid tail ts := by
  induction ts with
  | nil => exact laid_nil tail
  | cons t ts ih =>
    intro k offset covered cur here p s offset' hon hs hc hw hend
    by_cases hg : '\n' ∈ t.gap
    · exact laid_cons_below ih hg s offset' hon hs hc hw
    · refine laid_cons_line ih hg s offset' hon hs hc hw (hend.resolve_right fun hhead => ?_)
      -- the line does not end before a token that stands on it
      obtain ⟨d, ds, hd⟩ := List.exists_cons_of_ne_nil hw.1.text_ne_nil
      cases hgap : t.gap with
      | nil =>
        have hblank := hw.1.head_not_blank d (by simp [hd])
        rw [hhead d (by simp [hgap, hd])] at hblank
        cases hblank
      | cons c cs =>
        refine hg ?_
        rw [hgap, hhead c (by simp [hgap])]
        exact List.mem_cons_self

/-- A source in standard layout is spelled by its tokens in standard layout. -/
theorem reindent_eq {tail : List Char} {ts : List Token} (hw : Written 0 tail ts) :
    reindent (Token.spell ts ++ tail) ts = Token.spell (relaid ts) ++ ending tail ts := by
  have hlayout : reindent (Token.spell ts ++ tail) ts =
      layoutFrom 0 false false 0 0 (Token.spell ts ++ tail) ts := rfl
  rw [hlayout]
  cases ts with
  | nil =>
    rw [Token.spell_nil, List.nil_append, layoutFrom_blank hw (Nat.le_refl 0)]
    rfl
  | cons t ts =>
    obtain ⟨ht, hstart, hl, hws⟩ := hw
    have hstep := layoutFrom_gap (laid tail ts) false
      (relay .start 0 ⟨t.kind, t.start, [], t.text⟩ ts).stop 0 ht.gap_blank
      (Nat.le_refl 0) ht hstart hl hws (p := false)
    have hpass : Cursor.start.pass ⟨t.kind, t.start, [], t.text⟩ =
        Cursor.pass ⟨0, 0, 0, false⟩ t := rfl
    rw [Token.spell_cons, List.append_assoc, List.append_assoc, hstep, ← hpass]
    simp [relaid, flush, relaidFrom, ending, relay, newGap, newText, Cursor.reach, Cursor.through,
      Cursor.start, indent]

end Layout
end Scad
