import Scad.Proofs.Layout.Format

/-!
# Scad.Proofs.Layout.Verbatim

Which texts standard layout leaves as they are. A line that begins inside a token is written as it
stands, so a token that starts on it keeps its text; every other token loses the blanks at the end
of its first line.

* `Layout.flags`: the tokens of a source, each with whether its line began inside a token.
* `Layout.flagged_lines`: these are the lines of the source and the tokens that start on them.
* `Layout.literals_reindent_iff`: when standard layout keeps all string literals.
-/

namespace Scad
namespace Layout

open Text

/-- The tokens of a line, each with whether the line begins inside a token. -/
def Line.flagged (l : Line) : List (Token × Bool) := l.tokens.map fun t => (t, l.continues)

/-- Tokens from the place `k` on, each with whether its line began inside a token. -/
def flags (k : Cursor) : List Token → List (Token × Bool)
  | [] => []
  | t :: ts => (t, (k.reach t).continues) :: flags ((k.reach t).pass t) ts

/-- The tokens of the lines from `offset` on, with the flags of their lines. -/
def flaggedFrom (offset covered : Nat) (text : List Char) (tokens : List Token) :
    List (Token × Bool) :=
  (linesFrom offset covered (splitOn (· == '\n') text) tokens).flatMap Line.flagged

section Flagged

variable {tail : List Char} {ts : List Token} {k : Cursor} {offset covered : Nat} {cur : List Char}
  {here : List Token} {t : Token}

theorem flaggedFrom_endLine (h : OnLine k offset covered cur here) {later : List Token}
    (hl : ∀ t ∈ later.head?, offset + cur.length < t.start) (rest : List Char) :
    flaggedFrom offset covered (cur ++ '\n' :: rest) (here ++ later) =
      here.map (fun t => (t, k.continues)) ++
        flaggedFrom (offset + cur.length + 1) (coversFrom covered here) rest later := by
  rw [flaggedFrom, splitOn_append (beq_newline h.no_newline) (by decide), h.linesFrom_cons hl]
  rfl

theorem flaggedFrom_last (h : OnLine k offset covered cur here) :
    flaggedFrom offset covered cur here = here.map fun t => (t, k.continues) := by
  have hlines := h.linesFrom_cons (by simp : ∀ t ∈ [].head?, _ < Token.start t) []
  rw [List.append_nil] at hlines
  rw [flaggedFrom, splitOn_of_none (beq_newline h.no_newline), hlines]
  simp [Line.flagged, linesFrom]

theorem flaggedFrom_nil (offset covered : Nat) (text : List Char) :
    flaggedFrom offset covered text [] = [] := by
  rw [flaggedFrom]
  generalize splitOn (· == '\n') text = texts
  induction texts generalizing offset covered with
  | nil => rfl
  | cons s texts ih => simp [linesFrom, Line.flagged, ih]

/-- Lines on which no token starts are passed over, up to the last line of a text `y`. -/
theorem flaggedFrom_skip {offset : Nat} (covered : Nat) (y rest : List Char)
    (hl : ∀ t ∈ ts.head?, offset + y.length ≤ t.start) :
    ∃ (offset' : Nat) (w : List Char), '\n' ∉ w ∧ offset ≤ offset' ∧
      offset' + w.length = offset + y.length ∧ (y.getLast? ≠ some '\n' → y ≠ [] → w ≠ []) ∧
      flaggedFrom offset covered (y ++ rest) ts = flaggedFrom offset' covered (w ++ rest) ts := by
  induction hn : y.length using Nat.strong_induction_on generalizing y offset with
  | _ n ih =>
    by_cases hm : '\n' ∈ y
    · obtain ⟨x, r, rfl, hx⟩ := List.eq_append_cons_of_mem hm
      have hlen := length_append_newline x r
      have hon := (OnLine.start 0 offset covered).blanks hx
      have hlater : ∀ t ∈ ts.head?, offset + ([] ++ x).length < t.start := by
        intro t ht
        have := hl t ht
        simp only [List.nil_append]
        omega
      have hl' : ∀ t ∈ ts.head?, offset + x.length + 1 + r.length ≤ t.start := by
        intro t ht
        have := hl t ht
        omega
      have hstep := flaggedFrom_endLine hon hlater (r ++ rest)
      obtain ⟨o, w, hw, ho, hol, hne, heq⟩ := ih r.length (by omega) r hl' rfl
      refine ⟨o, w, hw, by omega, by omega, fun hlast _ => ?_, ?_⟩
      · have hr : r ≠ [] := by
          rintro rfl
          exact hlast (by simp)
        refine hne (fun h => hlast ?_) hr
        simp [List.getLast?_append, List.getLast?_cons, h]
      · rw [List.append_assoc, List.cons_append, ← heq]
        exact hstep
    · exact ⟨offset, y, hm, Nat.le_refl _, by omega, fun _ h => h, rfl⟩

/-- What is left to show for the tokens `ts` after a place on a line. -/
def Flagged (tail : List Char) (ts : List Token) : Prop :=
  ∀ {k : Cursor} {offset covered : Nat} {cur : List Char} {here : List Token},
    OnLine k offset covered cur here → coversFrom covered here ≤ offset + cur.length →
    Written (offset + cur.length) tail ts →
    flaggedFrom offset covered (cur ++ (Token.spell ts ++ tail)) (here ++ ts) =
      here.map (fun t => (t, k.continues)) ++ flags k ts

theorem flagged_nil (tail : List Char) : Flagged tail [] := by
  intro k offset covered cur here hon hc hw
  simp only [Token.spell_nil, List.nil_append, List.append_nil, flags]
  by_cases hm : '\n' ∈ tail
  · obtain ⟨g, r, rfl, hg⟩ := List.eq_append_cons_of_mem hm
    have hstep := flaggedFrom_endLine (hon.blanks hg)
      (by simp : ∀ t ∈ [].head?, _ < Token.start t) r
    rw [flaggedFrom_nil] at hstep
    simpa using hstep
  · exact flaggedFrom_last (hon.blanks hm)

/-- The lines inside a token, on the last of which other tokens may start. -/
theorem flaggedFrom_inside (hP : Flagged tail ts) {y : List Char} (hy : y ≠ [])
    (hlast : ∀ c ∈ y.getLast?, isBlank c = false) (depth : Nat)
    (hc : covered = offset + y.length) (hw : Written covered tail ts) :
    flaggedFrom offset covered (y ++ (Token.spell ts ++ tail)) ts =
      flags ⟨depth, 0, 0, true⟩ ts := by
  obtain ⟨o, w, hwn, ho, hol, hne, heq⟩ := flaggedFrom_skip covered y (Token.spell ts ++ tail)
    (fun u hu => hc ▸ hw.head_start hu)
  have hwne : w ≠ [] := by
    refine hne (fun hn => ?_) hy
    cases hlast '\n' hn
  have hwpos := List.length_pos_iff.2 hwne
  have hin : OnLine ⟨depth, 0, 0, true⟩ o covered w [] :=
    (OnLine.start_inside _ (by omega)).blanks hwn
  rw [heq]
  refine hP hin ?_ (by rwa [hol, ← hc])
  simp only [coversFrom, List.filter_nil, List.foldl_nil]
  omega

/-- A token and what follows it. -/
theorem flaggedFrom_token (hP : Flagged tail ts) (hon : OnLine k offset covered cur here)
    (hc : coversFrom covered here ≤ offset + cur.length) (ht : t.Sound)
    (hstart : t.start = offset + cur.length) (hw : Written t.stop tail ts) :
    flaggedFrom offset covered (cur ++ (t.text ++ (Token.spell ts ++ tail))) (here ++ t :: ts) =
      here.map (fun t => (t, k.continues)) ++ (t, k.continues) :: flags (k.pass t) ts := by
  have hhere : here ++ t :: ts = here ++ [t] ++ ts := by simp
  rw [hhere]
  by_cases hm : '\n' ∈ t.text
  · obtain ⟨x, y, htext, hx⟩ := List.eq_append_cons_of_mem hm
    have hlast := (ht.lines htext).2
    have hstop := stop_of_lines hstart htext
    have hlater := hw.later (show offset + (cur ++ x).length < t.stop by omega)
    have hcov := coversFrom_append_of_newline (hc.trans_eq hstart.symm) ht hm
    have hstep := flaggedFrom_endLine (hon.count hstart hx) hlater (y ++ (Token.spell ts ++ tail))
    have hins := flaggedFrom_inside hP hlast.1 hlast.2 (k.count t).after hstop hw
    rw [hcov, hins, ← Cursor.pass_of_newline hm] at hstep
    rw [htext]
    simpa using hstep
  · have hstop := stop_of_start hstart
    have hcov := coversFrom_append_le (hc.trans_eq hstart.symm)
    have hstep := hP (hon.count hstart hm) (hstop ▸ hcov) (hstop ▸ hw)
    rw [Cursor.pass_of_no_newline hm]
    simpa using hstep

/-- The tokens that start on the lines of a text, and the flags of their lines. -/
theorem flagged (tail : List Char) (ts : List Token) : Flagged tail ts := by
  induction ts with
  | nil => exact flagged_nil tail
  | cons t ts ih =>
    intro k offset covered cur here hon hc hw
    obtain ⟨ht, hstart, -, hws⟩ := hw
    by_cases hg : '\n' ∈ t.gap
    · obtain ⟨g, r, hgap, hgn⟩ := List.eq_append_cons_of_mem hg
      have hlen : (cur ++ g).length = cur.length + g.length := List.length_append
      have hglen : t.gap.length = g.length + 1 + r.length := by rw [hgap, length_append_newline]
      have hlater : ∀ u ∈ (t :: ts).head?, offset + (cur ++ g).length < u.start := by
        intro u hu
        cases hu
        omega
      have hstep := flaggedFrom_endLine (hon.blanks hgn) hlater
        (r ++ (t.text ++ (Token.spell ts ++ tail)))
      have hskip : ∀ u ∈ (t :: ts).head?, offset + (cur ++ g).length + 1 + r.length ≤ u.start := by
        intro u hu
        cases hu
        omega
      obtain ⟨o, w, hwn, ho, hol, -, heq⟩ := flaggedFrom_skip (coversFrom covered here) r
        (t.text ++ (Token.spell ts ++ tail)) hskip
      have hin : OnLine ⟨k.after, 0, 0, false⟩ o (coversFrom covered here) w [] :=
        (OnLine.start_outside _ (by omega)).blanks hwn
      have hcov : coversFrom (coversFrom covered here) [] ≤ o + w.length := by
        simp only [coversFrom, List.filter_nil, List.foldl_nil] at hc ⊢
        omega
      have hrest := flaggedFrom_token ih hin hcov ht (by omega) hws
      have hreach : k.reach t = ⟨k.after, 0, 0, false⟩ := Cursor.reach_of_newline hg
      simp only [List.nil_append, List.map_nil] at hrest
      rw [heq, hrest] at hstep
      rw [flags, hreach, Token.spell_cons, hgap]
      simpa using hstep
    · have hlen : (cur ++ t.gap).length = cur.length + t.gap.length := List.length_append
      have hreach : k.reach t = k := Cursor.reach_of_no_newline hg
      have hstep := flaggedFrom_token ih (hon.blanks hg) (by omega) ht (by omega) hws
      rw [flags, hreach, Token.spell_cons]
      simpa using hstep

/-- The tokens that start on the lines of a source, and the flags of their lines. -/
theorem flagged_lines (hw : Written 0 tail ts) :
    (lines (Token.spell ts ++ tail) ts).flatMap Line.flagged = flags .start ts :=
  flagged tail ts (OnLine.start 0 0 0) (Nat.le_refl 0) hw

end Flagged

/-! ## String literals -/

/-- The texts of the string literals among the tokens. -/
def literals (ts : List Token) : List (List Char) :=
  (ts.filter fun t => t.kind == .str).map Token.text

theorem literals_cons (t : Token) (ts : List Token) :
    literals (t :: ts) = if t.kind = .str then t.text :: literals ts else literals ts := by
  by_cases h : t.kind = .str
  · simp [literals, h]
  · have hk : (t.kind == .str) = false := by simpa using h
    simp [literals, h, hk]

theorem literals_flush (ts : List Token) : literals (flush ts) = literals ts := by
  cases ts with
  | nil => rfl
  | cons t ts => rw [flush, literals_cons, literals_cons]

/-- A first line without blanks at its end. -/
theorem trimLine_eq_self_iff {s : List Char} :
    trimLine s = s ↔ trimEnd (s.takeWhile (· != '\n')) = s.takeWhile (· != '\n') := by
  have hsplit : s.takeWhile (· != '\n') ++ s.dropWhile (· != '\n') = s :=
    List.takeWhile_append_dropWhile
  constructor
  · intro h
    rw [trimLine] at h
    exact List.append_cancel_right (h.trans hsplit.symm)
  · intro h
    rw [trimLine, h, hsplit]

theorem literals_relaidFrom_iff (k : Cursor) (offset : Nat) (ts : List Token) :
    literals (relaidFrom k offset ts) = literals ts ↔
      ∀ p ∈ flags k ts, p.2 = false → p.1.kind = .str → trimLine p.1.text = p.1.text := by
  induction ts generalizing k offset with
  | nil => simp [relaidFrom, flags]
  | cons t ts ih =>
    have hkind : (relay k offset t ts).kind = t.kind := rfl
    have htext : (relay k offset t ts).text = newText (k.reach t) t := rfl
    simp only [relaidFrom, flags, literals_cons, hkind, htext, List.forall_mem_cons]
    by_cases hk : t.kind = .str
    · simp only [hk, if_true, List.cons.injEq, ih]
      refine and_congr_left fun _ => ?_
      cases hc : (k.reach t).continues <;> simp [newText, hc]
    · simp [hk, ih]

theorem flags_flush (ts : List Token) :
    (∀ p ∈ flags .start (flush ts), p.2 = false → p.1.kind = .str →
        trimLine p.1.text = p.1.text) ↔
      ∀ p ∈ flags .start ts, p.2 = false → p.1.kind = .str → trimLine p.1.text = p.1.text := by
  cases ts with
  | nil => rfl
  | cons t ts =>
    have hreach : ∀ u : Token, Cursor.start.reach u = .start := by
      intro u
      rw [Cursor.reach]
      split <;> rfl
    simp only [flush, flags, hreach, List.forall_mem_cons]
    rfl

/-- Standard layout keeps the string literals of a source exactly if no literal that starts on a
line it rewrites has blanks at the end of its first line. A literal of one line never has. -/
theorem literals_reindent_iff {source : List Char} {ts : List Token}
    (h : tokenize source = .ok ts) :
    ∃ ts', tokenize (reindent source ts) = .ok ts' ∧
      (literals ts' = literals ts ↔
        ∀ l ∈ lines source ts, l.continues = false → ∀ t ∈ l.tokens, t.kind = .str →
          trimEnd (t.text.takeWhile (· != '\n')) = t.text.takeWhile (· != '\n')) := by
  refine ⟨relaid ts, tokenize_reindent h, ?_⟩
  obtain ⟨tail, hs, hw⟩ := written_of_tokenize h
  have hlines := flagged_lines hw
  rw [← hs] at hlines
  rw [← literals_flush ts, relaid, literals_relaidFrom_iff, flags_flush, ← hlines]
  constructor
  · intro hall l hl hc t ht hk
    have hmem : (t, l.continues) ∈ (lines source ts).flatMap Line.flagged :=
      List.mem_flatMap.2 ⟨l, hl, List.mem_map.2 ⟨t, ht, rfl⟩⟩
    exact trimLine_eq_self_iff.1 (hall _ hmem hc hk)
  · intro hall p hp hc hk
    obtain ⟨l, hl, hp⟩ := List.mem_flatMap.1 hp
    obtain ⟨t, ht, rfl⟩ := List.mem_map.1 hp
    exact trimLine_eq_self_iff.2 (hall l hl hc t ht hk)

/-- A literal over two lines of which the first ends with two blanks. -/
def looseLiteral : List Char := "s = \"a  \nb\";".toList

/-- The tokens of `looseLiteral`. -/
def looseTokens : List Token :=
  [⟨.ident, 0, [], ['s']⟩, ⟨.punct, 2, [' '], ['=']⟩,
    ⟨.str, 4, [' '], ['"', 'a', ' ', ' ', '\n', 'b', '"']⟩, ⟨.punct, 11, [], [';']⟩]

theorem literals_reindent_iff_loose :
    tokenize looseLiteral = .ok looseTokens ∧
      ∃ ts', tokenize (reindent looseLiteral looseTokens) = .ok ts' ∧
        (literals ts' = literals looseTokens ↔
          ∀ l ∈ lines looseLiteral looseTokens, l.continues = false → ∀ t ∈ l.tokens,
            t.kind = .str → trimEnd (t.text.takeWhile (· != '\n')) =
              t.text.takeWhile (· != '\n')) :=
  ⟨by decide +kernel, literals_reindent_iff (by decide +kernel)⟩

/-- The literal of `looseLiteral` loses its two blanks. -/
theorem reindent_looseLiteral :
    tokenize looseLiteral = .ok looseTokens ∧
      reindent looseLiteral looseTokens = "s = \"a\nb\";\n".toList ∧
      (tokenize (reindent looseLiteral looseTokens)).map literals ≠
        .ok (literals looseTokens) := by
  decide +kernel

end Layout
end Scad
