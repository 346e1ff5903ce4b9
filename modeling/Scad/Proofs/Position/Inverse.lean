import Scad.Document
import Scad.Proofs.Position

/-!
# Scad.Proofs.Position.Inverse

Positions and offsets of a text are inverse to each other.

The two are compared by the UTF-16 units of the text, counted from its beginning.

* `Position.unit`: the unit that a position names. The position of an offset names the first unit of
  the character there (`unit_ofOffset`).
* `Position.Holds`: a character holds a unit; no other does (`holds_unique`).
* `Position.Inside`: the text has the line and the unit of a position. The character found from such
  a position holds its unit (`offset_of_inside`), from any other the last character is found.
* `Position.offsetAt_positionAt_inverse`: both directions together, for every position.
-/

namespace Scad
namespace Position

/-! ## Widths -/

theorem width_append (s t : List Char) : width (s ++ t) = width s + width t := by
  induction s with
  | nil => simp [width]
  | cons c s ih =>
    simp only [width, List.cons_append, List.foldr_cons] at ih ⊢
    omega

theorem width_cons (c : Char) (s : List Char) : width (c :: s) = units c + width s := rfl

/-- A unit below the width of a text lies in one of its characters. -/
theorem exists_of_lt_width {u : Nat} {s : List Char} (h : u < width s) :
    ∃ a c b, s = a ++ c :: b ∧ width a ≤ u ∧ u < width a + units c := by
  induction s generalizing u with
  | nil => exact absurd h (Nat.not_lt_zero u)
  | cons c s ih =>
    rw [width_cons] at h
    by_cases hu : u < units c
    · exact ⟨[], c, s, rfl, Nat.zero_le u, by simpa [width] using hu⟩
    · obtain ⟨a, d, b, rfl, h1, h2⟩ := ih (u := u - units c) (by omega)
      refine ⟨c :: a, d, b, rfl, ?_, ?_⟩
      · rw [width_cons]; omega
      · rw [width_cons]; omega

theorem charAtUnit?_append (a : List Char) (c : Char) (b : List Char) {u : Nat}
    (h1 : width a ≤ u) (h2 : u < width a + units c) :
    charAtUnit? u (a ++ c :: b) = some a.length := by
  induction a generalizing u with
  | nil =>
    have hu : u < units c := by simpa [width] using h2
    simp [charAtUnit?, hu]
  | cons d a ih =>
    rw [width_cons] at h1 h2
    have hu : ¬ u < units d := by omega
    simp [charAtUnit?, hu, ih (u := u - units d) (by omega) (by omega)]

theorem charAtUnit?_of_width_le {u : Nat} {s : List Char} (h : width s ≤ u) :
    charAtUnit? u s = none := by
  induction s generalizing u with
  | nil => rfl
  | cons c s ih =>
    rw [width_cons] at h
    have hu : ¬ u < units c := by have := units_pos c; omega
    simp [charAtUnit?, hu, ih (u := u - units c) (by omega)]

/-! ## Whole lines -/

/-- The text is empty or ends with a newline. -/
def WholeLines (s : List Char) : Prop := ∀ c ∈ s.getLast?, c = '\n'

theorem wholeLines_nil : WholeLines [] := by
  intro c hc
  cases hc

theorem WholeLines.eq_nil_or {s : List Char} (h : WholeLines s) :
    s = [] ∨ ∃ t, s = t ++ ['\n'] := by
  cases hs : s.getLast? with
  | none => exact .inl (List.getLast?_eq_none_iff.1 hs)
  | some c =>
    obtain ⟨t, rfl⟩ := List.getLast?_eq_some_iff.1 hs
    exact .inr ⟨t, by rw [h c hs]⟩

theorem WholeLines.tail {c : Char} {s : List Char} (h : WholeLines (c :: s)) : WholeLines s := by
  cases s with
  | nil => exact wholeLines_nil
  | cons d s => simpa [WholeLines] using h

theorem WholeLines.cons {c : Char} {s : List Char} (h : WholeLines s) (hc : s = [] → c = '\n') :
    WholeLines (c :: s) := by
  cases s with
  | nil => simpa [WholeLines] using hc rfl
  | cons d s => simpa [WholeLines] using h

/-- A text has a beginning of any number of whole lines up to the number of its newlines. -/
theorem exists_wholeLines {l : Nat} {text : List Char} (h : l ≤ text.count '\n') :
    ∃ before s, text = before ++ s ∧ WholeLines before ∧ before.count '\n' = l := by
  induction text generalizing l with
  | nil =>
    have hl : l = 0 := by simpa using h
    exact ⟨[], [], rfl, wholeLines_nil, hl.symm⟩
  | cons c text ih =>
    cases l with
    | zero => exact ⟨[], c :: text, rfl, wholeLines_nil, rfl⟩
    | succ l =>
      by_cases hc : c = '\n'
      · obtain ⟨b, s, rfl, hb, hcount⟩ := ih (l := l) (by simpa [hc] using h)
        exact ⟨c :: b, s, rfl, hb.cons fun _ => hc, by simp [hc, hcount]⟩
      · obtain ⟨b, s, rfl, hb, hcount⟩ := ih (l := l + 1) (by simpa [hc] using h)
        -- the line is not over, so a newline is still to come
        refine ⟨c :: b, s, rfl, hb.cons fun hnil => ?_, by simpa [hc] using hcount⟩
        rw [hnil] at hcount
        cases hcount

theorem fromLine_append {before : List Char} (h : WholeLines before) (s : List Char) :
    fromLine (before.count '\n') (before ++ s) = s := by
  induction before with
  | nil => cases s <;> rfl
  | cons c before ih =>
    by_cases hc : c = '\n'
    · simpa [hc, fromLine] using ih h.tail
    · have hne : before ≠ [] := by
        rintro rfl
        exact hc (h c rfl)
      obtain hnil | ⟨t, rfl⟩ := h.tail.eq_nil_or
      · exact absurd hnil hne
      · simpa [hc, fromLine] using ih h.tail

theorem fromLine_of_count_lt {l : Nat} {text : List Char} (h : text.count '\n' < l) :
    fromLine l text = [] := by
  induction text generalizing l with
  | nil => cases l <;> rfl
  | cons c text ih =>
    cases l with
    | zero => exact absurd h (Nat.not_lt_zero _)
    | succ l =>
      by_cases hc : c = '\n'
      · simpa [fromLine, hc] using ih (l := l) (by simpa [hc] using h)
      · simpa [fromLine, hc] using ih (l := l + 1) (by simpa [hc] using h)

/-! ## The unit that a position names -/

/-- The offset at which a line begins: the least one with so many newlines before it. -/
def lineStart (text : List Char) (line : Nat) : Nat :=
  ((List.range (text.length + 1)).find? fun n => (text.take n).count '\n' = line).getD text.length

/-- The UTF-16 unit that a position names, counted from the beginning of the text. -/
def unit (text : List Char) (p : Position) : Nat :=
  width (text.take (lineStart text p.line)) + p.character

/-- The line of the position exists, and the text reaches as far as the unit it names. -/
def Inside (text : List Char) (p : Position) : Prop :=
  p.line ≤ text.count '\n' ∧ unit text p < width text

/-- The character at the offset `n` holds the unit `u`. -/
def Holds (text : List Char) (n u : Nat) : Prop :=
  width (text.take n) ≤ u ∧ u < width (text.take (n + 1))

/-- The unit that the position names is the first of a character on the line of the position. The
newline that ends a line is on it. -/
def Begins (text : List Char) (p : Position) : Prop :=
  ∃ n < text.length, width (text.take n) = unit text p ∧ (text.take n).count '\n' = p.line

instance (text : List Char) (p : Position) : Decidable (Inside text p) :=
  inferInstanceAs (Decidable (_ ∧ _))

instance (text : List Char) (n u : Nat) : Decidable (Holds text n u) :=
  inferInstanceAs (Decidable (_ ∧ _))

instance (text : List Char) (p : Position) : Decidable (Begins text p) :=
  inferInstanceAs (Decidable (∃ n < text.length, _ ∧ _))

theorem lineStart_append {before : List Char} (h : WholeLines before) (s : List Char) :
    lineStart (before ++ s) (before.count '\n') = before.length := by
  have hfind : (List.range ((before ++ s).length + 1)).find?
      (fun n => ((before ++ s).take n).count '\n' = before.count '\n') = some before.length := by
    rw [List.find?_range_eq_some]
    refine ⟨by simp, ?_, fun j hj => ?_⟩
    · rw [List.mem_range, List.length_append]
      omega
    · rw [List.take_append_of_le_length (Nat.le_of_lt hj)]
      obtain rfl | ⟨t, rfl⟩ := h.eq_nil_or
      · exact absurd hj (Nat.not_lt_zero j)
      · -- the newline at the end is not among the first `j` characters
        have hjt : j ≤ t.length := by simpa [Nat.lt_succ_iff] using hj
        have hle := (List.take_sublist j t).count_le '\n'
        have hne : (t.take j).count '\n' ≠ (t ++ ['\n']).count '\n' := by
          rw [List.count_append, List.count_singleton_self]
          omega
        simp only [List.take_append_of_le_length hjt, hne, decide_false, Bool.not_false]
  rw [lineStart, hfind, Option.getD_some]

theorem unit_append {before : List Char} (h : WholeLines before) (s : List Char) {p : Position}
    (hl : p.line = before.count '\n') : unit (before ++ s) p = width before + p.character := by
  rw [unit, hl, lineStart_append h, List.take_left]

theorem width_take_mono (text : List Char) {m n : Nat} (h : m ≤ n) :
    width (text.take m) ≤ width (text.take n) := by
  obtain ⟨k, rfl⟩ := Nat.exists_eq_add_of_le h
  rw [List.take_add, width_append]
  omega

theorem holds_width_take {text : List Char} {n : Nat} (h : n < text.length) :
    Holds text n (width (text.take n)) := by
  have hunits := units_pos text[n]
  refine ⟨Nat.le_refl _, ?_⟩
  rw [List.take_succ_eq_append_getElem h, width_append, width_cons]
  omega

theorem holds_unique {text : List Char} {m n u : Nat} (hm : Holds text m u) (hn : Holds text n u) :
    m = n := by
  obtain ⟨hm1, hm2⟩ := hm
  obtain ⟨hn1, hn2⟩ := hn
  rcases Nat.lt_trichotomy m n with h | h | h
  · have hle : width (text.take (m + 1)) ≤ width (text.take n) := width_take_mono text h
    omega
  · exact h
  · have hle : width (text.take (n + 1)) ≤ width (text.take m) := width_take_mono text h
    omega

/-! ## From offsets to positions -/

theorem line_advance (p : Position) (s : List Char) :
    (advance p s).line = p.line + s.count '\n' := by
  induction s generalizing p with
  | nil => rfl
  | cons c s ih =>
    by_cases hc : c = '\n'
    · rw [hc, advance_newline, ih, List.count_cons_self]
      simp only
      omega
    · rw [advance_char p hc, ih, List.count_cons_of_ne hc]

theorem advance_of_no_newline (p : Position) {s : List Char} (h : '\n' ∉ s) :
    advance p s = ⟨p.line, p.character + width s⟩ := by
  induction s generalizing p with
  | nil => rfl
  | cons c s ih =>
    have hc : c ≠ '\n' := fun e => h (e ▸ List.mem_cons_self)
    rw [advance_char p hc, ih _ fun hs => h (List.mem_cons_of_mem c hs), width_cons, Nat.add_assoc]

theorem advance_of_wholeLines {s : List Char} (h : WholeLines s) :
    advance ⟨0, 0⟩ s = ⟨s.count '\n', 0⟩ := by
  obtain rfl | ⟨t, rfl⟩ := h.eq_nil_or
  · rfl
  · have hline := line_advance ⟨0, 0⟩ t
    rw [Nat.zero_add] at hline
    rw [advance_append, advance_newline, hline, List.count_append]
    rfl

theorem line_ofOffset (text : List Char) (o : Nat) :
    (ofOffset text o).line = (text.take o).count '\n' := by
  rw [ofOffset, line_advance, Nat.zero_add]

theorem unit_ofOffset (text : List Char) (o : Nat) :
    unit text (ofOffset text o) = width (text.take o) := by
  obtain ⟨before, a, hsplit, hb, hcount⟩ :=
    exists_wholeLines (Nat.le_refl ((text.take o).count '\n'))
  have ha : '\n' ∉ a := by
    rw [hsplit, List.count_append] at hcount
    exact List.count_eq_zero.1 (by omega)
  have hpos : ofOffset text o = ⟨before.count '\n', width a⟩ := by
    rw [ofOffset, hsplit, advance_append, advance_of_wholeLines hb, advance_of_no_newline _ ha,
      Nat.zero_add]
  have htext : text = before ++ (a ++ text.drop o) := by
    rw [← List.append_assoc, ← hsplit, List.take_append_drop]
  rw [hpos, hsplit, width_append, htext]
  exact unit_append hb _ rfl

theorem inside_ofOffset {text : List Char} {o : Nat} (h : o < text.length) :
    Inside text (ofOffset text o) := by
  constructor
  · rw [line_ofOffset]
    exact (List.take_sublist o text).count_le '\n'
  · have hle := width_take_mono text (Nat.succ_le_of_lt h)
    rw [List.take_length] at hle
    rw [unit_ofOffset]
    exact Nat.lt_of_lt_of_le (holds_width_take h).2 hle

theorem not_inside_endOf (text : List Char) : ¬ Inside text (ofOffset text text.length) := by
  intro h
  have hunit := h.2
  rw [unit_ofOffset, List.take_length] at hunit
  exact Nat.lt_irrefl _ hunit

/-! ## From positions to offsets -/

/-- The offset of a position inside a text is that of the character that holds its unit. The
character may stand on a later line: a column past the end of a line runs on. -/
theorem offset_of_inside {text : List Char} {p : Position} (h : Inside text p) :
    Holds text (offset text p) (unit text p) := by
  obtain ⟨hline, hunit⟩ := h
  obtain ⟨before, s, rfl, hb, hcount⟩ := exists_wholeLines hline
  rw [unit_append hb s hcount.symm, width_append] at hunit
  obtain ⟨a, c, b, rfl, h1, h2⟩ := exists_of_lt_width (Nat.lt_of_add_lt_add_left hunit)
  have hoffset : offset (before ++ (a ++ c :: b)) p = (before ++ a).length := by
    simp only [offset, ← hcount, fromLine_append hb, charAtUnit?_append a c b h1 h2,
      List.length_append]
    omega
  have hstart : (before ++ (a ++ c :: b)).take (before ++ a).length = before ++ a := by
    rw [← List.append_assoc, List.take_left]
  have hstop : (before ++ (a ++ c :: b)).take ((before ++ a).length + 1) = before ++ a ++ [c] := by
    rw [← List.append_assoc, List.take_length_add_append, List.take_succ_cons, List.take_zero]
  rw [hoffset, unit_append hb _ hcount.symm, Holds, hstart, hstop]
  simp only [width_append, width_cons]
  omega

theorem offset_of_not_inside {text : List Char} {p : Position} (h : ¬ Inside text p) :
    offset text p = text.length - 1 := by
  have hnone : charAtUnit? p.character (fromLine p.line text) = none := by
    by_cases hline : p.line ≤ text.count '\n'
    · obtain ⟨before, s, rfl, hb, hcount⟩ := exists_wholeLines hline
      have hunit : ¬ unit (before ++ s) p < width (before ++ s) := fun hu => h ⟨hline, hu⟩
      rw [unit_append hb s hcount.symm, width_append] at hunit
      rw [← hcount, fromLine_append hb]
      exact charAtUnit?_of_width_le (by omega)
    · rw [fromLine_of_count_lt (Nat.lt_of_not_le hline)]
      rfl
  simp only [offset, hnone]

/-! ## Both directions -/

theorem offset_ofOffset {text : List Char} {o : Nat} (h : o < text.length) :
    offset text (ofOffset text o) = o := by
  have hholds := offset_of_inside (inside_ofOffset h)
  rw [unit_ofOffset] at hholds
  exact holds_unique hholds (holds_width_take h)

theorem offset_ofOffset_length (text : List Char) :
    offset text (ofOffset text text.length) = text.length - 1 :=
  offset_of_not_inside (not_inside_endOf text)

theorem ofOffset_of_begins {text : List Char} {p : Position} (h : Inside text p)
    (hbegins : Begins text p) : ofOffset text (offset text p) = p := by
  obtain ⟨n, hn, hwidth, hcount⟩ := hbegins
  have hholds := holds_width_take hn
  rw [hwidth] at hholds
  obtain rfl : n = offset text p := holds_unique hholds (offset_of_inside h)
  -- the two positions are on one line and name one unit
  have hline : (ofOffset text (offset text p)).line = p.line := (line_ofOffset _ _).trans hcount
  have hunit := (unit_ofOffset text (offset text p)).trans hwidth
  rw [unit, unit, hline] at hunit
  cases hp : ofOffset text (offset text p) with
  | mk line character =>
    rw [hp] at hline hunit
    cases p with
    | mk line' character' =>
      simp only at hline hunit
      rw [hline, Nat.add_left_cancel hunit]

/-- An offset of a document is found again from its position, and positions are in the order of the
offsets. A position inside the document finds the one character that holds its unit, and is the
position of this character if it names its first unit, on its line; every other position finds the
last character, or the offset 0 where there is none. -/
theorem offsetAt_positionAt_inverse (d : Document) :
    (∀ o < d.text.length, d.offsetAt (d.positionAt o) = o) ∧
      (∀ m n, m < n → n ≤ d.text.length → d.positionAt m < d.positionAt n) ∧
      ∀ p : Position,
        (Inside d.text p →
          Holds d.text (d.offsetAt p) (unit d.text p) ∧
          (∀ n, Holds d.text n (unit d.text p) → n = d.offsetAt p) ∧
          (Begins d.text p → d.positionAt (d.offsetAt p) = p)) ∧
        (¬ Inside d.text p → d.offsetAt p = if d.text = [] then 0 else d.text.length - 1) := by
  refine ⟨fun o ho => offset_ofOffset ho, fun m n hm hn => ofOffset_lt_ofOffset hm hn,
    fun p => ⟨fun hp => ?_, fun hp => ?_⟩⟩
  · have hholds := offset_of_inside hp
    exact ⟨hholds, fun n hn => holds_unique hn hholds, ofOffset_of_begins hp⟩
  · rw [Document.offsetAt, offset_of_not_inside hp]
    split
    · rename_i hnil
      rw [hnil]
      rfl
    · rfl

/-- Two lines: a letter, a character of two units, a carriage return, and a letter. -/
def astralLines : Document := ⟨"a😀\r\nb".toList, 0⟩

/-- The column 2 splits the second character, the column 4 is the newline of its line, and there is
no third line. -/
theorem inverse_astralLines :
    (Inside astralLines.text ⟨0, 2⟩ ∧ 1 = astralLines.offsetAt ⟨0, 2⟩) ∧
      (Inside astralLines.text ⟨0, 4⟩ ∧ Begins astralLines.text ⟨0, 4⟩ ∧
        astralLines.positionAt (astralLines.offsetAt ⟨0, 4⟩) = ⟨0, 4⟩) ∧
      ¬ Inside astralLines.text ⟨2, 0⟩ ∧ astralLines.offsetAt ⟨2, 0⟩ = 4 := by
  obtain ⟨-, -, hpos⟩ := offsetAt_positionAt_inverse astralLines
  have h1 : Inside astralLines.text ⟨0, 2⟩ := by decide
  have h2 : Inside astralLines.text ⟨0, 4⟩ := by decide
  have h3 : Begins astralLines.text ⟨0, 4⟩ := by decide
  have h4 : ¬ Inside astralLines.text ⟨2, 0⟩ := by decide
  exact ⟨⟨h1, ((hpos _).1 h1).2.1 1 (by decide)⟩, ⟨h2, h3, ((hpos _).1 h2).2.2 h3⟩, h4,
    (hpos _).2 h4⟩

end Position
end Scad
