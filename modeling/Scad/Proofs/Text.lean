import Mathlib.Data.List.TakeWhile
import Scad.Text.Blank
import Scad.Text.Line

/-!
# Scad.Proofs.Text

Trimming and splitting, as equations over the ways a text is put together.

* `Text.trimLine`: the text without the blanks at the end of its first line.
* `Text.splitOn_append`: a separator ends a piece.
-/

namespace Scad
namespace Text

/-! ## Trimming -/

theorem trimEnd_cons (c : Char) (s : List Char) :
    trimEnd (c :: s) = if isBlank c = true ∧ trimEnd s = [] then [] else c :: trimEnd s := by
  simp only [trimEnd, List.reverse_cons, List.dropWhile_append, List.reverse_eq_nil_iff]
  by_cases h : List.dropWhile isBlank s.reverse = []
  · cases hc : isBlank c <;> simp [h, hc]
  · simp [h]

theorem trimEnd_cons_of_not_blank {c : Char} (h : isBlank c = false) (s : List Char) :
    trimEnd (c :: s) = c :: trimEnd s := by
  simp [trimEnd_cons, h]

theorem trimEnd_eq_nil_iff {s : List Char} : trimEnd s = [] ↔ ∀ c ∈ s, isBlank c = true := by
  simp [trimEnd, List.dropWhile_eq_nil_iff]

theorem trimEnd_ne_nil {s : List Char} (hs : s ≠ []) (h : ∀ c ∈ s.head?, isBlank c = false) :
    trimEnd s ≠ [] := by
  intro hnil
  obtain ⟨c, t, rfl⟩ := List.exists_cons_of_ne_nil hs
  have hc := trimEnd_eq_nil_iff.1 hnil c (by simp)
  rw [h c (by simp)] at hc
  cases hc

theorem trimEnd_append (s : List Char) {t : List Char} (h : trimEnd t ≠ []) :
    trimEnd (s ++ t) = s ++ trimEnd t := by
  induction s with
  | nil => rfl
  | cons c s ih =>
    have hne : ¬ (isBlank c = true ∧ trimEnd (s ++ t) = []) := by
      rw [ih]
      intro hc
      exact h (List.append_eq_nil_iff.1 hc.2).2
    rw [List.cons_append, trimEnd_cons, if_neg hne, ih, List.cons_append]

theorem trimEnd_append_blank (s : List Char) {t : List Char} (h : ∀ c ∈ t, isBlank c = true) :
    trimEnd (s ++ t) = trimEnd s := by
  simp only [trimEnd, List.reverse_append]
  rw [List.dropWhile_append_of_pos (by simpa using h)]

theorem trimEnd_trimEnd (s : List Char) : trimEnd (trimEnd s) = trimEnd s := by
  induction s with
  | nil => rfl
  | cons c s ih =>
    rw [trimEnd_cons]
    split
    · rfl
    · rename_i h
      rw [trimEnd_cons, ih, if_neg h]

theorem trimEnd_eq_self_of_getLast {s : List Char} (h : ∀ c ∈ s.getLast?, isBlank c = false) :
    trimEnd s = s := by
  cases hs : s.getLast? with
  | none => rw [List.getLast?_eq_none_iff.1 hs]; rfl
  | some c =>
    obtain ⟨t, rfl⟩ := List.getLast?_eq_some_iff.1 hs
    have hc : trimEnd [c] = [c] := by rw [trimEnd_cons_of_not_blank (h c hs)]; rfl
    rw [trimEnd_append t (by simp [hc]), hc]

theorem trimStart_append_blank {s : List Char} (h : ∀ c ∈ s, isBlank c = true) (t : List Char) :
    trimStart (s ++ t) = trimStart t := by
  rw [trimStart, List.dropWhile_append_of_pos h, trimStart]

theorem trimStart_append {s : List Char} (h : trimStart s ≠ []) (t : List Char) :
    trimStart (s ++ t) = trimStart s ++ t := by
  rw [trimStart, List.dropWhile_append, ← trimStart]
  simp [h]

theorem trimStart_of_head {s : List Char} (h : ∀ c ∈ s.head?, isBlank c = false) :
    trimStart s = s := by
  cases s with
  | nil => rfl
  | cons c cs => simp [trimStart, h c (by simp)]

theorem trimStart_eq_nil_iff {s : List Char} : trimStart s = [] ↔ ∀ c ∈ s, isBlank c = true := by
  simp [trimStart, List.dropWhile_eq_nil_iff]

theorem trim_eq_nil_iff {s : List Char} : trim s = [] ↔ ∀ c ∈ s, isBlank c = true := by
  rw [trim, trimEnd_eq_nil_iff]
  constructor
  · intro h
    have hnil : trimStart (trimStart s) = [] := trimStart_eq_nil_iff.2 h
    rw [← trimStart_eq_nil_iff]
    have hidem : trimStart (trimStart s) = trimStart s :=
      trimStart_of_head fun c hc => by
        have := List.head?_dropWhile_not isBlank s
        rw [show (s.dropWhile isBlank).head? = some c from hc] at this
        simpa using this
    rw [← hidem, hnil]
  · intro h c hc
    exact h c ((List.dropWhile_sublist isBlank).subset hc)

/-- Blanks after a text are trimmed off with it. -/
theorem trim_append_blank (s : List Char) {t : List Char} (h : ∀ c ∈ t, isBlank c = true) :
    trim (s ++ t) = trim s := by
  by_cases hs : trimStart s = []
  · have hall := trimStart_eq_nil_iff.1 hs
    have h1 : trim s = [] := trim_eq_nil_iff.2 hall
    have h2 : trim (s ++ t) = [] := trim_eq_nil_iff.2 fun c hc =>
      (List.mem_append.1 hc).elim (hall c) (h c)
    rw [h1, h2]
  · rw [trim, trimStart_append hs, trimEnd_append_blank _ h, trim]

theorem trim_trimEnd (s : List Char) : trim (trimEnd s) = trim s := by
  have hs : trimEnd s ++ (s.reverse.takeWhile isBlank).reverse = s := by
    rw [trimEnd, ← List.reverse_append, List.takeWhile_append_dropWhile, List.reverse_reverse]
  have hb : ∀ c ∈ (s.reverse.takeWhile isBlank).reverse, isBlank c = true := by
    intro c hc
    exact List.all_eq_true.1 List.all_takeWhile c (List.mem_reverse.1 hc)
  rw [← trim_append_blank (trimEnd s) hb, hs]

theorem trim_append_text (s : List Char) {x : List Char} (hx : x ≠ [])
    (h : ∀ c ∈ x.head?, isBlank c = false) : trim (s ++ x) = trimStart s ++ trimEnd x := by
  have hstart : trimStart (s ++ x) = trimStart s ++ x := by
    by_cases hs : trimStart s = []
    · rw [trimStart_append_blank (trimStart_eq_nil_iff.1 hs), hs, trimStart_of_head h]
      rfl
    · exact trimStart_append hs x
  rw [trim, hstart, trimEnd_append _ (trimEnd_ne_nil hx h)]

theorem trim_eq_trimStart {s : List Char} (h : trimEnd s = s) (hs : trim s ≠ []) :
    trim s = trimStart s := by
  have hsplit : s.takeWhile isBlank ++ trimStart s = s := List.takeWhile_append_dropWhile
  have happ := trimEnd_append (s.takeWhile isBlank) hs
  rw [hsplit, h] at happ
  exact (List.append_cancel_left (hsplit.trans happ)).symm

/-! ## The first line -/

theorem length_append_newline (s t : List Char) :
    (s ++ '\n' :: t).length = s.length + 1 + t.length := by
  simp only [List.length_append, List.length_cons]
  omega

theorem bne_newline {s : List Char} (h : '\n' ∉ s) : ∀ c ∈ s, (c != '\n') = true := by
  intro c hc
  rw [bne_iff_ne]
  rintro rfl
  exact h hc

theorem beq_newline {s : List Char} (h : '\n' ∉ s) : ∀ c ∈ s, (c == '\n') = false := by
  intro c hc
  rw [beq_eq_false_iff_ne]
  rintro rfl
  exact h hc

theorem takeWhile_newline (s : List Char) :
    ∀ c ∈ s.takeWhile (· != '\n'), (c != '\n') = true :=
  fun c hc => List.all_eq_true.1 List.all_takeWhile c hc

/-- The text without the blanks at the end of its first line. -/
def trimLine (s : List Char) : List Char :=
  trimEnd (s.takeWhile (· != '\n')) ++ s.dropWhile (· != '\n')

theorem trimLine_newline (s : List Char) : trimLine ('\n' :: s) = '\n' :: s := rfl

theorem trimLine_of_no_newline {s : List Char} (h : '\n' ∉ s) : trimLine s = trimEnd s := by
  have hs := bne_newline h
  rw [trimLine, List.takeWhile_eq_self_iff.2 hs, List.dropWhile_eq_nil_iff.2 hs, List.append_nil]

theorem trimLine_append_newline {s : List Char} (h : '\n' ∉ s) (t : List Char) :
    trimLine (s ++ '\n' :: t) = trimEnd s ++ '\n' :: t := by
  have hs := bne_newline h
  rw [trimLine, List.takeWhile_append_of_pos hs, List.dropWhile_append_of_pos hs]
  simp

/-- A character other than a newline stays, unless it is a blank after which the line ends. -/
theorem trimLine_cons {c : Char} (hc : c ≠ '\n') (s : List Char) :
    trimLine (c :: s) =
      if isBlank c = true ∧ (trimLine s).headD '\n' = '\n' then trimLine s
      else c :: trimLine s := by
  have hstop : (s.dropWhile (· != '\n')).headD '\n' = '\n' := by
    have hnot := List.head?_dropWhile_not (· != '\n') s
    cases hd : s.dropWhile (· != '\n') with
    | nil => rfl
    | cons d ds =>
      rw [hd] at hnot
      simpa using hnot
  have hcut : trimLine (c :: s) =
      trimEnd (c :: s.takeWhile (· != '\n')) ++ s.dropWhile (· != '\n') := by
    simp [trimLine, hc]
  rw [hcut, trimEnd_cons]
  by_cases he : trimEnd (s.takeWhile (· != '\n')) = []
  · have hl : trimLine s = s.dropWhile (· != '\n') := by rw [trimLine, he, List.nil_append]
    rw [hl]
    cases hb : isBlank c with
    | true => rw [if_pos ⟨rfl, he⟩, if_pos ⟨rfl, hstop⟩, List.nil_append]
    | false => simp [he]
  · obtain ⟨d, ds, hd⟩ := List.exists_cons_of_ne_nil he
    -- the trimmed line begins with a character of the line
    have hmem : d ∈ s.takeWhile (· != '\n') := by
      have hsub : trimEnd (s.takeWhile (· != '\n')) <+: s.takeWhile (· != '\n') := by
        rw [trimEnd, ← List.reverse_suffix, List.reverse_reverse]
        exact List.dropWhile_suffix _
      exact hsub.subset (by rw [hd]; exact List.mem_cons_self)
    have hne : d ≠ '\n' := by simpa using List.all_eq_true.1 List.all_takeWhile d hmem
    have hneg : ¬ (isBlank c = true ∧ (trimLine s).headD '\n' = '\n') := by
      rintro ⟨-, h⟩
      rw [trimLine, hd] at h
      exact hne h
    rw [if_neg fun h => he h.2, if_neg hneg]
    rfl

theorem trimLine_cons_of_not_blank {c : Char} (h : isBlank c = false) (s : List Char) :
    trimLine (c :: s) = c :: trimLine s := by
  rw [trimLine_cons (by rintro rfl; cases h), if_neg (by simp [h])]

/-- The text and its trimmed form begin alike, if the trimmed form begins inside the first line. -/
theorem head_trimLine {s : List Char} {c : Char} (h : (trimLine s).head? = some c) :
    c = '\n' ∨ s.head? = some c := by
  cases s with
  | nil => cases h
  | cons d s =>
    by_cases hd : d = '\n'
    · subst hd; rw [trimLine_newline] at h; right; exact h
    · rw [trimLine_cons hd] at h
      split at h
      · rename_i hs
        left
        rw [← hs.2, List.headD_eq_head?_getD, h, Option.getD_some]
      · right; exact h

theorem trimLine_trimLine (s : List Char) : trimLine (trimLine s) = trimLine s := by
  induction s with
  | nil => rfl
  | cons c s ih =>
    by_cases hc : c = '\n'
    · subst hc; rw [trimLine_newline, trimLine_newline]
    · rw [trimLine_cons hc]
      split
      · exact ih
      · rename_i h; rw [trimLine_cons hc, ih, if_neg h]

theorem mem_trimLine_newline {s : List Char} : '\n' ∈ trimLine s ↔ '\n' ∈ s := by
  induction s with
  | nil => rfl
  | cons c s ih =>
    by_cases hc : c = '\n'
    · subst hc; rw [trimLine_newline]
    · have hs : '\n' ∈ c :: s ↔ '\n' ∈ s := by simp [Ne.symm hc]
      rw [trimLine_cons hc, hs]
      split
      · exact ih
      · simp [Ne.symm hc, ih]

theorem isBlank_of_trimLine_eq_nil {s : List Char} (h : trimLine s = []) :
    ∀ c ∈ s, isBlank c = true := by
  have hn : '\n' ∉ s := by
    intro hn
    rw [← mem_trimLine_newline, h] at hn
    cases hn
  rwa [trimLine_of_no_newline hn, trimEnd_eq_nil_iff] at h

/-! ## Splitting -/

theorem splitOn_ne_nil (p : Char → Bool) (s : List Char) : splitOn p s ≠ [] := by
  cases s with
  | nil => simp [splitOn]
  | cons c s => rw [splitOn]; split <;> (try split) <;> simp

theorem splitOn_of_none {p : Char → Bool} {s : List Char} (h : ∀ c ∈ s, p c = false) :
    splitOn p s = [s] := by
  induction s with
  | nil => rfl
  | cons c s ih =>
    rw [splitOn, h c List.mem_cons_self, ih fun d hd => h d (List.mem_cons_of_mem c hd)]
    rfl

/-- A separator ends a piece. -/
theorem splitOn_append {p : Char → Bool} {s : List Char} (h : ∀ c ∈ s, p c = false) {d : Char}
    (hd : p d = true) (t : List Char) : splitOn p (s ++ d :: t) = s :: splitOn p t := by
  induction s with
  | nil => rw [List.nil_append, splitOn, if_pos hd]
  | cons c s ih =>
    rw [List.cons_append, splitOn, h c List.mem_cons_self,
      ih fun d hd => h d (List.mem_cons_of_mem c hd)]
    rfl

end Text
end Scad
