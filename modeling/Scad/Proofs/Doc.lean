import Scad.Doc
import Scad.Proofs.Text

/-!
# Scad.Proofs.Doc

The content of a comment does not depend on the blanks at the ends of its lines.

* `Doc.contentLines_trimLine_line`, `Doc.contentLines_trimLine_block`: a comment of either form
  holds the same lines when its first line is trimmed.
-/

namespace Scad

open Text

namespace Text

theorem dropLead_singleton (d : Char) (s : List Char) :
    dropLead [d] s = if s.head? = some d then s.tail else s := by
  cases s with
  | nil => rfl
  | cons c cs =>
    by_cases h : c = d
    · simp [dropLead, dropLead?, h]
    · simp [dropLead, dropLead?, h, Ne.symm h]

/-- What is left of a text when a mark goes from its beginning ends as the text does. -/
theorem trimEnd_dropLead_trimEnd (d : Char) (s : List Char) :
    trimEnd (dropLead [d] (trimEnd s)) = trimEnd (dropLead [d] s) := by
  cases s with
  | nil => rfl
  | cons c cs =>
    rw [trimEnd_cons]
    split
    · rename_i h
      have hcs : ∀ x ∈ c :: cs, isBlank x = true := by
        intro x hx
        rcases List.mem_cons.1 hx with rfl | hx
        · exact h.1
        · exact trimEnd_eq_nil_iff.1 h.2 x hx
      have hdrop : ∀ x ∈ dropLead [d] (c :: cs), isBlank x = true := by
        intro x hx
        rw [dropLead_singleton] at hx
        split at hx
        · exact hcs x (List.mem_cons_of_mem c hx)
        · exact hcs x hx
      rw [trimEnd_eq_nil_iff.2 hdrop]
      rfl
    · rename_i h
      rw [dropLead_singleton, dropLead_singleton]
      by_cases hd : c = d
      · simp [hd, trimEnd_trimEnd]
      · have hcut : trimEnd (c :: cs) = c :: trimEnd cs := by rw [trimEnd_cons, if_neg h]
        have hhead : some c ≠ some d := fun he => hd (Option.some.inj he)
        rw [List.head?_cons, List.head?_cons, if_neg hhead, if_neg hhead, ← hcut, trimEnd_trimEnd]

/-- The carriage return that ends a line is a blank. -/
theorem trim_dropCarriageReturn (s : List Char) : trim (dropCarriageReturn s) = trim s := by
  rw [dropCarriageReturn]
  split
  · rename_i h
    obtain ⟨t, rfl⟩ := List.getLast?_eq_some_iff.1 h
    rw [List.dropLast_concat]
    refine (trim_append_blank t fun c hc => ?_).symm
    rw [List.mem_singleton.1 hc]
    rfl
  · rfl

theorem lines_append_newline {s : List Char} (h : '\n' ∉ s) (t : List Char) :
    lines (s ++ '\n' :: t) = dropCarriageReturn s :: lines t := by
  obtain ⟨p, ps, hp⟩ := List.exists_cons_of_ne_nil (splitOn_ne_nil (· == '\n') t)
  have hsplit : splitOn (· == '\n') (s ++ '\n' :: t) = s :: p :: ps := by
    rw [splitOn_append (beq_newline h) (by decide), hp]
  simp only [lines, hsplit, hp, List.dropLast_cons_cons, List.map_cons, List.getLast?_cons_cons]
  split <;> simp_all

end Text

namespace Doc

/-- A line comment of which the end is trimmed holds the same line. -/
theorem contentLines_trimLine_line {s : List Char} (h : '\n' ∉ s) :
    contentLines (trimLine ('/' :: '/' :: s)) = contentLines ('/' :: '/' :: s) := by
  have hslash : isBlank '/' = false := by decide
  have hline : contentLine ['/'] (trimEnd s) = contentLine ['/'] s := by
    rw [contentLine, contentLine, ← trimEnd_dropLead_trimEnd ' ' (dropLead ['/'] (trimEnd s)),
      trimEnd_dropLead_trimEnd '/', trimEnd_dropLead_trimEnd ' ']
  rw [trimLine_cons_of_not_blank hslash, trimLine_cons_of_not_blank hslash,
    trimLine_of_no_newline h]
  simp only [contentLines, dropLead?, if_true, hline]

theorem contentLines_block (s : List Char) :
    contentLines ('/' :: '*' :: (s ++ ['*', '/'])) =
      (lines (dropLead ['*'] s)).map fun line => contentLine ['*'] (trim line) := by
  have hopen : dropLead? ['/', '*'] ('/' :: '*' :: (s ++ ['*', '/'])) = some (s ++ ['*', '/']) := by
    simp [dropLead?]
  have hclose : dropTail? ['*', '/'] (s ++ ['*', '/']) = some s := by
    simp [dropTail?, dropLead?]
  have hline : dropLead? ['/', '/'] ('/' :: '*' :: (s ++ ['*', '/'])) = none := by
    simp [dropLead?]
  simp only [contentLines, hline, hopen, hclose, Option.bind_some, Option.getD_some]

/-- A block comment of which the first line is trimmed holds the same lines. -/
theorem contentLines_trimLine_block (s : List Char) :
    contentLines (trimLine ('/' :: '*' :: (s ++ ['*', '/']))) =
      contentLines ('/' :: '*' :: (s ++ ['*', '/'])) := by
  rw [trimLine_cons_of_not_blank (by decide), trimLine_cons_of_not_blank (by decide)]
  by_cases hm : '\n' ∈ s
  · obtain ⟨x, y, rfl, hx⟩ := List.eq_append_cons_of_mem hm
    have hcut : trimLine (x ++ '\n' :: y ++ ['*', '/']) =
        (trimEnd x ++ '\n' :: y) ++ ['*', '/'] := by
      rw [List.append_assoc, List.cons_append, trimLine_append_newline hx]
      simp
    have hlead : ∀ z : List Char, '\n' ∉ z →
        lines (dropLead ['*'] (z ++ '\n' :: y)) =
          dropCarriageReturn (dropLead ['*'] z) :: lines y := by
      intro z hz
      have hdrop : dropLead ['*'] (z ++ '\n' :: y) = dropLead ['*'] z ++ '\n' :: y := by
        cases z with
        | nil => simp [dropLead_singleton]
        | cons c cs => rw [dropLead_singleton, dropLead_singleton]; split <;> simp_all
      rw [hdrop, lines_append_newline]
      intro hz'
      rw [dropLead_singleton] at hz'
      split at hz'
      · exact hz (List.mem_of_mem_tail hz')
      · exact hz hz'
    have hxe : '\n' ∉ trimEnd x := by
      rw [← trimLine_of_no_newline hx]
      exact fun h => hx (mem_trimLine_newline.1 h)
    have hfirst : trim (dropCarriageReturn (dropLead ['*'] (trimEnd x))) =
        trim (dropCarriageReturn (dropLead ['*'] x)) := by
      rw [trim_dropCarriageReturn, trim_dropCarriageReturn, ← trim_trimEnd,
        trimEnd_dropLead_trimEnd, trim_trimEnd]
    rw [hcut, contentLines_block, contentLines_block, hlead _ hxe, hlead _ hx]
    simp only [List.map_cons, hfirst]
  · have hn : '\n' ∉ s ++ ['*', '/'] := by simp [hm]
    have hend : trimEnd (s ++ ['*', '/']) = s ++ ['*', '/'] :=
      trimEnd_eq_self_of_getLast (by simp; decide)
    rw [trimLine_of_no_newline hn, hend]

end Doc
end Scad
