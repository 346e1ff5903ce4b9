import Mathlib.Data.List.Basic
import Scad.Proofs.Token.Reads

/-!
# Scad.Proofs.Token.Gap

What stands before a token in its source.

* `Token.start_eq`, `Token.source_between`: the tokens before a token and the blanks between are
  what the source has before it.
* `Token.all_lineBefore`: a token starts its line if and only if the source has nothing but blanks
  before it on that line.
-/

namespace Scad

open Text

theorem Written.append_right {offset : Nat} {tail : List Char} {before rest : List Token}
    (h : Written offset tail (before ++ rest)) :
    Written (offset + (Token.spell before).length) tail rest := by
  induction before generalizing offset with
  | nil => exact h
  | cons t before ih =>
    obtain ⟨-, hstart, -, hrest⟩ := h
    have hstop : t.stop + (Token.spell before).length =
        offset + (Token.spell (t :: before)).length := by
      rw [Token.stop, hstart, Token.spell_cons, List.length_append, List.length_append]
      omega
    exact hstop ▸ ih hrest

namespace Token

variable {tail : List Char} {before after : List Token} {t u : Token}

theorem spell_append (ts us : List Token) : spell (ts ++ us) = spell ts ++ spell us := by
  simp [spell]

theorem start_eq (hw : Written 0 tail (before ++ t :: after)) :
    t.start = (spell before ++ t.gap).length := by
  obtain ⟨-, hstart, -⟩ := hw.append_right
  rw [hstart, List.length_append]
  omega

theorem source_eq (before after : List Token) (t : Token) (tail : List Char) :
    spell (before ++ t :: after) ++ tail =
      spell before ++ t.gap ++ t.text ++ (spell after ++ tail) := by
  rw [spell_append, spell_cons]
  simp only [List.append_assoc]

/-- The gap of a token stands between the token before it and itself. -/
theorem source_between (hw : Written 0 tail (before ++ t :: u :: after)) :
    ∃ x y, spell (before ++ t :: u :: after) ++ tail = x ++ u.gap ++ y ∧ t.stop = x.length ∧
      u.start = t.stop + u.gap.length := by
  obtain ⟨-, -, -, -, hstart, -⟩ := hw.append_right
  refine ⟨spell before ++ t.gap ++ t.text, u.text ++ (spell after ++ tail), ?_, ?_, hstart⟩
  · rw [source_eq, spell_cons]
    simp only [List.append_assoc]
  · rw [stop, start_eq hw]
    simp only [List.length_append]

/-- A token whose neighbour begins on the same line does not end with a blank. -/
theorem getLast_spell (hw : Written 0 tail (before ++ t :: after)) (hgap : '\n' ∉ t.gap) :
    ∀ c ∈ (spell before).getLast?, isBlank c = false := by
  intro c hc
  rcases List.eq_nil_or_concat before with rfl | ⟨front, u, rfl⟩
  · cases hc
  · have hw' : Written 0 tail (front ++ u :: t :: after) := by
      simpa [List.concat_eq_append] using hw
    obtain ⟨hsound, -, hline, hnext, -⟩ := hw'.append_right
    -- behind a line comment the line ends
    have hkind : u.kind ≠ .lineComment := by
      intro hkind
      have hhead := hline hkind
      rw [spell_cons] at hhead
      cases hg : t.gap with
      | nil =>
        obtain ⟨d, ds, hd⟩ := List.exists_cons_of_ne_nil hnext.text_ne_nil
        have hnewline : d = '\n' := hhead d (by simp [hg, hd])
        have hblank := hnext.head_not_blank d (by simp [hd])
        rw [hnewline] at hblank
        cases hblank
      | cons d ds =>
        have hnewline : d = '\n' := hhead d (by simp [hg])
        exact hgap (by simp [hg, hnewline])
    refine hsound.last_not_blank hkind c ?_
    have hspell : spell (front.concat u) = spell front ++ u.gap ++ u.text := by
      rw [List.concat_eq_append, spell_append, spell_cons, spell_nil]
      simp
    rwa [hspell, List.getLast?_append_of_ne_nil _ hsound.text_ne_nil] at hc

/-- A token starts its line if and only if there are only blanks before it on its line. -/
theorem all_lineBefore (hw : Written 0 tail (before ++ t :: after)) :
    ((spell before ++ t.gap).reverse.takeWhile (· != '\n')).all isBlank = t.startsLine := by
  have hblank : ∀ c ∈ t.gap.reverse, isBlank c = true :=
    fun c hc => hw.append_right.1.gap_blank c (List.mem_reverse.1 hc)
  rw [List.reverse_append]
  by_cases hgap : '\n' ∈ t.gap
  · have hstop : ¬ (t.gap.reverse.takeWhile (· != '\n')).length = t.gap.reverse.length := by
      intro hlen
      have hall := List.takeWhile_eq_self_iff.1
        ((List.takeWhile_prefix _).eq_of_length hlen)
      simpa using hall '\n' (List.mem_reverse.2 hgap)
    have hall : (t.gap.reverse.takeWhile (· != '\n')).all isBlank = true :=
      List.all_eq_true.2 fun c hc => hblank c ((List.takeWhile_subset _) hc)
    rw [List.takeWhile_append, if_neg hstop, hall, startsLine]
    simp [hgap]
  · have hnewline : ∀ c ∈ t.gap.reverse, (c != '\n') = true :=
      bne_newline fun h => hgap (List.mem_reverse.1 h)
    rw [List.takeWhile_append_of_pos hnewline, List.all_append, List.all_eq_true.2 hblank,
      Bool.true_and]
    have hlast := getLast_spell hw hgap
    have hstart := start_eq hw
    rw [List.length_append] at hstart
    cases hs : (spell before).reverse with
    | nil =>
      have hempty : (spell before).length = 0 := by rw [← List.length_reverse, hs]; rfl
      have hfirst : t.start = t.gap.length := by omega
      simp [startsLine, hfirst]
    | cons c cs =>
      have hfilled : (spell before).length = cs.length + 1 := by rw [← List.length_reverse, hs]; rfl
      have hlater : (t.start == t.gap.length) = false := beq_eq_false_iff_ne.2 (by omega)
      have hc : isBlank c = false := hlast c (by rw [← List.head?_reverse, hs]; rfl)
      have hline : (c != '\n') = true := by
        rw [bne_iff_ne]
        rintro rfl
        cases hc
      rw [List.takeWhile_cons_of_pos (p := (· != '\n')) hline, List.all_cons, hc, startsLine,
        hlater]
      simp [hgap]

end Token
end Scad
