import Scad.Proofs.Token.Lexeme

/-!
# Scad.Proofs.Token.Shape

What lexemes are made of, kind by kind: where they may hold blanks and newlines, and how they begin
and end.

* `Lexeme.Form.getLast_not_isBlank`: only a line comment can end with a blank.
* `Lexeme.Form.no_newline`: only strings and block comments run over several lines.
* `Lexeme.Form.trimLine`: trimming the first line of a lexeme gives a lexeme of the same kind.
-/

namespace Scad
namespace Lexeme

open Text

/-! ## What lexemes are made of -/

theorem not_isBlank_of {p : Char → Bool} (hb : ∀ c, isBlank c = true → p c = false) {c : Char}
    (h : p c = true) : isBlank c = false := by
  cases hc : isBlank c with
  | false => rfl
  | true => rw [hb c hc] at h; cases h

theorem isNameRest_of_isNameStart {c : Char} (h : isNameStart c = true) : isNameRest c = true := by
  simp only [isNameStart, isNameRest, isAlphanumeric, Bool.or_eq_true] at h ⊢
  exact h.imp (Or.imp Or.inl id) id

theorem not_isBlank_of_mem_number {s : List Char} {c : Char} (h : c ∈ (number s).1) :
    isBlank c = false := by
  have hdigit : ∀ {d}, isAsciiDigit d = true → isBlank d = false :=
    fun hd => not_isBlank_of (fun _ => isAsciiDigit_of_isBlank) hd
  rw [number_eq, List.mem_append] at h
  rcases h with h | h
  · exact not_isBlank_of (fun _ => isMantissa_of_isBlank)
      (List.all_eq_true.1 List.all_takeWhile c h)
  · by_cases hx : StartsExponent (cut isMantissa s).2
    · obtain ⟨e, sign, d, t, he, hs, hd, hr⟩ := hx
      rw [hr, exponent_of_starts he hs hd] at h
      simp only [List.mem_cons, List.mem_append] at h
      rcases h with rfl | h | h
      · rcases he with rfl | rfl <;> decide
      · rcases hs with rfl | rfl | rfl
        · cases h
        · rw [List.mem_singleton] at h; subst h; decide
        · rw [List.mem_singleton] at h; subst h; decide
      · exact hdigit (List.all_eq_true.1 List.all_takeWhile c h)
    · rw [exponent_of_not_starts hx] at h
      cases h

theorem not_isBlank_of_punctuation {c : Char} (h : punctuation.contains c = true) :
    isBlank c = false := by
  have hall : punctuation.all (fun c => isBlank c == false) = true := by decide
  exact eq_of_beq (List.all_eq_true.1 hall c (List.contains_iff_mem.1 h))

theorem not_isBlank_of_operator {c d : Char} (h : operators.contains (c, d) = true) :
    isBlank c = false ∧ isBlank d = false := by
  rw [List.contains_iff_mem] at h
  simp only [operators, List.mem_cons, Prod.mk.injEq, List.not_mem_nil, or_false] at h
  rcases h with h | h | h | h | h | h <;> (rw [h.1, h.2]; decide)

/-- Names, numbers and punctuation hold no blank. -/
theorem Form.not_isBlank {a : Bool} {c : Char} {cs : List Char} {l : Cut} (h : Form a c cs l)
    (hk : l.kind = .ident ∨ l.kind = .number ∨ l.kind = .punct) {d : Char} (hd : d ∈ l.text) :
    isBlank d = false := by
  cases h with
  | lineComment | blockComment | str | path => simp at hk
  | ident hp hn =>
    apply not_isBlank_of fun _ => isNameRest_of_isBlank
    rcases List.mem_cons.1 hd with rfl | hd
    · exact isNameRest_of_isNameStart hn
    · exact List.all_eq_true.1 List.all_takeWhile d hd
  | number hp hn hs => exact not_isBlank_of_mem_number hd
  | operator hp hn hs hcs ho =>
    have hb := not_isBlank_of_operator ho
    simp only [List.mem_cons, List.not_mem_nil, or_false] at hd
    rcases hd with rfl | rfl
    · exact hb.1
    · exact hb.2
  | punct hp hn hs ho hq =>
    rw [List.mem_singleton] at hd
    subst hd
    exact not_isBlank_of_punctuation hq

/-- A character that begins neither a word nor anything with marks is punctuation. -/
theorem Form.punct_of_head {a : Bool} {c : Char} {cs : List Char} {l : Cut} (h : Form a c cs l)
    (hname : isNameStart c = false) (hdigit : isAsciiDigit c = false)
    (hmark : c ∉ ['/', '"', '<', '.']) : l.kind = .punct := by
  simp only [List.mem_cons, List.not_mem_nil, or_false, not_or] at hmark
  obtain ⟨hslash, hquote, hangle, hpoint⟩ := hmark
  cases h with
  | lineComment h => exact absurd h hslash
  | blockComment h => exact absurd h hslash
  | str h => exact absurd h hquote
  | path h => exact absurd h hangle
  | ident _ h =>
    rw [hname] at h
    cases h
  | number _ _ h => simp [startsNumber, hdigit, hpoint] at h
  | operator => rfl
  | punct => rfl

theorem pathRest_no_newline {s body rest : List Char} (h : pathRest s = some (body, rest)) :
    '\n' ∉ body := by
  fun_induction pathRest s generalizing body rest with
  | case1 cs => cases h; simp
  | case2 => simp at h
  | case3 c cs h1 hc ih =>
    obtain ⟨⟨b, r⟩, hb, he⟩ := Option.map_eq_some_iff.1 h
    cases he
    simp [Ne.symm hc, ih hb]
  | case4 => simp at h

theorem pathRest_getLast {s body rest : List Char} (h : pathRest s = some (body, rest)) :
    body.getLast? = some '>' := by
  fun_induction pathRest s generalizing body rest with
  | case1 cs => cases h; rfl
  | case2 => simp at h
  | case3 c cs h1 hc ih =>
    obtain ⟨⟨b, r⟩, hb, he⟩ := Option.map_eq_some_iff.1 h
    cases he
    simp [List.getLast?_cons, ih hb]
  | case4 => simp at h

theorem stringRest_getLast {s body rest : List Char} (h : stringRest s = some (body, rest)) :
    body.getLast? = some '"' := by
  fun_induction stringRest s generalizing body rest with
  | case1 c cs ih =>
    obtain ⟨⟨b, r⟩, hb, he⟩ := Option.map_eq_some_iff.1 h
    cases he
    simp [List.getLast?_cons, ih hb]
  | case2 cs => cases h; rfl
  | case3 => simp at h
  | case4 c cs _ _ hc ih =>
    obtain ⟨⟨b, r⟩, hb, he⟩ := Option.map_eq_some_iff.1 h
    cases he
    simp [List.getLast?_cons, ih hb]
  | case5 => simp at h

/-- A block comment ends with its closing mark. -/
theorem commentRest_eq {s body rest : List Char} (h : commentRest s = some (body, rest)) :
    ∃ inner, body = inner ++ ['*', '/'] := by
  fun_induction commentRest s generalizing body rest with
  | case1 cs => cases h; exact ⟨[], rfl⟩
  | case2 c cs _ ih =>
    obtain ⟨⟨b, r⟩, hb, he⟩ := Option.map_eq_some_iff.1 h
    cases he
    obtain ⟨inner, rfl⟩ := ih hb
    exact ⟨c :: inner, rfl⟩
  | case3 => simp at h

theorem commentRest_getLast {s body rest : List Char} (h : commentRest s = some (body, rest)) :
    body.getLast? = some '/' := by
  obtain ⟨inner, rfl⟩ := commentRest_eq h
  simp

/-- The marks that strings and comments are made with. -/
def Marked (k : Token.Kind) (text : List Char) : Prop :=
  match k with
  | .str => text.head? = some '"'
  | .lineComment => ∃ s, text = '/' :: '/' :: s
  | .blockComment => ∃ s, text = '/' :: '*' :: (s ++ ['*', '/'])
  | .ident | .number | .path | .punct => True

theorem Form.marked {a : Bool} {c : Char} {cs : List Char} {l : Cut} (h : Form a c cs l) :
    Marked l.kind l.text := by
  cases h with
  | lineComment hc hd =>
    obtain ⟨ds, rfl⟩ := List.head?_eq_some_iff.1 hd
    subst hc
    exact ⟨ds.takeWhile (· != '\n'), by simp⟩
  | blockComment hc hcs hb =>
    subst hc
    obtain ⟨inner, rfl⟩ := commentRest_eq hb
    exact ⟨inner, rfl⟩
  | str hc => subst hc; rfl
  | path | ident | number | operator | punct => trivial

/-- Every lexeme but a line comment ends with a character other than a blank. -/
theorem Form.getLast_not_isBlank {a : Bool} {c : Char} {cs : List Char} {l : Cut}
    (h : Form a c cs l) (hk : l.kind ≠ .lineComment) :
    ∀ d ∈ l.text.getLast?, isBlank d = false := by
  intro d hd
  have hends : ∀ {x : Char} {t : List Char}, t.getLast? = some x → isBlank x = false →
      d ∈ (c :: t).getLast? → isBlank d = false := by
    intro x t ht hx hd
    rw [List.getLast?_cons, ht] at hd
    cases hd
    exact hx
  cases h with
  | lineComment => simp at hk
  | blockComment hc hcs hb =>
    have hlast := commentRest_getLast hb
    exact hends (x := '/') (by rw [List.getLast?_cons, hlast]; rfl) (by decide) hd
  | str hc hb => exact hends (stringRest_getLast hb) (by decide) hd
  | path hc ha hb => exact hends (pathRest_getLast hb) (by decide) hd
  | ident hp hn => exact (Form.ident hp hn).not_isBlank (.inl rfl) (List.mem_of_getLast? hd)
  | number hp hn hs =>
    exact (Form.number hp hn hs).not_isBlank (.inr (.inl rfl)) (List.mem_of_getLast? hd)
  | operator hp hn hs hcs ho =>
    exact (Form.operator hp hn hs hcs ho).not_isBlank (.inr (.inr rfl)) (List.mem_of_getLast? hd)
  | punct hp hn hs ho hq =>
    exact (Form.punct hp hn hs ho hq).not_isBlank (.inr (.inr rfl)) (List.mem_of_getLast? hd)

/-- Only strings and block comments run over several lines. -/
theorem Form.no_newline {a : Bool} {c : Char} {cs : List Char} {l : Cut} (h : Form a c cs l)
    (hk : l.kind ≠ .str ∧ l.kind ≠ .blockComment) : '\n' ∉ l.text := by
  have hwords : l.kind = .ident ∨ l.kind = .number ∨ l.kind = .punct → '\n' ∉ l.text := by
    intro hk hm
    have := h.not_isBlank hk hm
    cases this
  cases h with
  | lineComment hc hcs =>
    intro hm
    have := List.all_eq_true.1 List.all_takeWhile _ hm
    simp at this
  | blockComment => simp at hk
  | str => simp at hk
  | path hc ha hb =>
    subst hc
    simp [pathRest_no_newline hb]
  | ident | number | operator | punct => exact hwords (by simp)

/-! ## Lexemes with a trimmed first line -/

/-- A string stays one when the blanks at the end of its first line go. An escape before them takes
the newline in place of the first of them. -/
theorem stringRest_trimLine {s body rest : List Char} (h : stringRest s = some (body, rest)) :
    stringRest (trimLine body) = some (trimLine body, []) := by
  have hself : ∀ {s b r : List Char}, stringRest s = some (b, r) → stringRest b = some (b, []) := by
    intro s b r hb
    simpa using stringRest_append_right hb []
  fun_induction stringRest s generalizing body rest with
  | case1 c cs ih =>
    obtain ⟨⟨b, r⟩, hb, he⟩ := Option.map_eq_some_iff.1 h
    cases he
    rw [trimLine_cons_of_not_blank (by decide)]
    by_cases hc : c = '\n'
    · subst hc
      simp [trimLine_newline, stringRest, hself hb]
    · rw [trimLine_cons hc]
      have hih := ih hb
      split
      · rename_i hd
        have hlast := stringRest_getLast hih
        cases ht : trimLine b with
        | nil => rw [ht] at hlast; cases hlast
        | cons d t =>
          have hdn : d = '\n' := by
            rw [ht] at hd
            exact hd.2
          subst hdn
          have hstep : stringRest ('\n' :: t) =
              (stringRest t).map fun p => ('\n' :: p.1, p.2) := by simp [stringRest]
          rw [ht, hstep] at hih
          obtain ⟨⟨b', r'⟩, hb', he⟩ := Option.map_eq_some_iff.1 hih
          cases he
          simp [stringRest, hb']
      · simp [stringRest, hih]
  | case2 cs => cases h; rfl
  | case3 => simp at h
  | case4 c cs h1 h2 hc ih =>
    obtain ⟨⟨b, r⟩, hb, he⟩ := Option.map_eq_some_iff.1 h
    cases he
    by_cases hn : c = '\n'
    · subst hn
      simp [trimLine_newline, stringRest, hself hb]
    · rw [trimLine_cons hn]
      split
      · exact ih hb
      · simp [stringRest, hc, ih hb]
  | case5 => simp at h

/-- A block comment stays one when the blanks at the end of its first line go. -/
theorem commentRest_trimLine {s body rest : List Char} (h : commentRest s = some (body, rest)) :
    commentRest (trimLine body) = some (trimLine body, []) := by
  fun_induction commentRest s generalizing body rest with
  | case1 cs => cases h; rfl
  | case2 c cs hn ih =>
    obtain ⟨⟨b, r⟩, hb, he⟩ := Option.map_eq_some_iff.1 h
    cases he
    have hself : commentRest b = some (b, []) := by simpa using commentRest_append_right hb []
    by_cases hc : c = '\n'
    · subst hc
      rw [trimLine_newline, commentRest_cons (by simp), hself]
      rfl
    · rw [trimLine_cons hc]
      split
      · exact ih hb
      · -- the star of a closing mark is followed by its slash in the old body as well
        rw [commentRest_cons, ih hb]
        · rfl
        · rintro rfl hhead
          rcases head_trimLine hhead with h' | h'
          · cases h'
          · obtain ⟨t, rfl⟩ := List.head?_eq_some_iff.1 h'
            exact hn (t ++ _) rfl (commentRest_append hb).symm
  | case3 => simp at h

/-- A lexeme with a trimmed first line is a lexeme again, cut off before the same texts. -/
theorem Form.trimLine {a : Bool} {c : Char} {cs : List Char} {l : Cut} (h : Form a c cs l)
    {rest' : List Char} (hf : Fits l.kind l.rest rest') :
    Form a c ((Text.trimLine l.text).tail ++ rest') ⟨l.kind, Text.trimLine l.text, rest'⟩ := by
  -- a lexeme of one line that ends with no blank is trimmed already
  have hsame : l.kind ≠ .str ∧ l.kind ≠ .blockComment → l.kind ≠ .lineComment →
      Text.trimLine l.text = l.text := by
    intro hk hl
    rw [trimLine_of_no_newline (h.no_newline hk)]
    exact trimEnd_eq_self_of_getLast (h.getLast_not_isBlank hl)
  have hrest := h.of_fits hf
  cases h with
  | lineComment hc hd =>
    obtain ⟨ds, rfl⟩ := List.head?_eq_some_iff.1 hd
    subst hc
    have hnl : '\n' ∉ ('/' :: '/' :: ds).takeWhile (· != '\n') :=
      (Form.lineComment (a := a) rfl rfl).no_newline (by simp)
    have htrim : Text.trimLine (('/' :: '/' :: ds).takeWhile (· != '\n')) =
        '/' :: '/' :: trimEnd (ds.takeWhile (· != '\n')) := by
      rw [trimLine_of_no_newline hnl]
      simp [trimEnd_cons_of_not_blank (show isBlank '/' = false by decide)]
    have hall : ∀ x ∈ '/' :: '/' :: trimEnd (ds.takeWhile (· != '\n')), (x != '\n') = true := by
      intro x hx
      rw [bne_iff_ne]
      rintro rfl
      rw [← htrim] at hx
      exact hnl (mem_trimLine_newline.1 hx)
    have hcut := cut_of_stops hall rest' (by simpa [Fits] using hf)
    have hform := form_lineComment a (trimEnd (ds.takeWhile (· != '\n')) ++ rest')
    simp only [cut, Prod.mk.injEq, List.cons_append] at hcut
    rw [hcut.1, hcut.2] at hform
    simp only [htrim]
    exact hform
  | @blockComment ds body rest hc hd hb =>
    subst hc hd
    have hbody := commentRest_append_right (commentRest_trimLine hb) rest'
    simp only [trimLine_cons_of_not_blank (show isBlank '/' = false by decide),
      trimLine_cons_of_not_blank (show isBlank '*' = false by decide)]
    exact .blockComment rfl rfl hbody
  | @str body rest hc hb =>
    subst hc
    have hbody := stringRest_append_right (stringRest_trimLine hb) rest'
    simp only [trimLine_cons_of_not_blank (show isBlank '"' = false by decide)]
    exact .str rfl hbody
  | path | ident | number | operator | punct =>
    rw [hsame (by simp) (by simp)]
    exact hrest

end Lexeme
end Scad
