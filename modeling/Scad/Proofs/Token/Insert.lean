import Scad.Proofs.Token.Gap

/-!
# Scad.Proofs.Token.Insert

Text put between two tokens of a source.

* `Token.shift`, `Token.regap`: a token at a later offset, and behind other blanks.
* `Reads.cut`: before a token the text can go on otherwise, and the tokens before it stay.
* `Reads.regap`: from a token on the text is read the same further behind, whatever blanks stand
  before it.
* `Token.lineComments`, `Reads.lineComments`: lines of comments are read as one token each.
-/

namespace Scad

open Text Lexeme

/-- The token `n` characters later. -/
def Token.shift (n : Nat) (t : Token) : Token := { t with start := t.start + n }

/-- The token `n` characters later, behind other blanks. -/
def Token.regap (n : Nat) (gap : List Char) (t : Token) : Token :=
  ⟨t.kind, t.start + n, gap, t.text⟩

@[simp] theorem Token.stop_shift (n : Nat) (t : Token) : (t.shift n).stop = t.stop + n :=
  Nat.add_right_comm t.start n t.text.length

/-- A text is read the same at any offset. -/
theorem Reads.shift {a : Bool} {offset : Nat} {s : List Char} {ts : List Token}
    (h : Reads a offset s ts) (n : Nat) : Reads a (offset + n) s (ts.map (Token.shift n)) := by
  induction h with
  | done hs => exact .done hs
  | @token a offset gap cs c t l ts hg hc hl ht _ ih =>
    refine .token hg hc hl ?_ (t.stop_shift n ▸ ih)
    rw [ht, Token.shift]
    simp only [Token.mk.injEq, and_true, true_and]
    omega

/-- From a token on the text is read the same with other blanks before it, `n` characters later. -/
theorem Reads.regap {a : Bool} {offset : Nat} {s : List Char} {t : Token} {ts : List Token}
    (h : Reads a offset s (t :: ts)) :
    ∃ body, s = t.gap ++ body ∧ ∀ {n offset' : Nat} {gap' : List Char},
      (∀ c ∈ gap', isBlank c = true) → offset' + gap'.length = t.start + n →
      Reads a offset' (gap' ++ body) (t.regap n gap' :: ts.map (Token.shift n)) := by
  cases h with
  | @token _ _ gap cs c _ l _ hg hc hl ht hrest =>
    subst ht
    refine ⟨c :: cs, rfl, fun {n offset' gap'} hg' hn => ?_⟩
    refine .token hg' hc hl ?_ ?_
    · rw [hn]
      rfl
    · have hlater := hrest.shift n
      rw [← Token.stop_shift] at hlater
      exact hlater

/-- Two texts begin with the same blank. -/
def SameBlank (s s' : List Char) : Prop :=
  ∃ c x y, isBlank c = true ∧ s = c :: x ∧ s' = c :: y

/-- No lexeme tells two texts apart that begin with the same blank, whatever comes before them. -/
theorem SameBlank.fits {s s' : List Char} (h : SameBlank s s') {k : Token.Kind} (before : List Char)
    (hline : k = .lineComment → ∀ c ∈ (before ++ s).head?, c = '\n') :
    Fits k (before ++ s) (before ++ s') := by
  obtain ⟨c, x, y, hc, rfl, rfl⟩ := h
  have hword : word (before ++ c :: y) <+: word (before ++ c :: x) := by
    have hempty : ∀ z, word (c :: z) = [] := word_cons_of_isBlank hc
    exact shorter_append ((hempty y).trans (hempty x).symm ▸ List.prefix_refl _)
  cases k with
  | lineComment =>
    intro d hd
    refine hline rfl d ?_
    cases before <;> simpa using hd
  | ident | number | punct => exact hword
  | str | path | blockComment => trivial

/-- The text before a token is read the same when it goes on otherwise. -/
theorem Reads.cut {a : Bool} {offset : Nat} {s : List Char} {ts us : List Token}
    (h : Reads a offset s (ts ++ us)) :
    ∃ later, s = Token.spell ts ++ later ∧
      Reads (ts.foldl Token.opensPath a) (offset + (Token.spell ts).length) later us ∧
      ∀ {later' : List Char} {us' : List Token},
        Reads (ts.foldl Token.opensPath a) (offset + (Token.spell ts).length) later' us' →
        (ts = [] ∨ SameBlank later later') →
        Reads a offset (Token.spell ts ++ later') (ts ++ us') := by
  induction ts generalizing a offset s with
  | nil => exact ⟨s, rfl, h, fun h' _ => h'⟩
  | cons t ts ih =>
    cases h with
    | @token _ _ gap cs c _ l _ hg hc hl ht hrest =>
      obtain ⟨later, hlater, hread, hother⟩ := ih hrest
      obtain ⟨body, htext, hcs⟩ := hl.text_eq
      have hstop : t.stop + (Token.spell ts).length =
          offset + (Token.spell (t :: ts)).length := by
        rw [Token.stop, Token.spell_cons, ht]
        simp only [List.length_append]
        omega
      have hspell : Token.spell (t :: ts) = gap ++ (c :: body ++ Token.spell ts) := by
        rw [Token.spell_cons, ht]
        simp only [htext]
      refine ⟨later, ?_, hstop ▸ hread, fun {later' us'} h' hsame => ?_⟩
      · rw [hspell, ← hcs, hlater]
        simp
      · have hblank := hsame.resolve_left (List.cons_ne_nil t ts)
        have hline : l.kind = .lineComment →
            ∀ d ∈ (Token.spell ts ++ later).head?, d = '\n' := by
          intro hk d hd
          rw [← hlater] at hd
          cases hl with
          | lineComment => simpa using dropWhile_stops _ _ d hd
          | blockComment | str | path | ident | number | operator | punct => cases hk
        have hform : Form a c (body ++ (Token.spell ts ++ later'))
            ⟨l.kind, l.text, Token.spell ts ++ later'⟩ := by
          have hfits : Fits l.kind l.rest (Token.spell ts ++ later') :=
            hlater ▸ hblank.fits (Token.spell ts) hline
          simpa [htext] using hl.of_fits hfits
        rw [hspell]
        have hnext := hother (hstop ▸ h') (.inr hblank)
        simpa using Reads.token hg hc hform ht hnext

/-! ## Lines of comments -/

namespace Token

/-- The tokens of comments that stand on lines of their own, each behind the blanks `pad`. The first
of them follows `gap`. -/
def lineComments (pad : List Char) (offset : Nat) (gap : List Char) :
    List (List Char) → List Token
  | [] => []
  | line :: lines =>
    ⟨.lineComment, offset + (gap ++ pad).length, gap ++ pad, '/' :: '/' :: line⟩ ::
      lineComments pad (offset + (gap ++ pad).length + ('/' :: '/' :: line).length) ['\n'] lines

/-- The text of lines of comments. -/
def commentLines (pad : List Char) (lines : List (List Char)) : List Char :=
  lines.flatMap fun line => pad ++ '/' :: '/' :: line ++ ['\n']

/-- What stands between the last of the comments and the next line. -/
def gapBelow (gap : List Char) (lines : List (List Char)) : List Char :=
  if lines.isEmpty then gap else ['\n']

theorem gapBelow_cons (gap line : List Char) (lines : List (List Char)) :
    gapBelow gap (line :: lines) = gapBelow ['\n'] lines := by
  cases lines <;> rfl

theorem spell_lineComments_cons (pad : List Char) (offset : Nat) (gap line : List Char)
    (lines : List (List Char)) :
    spell (lineComments pad offset gap (line :: lines)) =
      gap ++ pad ++ ('/' :: '/' :: line) ++ spell (lineComments pad
        (offset + (gap ++ pad).length + ('/' :: '/' :: line).length) ['\n'] lines) := by
  rw [lineComments, spell_cons, ← List.append_assoc]

theorem spell_lineComments (pad : List Char) (offset : Nat) (gap : List Char)
    (lines : List (List Char)) :
    spell (lineComments pad offset gap lines) ++ gapBelow gap lines =
      gap ++ commentLines pad lines := by
  induction lines generalizing offset gap with
  | nil => simp [lineComments, gapBelow, commentLines]
  | cons line lines ih =>
    rw [spell_lineComments_cons, gapBelow_cons, List.append_assoc, ih]
    simp [commentLines]

end Token

open Token in
/-- Each line is read as one comment, and the text below as it is without them. -/
theorem Reads.lineComments {a : Bool} {pad : List Char} (hpad : ∀ c ∈ pad, isBlank c = true)
    {lines : List (List Char)} (hlines : ∀ line ∈ lines, '\n' ∉ line) {offset : Nat}
    {gap rest : List Char} (hgap : ∀ c ∈ gap, isBlank c = true) {us : List Token}
    (h : Reads a (offset + (spell (lineComments pad offset gap lines)).length)
      (gapBelow gap lines ++ rest) us) :
    Reads a offset (gap ++ commentLines pad lines ++ rest)
      (Token.lineComments pad offset gap lines ++ us) := by
  induction lines generalizing offset gap with
  | nil => simpa [Token.lineComments, gapBelow, commentLines] using h
  | cons line lines ih =>
    rw [List.forall_mem_cons] at hlines
    rw [gapBelow_cons, spell_lineComments_cons, List.length_append, List.length_append,
      ← Nat.add_assoc, ← Nat.add_assoc] at h
    have hnewline : ∀ c ∈ ['\n'], isBlank c = true := List.forall_mem_singleton.2 rfl
    have hnext := ih hlines.2 hnewline h
    have hcut := cut_of_stops (p := (· != '\n')) (w := '/' :: '/' :: line)
      (bne_newline (by simpa using hlines.1)) ('\n' :: (commentLines pad lines ++ rest)) (by simp)
    have hform : Form a '/' ('/' :: (line ++ '\n' :: (commentLines pad lines ++ rest)))
        ⟨.lineComment, '/' :: '/' :: line, '\n' :: (commentLines pad lines ++ rest)⟩ := by
      have hline := form_lineComment a (line ++ '\n' :: (commentLines pad lines ++ rest))
      simp only [Lexeme.cut, Prod.mk.injEq, List.cons_append] at hcut
      rwa [hcut.1, hcut.2] at hline
    have hblank : ∀ c ∈ gap ++ pad, isBlank c = true := List.forall_mem_append.2 ⟨hgap, hpad⟩
    have hread := Reads.token hblank (by decide) hform rfl hnext
    simpa [commentLines, Token.lineComments] using hread

end Scad
