import Scad.Proofs.Layout.Format
import Scad.Proofs.Outline.Alike

/-!
# Scad.Proofs.Outline.Format

Standard layout keeps the structure of a source: its tokens but for blanks inside strings and
comments, and its outline but for offsets.

* `Layout.outline_reindent`: the outlines before and after are alike.
* `Layout.reindent_preserves_structure`: tokens and outline together.
-/

namespace Scad

open Text

/-- The text without its blanks. -/
def Text.inked (s : List Char) : List Char := s.filter fun c => !isBlank c

namespace Text

theorem inked_trimEnd (s : List Char) : inked (trimEnd s) = inked s := by
  induction s with
  | nil => rfl
  | cons c s ih =>
    rw [trimEnd_cons]
    split
    · rename_i h
      have hs : inked s = [] := by rw [← ih, h.2]; rfl
      simp only [inked] at hs ⊢
      simp [h.1, hs]
    · simp only [inked] at ih ⊢
      rw [List.filter_cons, List.filter_cons, ih]

theorem inked_trimLine (s : List Char) : inked (trimLine s) = inked s := by
  have hcut : inked s = inked (s.takeWhile (· != '\n')) ++ inked (s.dropWhile (· != '\n')) := by
    rw [inked, inked, inked, ← List.filter_append, List.takeWhile_append_dropWhile]
  rw [hcut, ← inked_trimEnd (s.takeWhile _), trimLine, inked, List.filter_append]
  rfl

end Text

/-- The token `u` is `t` but for blanks inside a string or a comment. -/
structure Token.SameInk (t u : Token) : Prop where
  kind : u.kind = t.kind
  text : t.kind = .ident ∨ t.kind = .number ∨ t.kind = .path ∨ t.kind = .punct → u.text = t.text
  inked : Text.inked u.text = Text.inked t.text

theorem Token.Alike.sameInk {t u : Token} (h : Token.Alike t u) : t.SameInk u := by
  refine ⟨h.kind, fun hk => ?_, ?_⟩
  · apply h.text
    · rcases hk with hk | hk | hk | hk <;> simp [Token.isComment, hk]
    · rcases hk with hk | hk | hk | hk <;> simp [hk]
  · rcases h.respaced.text with he | he
    · rw [he]
    · rw [he, inked_trimLine]

namespace Layout

/-- Standard layout keeps the outline but for offsets. -/
theorem outline_reindent {source : List Char} {ts : List Token} (h : tokenize source = .ok ts) :
    Outline.Alike (Outline.ofTokens source.length ts)
      (Outline.ofTokens (reindent source ts).length (relaid ts)) := by
  have hreads := tokenizeFrom_eq_ok_iff.1 h
  obtain ⟨tail, hs, hw⟩ := hreads.written
  have hw' := written_relaid hreads hs hw
  rw [hs, reindent_eq hw]
  exact (Outline.layouts_of_written (Token.aligned_relaid hw) hw hw').alike

/-- Standard layout preserves the structure of every source that can be read: it can be read again,
the tokens are the same but for blanks inside strings and comments, and the outline has the same
declarations, references and faults but for offsets. -/
theorem reindent_preserves_structure {source : List Char} {ts : List Token}
    (h : tokenize source = .ok ts) :
    ∃ ts', tokenize (reindent source ts) = .ok ts' ∧ List.Forall₂ Token.SameInk ts ts' ∧
      Declaration.bare (Outline.ofTokens (reindent source ts).length ts').declarations =
        Declaration.bare (Outline.ofTokens source.length ts).declarations ∧
      (Outline.ofTokens (reindent source ts).length ts').references.map Reference.path =
        (Outline.ofTokens source.length ts).references.map Reference.path ∧
      (Outline.ofTokens (reindent source ts).length ts').faults.map Fault.message =
        (Outline.ofTokens source.length ts).faults.map Fault.message := by
  obtain ⟨tail, hs, hw⟩ := written_of_tokenize h
  have halike := outline_reindent h
  refine ⟨relaid ts, tokenize_reindent h, ?_, halike.declarations, halike.references,
    halike.messages⟩
  exact (Token.aligned_relaid hw).alike.imp fun _ _ htu => htu.sameInk

/-- A reference, a documented variable that has no end and a stray bracket, loosely laid out. -/
def looseFile : List Char := "include <a>\n\n\n  // d  \nx=1\n ]".toList

/-- The tokens of `looseFile`. -/
def looseFileTokens : List Token :=
  [⟨.ident, 0, [], "include".toList⟩, ⟨.path, 8, [' '], "<a>".toList⟩,
    ⟨.lineComment, 16, "\n\n\n  ".toList, "// d  ".toList⟩, ⟨.ident, 23, ['\n'], ['x']⟩,
    ⟨.punct, 24, [], ['=']⟩, ⟨.number, 25, [], ['1']⟩, ⟨.punct, 28, ['\n', ' '], [']']⟩]

theorem reindent_preserves_looseFile :
    tokenize looseFile = .ok looseFileTokens ∧
      ∃ ts', tokenize (reindent looseFile looseFileTokens) = .ok ts' ∧
        List.Forall₂ Token.SameInk looseFileTokens ts' ∧
        Declaration.bare (Outline.ofTokens (reindent looseFile looseFileTokens).length
            ts').declarations =
          Declaration.bare (Outline.ofTokens looseFile.length looseFileTokens).declarations ∧
        (Outline.ofTokens (reindent looseFile looseFileTokens).length ts').references.map
            Reference.path =
          (Outline.ofTokens looseFile.length looseFileTokens).references.map Reference.path ∧
        (Outline.ofTokens (reindent looseFile looseFileTokens).length ts').faults.map
            Fault.message =
          (Outline.ofTokens looseFile.length looseFileTokens).faults.map Fault.message :=
  ⟨by decide +kernel, reindent_preserves_structure (by decide +kernel)⟩

end Layout
end Scad
