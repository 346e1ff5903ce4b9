import Scad.Proofs.Position.Inverse
import Scad.Protocol.Diagnostic

/-!
# Scad.Proofs.Diagnostic

Marks lead back to the problems they stand for. A cursor at the end of a text means its last
character, so a problem at the end of the text is the one exception.

* `Diagnostic.start_leads_back`: the offset found from the beginning of a mark is that of its
  problem, or, for a problem at the end of the text, the one just before it.
* `Diagnostic.unended_leads_astray`: a text whose only problem is at its end.
-/

namespace Scad

theorem Analysis.offset_le_length {file : FilePath} {text : List Char} {e : Problem}
    (h : e ∈ (Analysis.ofText file text).problems) : e.place.offset ≤ text.length := by
  unfold Analysis.ofText at h
  dsimp only at h
  split at h
  · obtain ⟨f, -, rfl⟩ := List.mem_map.1 h
    exact Nat.min_le_right f.offset text.length
  · obtain rfl := List.mem_singleton.1 h
    exact Nat.min_le_right _ text.length

/-- The empty text has no problems. -/
theorem Analysis.text_ne_nil {file : FilePath} {text : List Char} {e : Problem}
    (h : e ∈ (Analysis.ofText file text).problems) : text ≠ [] := by
  rintro rfl
  have htokens : tokenize [] = .ok [] := by simp [tokenize, tokenizeFrom]
  have hnone : (Analysis.ofText file []).problems = [] := by
    simp [Analysis.ofText, htokens, Outline.ofTokens, Leaf.ofTokens, Leaf.ofTokensFrom,
      Item.ofLeaves, Bracket.faults, Bracket.faultsFrom]
  rw [hnone] at h
  cases h

namespace Diagnostic

/-- A problem before the end of a text is found again from its mark; one at the end leads to the
last character. -/
theorem start_leads_back (file : FilePath) (text : List Char) (version : Int) (e : Problem)
    (he : e ∈ (Analysis.ofText file text).problems) :
    (e.place.offset < text.length ∧
      Document.offsetAt ⟨text, version⟩ (ofProblem ⟨text, version⟩ e).range.start =
        e.place.offset) ∨
    (e.place.offset = text.length ∧
      Document.offsetAt ⟨text, version⟩ (ofProblem ⟨text, version⟩ e).range.start + 1 =
        e.place.offset) := by
  have hback : Document.offsetAt ⟨text, version⟩ (ofProblem ⟨text, version⟩ e).range.start =
      Position.offset text (Position.ofOffset text e.place.offset) := rfl
  rw [hback]
  rcases Nat.lt_or_eq_of_le (Analysis.offset_le_length he) with hlt | heq
  · exact .inl ⟨hlt, Position.offset_ofOffset hlt⟩
  · have hpos := List.length_pos_iff.2 (Analysis.text_ne_nil he)
    refine .inr ⟨heq, ?_⟩
    rw [heq, Position.offset_ofOffset_length]
    omega

/-- An assignment without its semicolon. -/
def unended : Document := ⟨"x=1".toList, 0⟩

/-- An open bracket after an empty line. -/
def unclosed : Document := ⟨"\n(".toList, 0⟩

/-- The problem of `unclosed`. -/
def unclosedBracket : Problem := ⟨⟨⟨[]⟩, 1, ⟨1, 0⟩⟩, "Unclosed '('"⟩

/-- The problem of `unended`. -/
def missingSemicolon : Problem := ⟨⟨⟨[]⟩, 3, ⟨0, 3⟩⟩, "Expected ';'"⟩

theorem start_leads_back_unclosed :
    unclosedBracket ∈ (Analysis.ofText ⟨[]⟩ unclosed.text).problems ∧
      unclosed.offsetAt (ofProblem unclosed unclosedBracket).range.start = 1 := by
  have hmem : unclosedBracket ∈ (Analysis.ofText ⟨[]⟩ unclosed.text).problems := by decide +kernel
  obtain ⟨-, hback⟩ | ⟨hend, -⟩ := start_leads_back ⟨[]⟩ unclosed.text 0 unclosedBracket hmem
  · exact ⟨hmem, hback⟩
  · exact absurd hend (by decide)

/-- The missing semicolon is reported at the end of the text, and its mark leads to the character
before. -/
theorem unended_leads_astray :
    missingSemicolon ∈ (Analysis.ofText ⟨[]⟩ unended.text).problems ∧
      missingSemicolon.place.offset = 3 ∧
      (ofProblem unended missingSemicolon).range.start = ⟨0, 3⟩ ∧
      unended.offsetAt (ofProblem unended missingSemicolon).range.start = 2 := by
  decide +kernel

end Diagnostic
end Scad
