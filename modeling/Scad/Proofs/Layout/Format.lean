import Scad.Proofs.Layout.Render

/-!
# Scad.Proofs.Layout.Format

Standard layout as a map from sources to sources.

* `tokenize_reindent`: the tokens of the result are those of the source in standard layout.
* `reindent_relaid`: the result is in standard layout.
-/

namespace Scad
namespace Layout

/-- A source that can be read is the text of its tokens and the blanks after them. -/
theorem written_of_tokenize {source : List Char} {ts : List Token} (h : tokenize source = .ok ts) :
    ∃ tail, source = Token.spell ts ++ tail ∧ Written 0 tail ts :=
  (tokenizeFrom_eq_ok_iff.1 h).written

theorem written_relaid {a : Bool} {s tail : List Char} {ts : List Token} (h : Reads a 0 s ts)
    (hs : s = Token.spell ts ++ tail) (hw : Written 0 tail ts) :
    Written 0 (ending tail ts) (relaid ts) := by
  obtain ⟨tail', hs', hw'⟩ := (h.relaid hs hw).written
  rw [List.append_cancel_left hs']
  exact hw'

/-- Standard layout keeps the tokens. -/
theorem tokenize_reindent {source : List Char} {ts : List Token} (h : tokenize source = .ok ts) :
    tokenize (reindent source ts) = .ok (relaid ts) := by
  have hreads := tokenizeFrom_eq_ok_iff.1 h
  obtain ⟨tail, hs, hw⟩ := hreads.written
  rw [hs, reindent_eq hw]
  exact tokenizeFrom_eq_ok_iff.2 (hreads.relaid hs hw)

/-- A source in standard layout stays as it is. -/
theorem reindent_relaid {source : List Char} {ts : List Token} (h : tokenize source = .ok ts) :
    reindent (reindent source ts) (relaid ts) = reindent source ts := by
  have hreads := tokenizeFrom_eq_ok_iff.1 h
  obtain ⟨tail, hs, hw⟩ := hreads.written
  rw [hs, reindent_eq hw, reindent_eq (written_relaid hreads hs hw), relaid_relaid hw,
    ending_relaid hw]

end Layout
end Scad
