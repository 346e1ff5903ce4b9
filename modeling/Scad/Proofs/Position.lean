import Scad.Place

/-!
# Scad.Proofs.Position

The order of positions: by line, and on one line by column. Positions of offsets are in the order of
the offsets.
-/

namespace Scad
namespace Position

instance : LE Position :=
  ⟨fun p q => p.line < q.line ∨ p.line = q.line ∧ p.character ≤ q.character⟩

instance : LT Position :=
  ⟨fun p q => p.line < q.line ∨ p.line = q.line ∧ p.character < q.character⟩

theorem le_def {p q : Position} :
    p ≤ q ↔ p.line < q.line ∨ p.line = q.line ∧ p.character ≤ q.character := Iff.rfl

theorem lt_def {p q : Position} :
    p < q ↔ p.line < q.line ∨ p.line = q.line ∧ p.character < q.character := Iff.rfl

theorem units_pos (c : Char) : 0 < units c := by
  rw [units]
  split <;> omega

theorem advance_append (p : Position) (s t : List Char) :
    advance p (s ++ t) = advance (advance p s) t := by
  rw [advance, advance, advance, List.foldl_append]

theorem advance_newline (p : Position) (s : List Char) :
    advance p ('\n' :: s) = advance ⟨p.line + 1, 0⟩ s := rfl

theorem advance_char (p : Position) {c : Char} (hc : c ≠ '\n') (s : List Char) :
    advance p (c :: s) = advance ⟨p.line, p.character + units c⟩ s := by
  rw [advance, List.foldl_cons, if_neg hc, advance]

/-- Every character moves the position on. -/
theorem advance_bounds (p : Position) (s : List Char) :
    p.line < (advance p s).line ∨
      (advance p s).line = p.line ∧ p.character + s.length ≤ (advance p s).character := by
  induction s generalizing p with
  | nil => exact .inr ⟨rfl, Nat.le_refl _⟩
  | cons c s ih =>
    by_cases hc : c = '\n'
    · have hrest := ih ⟨p.line + 1, 0⟩
      rw [hc, advance_newline]
      simp only at hrest
      omega
    · have hrest := ih ⟨p.line, p.character + units c⟩
      have hunits := units_pos c
      rw [advance_char p hc]
      simp only [List.length_cons] at hrest ⊢
      omega

theorem ofOffset_add (text : List Char) (m k : Nat) :
    ofOffset text (m + k) = advance (ofOffset text m) ((text.drop m).take k) := by
  rw [ofOffset, ofOffset, ← advance_append, List.take_add]

theorem ofOffset_lt_ofOffset {text : List Char} {m n : Nat} (h : m < n) (hn : n ≤ text.length) :
    ofOffset text m < ofOffset text n := by
  obtain ⟨k, rfl⟩ := Nat.exists_eq_add_of_le (Nat.le_of_lt h)
  have hb := advance_bounds (ofOffset text m) ((text.drop m).take k)
  have hlen : ((text.drop m).take k).length = k := by
    rw [List.length_take, List.length_drop]
    omega
  rw [ofOffset_add, lt_def]
  omega

theorem ofOffset_le_ofOffset {text : List Char} {m n : Nat} (h : m ≤ n) (hn : n ≤ text.length) :
    ofOffset text m ≤ ofOffset text n := by
  rcases Nat.lt_or_eq_of_le h with h | rfl
  · have := ofOffset_lt_ofOffset h hn
    rw [lt_def] at this
    rw [le_def]
    omega
  · exact .inr ⟨rfl, Nat.le_refl _⟩

end Position
end Scad
