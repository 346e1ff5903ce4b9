/-!
# Scad.Table

Finite maps as lists of entries, the latest entry of a key first. `insert` and `erase` leave no
second entry of the key behind.
-/

namespace Scad

/-- A finite map from `κ` to `α`. -/
structure Table (κ α : Type) where
  entries : List (κ × α)
  deriving Repr

namespace Table

variable {κ α : Type} [DecidableEq κ]

/-- The map without entries. -/
def empty : Table κ α := ⟨[]⟩

/-- The value of a key. -/
def get? (t : Table κ α) (k : κ) : Option α := (t.entries.find? fun e => e.1 = k).map Prod.snd

/-- Whether a key has a value. -/
def contains (t : Table κ α) (k : κ) : Bool := (t.get? k).isSome

/-- The map without a key. -/
def erase (t : Table κ α) (k : κ) : Table κ α := ⟨t.entries.filter fun e => e.1 ≠ k⟩

/-- The map with a new value for a key. -/
def insert (t : Table κ α) (k : κ) (a : α) : Table κ α := ⟨(k, a) :: (t.erase k).entries⟩

/-- The keys with a value. -/
def keys (t : Table κ α) : List κ := t.entries.map Prod.fst

@[simp] theorem get?_insert_self (t : Table κ α) (k : κ) (a : α) :
    (t.insert k a).get? k = some a := by
  simp [insert, get?]

theorem get?_erase (t : Table κ α) (k j : κ) :
    (t.erase k).get? j = if j = k then none else t.get? j := by
  unfold erase get?
  split
  · subst j
    simp
  · rename_i h
    rw [List.find?_filter]
    congr 2
    funext e
    by_cases he : e.1 = j
    · subst he; simp [h]
    · simp [he]

theorem get?_insert_of_ne (t : Table κ α) {k j : κ} (a : α) (h : j ≠ k) :
    (t.insert k a).get? j = t.get? j := by
  have hk : ¬ k = j := fun e => h e.symm
  have he := get?_erase t k j
  rw [if_neg h] at he
  simp only [insert, get?, List.find?_cons, hk, decide_false] at he ⊢
  exact he

end Table
end Scad
